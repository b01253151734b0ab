import BackupPlan.Job.Basic
import BackupPlan.Json.Basic

/-!
# Writing declared jobs

A record is written as an object of its fields, in the order of their
declaration, without those that are left out.  A list of one item is written as
the item.  Secrets are written redacted, and a path that is no text cannot be
written at all.
-/

namespace BackupPlan

/-- A path as JSON, if it is a text. -/
def UnixPath.toJson? (path : UnixPath) : Option Json :=
  path.toText?.map .text

/-- A secret as JSON shows it. -/
def Secret.toJson (_ : Secret) : Json :=
  .text redacted

/-- A provider as JSON. -/
def Provider.toJson (provider : Provider) : Json :=
  .text provider.word

/-- A setting as JSON. -/
def Setting.toJson {α : Type} (inner : α → Json) : Setting α → Json
  | unset => .null
  | disabled => .bool false
  | value a => inner a

/-- A list as JSON, or its item if it has only one. -/
def oneOrManyToJson : List Json → Json
  | [one] => one
  | many => .list many

/-- A member that is written only if there is a value. -/
def optionalMember (name : String) (value : Option Json) : List (String × Json) :=
  value.toList.map fun json => (name, json)

/-- A member that is written unless the setting is left out. -/
def settingMember {α : Type} (name : String) (inner : α → Json) (value : Setting α) :
    List (String × Json) :=
  if value.isUnset then [] else [(name, value.toJson inner)]

/-- A job as JSON, if its paths are texts. -/
def JobSpec.toJson? (job : JobSpec) : Option Json := do
  let directories ← job.directories.mapM UnixPath.toJson?
  let sshIdentity ← job.sshIdentity.mapM UnixPath.toJson?
  let scriptPath ← job.scriptPath.mapM UnixPath.toJson?
  pure <| .object <|
    [("title", .text job.title), ("ensure", .text job.ensure.word),
      ("directories", oneOrManyToJson directories)] ++
    settingMember "bucket" .text job.bucket ++
    settingMember "dest_id" .text job.destId ++
    settingMember "dest_key" Secret.toJson job.destKey ++
    settingMember "cloud_provider" Provider.toJson job.provider ++
    optionalMember "target" (job.target.map .text) ++
    optionalMember "ssh_identity" sshIdentity ++
    [("pubkey_ids", oneOrManyToJson (job.pubkeyIds.map .text)),
      ("full_if_older_than", .text job.fullIfOlderThan)] ++
    optionalMember "remove_older_than" (job.removeOlderThan.map .text) ++
    optionalMember "pre_command" (job.preCommand.map .text) ++
    optionalMember "host_identifier" (job.hostIdentifier.map .text) ++
    optionalMember "script_path" scriptPath

/-- The defaults as JSON, if the directory of the scripts is a text. -/
def Defaults.toJson? (defaults : Defaults) : Option Json := do
  let spoolDir ← defaults.spoolDir.toJson?
  pure <| .object <|
    optionalMember "bucket" (defaults.bucket.map .text) ++
    optionalMember "dest_id" (defaults.destId.map .text) ++
    optionalMember "dest_key" (defaults.destKey.map Secret.toJson) ++
    optionalMember "host_identifier" (defaults.hostIdentifier.map .text) ++
    [("keyserver", .text defaults.keyserver), ("spool_dir", spoolDir)]

/-- A configuration as JSON, if its paths are texts. -/
def Config.toJson? (config : Config) : Option Json := do
  let defaults ← config.defaults.toJson?
  let jobs ← config.jobs.mapM JobSpec.toJson?
  pure (.object [("defaults", defaults), ("jobs", .list jobs)])

end BackupPlan
