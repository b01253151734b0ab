import BackupPlan.Job.Basic
import BackupPlan.Reading.Record
import BackupPlan.Reading.Values

/-!
# Reading declared jobs

The fields of jobs, defaults and configurations, the names they go by, and how
a record is put together from those that are given.  Some fields of a job have a
second name; giving a field under both counts as giving it twice.
-/

namespace BackupPlan

open Reading

/-- The words for the state of a script. -/
def Ensure.choices : Choices Ensure where
  words := [("present", .present), ("absent", .absent)]
  ranked := [.present, .absent]

/-- The words for a provider. -/
def Provider.choices : Choices Provider where
  words := [("s3", .s3), ("cf", .cloudFiles), ("cloudfiles", .cloudFiles)]
  ranked := [.s3, .cloudFiles]

/-- The fields of a job. -/
inductive JobField where
  | title | ensure | directories | bucket | destId | destKey | provider | target | sshIdentity
  | pubkeyIds | fullIfOlderThan | removeOlderThan | preCommand | hostIdentifier | scriptPath
  deriving DecidableEq

namespace JobField

/-- The fields in the order of their declaration. -/
def order : List JobField :=
  [title, ensure, directories, bucket, destId, destKey, provider, target, sshIdentity,
    pubkeyIds, fullIfOlderThan, removeOlderThan, preCommand, hostIdentifier, scriptPath]

/-- The name of a field. -/
def name : JobField → String
  | title => "title"
  | ensure => "ensure"
  | directories => "directories"
  | bucket => "bucket"
  | destId => "dest_id"
  | destKey => "dest_key"
  | provider => "cloud_provider"
  | target => "target"
  | sshIdentity => "ssh_identity"
  | pubkeyIds => "pubkey_ids"
  | fullIfOlderThan => "full_if_older_than"
  | removeOlderThan => "remove_older_than"
  | preCommand => "pre_command"
  | hostIdentifier => "host_identifier"
  | scriptPath => "script_path"

/-- Every name of every field. -/
def names : List (String × JobField) :=
  [ ("title", title), ("ensure", ensure), ("directories", directories), ("directory", directories),
    ("bucket", bucket), ("dest_id", destId), ("dest_key", destKey), ("cloud", provider),
    ("cloud_provider", provider), ("target", target), ("ssh_id", sshIdentity),
    ("ssh_identity", sshIdentity), ("pubkey_id", pubkeyIds), ("pubkey_ids", pubkeyIds),
    ("full_if_older_than", fullIfOlderThan), ("remove_older_than", removeOlderThan),
    ("pre_command", preCommand), ("host_identifier", hostIdentifier), ("script_path", scriptPath),
    ("spoolfile", scriptPath) ]

/-- The type of the values of a field. -/
def Value : JobField → Type
  | title | fullIfOlderThan => String
  | ensure => Ensure
  | directories => List UnixPath
  | bucket | destId => Setting String
  | destKey => Setting Secret
  | provider => Setting Provider
  | target | removeOlderThan | preCommand | hostIdentifier => Option String
  | sshIdentity | scriptPath => Option UnixPath
  | pubkeyIds => List String

/-- Whether a list of the fields may end before the field. -/
def isOptional : JobField → Bool
  | ensure | directories | bucket | destId | destKey | provider | pubkeyIds
  | fullIfOlderThan => true
  | _ => false

/-- Reads the value of a field. -/
def read {ν : Type} [Datum ν] : (f : JobField) → ν → Read f.Value
  | title => Reading.text
  | ensure => choice Ensure.choices
  | directories => oneOrMany path
  | bucket => setting Reading.text
  | destId => setting Reading.text
  | destKey => setting secret
  | provider => setting (choice Provider.choices)
  | target => Reading.optional Reading.text
  | sshIdentity => Reading.optional path
  | pubkeyIds => oneOrMany Reading.text
  | fullIfOlderThan => Reading.text
  | removeOlderThan => Reading.optional Reading.text
  | preCommand => Reading.optional Reading.text
  | hostIdentifier => Reading.optional Reading.text
  | scriptPath => Reading.optional path

end JobField

/-- The fields of a job, as they are read. -/
def JobSpec.schema : Schema where
  label := "struct JobDescriptor"
  Field := JobField
  fieldDecEq := inferInstance
  Value := JobField.Value
  name := JobField.name
  order := JobField.order
  names := JobField.names
  isOptional := JobField.isOptional

/-- Puts a job together; only the title must be given. -/
def JobSpec.assemble (get : (f : JobField) → Option f.Value) : Except Problem JobSpec := do
  let some (title : String) := get .title | .error (.missingField JobField.title.name)
  pure {
    title
    ensure := (get .ensure).getD .present
    directories := (get .directories).getD []
    bucket := (get .bucket).getD .unset
    destId := (get .destId).getD .unset
    destKey := (get .destKey).getD .unset
    provider := (get .provider).getD .unset
    target := (get .target).join
    sshIdentity := (get .sshIdentity).join
    pubkeyIds := (get .pubkeyIds).getD []
    fullIfOlderThan := (get .fullIfOlderThan).getD "30D"
    removeOlderThan := (get .removeOlderThan).join
    preCommand := (get .preCommand).join
    hostIdentifier := (get .hostIdentifier).join
    scriptPath := (get .scriptPath).join }

/-- Reads a job. -/
def JobSpec.read {ν : Type} [Datum ν] (value : ν) : Read JobSpec :=
  JobSpec.schema.read JobField.read JobSpec.assemble value

/-- The fields of the defaults. -/
inductive DefaultsField where
  | bucket | destId | destKey | hostIdentifier | keyserver | spoolDir
  deriving DecidableEq

namespace DefaultsField

/-- The fields in the order of their declaration. -/
def order : List DefaultsField :=
  [bucket, destId, destKey, hostIdentifier, keyserver, spoolDir]

/-- The name of a field. -/
def name : DefaultsField → String
  | bucket => "bucket"
  | destId => "dest_id"
  | destKey => "dest_key"
  | hostIdentifier => "host_identifier"
  | keyserver => "keyserver"
  | spoolDir => "spool_dir"

/-- The type of the values of a field. -/
def Value : DefaultsField → Type
  | bucket | destId | hostIdentifier => Option String
  | destKey => Option Secret
  | keyserver => String
  | spoolDir => UnixPath

/-- Whether a list of the fields may end before the field. -/
def isOptional : DefaultsField → Bool
  | keyserver | spoolDir => true
  | _ => false

/-- Reads the value of a field. -/
def read {ν : Type} [Datum ν] : (f : DefaultsField) → ν → Read f.Value
  | bucket => Reading.optional Reading.text
  | destId => Reading.optional Reading.text
  | destKey => Reading.optional secret
  | hostIdentifier => Reading.optional Reading.text
  | keyserver => Reading.text
  | spoolDir => path

end DefaultsField

/-- The fields of the defaults, as they are read. -/
def Defaults.schema : Schema where
  label := "struct EffectiveDefaults"
  Field := DefaultsField
  fieldDecEq := inferInstance
  Value := DefaultsField.Value
  name := DefaultsField.name
  order := DefaultsField.order
  names := DefaultsField.order.map fun f => (f.name, f)
  isOptional := DefaultsField.isOptional

/-- Puts the defaults together; every field may be left out. -/
def Defaults.assemble (get : (f : DefaultsField) → Option f.Value) : Except Problem Defaults :=
  let none : Defaults := {}
  .ok {
    bucket := (get .bucket).join
    destId := (get .destId).join
    destKey := (get .destKey).join
    hostIdentifier := (get .hostIdentifier).join
    keyserver := (get .keyserver).getD none.keyserver
    spoolDir := (get .spoolDir).getD none.spoolDir }

/-- Reads the defaults. -/
def Defaults.read {ν : Type} [Datum ν] (value : ν) : Read Defaults :=
  Defaults.schema.read DefaultsField.read Defaults.assemble value

/-- The fields of a configuration. -/
inductive ConfigField where
  | defaults | jobs
  deriving DecidableEq

namespace ConfigField

/-- The fields in the order of their declaration. -/
def order : List ConfigField :=
  [defaults, jobs]

/-- The name of a field. -/
def name : ConfigField → String
  | defaults => "defaults"
  | jobs => "jobs"

/-- The type of the values of a field. -/
def Value : ConfigField → Type
  | defaults => Defaults
  | jobs => List JobSpec

/-- Reads the value of a field. -/
def read {ν : Type} [Datum ν] : (f : ConfigField) → ν → Read f.Value
  | defaults => Defaults.read
  | jobs => Reading.list JobSpec.read

end ConfigField

/-- The fields of a configuration, as they are read. -/
def Config.schema : Schema where
  label := "struct CompilerConfig"
  Field := ConfigField
  fieldDecEq := inferInstance
  Value := ConfigField.Value
  name := ConfigField.name
  order := ConfigField.order
  names := ConfigField.order.map fun f => (f.name, f)
  isOptional _ := true

/-- Puts a configuration together; both fields may be left out. -/
def Config.assemble (get : (f : ConfigField) → Option f.Value) : Except Problem Config :=
  .ok { defaults := (get .defaults).getD ({} : Defaults), jobs := (get .jobs).getD [] }

/-- Reads a configuration. -/
def Config.read {ν : Type} [Datum ν] (value : ν) : Read Config :=
  Config.schema.read ConfigField.read Config.assemble value

end BackupPlan
