import BackupPlan.Job.Source
import BackupPlan.Proofs.KeySecrecy
import BackupPlan.Proofs.Reading.Values
import BackupPlan.Proofs.Reading.Writing

/-!
# Written records read back

Jobs, defaults and configurations are written as objects that leave out what is not
given, show a list of one item as the item, and hide the key.  A job may also be
written as the list of all its fields.  What is written reads back as it was, but
for the key, of which only the mark is left that hides it; and there is one thing
that cannot be written, a path that is no text.

* `JobSpec.toJson?_eq_object?`, `Defaults.toJson?_eq_object?`,
  `Config.toJson?_eq_object?` — the objects show the fields one by one;
* `JobSpec.lawful_writing`, `Defaults.lawful_writing`, `Config.lawful_writing` — they leave
  out nothing but what reading supplies;
* `written_records_read_back` — the round trip.
-/

namespace BackupPlan

open Reading

/-! ### Jobs, field by field -/

namespace JobField

/-- The value of a field of a job. -/
def get (job : JobSpec) : (f : JobField) → f.Value
  | title => job.title
  | ensure => job.ensure
  | directories => job.directories
  | bucket => job.bucket
  | destId => job.destId
  | destKey => job.destKey
  | provider => job.provider
  | target => job.target
  | sshIdentity => job.sshIdentity
  | pubkeyIds => job.pubkeyIds
  | fullIfOlderThan => job.fullIfOlderThan
  | removeOlderThan => job.removeOlderThan
  | preCommand => job.preCommand
  | hostIdentifier => job.hostIdentifier
  | scriptPath => job.scriptPath

/-- The value of a field as JSON, `null` where it is left out. -/
def toJson? : (f : JobField) → f.Value → Option Json
  | title, (text : String) | fullIfOlderThan, text => some (.text text)
  | ensure, (state : Ensure) => some (.text state.word)
  | directories, (paths : List UnixPath) => (paths.mapM UnixPath.toJson?).map oneOrManyToJson
  | bucket, (setting : Setting String) | destId, setting => some (setting.toJson .text)
  | destKey, (setting : Setting Secret) => some (setting.toJson Secret.toJson)
  | provider, (setting : Setting Provider) => some (setting.toJson Provider.toJson)
  | target, (given : Option String) | removeOlderThan, given | preCommand, given
  | hostIdentifier, given => some ((given.map .text).getD .null)
  | sshIdentity, (given : Option UnixPath) | scriptPath, given =>
    (given.mapM UnixPath.toJson?).map fun json => json.getD .null
  | pubkeyIds, (ids : List String) => some (oneOrManyToJson (ids.map .text))

/-- Whether an object shows the value of a field. -/
def isShown : (f : JobField) → f.Value → Bool
  | bucket, (setting : Setting String) | destId, setting => !setting.isUnset
  | destKey, (setting : Setting Secret) => !setting.isUnset
  | provider, (setting : Setting Provider) => !setting.isUnset
  | target, (given : Option String) | removeOlderThan, given | preCommand, given
  | hostIdentifier, given => given.isSome
  | sshIdentity, (given : Option UnixPath) | scriptPath, given => given.isSome
  | title, _ | ensure, _ | directories, _ | pubkeyIds, _ | fullIfOlderThan, _ => true

/-- The value of a field that is not given; the title must be. -/
def default? : (f : JobField) → Option f.Value
  | title => none
  | ensure => some Ensure.present
  | directories => some ([] : List UnixPath)
  | bucket | destId => some (.unset : Setting String)
  | destKey => some (.unset : Setting Secret)
  | provider => some (.unset : Setting Provider)
  | target | removeOlderThan | preCommand | hostIdentifier => some (none : Option String)
  | sshIdentity | scriptPath => some (none : Option UnixPath)
  | pubkeyIds => some ([] : List String)
  | fullIfOlderThan => some "30D"

theorem mem_order (f : JobField) : f ∈ order := by
  cases f <;> decide

/-- A field that an object does not show has the value that reading supplies. -/
theorem eq_of_isShown_eq_false {f : JobField} {v : f.Value} (h : f.isShown v = false) :
    f.default? = some v ∧ f.toJson? v = some .null := by
  have hunset : ∀ {α : Type} {setting : Setting α}, (!setting.isUnset) = false →
      setting = .unset := by
    intro α setting hsetting
    cases setting <;> first | rfl | cases hsetting
  cases f with
  | title | ensure | directories | pubkeyIds | fullIfOlderThan => cases h
  | bucket | destId | destKey | provider =>
      obtain rfl := hunset h
      exact ⟨rfl, rfl⟩
  | target | sshIdentity | removeOlderThan | preCommand | hostIdentifier | scriptPath =>
      obtain rfl := Option.isNone_iff_eq_none.mp (Option.isSome_eq_false_iff.mp h)
      exact ⟨rfl, rfl⟩

end JobField

/-- A job is assembled from values that are its own, or its defaults where they are left out. -/
theorem JobSpec.assemble_eq_ok {job : JobSpec} {get : (f : JobField) → Option f.Value}
    (h : ∀ f, (get f).or f.default? = some (f.get job)) : JobSpec.assemble get = .ok job := by
  have htitle : get .title = some job.title := by
    have hgiven := h .title
    rwa [JobField.default?, Option.or_none] at hgiven
  simp only [JobSpec.assemble, htitle,
    getD_of_or_eq_some (h .ensure), getD_of_or_eq_some (h .directories),
    getD_of_or_eq_some (h .bucket), getD_of_or_eq_some (h .destId),
    getD_of_or_eq_some (h .destKey), getD_of_or_eq_some (h .provider),
    join_of_or_eq_some (h .target), join_of_or_eq_some (h .sshIdentity),
    getD_of_or_eq_some (h .pubkeyIds), getD_of_or_eq_some (h .fullIfOlderThan),
    join_of_or_eq_some (h .removeOlderThan), join_of_or_eq_some (h .preCommand),
    join_of_or_eq_some (h .hostIdentifier), join_of_or_eq_some (h .scriptPath)]
  rfl

/-- How jobs are written. -/
def JobSpec.writing : JobSpec.schema.Writing JobSpec where
  get := JobField.get
  toJson? := JobField.toJson?
  isShown := JobField.isShown
  default? := JobField.default?

/-- The writing of jobs is lawful: what it leaves out is what assembling fills in. -/
theorem JobSpec.lawful_writing : JobSpec.writing.Lawful JobSpec.assemble where
  nodup_order := by decide
  mem_order := JobField.mem_order
  fieldOf_name f := by cases f <;> rfl
  toJson?_of_hidden f v h := (JobField.eq_of_isShown_eq_false h).2
  default?_of_hidden f v h := (JobField.eq_of_isShown_eq_false h).1
  assemble_eq_ok job get h := JobSpec.assemble_eq_ok h

/-- What is written of a field reads back, if the key is hidden already. -/
theorem JobField.read_toJson? {job : JobSpec} {f : JobField} {json : Json}
    (hkey : ∀ key, job.destKey = .value key → key = ⟨Secret.redacted⟩)
    (h : f.toJson? (f.get job) = some json) : f.read json.sorted = .ok (f.get job) := by
  cases f with
  | title | fullIfOlderThan =>
      cases h
      rfl
  | ensure =>
      cases h
      show choice Ensure.choices (Json.text job.ensure.word).sorted = .ok job.ensure
      cases job.ensure <;> rfl
  | directories =>
      obtain ⟨items, hitems, rfl⟩ := Option.map_eq_some_iff.mp h
      exact oneOrMany_path hitems
  | bucket | destId =>
      cases h
      exact setting_of_texts fun _ _ => rfl
  | destKey =>
      -- The mark is what is written of any key, so it reads back if it is the key.
      cases h
      refine setting_of_texts fun key hgiven => ?_
      rw [hkey key hgiven]
      rfl
  | provider =>
      cases h
      refine setting_of_texts fun provider _ => ?_
      cases provider <;> rfl
  | target | removeOlderThan | preCommand | hostIdentifier =>
      cases h
      exact optional_text _
  | sshIdentity | scriptPath =>
      obtain ⟨found, hfound, rfl⟩ := Option.map_eq_some_iff.mp h
      exact optional_path hfound
  | pubkeyIds =>
      cases h
      exact oneOrMany_text _

/-- **The object of a job** shows its fields one by one. -/
theorem JobSpec.toJson?_eq_object? (job : JobSpec) : job.toJson? = JobSpec.writing.object? job := by
  -- What the object shows of each field, in their order.
  let shown (f : JobField) := JobSpec.writing.members? job f
  have htitle : shown .title = some [("title", .text job.title)] := rfl
  have hensure : shown .ensure = some [("ensure", .text job.ensure.word)] := rfl
  have hdirectories : shown .directories = (job.directories.mapM UnixPath.toJson?).map
      fun items => [("directories", oneOrManyToJson items)] := Option.map_map ..
  have hbucket : shown .bucket = some (settingMember "bucket" .text job.bucket) :=
    members_setting job.bucket
  have hid : shown .destId = some (settingMember "dest_id" .text job.destId) :=
    members_setting job.destId
  have hkey : shown .destKey = some (settingMember "dest_key" Secret.toJson job.destKey) :=
    members_setting job.destKey
  have hprovider :
      shown .provider = some (settingMember "cloud_provider" Provider.toJson job.provider) :=
    members_setting job.provider
  have htarget : shown .target = some (optionalMember "target" (job.target.map .text)) :=
    members_optional job.target
  have hidentity : shown .sshIdentity =
      (job.sshIdentity.mapM UnixPath.toJson?).map (optionalMember "ssh_identity") :=
    members_path job.sshIdentity
  have hids : shown .pubkeyIds =
      some [("pubkey_ids", oneOrManyToJson (job.pubkeyIds.map .text))] := rfl
  have hfull : shown .fullIfOlderThan = some [("full_if_older_than", .text job.fullIfOlderThan)] :=
    rfl
  have hremove : shown .removeOlderThan =
      some (optionalMember "remove_older_than" (job.removeOlderThan.map .text)) :=
    members_optional job.removeOlderThan
  have hcommand : shown .preCommand =
      some (optionalMember "pre_command" (job.preCommand.map .text)) :=
    members_optional job.preCommand
  have hhost : shown .hostIdentifier =
      some (optionalMember "host_identifier" (job.hostIdentifier.map .text)) :=
    members_optional job.hostIdentifier
  have hscript : shown .scriptPath =
      (job.scriptPath.mapM UnixPath.toJson?).map (optionalMember "script_path") :=
    members_path job.scriptPath
  have hobject : JobSpec.writing.object? job =
      (JobField.order.mapM shown).map fun parts => .object parts.flatten :=
    JobSpec.writing.object?_eq_flatten job
  rw [hobject, JobSpec.toJson?]
  simp only [JobField.order, List.mapM_cons, List.mapM_nil, htitle, hensure, hdirectories, hbucket,
    hid, hkey, hprovider, htarget, hidentity, hids, hfull, hremove, hcommand, hhost, hscript]
  -- The three fields of paths are the only ones that can fail.
  cases job.directories.mapM UnixPath.toJson? <;> cases job.sshIdentity.mapM UnixPath.toJson? <;>
    cases job.scriptPath.mapM UnixPath.toJson? <;> simp

/-- A job has a field that cannot be written exactly if it names a path that is no
text. -/
theorem JobSpec.exists_unwritable_iff (job : JobSpec) :
    (∃ f : JobField, f.toJson? (f.get job) = none) ↔ ∃ path ∈ job.paths, path.toText? = none := by
  have hgiven : ∀ given : Option UnixPath,
      (given.mapM UnixPath.toJson?).map (fun json => json.getD .null) = none ↔
        ∃ path ∈ given.toList, path.toText? = none := by
    intro given
    cases given <;> simp [UnixPath.toJson?]
  have hdirectories : (job.directories.mapM UnixPath.toJson?).map oneOrManyToJson = none ↔
      ∃ path ∈ job.directories, path.toText? = none := by
    simp [mapM_eq_none_iff, UnixPath.toJson?]
  simp only [JobSpec.paths, List.mem_append, or_and_right, exists_or]
  rw [← hdirectories, ← hgiven, ← hgiven]
  constructor
  · rintro ⟨f, hnone⟩
    cases f with
    | directories => exact Or.inl (Or.inl hnone)
    | sshIdentity => exact Or.inl (Or.inr hnone)
    | scriptPath => exact Or.inr hnone
    | _ => cases hnone
  · rintro ((hnone | hnone) | hnone)
    · exact ⟨.directories, hnone⟩
    · exact ⟨.sshIdentity, hnone⟩
    · exact ⟨.scriptPath, hnone⟩

/-- No field shows the key. -/
theorem JobField.toJson?_get_withKey (job : JobSpec) (key : String) (f : JobField) :
    f.toJson? (f.get (job.withKey key)) = f.toJson? (f.get job) := by
  cases f with
  | destKey =>
      show some ((job.destKey.replace ⟨key⟩).toJson Secret.toJson) =
        some (job.destKey.toJson Secret.toJson)
      cases job.destKey <;> rfl
  | _ => rfl

/-- Whether a field is written does not depend on the key. -/
theorem JobField.isShown_get_withKey (job : JobSpec) (key : String) (f : JobField) :
    f.isShown (f.get (job.withKey key)) = f.isShown (f.get job) := by
  cases f with
  | destKey =>
      show (!(job.destKey.replace ⟨key⟩).isUnset) = !job.destKey.isUnset
      cases job.destKey <;> rfl
  | _ => rfl

/-- The fields of a job with a hidden key read back. -/
theorem JobField.read_toJson?_withKey {job : JobSpec} {f : JobField} {json : Json}
    (h : f.toJson? (f.get (job.withKey Secret.redacted)) = some json) :
    f.read json.sorted = .ok (f.get (job.withKey Secret.redacted)) := by
  refine read_toJson? (fun key hkey => ?_) h
  have hhidden : job.destKey.replace ⟨Secret.redacted⟩ = .value key := hkey
  cases hgiven : job.destKey <;> rw [hgiven] at hhidden <;> cases hhidden
  rfl

/-- Writing a job hides its key and shows all else. -/
theorem JobSpec.hidesIn_writing (job : JobSpec) :
    JobSpec.writing.HidesIn JobField.read (fun job => job.withKey Secret.redacted) job where
  toJson?_eq := JobField.toJson?_get_withKey job Secret.redacted
  isShown_eq := JobField.isShown_get_withKey job Secret.redacted
  read_eq_ok _ _ h := JobField.read_toJson?_withKey h

/-- A job as the list of the values of its fields in their order, if its paths are
texts. -/
def JobSpec.toRow? (job : JobSpec) : Option Json :=
  (JobField.order.mapM fun (f : JobField) => f.toJson? (f.get job)).map .list

/-- The row of a job reads back as the job with its key hidden. -/
theorem JobSpec.roundTrips_toRow? (job : JobSpec) :
    RoundTrips JobSpec.toRow? JobSpec.ofJson (fun job => job.withKey Secret.redacted)
      job.paths job :=
  JobSpec.lawful_writing.roundTrips_row? job.hidesIn_writing job.exists_unwritable_iff

example :
    JobSpec.toRow?
      { title := "db"
        directories := [.ofText "/srv"]
        bucket := .disabled
        destKey := .value ⟨"secret"⟩ } =
    some (.list [.text "db", .text "present", .text "/srv", .bool false, .null,
      .text "###REDACTED_SECRET###", .null, .null, .null, .list [], .text "30D", .null, .null,
      .null, .null]) := rfl

/-- The object of a job reads back as the job with its key hidden. -/
theorem JobSpec.roundTrips_toJson? (job : JobSpec) :
    RoundTrips JobSpec.toJson? JobSpec.ofJson (fun job => job.withKey Secret.redacted)
      job.paths job := by
  rw [funext JobSpec.toJson?_eq_object?]
  exact JobSpec.lawful_writing.roundTrips_object? job.hidesIn_writing job.exists_unwritable_iff

/-! ### Defaults, field by field -/

namespace DefaultsField

/-- The value of a field of the defaults. -/
def get (defaults : Defaults) : (f : DefaultsField) → f.Value
  | bucket => defaults.bucket
  | destId => defaults.destId
  | destKey => defaults.destKey
  | hostIdentifier => defaults.hostIdentifier
  | keyserver => defaults.keyserver
  | spoolDir => defaults.spoolDir

/-- The value of a field as JSON, `null` where there is none. -/
def toJson? : (f : DefaultsField) → f.Value → Option Json
  | bucket, (given : Option String) | destId, given | hostIdentifier, given =>
    some ((given.map .text).getD .null)
  | destKey, (given : Option Secret) => some ((given.map Secret.toJson).getD .null)
  | keyserver, (text : String) => some (.text text)
  | spoolDir, (path : UnixPath) => path.toJson?

/-- Whether an object shows the value of a field. -/
def isShown : (f : DefaultsField) → f.Value → Bool
  | bucket, (given : Option String) | destId, given | hostIdentifier, given => given.isSome
  | destKey, (given : Option Secret) => given.isSome
  | keyserver, _ | spoolDir, _ => true

/-- The value of a field that is not given. -/
def default? : (f : DefaultsField) → Option f.Value
  | bucket | destId | hostIdentifier => some (none : Option String)
  | destKey => some (none : Option Secret)
  | keyserver => some (Defaults.keyserver {})
  | spoolDir => some (Defaults.spoolDir {})

theorem mem_order (f : DefaultsField) : f ∈ order := by
  cases f <;> decide

/-- A field that an object does not show has the value that reading supplies. -/
theorem eq_of_isShown_eq_false {f : DefaultsField} {v : f.Value} (h : f.isShown v = false) :
    f.default? = some v ∧ f.toJson? v = some .null := by
  cases f with
  | keyserver | spoolDir => cases h
  | bucket | destId | destKey | hostIdentifier =>
      obtain rfl := Option.isNone_iff_eq_none.mp (Option.isSome_eq_false_iff.mp h)
      exact ⟨rfl, rfl⟩

/-- No field shows the key. -/
theorem toJson?_get_withKey (defaults : Defaults) (key : String) (f : DefaultsField) :
    f.toJson? (f.get (defaults.withKey key)) = f.toJson? (f.get defaults) := by
  cases f with
  | destKey =>
      show some (((defaults.destKey.map fun _ => (⟨key⟩ : Secret)).map Secret.toJson).getD .null) =
        some ((defaults.destKey.map Secret.toJson).getD .null)
      rw [Option.map_map]
      rfl
  | _ => rfl

/-- Whether a field of the defaults is written does not depend on the key. -/
theorem isShown_get_withKey (defaults : Defaults) (key : String) (f : DefaultsField) :
    f.isShown (f.get (defaults.withKey key)) = f.isShown (f.get defaults) := by
  cases f with
  | destKey => exact Option.isSome_map
  | _ => rfl

/-- The fields of defaults with a hidden key read back. -/
theorem read_toJson?_withKey {defaults : Defaults} {f : DefaultsField} {json : Json}
    (h : f.toJson? (f.get (defaults.withKey Secret.redacted)) = some json) :
    f.read json.sorted = .ok (f.get (defaults.withKey Secret.redacted)) := by
  cases f with
  | bucket | destId | hostIdentifier =>
      cases h
      exact optional_text _
  | destKey =>
      cases h
      show Reading.optional secret (((defaults.destKey.map fun _ =>
        (⟨Secret.redacted⟩ : Secret)).map Secret.toJson).getD .null).sorted =
          .ok (defaults.destKey.map fun _ => ⟨Secret.redacted⟩)
      cases defaults.destKey <;> rfl
  | keyserver =>
      cases h
      rfl
  | spoolDir =>
      obtain ⟨s, rfl, hdir⟩ := exists_text_of_toJson? h
      exact congrArg Except.ok hdir.symm

end DefaultsField

/-- How defaults are written. -/
def Defaults.writing : Defaults.schema.Writing Defaults where
  get := DefaultsField.get
  toJson? := DefaultsField.toJson?
  isShown := DefaultsField.isShown
  default? := DefaultsField.default?

/-- Defaults are assembled from values that are their own, or the built-in ones where they are
left out. -/
theorem Defaults.assemble_eq_ok {defaults : Defaults}
    {get : (f : DefaultsField) → Option f.Value}
    (h : ∀ f, (get f).or f.default? = some (f.get defaults)) :
    Defaults.assemble get = .ok defaults := by
  simp only [Defaults.assemble,
    join_of_or_eq_some (h .bucket), join_of_or_eq_some (h .destId),
    join_of_or_eq_some (h .destKey), join_of_or_eq_some (h .hostIdentifier),
    getD_of_or_eq_some (h .keyserver), getD_of_or_eq_some (h .spoolDir)]
  rfl

/-- The writing of defaults is lawful: what it leaves out is what assembling fills in. -/
theorem Defaults.lawful_writing : Defaults.writing.Lawful Defaults.assemble where
  nodup_order := by decide
  mem_order := DefaultsField.mem_order
  fieldOf_name f := by cases f <;> rfl
  toJson?_of_hidden f v h := (DefaultsField.eq_of_isShown_eq_false h).2
  default?_of_hidden f v h := (DefaultsField.eq_of_isShown_eq_false h).1
  assemble_eq_ok defaults get h := Defaults.assemble_eq_ok h

/-- **The object of the defaults** shows their fields one by one. -/
theorem Defaults.toJson?_eq_object? (defaults : Defaults) :
    defaults.toJson? = Defaults.writing.object? defaults := by
  let shown (f : DefaultsField) := Defaults.writing.members? defaults f
  have hbucket : shown .bucket = some (optionalMember "bucket" (defaults.bucket.map .text)) :=
    members_optional defaults.bucket
  have hid : shown .destId = some (optionalMember "dest_id" (defaults.destId.map .text)) :=
    members_optional defaults.destId
  have hkey : shown .destKey =
      some (optionalMember "dest_key" (defaults.destKey.map Secret.toJson)) :=
    members_optional defaults.destKey
  have hhost : shown .hostIdentifier =
      some (optionalMember "host_identifier" (defaults.hostIdentifier.map .text)) :=
    members_optional defaults.hostIdentifier
  have hserver : shown .keyserver = some [("keyserver", .text defaults.keyserver)] := rfl
  have hdir : shown .spoolDir =
      defaults.spoolDir.toJson?.map fun json => [("spool_dir", json)] := rfl
  have hobject : Defaults.writing.object? defaults =
      (DefaultsField.order.mapM shown).map fun parts => .object parts.flatten :=
    Defaults.writing.object?_eq_flatten defaults
  rw [hobject, Defaults.toJson?]
  simp only [DefaultsField.order, List.mapM_cons, List.mapM_nil, hbucket, hid, hkey, hhost, hserver,
    hdir]
  cases defaults.spoolDir.toJson? <;> simp

/-- The one field of the defaults that may fail to be written is the spool directory. -/
theorem Defaults.exists_unwritable_iff (defaults : Defaults) :
    (∃ f : DefaultsField, f.toJson? (f.get defaults) = none) ↔
      ∃ path ∈ [defaults.spoolDir], path.toText? = none := by
  simp only [List.mem_singleton, exists_eq_left]
  constructor
  · rintro ⟨f, hnone⟩
    cases f with
    | spoolDir => exact Option.map_eq_none_iff.mp hnone
    | _ => cases hnone
  · intro hnone
    exact ⟨.spoolDir, Option.map_eq_none_iff.mpr hnone⟩

/-- Writing defaults hides their key and shows all else. -/
theorem Defaults.hidesIn_writing (defaults : Defaults) :
    Defaults.writing.HidesIn DefaultsField.read (fun defaults => defaults.withKey Secret.redacted)
      defaults where
  toJson?_eq := DefaultsField.toJson?_get_withKey defaults Secret.redacted
  isShown_eq := DefaultsField.isShown_get_withKey defaults Secret.redacted
  read_eq_ok _ _ h := DefaultsField.read_toJson?_withKey h

/-- Defaults read back with their key hidden. -/
theorem Defaults.roundTrips_toJson? (defaults : Defaults) :
    RoundTrips Defaults.toJson? Defaults.ofJson (fun defaults => defaults.withKey Secret.redacted)
      [defaults.spoolDir] defaults := by
  rw [funext Defaults.toJson?_eq_object?]
  exact Defaults.lawful_writing.roundTrips_object? defaults.hidesIn_writing
    defaults.exists_unwritable_iff

/-! ### Configurations, field by field -/

namespace ConfigField

/-- The value of a field of a configuration. -/
def get (config : Config) : (f : ConfigField) → f.Value
  | defaults => config.defaults
  | jobs => config.jobs

/-- The value of a field as JSON. -/
def toJson? : (f : ConfigField) → f.Value → Option Json
  | defaults, (value : Defaults) => value.toJson?
  | jobs, (value : List JobSpec) => (value.mapM JobSpec.toJson?).map .list

/-- The value of a field that is not given. -/
def default? : (f : ConfigField) → Option f.Value
  | defaults => some ({} : Defaults)
  | jobs => some ([] : List JobSpec)

theorem mem_order (f : ConfigField) : f ∈ order := by
  cases f <;> decide

/-- No field shows a key. -/
theorem toJson?_get_withKey (config : Config) (key : String) (f : ConfigField) :
    f.toJson? (f.get (config.withKey key)) = f.toJson? (f.get config) := by
  cases f with
  | defaults => exact Defaults.toJson?_withKey config.defaults key
  | jobs => exact congrArg (Option.map Json.list) (Config.jobs_toJson?_withKey config key)

/-- The fields of a configuration with hidden keys read back. -/
theorem read_toJson?_withKey {config : Config} {f : ConfigField} {json : Json}
    (h : f.toJson? (f.get (config.withKey Secret.redacted)) = some json) :
    f.read json.sorted = .ok (f.get (config.withKey Secret.redacted)) := by
  rw [toJson?_get_withKey] at h
  cases f with
  | defaults => exact config.defaults.roundTrips_toJson?.reads_back json h
  | jobs =>
      obtain ⟨items, hitems, rfl⟩ := Option.map_eq_some_iff.mp h
      have hjobs : List.Forall₂ (fun job item => JobSpec.read (Json.sorted item) =
          .ok (job.withKey Secret.redacted)) config.jobs items :=
        (mapM_eq_some_iff.mp hitems).imp fun job item => job.roundTrips_toJson?.reads_back item
      refine list_eq_ok rfl ?_
      show List.Forall₂ (fun item job => JobSpec.read item = .ok job) (Json.sortedItems items)
        (config.jobs.map fun job => job.withKey Secret.redacted)
      rw [Json.sortedItems_eq_map, List.forall₂_map_left_iff, List.forall₂_map_right_iff]
      exact hjobs.flip

end ConfigField

/-- How configurations are written. -/
def Config.writing : Config.schema.Writing Config where
  get := ConfigField.get
  toJson? := ConfigField.toJson?
  isShown _ _ := true
  default? := ConfigField.default?

/-- A configuration is assembled from values that are its own, or empty where they are left out. -/
theorem Config.assemble_eq_ok {config : Config} {get : (f : ConfigField) → Option f.Value}
    (h : ∀ f, (get f).or f.default? = some (f.get config)) : Config.assemble get = .ok config := by
  simp only [Config.assemble, getD_of_or_eq_some (h .defaults), getD_of_or_eq_some (h .jobs)]
  rfl

/-- The writing of configurations is lawful: what it leaves out is what assembling fills in. -/
theorem Config.lawful_writing : Config.writing.Lawful Config.assemble where
  nodup_order := by decide
  mem_order := ConfigField.mem_order
  fieldOf_name f := by cases f <;> rfl
  toJson?_of_hidden _ _ h := by cases h
  default?_of_hidden _ _ h := by cases h
  assemble_eq_ok config get h := Config.assemble_eq_ok h

/-- **The object of a configuration** shows its fields one by one. -/
theorem Config.toJson?_eq_object? (config : Config) :
    config.toJson? = Config.writing.object? config := by
  let shown (f : ConfigField) := Config.writing.members? config f
  have hdefaults : shown .defaults =
      config.defaults.toJson?.map fun json => [("defaults", json)] := rfl
  have hjobs : shown .jobs = (config.jobs.mapM JobSpec.toJson?).map
      fun items => [("jobs", .list items)] := Option.map_map ..
  have hobject : Config.writing.object? config =
      (ConfigField.order.mapM shown).map fun parts => .object parts.flatten :=
    Config.writing.object?_eq_flatten config
  rw [hobject, Config.toJson?]
  simp only [ConfigField.order, List.mapM_cons, List.mapM_nil, hdefaults, hjobs]
  cases config.defaults.toJson? <;> cases config.jobs.mapM JobSpec.toJson? <;> simp

/-- The paths that a configuration names. -/
def Config.paths (config : Config) : List UnixPath :=
  config.defaults.spoolDir :: config.jobs.flatMap JobSpec.paths

/-- A configuration has a field that cannot be written exactly if one of its paths is no text. -/
theorem Config.exists_unwritable_iff (config : Config) :
    (∃ f : ConfigField, f.toJson? (f.get config) = none) ↔
      ∃ path ∈ config.paths, path.toText? = none := by
  have hdefaults : config.defaults.toJson? = none ↔ config.defaults.spoolDir.toText? = none := by
    simpa using config.defaults.roundTrips_toJson?.fails_iff
  have hjobs : (config.jobs.mapM JobSpec.toJson?).map Json.list = none ↔
      ∃ path ∈ config.jobs.flatMap JobSpec.paths, path.toText? = none := by
    rw [Option.map_eq_none_iff, mapM_eq_none_iff]
    constructor
    · rintro ⟨job, hjob, hnone⟩
      obtain ⟨path, hpath, htext⟩ := job.roundTrips_toJson?.fails_iff.mp hnone
      exact ⟨path, List.mem_flatMap.mpr ⟨job, hjob, hpath⟩, htext⟩
    · rintro ⟨path, hpath, htext⟩
      obtain ⟨job, hjob, hmem⟩ := List.mem_flatMap.mp hpath
      exact ⟨job, hjob, job.roundTrips_toJson?.fails_iff.mpr ⟨path, hmem, htext⟩⟩
  rw [Config.paths, List.exists_mem_cons_iff, ← hdefaults, ← hjobs]
  constructor
  · rintro ⟨f, hnone⟩
    cases f with
    | defaults => exact Or.inl hnone
    | jobs => exact Or.inr hnone
  · rintro (hnone | hnone)
    · exact ⟨.defaults, hnone⟩
    · exact ⟨.jobs, hnone⟩

/-- Writing a configuration hides its keys and shows all else. -/
theorem Config.hidesIn_writing (config : Config) :
    Config.writing.HidesIn ConfigField.read (fun config => config.withKey Secret.redacted)
      config where
  toJson?_eq := ConfigField.toJson?_get_withKey config Secret.redacted
  isShown_eq _ := rfl
  read_eq_ok _ _ h := ConfigField.read_toJson?_withKey h

/-- A configuration reads back with its keys hidden. -/
theorem Config.roundTrips_toJson? (config : Config) :
    RoundTrips Config.toJson? Config.ofJson (fun config => config.withKey Secret.redacted)
      config.paths config := by
  rw [funext Config.toJson?_eq_object?]
  exact Config.lawful_writing.roundTrips_object? config.hidesIn_writing config.exists_unwritable_iff

/-! ### All records -/

/-- **Written records read back.**  A job, the defaults and a configuration cannot be
written exactly if a path in them is no text.  What is written of them reads back
as they are, with the mark in place of each key that is given, and that is
written the same.  So is the list of all fields of a job, `null` where one is left
out: it reads back as the same job. -/
theorem written_records_read_back (job : JobSpec) (defaults : Defaults) (config : Config) :
    RoundTrips JobSpec.toJson? JobSpec.ofJson (fun job => job.withKey Secret.redacted)
      job.paths job ∧
    RoundTrips JobSpec.toRow? JobSpec.ofJson (fun job => job.withKey Secret.redacted)
      job.paths job ∧
    RoundTrips Defaults.toJson? Defaults.ofJson
      (fun defaults => defaults.withKey Secret.redacted) [defaults.spoolDir] defaults ∧
    RoundTrips Config.toJson? Config.ofJson (fun config => config.withKey Secret.redacted)
      config.paths config :=
  ⟨job.roundTrips_toJson?, job.roundTrips_toRow?, defaults.roundTrips_toJson?,
    config.roundTrips_toJson?⟩

end BackupPlan
