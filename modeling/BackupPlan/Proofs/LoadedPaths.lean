import BackupPlan.Proofs.Reading.Yields
import BackupPlan.Proofs.RecordRoundTrip
import BackupPlan.Proofs.Titles

/-!
# The paths of a loaded configuration

A document holds texts, so every path that is read from one is a text, and so is the
directory of the scripts that stands in where none is given.  Whatever is wrong with
a configuration that comes from a file can therefore be written into a report, and
loading never meets the case that it cannot.

* `JobSpec.yields_read`, `Defaults.yields_read`, `Config.yields_read` — the paths of what is
  read from a document;
* `Config.isText_of_parse` — the paths of a configuration that a file holds;
* `Config.not_isUnreportable_of_parse`, `Config.load_cases` — its checks can always report,
  so these are the ways in which loading ends.
-/

namespace BackupPlan

open Reading

/-- The path is spelled by a text. -/
def UnixPath.IsText (path : UnixPath) : Prop :=
  path.toText? ≠ none

/-- A path made of a text is a text. -/
theorem UnixPath.isText_ofText (s : String) : (UnixPath.ofText s).IsText := by
  simp [IsText, toText?_ofText]

section

variable {ν : Type} [Datum ν]

/-- Every path that is read is a text. -/
theorem yields_path (value : ν) : Yields (Reading.path value) UnixPath.IsText :=
  (Yields.trivial _).map fun s _ => UnixPath.isText_ofText s

/-! ### Jobs -/

/-- The paths in the value of a field are texts. -/
def JobField.NamesTexts : (f : JobField) → f.Value → Prop
  | directories, (paths : List UnixPath) => ∀ path ∈ paths, path.IsText
  | sshIdentity, (given : Option UnixPath) => ∀ path ∈ given, path.IsText
  | scriptPath, (given : Option UnixPath) => ∀ path ∈ given, path.IsText
  | _, _ => True

/-- Reading one field of a job brings only paths that are texts. -/
theorem JobField.yields_read (f : JobField) (value : ν) : Yields (f.read value) f.NamesTexts := by
  cases f with
  | directories => exact yields_oneOrMany yields_path value
  | sshIdentity => exact yields_optional yields_path value
  | scriptPath => exact yields_optional yields_path value
  | _ => exact Yields.trivial _

/-- A job is put together of paths that are texts. -/
theorem JobSpec.isText_of_assemble {get : (f : JobField) → Option f.Value} {job : JobSpec}
    (hget : ∀ f v, get f = some v → f.NamesTexts v) (h : JobSpec.assemble get = .ok job) :
    ∀ path ∈ job.paths, path.IsText := by
  have hlist : ∀ given : Option (List UnixPath),
      (∀ paths, given = some paths → ∀ path ∈ paths, path.IsText) →
      ∀ path ∈ given.getD [], path.IsText := by
    intro given hgiven
    cases given with
    | none => simp
    | some paths => exact hgiven paths rfl
  have hoptional : ∀ given : Option (Option UnixPath),
      (∀ single, given = some single → ∀ path ∈ single, path.IsText) →
      ∀ path ∈ given.join.toList, path.IsText := by
    intro given hgiven
    rcases given with _ | _ | single <;> simp_all
  unfold JobSpec.assemble at h
  split at h
  · cases h
    intro path hpath
    rw [JobSpec.paths, List.mem_append, List.mem_append] at hpath
    rcases hpath with (hpath | hpath) | hpath
    · exact hlist (get .directories) (hget .directories) path hpath
    · exact hoptional (get .sshIdentity) (hget .sshIdentity) path hpath
    · exact hoptional (get .scriptPath) (hget .scriptPath) path hpath
  · cases h

/-- Every path of a job that is read is a text. -/
theorem JobSpec.yields_read (value : ν) :
    Yields (JobSpec.read value) fun job => ∀ path ∈ job.paths, path.IsText :=
  Schema.yields_read JobField.yields_read (fun _ _ => JobSpec.isText_of_assemble) value

/-! ### Defaults and configurations -/

/-- The directory of the scripts that is given is a text. -/
def DefaultsField.NamesTexts : (f : DefaultsField) → f.Value → Prop
  | spoolDir, (path : UnixPath) => path.IsText
  | _, _ => True

/-- Reading one field of the defaults brings only paths that are texts. -/
theorem DefaultsField.yields_read (f : DefaultsField) (value : ν) :
    Yields (f.read value) f.NamesTexts := by
  cases f with
  | spoolDir => exact yields_path value
  | _ => exact Yields.trivial _

/-- So is the one that stands in for it. -/
theorem Defaults.yields_read (value : ν) :
    Yields (Defaults.read value) fun defaults => defaults.spoolDir.IsText := by
  refine Schema.yields_read DefaultsField.yields_read (fun get defaults hget h => ?_) value
  have hsupplied : ∀ given : Option UnixPath, (∀ path, given = some path → path.IsText) →
      (given.getD (.ofText "/var/spool/duplicity")).IsText := by
    intro given hgiven
    cases given with
    | none => exact UnixPath.isText_ofText _
    | some path => exact hgiven path rfl
  cases h
  exact hsupplied (get .spoolDir) (hget .spoolDir)

/-- The paths in the value of a field are texts. -/
def ConfigField.NamesTexts : (f : ConfigField) → f.Value → Prop
  | defaults, (given : Defaults) => given.spoolDir.IsText
  | jobs, (given : List JobSpec) => ∀ job ∈ given, ∀ path ∈ job.paths, path.IsText

/-- Reading one field of a configuration brings only paths that are texts. -/
theorem ConfigField.yields_read (f : ConfigField) (value : ν) :
    Yields (f.read value) f.NamesTexts := by
  cases f with
  | defaults => exact Defaults.yields_read value
  | jobs => exact yields_list JobSpec.yields_read value

/-- Every path of a configuration that is read is a text. -/
theorem Config.yields_read (value : ν) :
    Yields (Config.read value) fun config => ∀ path ∈ config.paths, path.IsText := by
  refine Schema.yields_read ConfigField.yields_read (fun get config hget h => ?_) value
  have hdefaults : ∀ given : Option Defaults,
      (∀ defaults, given = some defaults → defaults.spoolDir.IsText) →
      (given.getD {}).spoolDir.IsText := by
    intro given hgiven
    cases given with
    | none => exact UnixPath.isText_ofText _
    | some defaults => exact hgiven defaults rfl
  have hjobs : ∀ given : Option (List JobSpec),
      (∀ jobs, given = some jobs → ∀ job ∈ jobs, ∀ path ∈ job.paths, path.IsText) →
      ∀ path ∈ (given.getD []).flatMap JobSpec.paths, path.IsText := by
    intro given hgiven path hpath
    cases given with
    | none => cases hpath
    | some jobs =>
        obtain ⟨job, hjob, hmem⟩ := List.mem_flatMap.mp hpath
        exact hgiven jobs rfl job hjob path hmem
  cases h
  exact List.forall_mem_cons.mpr
    ⟨hdefaults (get .defaults) (hget .defaults), hjobs (get .jobs) (hget .jobs)⟩

end

namespace Config

variable {config : Config} {path : UnixPath} {file : FileContent}

theorem spoolDir_mem_paths (config : Config) : config.defaults.spoolDir ∈ config.paths :=
  List.mem_cons_self

/-- The paths of its jobs are among those of the configuration. -/
theorem mem_paths_of_mem_jobs {job : JobSpec} (hjob : job ∈ config.jobs) {named : UnixPath}
    (hnamed : named ∈ job.paths) : named ∈ config.paths :=
  List.mem_cons_of_mem _ (List.mem_flatMap.mpr ⟨job, hjob, hnamed⟩)

/-- **The paths of a configuration that a file holds are texts.** -/
theorem isText_of_parse (h : Config.parse path file = .ok config) :
    ∀ named ∈ config.paths, named.IsText := by
  cases file with
  | unopenable => cases h
  | unavailable => cases h
  | bytes content =>
      cases hread : Yaml.read Config.read content with
      | error fault =>
          simp only [parse, hread] at h
          cases h
      | ok found =>
          simp only [parse, hread] at h
          cases h
          unfold Yaml.read at hread
          split at hread
          · cases hread
          · exact Config.yields_read _ config hread

/-- **The checks of a configuration that a file holds can always report.** -/
theorem not_isUnreportable_of_parse (h : Config.parse path file = .ok config) :
    ¬ config.IsUnreportable := by
  have htexts := isText_of_parse h
  rintro (⟨-, hspool⟩ | ⟨-, job, hjob, hnone⟩)
  · exact htexts _ config.spoolDir_mem_paths hspool
  · obtain ⟨named, hnamed, hbroken⟩ := job.roundTrips_toJson?.fails_iff.mp hnone
    exact htexts named (mem_paths_of_mem_jobs hjob hnamed) hbroken

/-- What a file is loaded to: the configuration that it holds, if the checks find nothing;
else a report that it holds none, or what they find. -/
theorem load_cases (path : UnixPath) (file : FileContent) :
    (∃ report, Config.parse path file = .error report ∧ Config.load path file = .error report) ∨
    ∃ config issues, Config.parse path file = .ok config ∧ config.issues = .ok issues ∧
      Config.load path file =
        if issues = [] then .ok config
        else .error (.under ("Config validation failed: " ++ path.quoted) (.issues issues)) := by
  cases hparse : Config.parse path file with
  | error report => exact Or.inl ⟨report, rfl, by rw [Config.load, hparse]; rfl⟩
  | ok config =>
      rcases config.issues_cases with ⟨hunreportable, -⟩ | ⟨-, ofDefaults, ofJobs, -, hissues, -⟩
      · exact absurd hunreportable (not_isUnreportable_of_parse hparse)
      · refine Or.inr ⟨config, _, rfl, hissues, ?_⟩
        rw [Config.load, hparse]
        simp only [bind, Except.bind, hissues]
        cases ofDefaults ++ ofJobs <;> simp [pure, Except.pure, throw, throwThe, MonadExceptOf.throw]

/-- Every path of a configuration that loads is a text. -/
theorem isText_of_load (h : Config.load path file = .ok config) :
    ∀ named ∈ config.paths, named.IsText := by
  rcases load_cases path file with ⟨report, -, hload⟩ | ⟨parsed, issues, hparse, -, hload⟩
  · rw [h] at hload
    cases hload
  · rw [h] at hload
    split at hload
    · cases hload
      exact isText_of_parse hparse
    · cases hload

end Config

end BackupPlan
