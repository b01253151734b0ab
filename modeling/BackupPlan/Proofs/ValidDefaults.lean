import BackupPlan.Proofs.Titles
import BackupPlan.Proofs.Verdict

/-!
# Jobs under valid defaults

The defaults are checked with their configuration, and each job is checked with what it
takes over from them: the key server as it stands, and the directory of the scripts with
the name of its own script behind it.  The first check implies the second.  A name can
replace the directory only by being an absolute path itself, and can otherwise only make
it longer, so the title has no part in this.

* `Defaults.IsSound` — what validation asks of the defaults;
* `keyserver_notMem_faults`, `scriptPath_mem_faults_iff` — what it spares their jobs;
* `mem_fields_of_verdict_iff` — the fields that a rejection names are those at fault;
* `valid_configuration_leaves_only_job_errors` — so a rejection names no other than the job
  has to answer for.
-/

namespace BackupPlan

open UnixPath

/-! ### Sound defaults -/

/-- What validation asks of the defaults. -/
structure Defaults.IsSound (defaults : Defaults) : Prop where
  keyserver : Check.keyserver defaults.keyserver = none
  spoolDir : defaults.spoolDir.isAbsolute = true

/-- Validation finds nothing exactly in sound defaults. -/
theorem Defaults.issues_eq_nil_iff {defaults : Defaults} :
    defaults.issues = .ok [] ↔ defaults.IsSound := by
  rw [Defaults.issues, Issues.collect_eq_ok_nil_iff]
  simp only [Defaults.fieldChecks, List.forall_mem_cons, List.not_mem_nil, false_imp_iff,
    implies_true, and_true, Check.absolute_eq_none_iff]
  constructor
  · intro h
    exact ⟨h.1, h.2⟩
  · intro h
    exact ⟨h.keyserver, h.spoolDir⟩

/-- No check looks at the name of the machine. -/
theorem Defaults.IsSound.withHost {defaults : Defaults} (h : defaults.IsSound)
    (host : Option String) : (defaults.withHost host).IsSound :=
  ⟨h.keyserver, h.spoolDir⟩

/-- The defaults of a configuration that is valid are sound. -/
theorem Config.isSound_of_issues_eq_nil {config : Config} (h : config.issues = .ok []) :
    config.defaults.IsSound := by
  rw [← Defaults.issues_eq_nil_iff]
  rw [Config.issues_eq_bind] at h
  cases hdefaults : config.defaults.issues with
  | error failure =>
      rw [hdefaults] at h
      cases h
  | ok ofDefaults =>
      cases hjobs : Issues.collect [config.titlesCheck] with
      | error failure =>
          rw [hdefaults, hjobs] at h
          cases h
      | ok ofJobs =>
          cases ofDefaults with
          | nil => rfl
          | cons entry rest =>
              rw [hdefaults, hjobs] at h
              cases h

/-! ### Fields at fault -/

variable {job : JobSpec} {defaults : Defaults}

/-- A field is faulted exactly if the table says so. -/
theorem mem_faults_iff {field : String} :
    field ∈ job.faults defaults ↔ (field, true) ∈ job.fieldTable defaults := by
  simp [JobSpec.faults]

/-- The key server is that of the defaults. -/
theorem keyserver_notMem_faults (h : defaults.IsSound) : "keyserver" ∉ job.faults defaults := by
  have hclear := Check.isSome_keyserver defaults.keyserver
  rw [h.keyserver, Option.isSome_none] at hclear
  rw [mem_faults_iff]
  intro hmem
  simp [JobSpec.fieldTable, ← hclear] at hmem

/-- A script has a relative path only if the job names it. -/
theorem scriptPath_mem_faults_iff (h : defaults.IsSound) :
    "script_path" ∈ job.faults defaults ↔
      ∃ path, job.scriptPath = some path ∧ path.isAbsolute = false := by
  rw [mem_faults_iff]
  cases hpath : job.scriptPath with
  | none => simp [JobSpec.fieldTable, hpath, h.spoolDir]
  | some path => simp [JobSpec.fieldTable, hpath]

/-! ### Fields that are named -/

/-- The verdict of a table against a job is that of a rule that applies. -/
theorem mem_of_firstVerdict {table : List (Bool × Verdict)} {verdict : Verdict}
    (h : firstVerdict table = verdict) (hagainst : verdict ≠ .accepted) :
    (true, verdict) ∈ table := by
  induction table with
  | nil => exact absurd h.symm hagainst
  | cons rule rest ih =>
      obtain ⟨applies, told⟩ := rule
      cases applies with
      | true =>
          have htold : told = verdict := h
          rw [htold]
          exact List.mem_cons_self
      | false =>
          have hlater : firstVerdict rest = verdict := h
          exact List.mem_cons_of_mem _ (ih hlater)

/-- A verdict on the fields names those at fault; of a job whose script is to be removed,
only the two that the removal is checked for. -/
theorem mem_fields_of_verdict_iff {fields : List String}
    (h : job.verdict defaults = .invalidFields fields) (field : String) :
    field ∈ fields ↔ field ∈ job.faults defaults ∧
      (job.ensure = .absent → field = "title" ∨ field = "script_path") := by
  have hagainst : Verdict.invalidFields fields ≠ .accepted := by simp
  unfold JobSpec.verdict at h
  cases hensure : job.ensure with
  | present =>
      simp only [hensure] at h
      have hrule := mem_of_firstVerdict h hagainst
      obtain ⟨-, rfl⟩ : _ ∧ fields = job.faults defaults := by simpa [rules] using hrule
      simp
  | absent =>
      simp only [hensure] at h
      have hrule := mem_of_firstVerdict h hagainst
      obtain ⟨-, rfl⟩ : _ ∧ fields = (job.faults defaults).filter fun field =>
          field = "title" || field = "script_path" := by simpa [removalRules] using hrule
      simp

/-- A rejection of a job for its fields is the verdict that is told of it. -/
theorem verdict_of_compile_eq_rejected {rejection : Rejection} {issues : Issues}
    (h : (job.compile defaults).value = .error (.rejected rejection))
    (hcause : rejection.cause = .invalidFields issues) :
    job.verdict defaults = .invalidFields (issues.map Prod.fst) := by
  have hcheck : (job.resolve defaults).check = .error (.rejected rejection) :=
    ResolvedJob.check_of_compile_eq_error h
  have hreportable : (job.resolve defaults).check ≠ .error .unreportable := by simp [hcheck]
  have hverdict := verdict?_check_resolve hreportable
  rw [hcheck] at hverdict
  have htold : some rejection.cause.verdict = some (job.verdict defaults) := hverdict
  rw [hcause] at htold
  exact (Option.some.inj htold).symm

/-- **A valid configuration leaves only errors of the jobs.**  Whatever machine it is used
on, and whatever the title of a job is, a job is never rejected for the key server, and
for the path of its script exactly if it gives a relative one itself. -/
theorem valid_configuration_leaves_only_job_errors {config : Config}
    (hvalid : config.issues = .ok []) (host : Option String) {job : JobSpec}
    {rejection : Rejection} {issues : Issues}
    (hrejected : (job.compile (config.defaults.withHost host)).value = .error (.rejected rejection))
    (hcause : rejection.cause = .invalidFields issues) :
    "keyserver" ∉ issues.map Prod.fst ∧
    ("script_path" ∈ issues.map Prod.fst ↔
      ∃ path, job.scriptPath = some path ∧ path.isAbsolute = false) := by
  have hsound := (Config.isSound_of_issues_eq_nil hvalid).withHost host
  have hnamed := mem_fields_of_verdict_iff (verdict_of_compile_eq_rejected hrejected hcause)
  constructor
  · intro hmem
    exact keyserver_notMem_faults hsound ((hnamed "keyserver").mp hmem).1
  · rw [hnamed "script_path", scriptPath_mem_faults_iff hsound]
    simp

/-- A job whose title is spelled like an absolute path, which takes the place of the
directory of the scripts. -/
def pathTitledJob : JobSpec where
  title := "/etc/../db"
  directories := [.ofText "/srv"]
  target := some "ssh://host//backups"

/-- The same job with a relative path of its own. -/
def relativeJob : JobSpec :=
  { pathTitledJob with scriptPath := some (.ofText "db.sh") }

theorem pathTitledJob_and_relativeJob_answer_for_their_own_paths :
    ({} : Config).issues = .ok [] ∧
    (∃ rejection issues, (pathTitledJob.compile (Defaults.withHost {} (some "web"))).value =
        .error (.rejected rejection) ∧ rejection.cause = .invalidFields issues ∧
      "keyserver" ∉ issues.map Prod.fst ∧ "script_path" ∉ issues.map Prod.fst) ∧
    ∃ rejection issues, (relativeJob.compile (Defaults.withHost {} (some "web"))).value =
        .error (.rejected rejection) ∧ rejection.cause = .invalidFields issues ∧
      "keyserver" ∉ issues.map Prod.fst ∧ "script_path" ∈ issues.map Prod.fst := by
  have hvalid : ({} : Config).issues = .ok [] := rfl
  refine ⟨hvalid, ?_, ?_⟩
  · obtain ⟨rejection, issues, hrejected, hcause⟩ : ∃ rejection issues,
        (pathTitledJob.compile (Defaults.withHost {} (some "web"))).value =
          .error (.rejected rejection) ∧ rejection.cause = .invalidFields issues :=
      ⟨_, _, rfl, rfl⟩
    obtain ⟨hkeyserver, hpath⟩ :=
      valid_configuration_leaves_only_job_errors hvalid (some "web") hrejected hcause
    have hnone : pathTitledJob.scriptPath = none := rfl
    exact ⟨rejection, issues, hrejected, hcause, hkeyserver, by simp [hpath, hnone]⟩
  · obtain ⟨rejection, issues, hrejected, hcause⟩ : ∃ rejection issues,
        (relativeJob.compile (Defaults.withHost {} (some "web"))).value =
          .error (.rejected rejection) ∧ rejection.cause = .invalidFields issues :=
      ⟨_, _, rfl, rfl⟩
    obtain ⟨hkeyserver, hpath⟩ :=
      valid_configuration_leaves_only_job_errors hvalid (some "web") hrejected hcause
    have hown : relativeJob.scriptPath = some (.ofText "db.sh") := rfl
    exact ⟨rejection, issues, hrejected, hcause, hkeyserver, hpath.mpr ⟨_, hown, by decide⟩⟩

end BackupPlan
