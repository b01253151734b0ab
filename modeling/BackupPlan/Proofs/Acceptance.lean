import BackupPlan.Compile
import BackupPlan.Proofs.Elementwise
import Mathlib.Tactic.SplitIfs
import Mathlib.Tactic.Tauto

/-!
# What an accepted job has passed

Compiling a job is a chain of decisions: the rules on the whole job, the checks
of its fields, the choice of a destination.  This file says once what each
decision can come to, so that later files need not open the definitions again.

* `Issues.collect_eq_ok_nil_iff`, `Issues.collect_eq_error_iff` — when checks
  find nothing, and when what they find cannot be reported;
* `ResolvedJob.structuralCause_eq_none_iff` — what the rules on the whole job let pass;
* `ResolvedJob.check_eq_ok_iff`, `ResolvedJob.check_eq_unreportable_iff` — the
  jobs whose script is to be written that pass, and those on which nothing can be
  reported;
* `ResolvedJob.compile_cases` — the four ways in which a compilation ends.
-/

namespace BackupPlan

/-! ### Single values -/

namespace Check

/-- A title check finds nothing exactly in the titles of the rule `isTitle`. -/
theorem title_eq_none_iff {name : String} : title name = none ↔ isTitle name = true := by
  simp only [title]
  split_ifs <;> simp_all

/-- An interval check finds nothing exactly in the texts of the rule `isInterval`. -/
theorem interval_eq_none_iff {text : String} :
    interval text = none ↔ isInterval text = true := by
  simp [interval]

/-- A keyserver is accepted exactly if it is not empty and every character is one a server name
may have. -/
theorem keyserver_eq_none_iff {address : String} :
    keyserver address = none ↔ address ≠ "" ∧ ∀ c ∈ address.toList, isServerChar c = true := by
  simp [keyserver]

/-- A path check finds nothing exactly in absolute paths. -/
theorem absolute_eq_none_iff {path : UnixPath} :
    absolute path = none ↔ path.isAbsolute = true := by
  simp [absolute]

/-- A check of several paths finds nothing exactly if each of them is absolute. -/
theorem allAbsolute_eq_none_iff {paths : List UnixPath} :
    allAbsolute paths = none ↔ ∀ path ∈ paths, path.isAbsolute = true := by
  simp [allAbsolute, List.findSome?_eq_none_iff, absolute_eq_none_iff]

end Check

/-! ### Lists of checks -/

/-- A check finds an issue at a value that no report can show. -/
def FieldCheck.IsUnreportable (check : FieldCheck) : Prop :=
  check.finding ≠ none ∧ check.value = none

/-- Collecting gives no issue exactly if no check finds one. -/
theorem Issues.collect_eq_ok_nil_iff {checks : List FieldCheck} :
    Issues.collect checks = .ok [] ↔ ∀ check ∈ checks, check.finding = none := by
  fun_induction Issues.collect checks with
  | case1 => simp
  | case2 field value rest ih => simpa using ih
  | case3 => simp
  | case4 field issue value rest ih =>
      cases Issues.collect rest <;> simp [bind, Except.bind, pure, Except.pure]

/-- Collecting fails exactly if some check finds an issue that cannot be
reported; what the other checks find makes no difference. -/
theorem Issues.collect_eq_error_iff {checks : List FieldCheck} :
    Issues.collect checks = .error .mk ↔ ∃ check ∈ checks, check.IsUnreportable := by
  fun_induction Issues.collect checks with
  | case1 => simp
  | case2 field value rest ih => simpa [FieldCheck.IsUnreportable] using ih
  | case3 => simp [FieldCheck.IsUnreportable]
  | case4 field issue value rest ih =>
      have hhead : ¬ FieldCheck.IsUnreportable ⟨field, some issue, some value⟩ := by
        simp [FieldCheck.IsUnreportable]
      simp only [List.mem_cons, exists_eq_or_imp, hhead, false_or]
      rw [← ih]
      cases Issues.collect rest <;> simp [bind, Except.bind, pure, Except.pure]

/-- The fields that are reported are those whose check finds something, in the order
of the checks. -/
theorem Issues.fields_of_collect_eq_ok {checks : List FieldCheck} {issues : Issues}
    (h : Issues.collect checks = .ok issues) :
    issues.map Prod.fst = (checks.filter (·.finding.isSome)).map (·.field) := by
  fun_induction Issues.collect checks generalizing issues with
  | case1 =>
      cases h
      rfl
  | case2 field value rest ih => exact ih h
  | case3 => cases h
  | case4 field issue value rest ih =>
      cases hrest : Issues.collect rest with
      | error failure =>
          rw [hrest] at h
          cases h
      | ok found =>
          rw [hrest] at h
          cases h
          simp [ih hrest]

/-- The paths that a job names. -/
def JobSpec.paths (job : JobSpec) : List UnixPath :=
  job.directories ++ job.sshIdentity.toList ++ job.scriptPath.toList

namespace ResolvedJob

variable {job : ResolvedJob}

/-- No check of a field finds anything exactly if every field keeps its rule. -/
theorem fieldChecks_clear_iff :
    (∀ check ∈ job.fieldChecks, check.finding = none) ↔
      Check.title job.title = none ∧ Check.allAbsolute job.directories = none ∧
      job.sshIdentity.bind Check.absolute = none ∧ Check.keyIds job.pubkeyIds = none ∧
      Check.interval job.fullIfOlderThan = none ∧
      job.removeOlderThan.bind Check.interval = none ∧
      Check.absolute job.scriptPath = none ∧ Check.keyserver job.keyserver = none := by
  simp [fieldChecks]

/-- The rules on the whole job let pass exactly the jobs with something to back up
and one complete destination: a remote URL and nothing of a bucket, or a bucket
with a credential and, where it is addressed by machine, the name of one. -/
theorem structuralCause_eq_none_iff :
    job.structuralCause = none ↔
      job.directories ≠ [] ∧
      ((job.target ≠ none ∧ job.bucket = none ∧ job.provider = none) ∨
        (job.target = none ∧ job.bucket ≠ none ∧ (job.destId ≠ none ∨ job.destKey ≠ none) ∧
          (job.usesS3Layout = true → job.hostIdentifier ≠ none))) := by
  unfold structuralCause
  cases htarget : job.target with
  | some target => cases job.bucket <;> cases job.provider <;> simp
  | none =>
      cases hbucket : job.bucket with
      | none => simp
      | some bucket =>
          have hlogin : (job.destId.isNone && job.destKey.isNone) = true ↔
              ¬ (job.destId ≠ none ∨ job.destKey ≠ none) := by simp
          have hhost : (job.usesS3Layout && job.hostIdentifier.isNone) = true ↔
              ¬ (job.usesS3Layout = true → job.hostIdentifier ≠ none) := by simp
          simp only [hlogin, hhost]
          split_ifs <;> simp <;> tauto

/-- The rules on the whole job name no fields. -/
theorem structuralCause_ne_invalidFields (job : ResolvedJob) (issues : Issues) :
    job.structuralCause ≠ some (.invalidFields issues) := by
  unfold structuralCause
  grind

/-- What the rules on the whole job let pass has a destination. -/
theorem exists_destination_of_structuralCause_eq_none (h : job.structuralCause = none) :
    ∃ destination, job.destination = .ok destination := by
  obtain ⟨-, ⟨htarget, -, -⟩ | ⟨htarget, hbucket, -, hhost⟩⟩ := structuralCause_eq_none_iff.mp h
  · obtain ⟨target, htarget⟩ := Option.ne_none_iff_exists'.mp htarget
    simp [destination, htarget]
  · obtain ⟨bucket, hbucket⟩ := Option.ne_none_iff_exists'.mp hbucket
    -- The host is asked for by both, each in its own words, where no provider has a scheme.
    cases hstorage : job.provider.bind ObjectStorage.ofProvider with
    | some storage => simp [destination, htarget, hbucket, hstorage]
    | none =>
        have hlayout : job.usesS3Layout = true := by
          rcases hprovider : job.provider with _ | provider
          · simp [usesS3Layout, htarget, hprovider]
          · cases provider with
            | s3 => simp [usesS3Layout, htarget, hprovider]
            | cloudFiles => simp [hprovider, ObjectStorage.ofProvider] at hstorage
        obtain ⟨host, hhost⟩ := Option.ne_none_iff_exists'.mp (hhost hlayout)
        simp [destination, htarget, hbucket, hstorage, hhost]

/-! ### The verdict on a job -/

/-- A job whose script is to be written is accepted exactly if no rule on the
whole job and no check of a field speaks against it. -/
theorem check_eq_ok_iff (hpresent : job.ensure = .present) :
    job.check = .ok () ↔
      job.structuralCause = none ∧ ∀ check ∈ job.fieldChecks, check.finding = none := by
  rw [← Issues.collect_eq_ok_nil_iff]
  cases hcause : job.structuralCause with
  | some cause => simp [check, hpresent, hcause]
  | none =>
      cases hfound : Issues.collect job.fieldChecks with
      | error => simp [check, hpresent, hcause, hfound]
      | ok issues => cases issues <;> simp [check, hpresent, hcause, hfound]

/-- What a removal is checked for is the title and the path of the script. -/
theorem removalIssues_eq_nil_iff :
    job.removalIssues = [] ↔
      Check.title job.title = none ∧ Check.absolute job.scriptPath = none := by
  simp [removalIssues]

/-- A removal is rejected with its issues; no value stands in them that could not be
reported. -/
theorem check_of_absent (habsent : job.ensure = .absent) :
    job.check =
      if job.removalIssues.isEmpty then .ok ()
      else .error (.rejected ⟨job.title, .invalidFields job.removalIssues⟩) := by
  simp only [check, habsent]

/-- A job whose script is to be removed is accepted exactly if its title and the path
of the script keep their rules. -/
theorem check_eq_ok_iff_of_absent (habsent : job.ensure = .absent) :
    job.check = .ok () ↔
      Check.title job.title = none ∧ Check.absolute job.scriptPath = none := by
  rw [← removalIssues_eq_nil_iff, check_of_absent habsent]
  cases job.removalIssues <;> simp

/-- Whether its script is to be written or removed, an accepted job has a title that
can name a file, and a script at an absolute path. -/
theorem title_and_path_of_check_eq_ok (h : job.check = .ok ()) :
    Check.isTitle job.title = true ∧ job.scriptPath.isAbsolute = true := by
  rw [← Check.title_eq_none_iff, ← Check.absolute_eq_none_iff]
  cases hensure : job.ensure with
  | absent => exact (check_eq_ok_iff_of_absent hensure).mp h
  | present =>
      have hclear := fieldChecks_clear_iff.mp ((check_eq_ok_iff hensure).mp h).2
      exact ⟨hclear.1, hclear.2.2.2.2.2.2.1⟩

/-- The verdict on a job cannot be reported exactly if the rules on the whole job
let it pass and a field at fault holds a value that cannot be shown. -/
theorem check_eq_unreportable_iff_exists_check :
    job.check = .error .unreportable ↔
      job.ensure = .present ∧ job.structuralCause = none ∧
        ∃ check ∈ job.fieldChecks, check.IsUnreportable := by
  rw [← Issues.collect_eq_error_iff]
  cases hensure : job.ensure with
  | absent =>
      cases hissues : job.removalIssues <;> simp [check, hensure, hissues]
  | present =>
      cases hcause : job.structuralCause with
      | some cause => simp [check, hensure, hcause]
      | none =>
          cases hfound : Issues.collect job.fieldChecks with
          | error => simp [check, hensure, hcause, hfound]
          | ok issues => cases issues <;> simp [check, hensure, hcause, hfound]

/-- A field of the job is at fault and holds a path that is no text, so that no
report can show it: a list of directories with a relative path and a path that is
no text, which need not be the same, or a single relative path that is no text. -/
def HoldsUnshowablePath (job : ResolvedJob) : Prop :=
  ((∃ dir ∈ job.directories, dir.isAbsolute = false) ∧
    ∃ dir ∈ job.directories, dir.toText? = none) ∨
  (∃ path, job.sshIdentity = some path ∧ path.isAbsolute = false ∧ path.toText? = none) ∨
  (job.scriptPath.isAbsolute = false ∧ job.scriptPath.toText? = none)

/-- Nothing can be reported on the job: its script is to be written, the rules on
the whole job let it pass, and a field at fault cannot be shown. -/
def IsUnreportable (job : ResolvedJob) : Prop :=
  job.ensure = .present ∧ job.structuralCause = none ∧ job.HoldsUnshowablePath

/-- A list of paths cannot be written exactly if one of them is no text. -/
theorem paths_toJson?_eq_none_iff {paths : List UnixPath} :
    (paths.mapM UnixPath.toJson?).map Json.list = none ↔ ∃ path ∈ paths, path.toText? = none := by
  simp [mapM_eq_none_iff, UnixPath.toJson?]

/-- The checks that cannot be reported are those of paths. -/
theorem exists_unreportable_check_iff :
    (∃ check ∈ job.fieldChecks, check.IsUnreportable) ↔ job.HoldsUnshowablePath := by
  have hdirectories : Check.allAbsolute job.directories ≠ none ↔
      ∃ dir ∈ job.directories, dir.isAbsolute = false := by
    rw [Ne, Check.allAbsolute_eq_none_iff]
    simp
  have hidentity : (job.sshIdentity.bind Check.absolute ≠ none ∧
        job.sshIdentity.bind UnixPath.toJson? = none) ↔
      ∃ path, job.sshIdentity = some path ∧ path.isAbsolute = false ∧ path.toText? = none := by
    cases job.sshIdentity <;> simp [Check.absolute_eq_none_iff, UnixPath.toJson?]
  have hinterval : ¬ (job.removeOlderThan.bind Check.interval ≠ none ∧
      job.removeOlderThan.map Json.text = none) := by
    cases job.removeOlderThan <;> simp
  have hscript : (Check.absolute job.scriptPath ≠ none ∧ job.scriptPath.toJson? = none) ↔
      job.scriptPath.isAbsolute = false ∧ job.scriptPath.toText? = none := by
    simp [Check.absolute_eq_none_iff, UnixPath.toJson?]
  simp only [fieldChecks, List.mem_cons, exists_eq_or_imp, List.not_mem_nil, exists_eq_left,
    FieldCheck.IsUnreportable, hdirectories, paths_toJson?_eq_none_iff, hidentity,
    hinterval, hscript, HoldsUnshowablePath, reduceCtorEq, and_false, false_or, or_false]

/-- The verdict on a job cannot be reported, in terms of its paths. -/
theorem check_eq_unreportable_iff :
    job.check = .error .unreportable ↔ job.IsUnreportable := by
  rw [check_eq_unreportable_iff_exists_check, exists_unreportable_check_iff, IsUnreportable]

/-- Every rejection by the checks names its job. -/
theorem title_of_check_eq_rejected {rejection : Rejection}
    (h : job.check = .error (.rejected rejection)) : rejection.title = job.title := by
  unfold check at h
  grind

/-- A destination is refused in the name of the job. -/
theorem title_of_destination_eq_error {rejection : Rejection}
    (h : job.destination = .error rejection) : rejection.title = job.title := by
  unfold destination at h
  grind

/-! ### The end of a compilation -/

/-- **The four ends of a compilation**: a verdict against the job, the order to
remove its script, no destination, or a script for its destination. -/
theorem compile_cases (job : ResolvedJob) :
    (∃ failure, job.check = .error failure ∧ job.compile = ⟨.error failure, []⟩) ∨
    (job.check = .ok () ∧ job.ensure = .absent ∧
      job.compile = ⟨.ok job.compileRemoval.value, job.compileRemoval.log⟩) ∨
    (job.check = .ok () ∧ job.ensure = .present ∧
      ∃ rejection, job.destination = .error rejection ∧
        job.compile = ⟨.error (.rejected rejection), []⟩) ∨
    (job.check = .ok () ∧ job.ensure = .present ∧
      ∃ destination, job.destination = .ok destination ∧
        job.compile =
          ⟨.ok (job.compileTo destination).value, (job.compileTo destination).log⟩) := by
  cases hcheck : job.check with
  | error failure => exact Or.inl ⟨failure, rfl, by simp [compile, hcheck]⟩
  | ok done =>
      refine Or.inr ?_
      cases hensure : job.ensure with
      | absent => exact Or.inl ⟨rfl, rfl, by simp [compile, hcheck, hensure]⟩
      | present =>
          refine Or.inr ?_
          cases hplace : job.destination with
          | error rejection =>
              exact Or.inl ⟨rfl, rfl, rejection, rfl, by simp [compile, hcheck, hensure, hplace]⟩
          | ok destination =>
              exact Or.inr ⟨rfl, rfl, destination, rfl, by
                simp [compile, hcheck, hensure, hplace]⟩

/-- A job that passes the checks has a destination, so what fails to compile is what the
checks speak against. -/
theorem check_of_compile_eq_error {failure : Failure} (h : job.compile.value = .error failure) :
    job.check = .error failure := by
  rcases job.compile_cases with ⟨failure', hcheck, hc⟩ | ⟨-, -, hc⟩ |
    ⟨hcheck, hpresent, rejection, hplace, -⟩ | ⟨-, -, destination, -, hc⟩
  · rw [hc] at h
    cases h
    exact hcheck
  · simp [hc] at h
  · have hcause := ((check_eq_ok_iff hpresent).mp hcheck).1
    obtain ⟨destination, hsome⟩ := exists_destination_of_structuralCause_eq_none hcause
    rw [hplace] at hsome
    cases hsome
  · simp [hc] at h

/-- A job fails with what the checks find, and only with that. -/
theorem compile_eq_error_iff {failure : Failure} :
    job.compile.value = .error failure ↔ job.check = .error failure := by
  constructor
  · exact check_of_compile_eq_error
  · intro hcheck
    simp only [compile, hcheck]

/-- What is accepted and has a destination compiles to a script for it. -/
theorem compile_eq_ok (hpresent : job.ensure = .present) (hcheck : job.check = .ok ())
    {destination : Destination} (hplace : job.destination = .ok destination) :
    job.compile.value = .ok (job.compileTo destination).value := by
  simp only [compile, hcheck, hpresent, hplace]

/-- Compiling a job ends without a report exactly if nothing can be reported on it. -/
theorem compile_eq_unreportable_iff :
    job.compile.value = .error .unreportable ↔ job.IsUnreportable := by
  rw [compile_eq_error_iff, check_eq_unreportable_iff]

/-- Every rejection names its job. -/
theorem title_of_compile_eq_rejected {rejection : Rejection}
    (h : job.compile.value = .error (.rejected rejection)) : rejection.title = job.title :=
  title_of_check_eq_rejected (check_of_compile_eq_error h)

/-- Every compiled job has the title of its declaration. -/
theorem title_of_compile_eq_ok {done : CompiledJob}
    (h : job.compile.value = .ok done) : done.title = job.title := by
  rcases job.compile_cases with ⟨failure, -, hc⟩ | ⟨-, -, hc⟩ |
    ⟨-, -, rejection, -, hc⟩ | ⟨-, -, destination, -, hc⟩
  · simp [hc] at h
  · rw [hc] at h
    cases h
    rfl
  · simp [hc] at h
  · rw [hc] at h
    cases h
    rfl

/-- A job that compiles was accepted, and its script is where the job has it. -/
theorem check_of_compile_eq_ok {done : CompiledJob} (h : job.compile.value = .ok done) :
    job.check = .ok () ∧ done.script.path = job.scriptPath := by
  rcases job.compile_cases with ⟨failure, -, hc⟩ | ⟨hcheck, -, hc⟩ |
    ⟨-, -, rejection, -, hc⟩ | ⟨hcheck, -, destination, -, hc⟩
  · simp [hc] at h
  · rw [hc] at h
    cases h
    exact ⟨hcheck, rfl⟩
  · simp [hc] at h
  · rw [hc] at h
    cases h
    exact ⟨hcheck, rfl⟩

/-- A compiled job that is to be written was accepted and has a destination. -/
theorem exists_destination_of_compile_eq_ok {done : CompiledJob}
    (hpresent : job.ensure = .present) (h : job.compile.value = .ok done) :
    job.check = .ok () ∧ ∃ destination, job.destination = .ok destination ∧
      done = (job.compileTo destination).value := by
  rcases job.compile_cases with ⟨failure, -, hc⟩ | ⟨-, habsent, -⟩ | ⟨-, -, rejection, -, hc⟩ |
    ⟨hcheck, -, destination, hplace, hc⟩
  · simp [hc] at h
  · simp [hpresent] at habsent
  · simp [hc] at h
  · rw [hc] at h
    exact ⟨hcheck, destination, hplace, (Except.ok.inj h).symm⟩

end ResolvedJob

/-- A job on which nothing can be reported: its directory is a relative path and
no text. -/
def unshowableJob : JobSpec where
  title := "db"
  directories := [⟨[0xFF]⟩]
  bucket := .value "archive"
  destKey := .value ⟨"secret"⟩
  hostIdentifier := some "web"

end BackupPlan
