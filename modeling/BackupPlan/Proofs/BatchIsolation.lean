import BackupPlan.Proofs.Acceptance

/-!
# Failures stay with their jobs

Compiling a batch gives one result a job, at the place of the job and as if it
were compiled alone.  There is one way to lose this: a job on which nothing can
be reported takes the whole batch with it.

* `compileBatch_eq_some_iff`, `successes_eq_filterMap` — the results of a batch are those
  of its jobs, each compiled alone;
* `compileBatch_eq_none_iff` — a batch without results has a job without a report;
* `compileBatch_set` — another job in one place changes the result in that place;
* `failures_stay_with_their_jobs` — when a batch is isolated.
-/

namespace BackupPlan

/-! ### Outcomes and reports -/

/-- What has come out for a job, from what is reported of it. -/
def Reported.outcome : Reported → Outcome
  | .ok done => .ok done
  | .error rejection => .error (.rejected rejection)

/-- What is reported of a job names it: by the title of its compiled form, or by that
of its rejection. -/
def Reported.Names (title : String) : Reported → Prop
  | .ok done => done.title = title
  | .error rejection => rejection.title = title

namespace Outcome

/-- A result is reported exactly for the outcome that carries it. -/
theorem reported?_eq_some_iff {outcome : Outcome} {result : Reported} :
    outcome.reported? = some result ↔ outcome = result.outcome := by
  rcases outcome with (rejection | _) | done <;> rcases result with other | other <;>
    simp [reported?, Reported.outcome]

/-- The one outcome without a result is the failure that cannot be reported. -/
theorem reported?_eq_none_iff {outcome : Outcome} :
    outcome.reported? = none ↔ outcome = .error .unreportable := by
  rcases outcome with (rejection | _) | done <;> simp [reported?]

end Outcome

/-- Nothing is reported of a job exactly if nothing can be. -/
theorem JobSpec.reported?_compile_eq_none_iff {job : JobSpec} {defaults : Defaults} :
    (job.compile defaults).value.reported? = none ↔ (job.resolve defaults).IsUnreportable := by
  rw [Outcome.reported?_eq_none_iff, ← ResolvedJob.compile_eq_unreportable_iff]
  rfl

/-- What is reported of a job names it. -/
theorem JobSpec.names_of_compile_eq {job : JobSpec} {defaults : Defaults} {result : Reported}
    (h : (job.compile defaults).value = result.outcome) : result.Names job.title := by
  cases result with
  | ok done => exact ResolvedJob.title_of_compile_eq_ok h
  | error rejection => exact ResolvedJob.title_of_compile_eq_rejected h

/-! ### Batches -/

variable {defaults : Defaults} {jobs : List JobSpec} {results : List Reported}

/-- The results of a batch are those of its jobs, each compiled alone. -/
theorem compileBatch_eq_some_iff :
    (compileBatch defaults jobs).value = some results ↔
      List.Forall₂ (fun job result => (job.compile defaults).value = Reported.outcome result)
        jobs results := by
  rw [compileBatch, List.mapM_map, mapM_eq_some_iff]
  simp only [Function.comp_apply, Outcome.reported?_eq_some_iff]

/-- The successes of a batch are what its jobs compile to, each compiled alone. -/
theorem successes_eq_filterMap (h : (compileBatch defaults jobs).value = some results) :
    successes results = jobs.filterMap fun job => (job.compile defaults).value.toOption := by
  refine (filterMap_eq_of_forall₂ (compileBatch_eq_some_iff.mp h) fun job result hjob => ?_).symm
  rw [hjob]
  cases result <;> rfl

/-- A batch has no results exactly if nothing can be reported on one of its jobs. -/
theorem compileBatch_eq_none_iff :
    (compileBatch defaults jobs).value = none ↔
      ∃ job ∈ jobs, (job.resolve defaults).IsUnreportable := by
  rw [compileBatch, List.mapM_map, mapM_eq_none_iff]
  simp only [Function.comp_apply, JobSpec.reported?_compile_eq_none_iff]

/-- Another job in one place of a batch changes the result in that place only. -/
theorem compileBatch_set {job : JobSpec} {result : Reported}
    (h : (compileBatch defaults jobs).value = some results)
    (hjob : (job.compile defaults).value = result.outcome) (i : Nat) :
    (compileBatch defaults (jobs.set i job)).value = some (results.set i result) := by
  rw [compileBatch_eq_some_iff] at h ⊢
  exact forall₂_set h hjob i

/-- The failures of a batch stay with their jobs: there is one result a job, in the
place of the job, naming it and as if the job were compiled alone. -/
def IsIsolated (defaults : Defaults) (jobs : List JobSpec) : Prop :=
  ∃ results, (compileBatch defaults jobs).value = some results ∧
    results.length = jobs.length ∧
    ∀ (i : Nat) (job : JobSpec), jobs[i]? = some job →
      ∃ result : Reported, results[i]? = some result ∧
        (job.compile defaults).value = result.outcome ∧ result.Names job.title

/-- A batch on whose every job something can be reported is isolated. -/
theorem isIsolated_of_reportable
    (h : ∀ job ∈ jobs, ¬ (job.resolve defaults).IsUnreportable) : IsIsolated defaults jobs := by
  have hsome : (compileBatch defaults jobs).value ≠ none := by
    rw [Ne, compileBatch_eq_none_iff]
    rintro ⟨job, hmem, hpanic⟩
    exact h job hmem hpanic
  obtain ⟨results, hresults⟩ := Option.ne_none_iff_exists'.mp hsome
  have halone := compileBatch_eq_some_iff.mp hresults
  refine ⟨results, hresults, halone.length_eq.symm, ?_⟩
  intro i job hjob
  obtain ⟨result, hresult, hcompile⟩ := exists_getElem?_of_forall₂ halone hjob
  exact ⟨result, hresult, hcompile, JobSpec.names_of_compile_eq hcompile⟩

/-- **Failures stay with their jobs** exactly if something can be reported on every
job of the batch: no job whose script is to be written and which keeps the rules
on the whole job has a field at fault that holds a path that is no text.  Where a
batch has results, another job on which something can be reported changes the
result in its own place only. -/
theorem failures_stay_with_their_jobs (defaults : Defaults) (jobs : List JobSpec) :
    (IsIsolated defaults jobs ↔ ∀ job ∈ jobs, ¬ (job.resolve defaults).IsUnreportable) ∧
    ∀ (results : List Reported) (i : Nat) (job : JobSpec),
      (compileBatch defaults jobs).value = some results →
      ¬ (job.resolve defaults).IsUnreportable →
      ∃ result : Reported, (job.compile defaults).value = result.outcome ∧
        (compileBatch defaults (jobs.set i job)).value = some (results.set i result) := by
  refine ⟨⟨?_, isIsolated_of_reportable⟩, ?_⟩
  · rintro ⟨results, hresults, -⟩ job hmem hpanic
    have hnone := compileBatch_eq_none_iff.mpr ⟨job, hmem, hpanic⟩
    cases hresults.symm.trans hnone
  · intro results i job hresults hreportable
    have hreport : (job.compile defaults).value.reported? ≠ none := by
      rw [Ne, JobSpec.reported?_compile_eq_none_iff]
      exact hreportable
    obtain ⟨result, hresult⟩ := Option.ne_none_iff_exists'.mp hreport
    have hcompile := Outcome.reported?_eq_some_iff.mp hresult
    exact ⟨result, hcompile, compileBatch_set hresults hcompile i⟩

/-- A job that is accepted. -/
def plainJob : JobSpec where
  title := "etc"
  directories := [.ofText "/etc"]
  target := some "ssh://host//backups"

theorem failure_of_sourceless_job_stays_with_it :
    IsIsolated {} [plainJob, { title := "db" }] ∧
      ∃ result : Reported, (plainJob.compile {}).value = result.outcome ∧
        ∃ results : List Reported,
          (compileBatch {} [plainJob, plainJob]).value = some (results.set 1 result) := by
  obtain ⟨results, hresults⟩ :
    ∃ results, (compileBatch {} [plainJob, { title := "db" }]).value = some results := ⟨_, rfl⟩
  have hreportable : ∀ job ∈ [plainJob, { title := "db" }], ¬ (job.resolve {}).IsUnreportable := by
    intro job hmem hpanic
    cases hresults.symm.trans (compileBatch_eq_none_iff.mpr ⟨job, hmem, hpanic⟩)
  obtain ⟨hisolated, hset⟩ := failures_stay_with_their_jobs {} [plainJob, { title := "db" }]
  obtain ⟨result, hresult, hbatch⟩ :=
    hset results 1 plainJob hresults (hreportable plainJob (by simp))
  exact ⟨hisolated.mpr hreportable, result, hresult, results, hbatch⟩

/-- Isolation fails at a job whose rejection would have to show a path that is no text. -/
theorem unshowableJob_takes_its_batch_down :
    ¬ IsIsolated {} [plainJob, unshowableJob] := by
  have hnone : (compileBatch {} [plainJob, unshowableJob]).value = none := rfl
  rintro ⟨results, hresults, -⟩
  cases hresults.symm.trans hnone

end BackupPlan
