import BackupPlan.Proofs.BatchIsolation
import BackupPlan.Session

/-!
# What a session keeps apart

A session loads files, changes the defaults of its configuration, makes compilers,
compiles jobs and hands out plans, in any order.  Its three parts never mix: the
compiler has the defaults of the moment at which it was made, the plan has what was
compiled since it was last taken, and a step that fails leaves everything as it was.

* `ResolvedJob.isWellFormed_of_compile_eq_ok` — what is true of every compiled job;
* `Session.step_cases` — the four things that a step can do;
* `Session.compiler_run`, `Session.plan_run`, `Session.isWellFormed_run` — what many steps
  do to the compiler and to the plan;
* `sessions_keep_their_parts_apart` — every state that a session reaches.
-/

namespace BackupPlan

/-! ### Compiled jobs -/

/-- What is true of every job in a plan. -/
structure CompiledJob.IsWellFormed (done : CompiledJob) : Prop where
  title : Check.title done.title = none
  path : done.script.path.isAbsolute = true
  owner : done.script.owner = "root"
  mode : done.script.mode = 0o700
  /-- A script that is to exist has a content, and one that is to be removed has none. -/
  content : done.script.content ≠ none ↔ done.script.ensure = .present
  newline : ∀ text, done.script.content = some text → ∃ lines, text = lines ++ "\n"
  keyImport : done.keyImport ≠ none → done.script.ensure = .present

namespace ResolvedJob

variable {job : ResolvedJob} {done : CompiledJob}

/-- **Every compiled job is well-formed.** -/
theorem isWellFormed_of_compile_eq_ok (h : job.compile.value = .ok done) : done.IsWellFormed := by
  obtain ⟨hcheck, hpath⟩ := check_of_compile_eq_ok h
  obtain ⟨hname, habsolute⟩ := title_and_path_of_check_eq_ok hcheck
  have htitle : Check.title done.title = none := by
    rw [title_of_compile_eq_ok h]
    exact Check.title_eq_none_iff.mpr hname
  have hroot : done.script.path.isAbsolute = true := by rwa [hpath]
  rcases job.compile_cases with ⟨failure, -, hc⟩ | ⟨-, -, hc⟩ | ⟨-, -, rejection, -, hc⟩ |
    ⟨-, -, destination, -, hc⟩
  · simp [hc] at h
  · rw [hc] at h
    cases h
    have hcontent : job.compileRemoval.value.script.content = none := rfl
    refine ⟨htitle, hroot, rfl, rfl, ⟨fun hsome => absurd hcontent hsome, fun hpresent => ?_⟩,
      fun text htext => ?_, fun hsome => absurd rfl hsome⟩
    · cases hpresent
    · cases htext
  · simp [hc] at h
  · rw [hc] at h
    cases h
    refine ⟨htitle, hroot, rfl, rfl, ⟨fun _ => rfl, fun _ hnone => ?_⟩, fun text htext => ?_,
      fun _ => rfl⟩
    · cases hnone
    · cases htext
      exact ⟨_, rfl⟩

end ResolvedJob

namespace Session

/-! ### Steps and answers -/

/-- The jobs that an answer tells to have compiled, in order. -/
def Answer.compiled : Answer → List CompiledJob
  | .outcome result => result.toOption.toList
  | .outcomes results => (results.getD []).filterMap Except.toOption
  | _ => []

/-- The steps that compile. -/
inductive Step.Compiles : Step → Prop
  | compile (job : JobSpec) : Compiles (.compile job)
  | compileAt (index : Nat) : Compiles (.compileAt index)
  | compileAll : Compiles .compileAll

variable (s : Session) (step : Step)

/-- **The four things that a step can do**: change the configuration, make a compiler,
add to the plan the successes that it answers with, and take the plan. -/
theorem step_cases :
    (¬ step.Compiles ∧ (s.step step).2.compiled = [] ∧
      ∃ config, (s.step step).1 = { s with config }) ∨
    (step = .newCompiler ∧
      s.step step = ({ s with compiler := s.config.defaults }, .defaults s.config.defaults)) ∨
    (step.Compiles ∧
      (s.step step).1 = { s with plan := s.plan ++ (s.step step).2.compiled }) ∨
    (step = .takePlan ∧ s.step step = ({ s with plan := [] }, .plan s.plan)) := by
  cases step with
  | load path file =>
      refine Or.inl ⟨nofun, ?_⟩
      rw [Session.step]
      cases Config.load path file with
      | error report => exact ⟨rfl, s.config, rfl⟩
      | ok config => exact ⟨rfl, config, rfl⟩
  | view => exact Or.inl ⟨nofun, rfl, s.config, rfl⟩
  | setHost host => exact Or.inl ⟨nofun, rfl, _, rfl⟩
  | setDefaults defaults => exact Or.inl ⟨nofun, rfl, _, rfl⟩
  | validate => exact Or.inl ⟨nofun, rfl, s.config, rfl⟩
  | newCompiler => exact Or.inr (Or.inl ⟨rfl, rfl⟩)
  | compile job => exact Or.inr (Or.inr (Or.inl ⟨.compile job, rfl⟩))
  | compileAt index =>
      refine Or.inr (Or.inr (Or.inl ⟨.compileAt index, ?_⟩))
      cases hjob : s.config.jobs[index]? with
      | none => simp [Session.step, hjob, Answer.compiled]
      | some job => simp [Session.step, hjob, compileJob, Answer.compiled]
  | compileAll =>
      refine Or.inr (Or.inr (Or.inl ⟨.compileAll, ?_⟩))
      cases hbatch : (compileBatch s.compiler s.config.jobs).value with
      | none => simp [Session.step, hbatch, Answer.compiled]
      | some results => simp [Session.step, hbatch, Answer.compiled, successes]
  | takePlan => exact Or.inr (Or.inr (Or.inr ⟨rfl, rfl⟩))

/-- A step that compiles adds to the plan what it answers with, and changes nothing else. -/
theorem step_of_compiles (h : step.Compiles) :
    (s.step step).1 = { s with plan := s.plan ++ (s.step step).2.compiled } := by
  rcases s.step_cases step with ⟨hother, -⟩ | ⟨rfl, -⟩ | ⟨-, hs⟩ | ⟨rfl, -⟩
  · exact absurd h hother
  · cases h
  · exact hs
  · cases h

/-- What a step answers as compiled is well-formed. -/
theorem isWellFormed_of_mem_compiled :
    ∀ done ∈ (s.step step).2.compiled, done.IsWellFormed := by
  have hone : ∀ job : JobSpec, ∀ done ∈ (s.compileJob job).2.compiled, done.IsWellFormed := by
    intro job done hdone
    have hcompile : (job.compile s.compiler).value = .ok done :=
      toOption_eq_some_iff.mp (Option.mem_toList.mp hdone)
    exact ResolvedJob.isWellFormed_of_compile_eq_ok hcompile
  cases step with
  | load path file =>
      cases hload : Config.load path file <;> simp [Session.step, hload, Answer.compiled]
  | compile job => exact hone job
  | compileAt index =>
      cases hjob : s.config.jobs[index]? with
      | none => simp [Session.step, hjob, Answer.compiled]
      | some job => simpa only [Session.step, hjob] using hone job
  | compileAll =>
      cases hbatch : (compileBatch s.compiler s.config.jobs).value with
      | none => simp [Session.step, hbatch, Answer.compiled]
      | some results =>
          simp only [Session.step, hbatch, Answer.compiled, Option.getD_some]
          intro done hdone
          rw [← successes, successes_eq_filterMap hbatch] at hdone
          obtain ⟨job, -, hjob⟩ := List.mem_filterMap.mp hdone
          exact ResolvedJob.isWellFormed_of_compile_eq_ok (toOption_eq_some_iff.mp hjob)
  | _ => simp [Session.step, Answer.compiled]

/-! ### Many steps -/

/-- A run in two parts answers what the parts answer, one after the other. -/
theorem run_append (first rest : List Step) :
    s.run (first ++ rest) =
      (((s.run first).1.run rest).1, (s.run first).2 ++ ((s.run first).1.run rest).2) := by
  induction first generalizing s with
  | nil => rfl
  | cons step first ih => simp only [List.cons_append, run, ih]

/-- Only making a compiler changes the compiler. -/
theorem compiler_run {steps : List Step} (h : .newCompiler ∉ steps) :
    (s.run steps).1.compiler = s.compiler := by
  induction steps generalizing s with
  | nil => rfl
  | cons step steps ih =>
      rw [List.mem_cons, not_or] at h
      obtain ⟨hfirst, hrest⟩ := h
      have hstep : (s.step step).1.compiler = s.compiler := by
        rcases s.step_cases step with ⟨-, -, config, hs⟩ | ⟨hnew, -⟩ | ⟨-, hs⟩ | ⟨-, hs⟩
        · rw [hs]
        · exact absurd hnew.symm hfirst
        · rw [hs]
        · rw [hs]
      exact (ih _ hrest).trans hstep

/-- Until the plan is taken, it grows by the successes that are answered. -/
theorem plan_run {steps : List Step} (h : .takePlan ∉ steps) :
    (s.run steps).1.plan = s.plan ++ (s.run steps).2.flatMap Answer.compiled := by
  induction steps generalizing s with
  | nil => simp [run]
  | cons step steps ih =>
      rw [List.mem_cons, not_or] at h
      obtain ⟨hfirst, hrest⟩ := h
      have hstep : (s.step step).1.plan = s.plan ++ (s.step step).2.compiled := by
        rcases s.step_cases step with ⟨-, hnone, config, hs⟩ | ⟨-, hs⟩ | ⟨-, hs⟩ | ⟨htake, -⟩
        · rw [hnone, hs, List.append_nil]
        · rw [hs]
          exact (List.append_nil _).symm
        · rw [hs]
        · exact absurd htake.symm hfirst
      have hthen : (s.run (step :: steps)).1.plan =
          (s.step step).1.plan ++ ((s.step step).1.run steps).2.flatMap Answer.compiled :=
        ih (s.step step).1 hrest
      rw [hthen, hstep, List.append_assoc]
      rfl

/-- A plan of well-formed jobs stays one. -/
theorem isWellFormed_run {steps : List Step} (h : ∀ done ∈ s.plan, done.IsWellFormed) :
    ∀ done ∈ (s.run steps).1.plan, done.IsWellFormed := by
  induction steps generalizing s with
  | nil => exact h
  | cons step steps ih =>
      refine ih (s.step step).1 ?_
      rcases s.step_cases step with ⟨-, -, config, hs⟩ | ⟨-, hs⟩ | ⟨-, hs⟩ | ⟨-, hs⟩
      · rwa [hs]
      · rwa [hs]
      · rw [hs]
        exact List.forall_mem_append.mpr ⟨h, s.isWellFormed_of_mem_compiled step⟩
      · rw [hs]
        exact List.forall_mem_nil _

/-! ### The states that a session reaches -/

/-- The state that steps lead to from the beginning: the configuration and the compiler
are the default ones, and the plan is empty. -/
def reached (steps : List Step) : Session :=
  (run {} steps).1

/-- What holds where steps lead. -/
structure KeepsApart (steps : List Step) : Prop where
  /-- As long as no compiler is made, the compiler has the default defaults, -/
  compiler_default : .newCompiler ∉ steps → (reached steps).compiler = {}
  /-- and then those that the configuration had when the last one was made. -/
  compiler_made : ∀ before rest, steps = before ++ .newCompiler :: rest → .newCompiler ∉ rest →
    (reached steps).compiler = (reached before).config.defaults
  /-- A file that is not loaded changes nothing. -/
  failed_load : ∀ path file report, Config.load path file = .error report →
    (reached steps).step (.load path file) = (reached steps, .report report)
  /-- A job is compiled with the defaults of the compiler, -/
  compile_answer : ∀ job, ((reached steps).step (.compile job)).2 =
    .outcome (job.compile (reached steps).compiler).value
  /-- also if it is one of the configuration, -/
  compileAt_answer : ∀ index job, (reached steps).config.jobs[index]? = some job →
    ((reached steps).step (.compileAt index)).2 =
      .outcome (job.compile (reached steps).compiler).value
  /-- or if all of them are compiled at once. -/
  compileAll_answer : ((reached steps).step .compileAll).2 =
    .outcomes (compileBatch (reached steps).compiler (reached steps).config.jobs).value
  /-- Jobs that compile are added to the plan and change nothing else, -/
  compile_state : ∀ step : Step, step.Compiles → ((reached steps).step step).1 =
    { reached steps with
      plan := (reached steps).plan ++ ((reached steps).step step).2.compiled }
  /-- so that jobs that fail to compile change nothing at all. -/
  failed_compile : ∀ step : Step, step.Compiles → ((reached steps).step step).2.compiled = [] →
    ((reached steps).step step).1 = reached steps
  /-- As long as the plan is not taken, it holds the successes of all answers, in order, -/
  plan_begun : .takePlan ∉ steps →
    (reached steps).plan = (run {} steps).2.flatMap Answer.compiled
  /-- and then those of the answers since it was last taken. -/
  plan_taken : ∀ before rest, steps = before ++ .takePlan :: rest → .takePlan ∉ rest →
    (reached steps).plan =
      ((reached (before ++ [.takePlan])).run rest).2.flatMap Answer.compiled
  /-- Every job in the plan is well-formed. -/
  wellFormed : ∀ done ∈ (reached steps).plan, done.IsWellFormed

/-- **Sessions keep their parts apart**, in every state that they reach. -/
theorem sessions_keep_their_parts_apart (steps : List Step) : KeepsApart steps where
  compiler_default h := compiler_run {} h
  compiler_made before rest hsteps h := by
    have hrun : reached steps = (((reached before).step .newCompiler).1.run rest).1 := by
      rw [reached, hsteps, run_append]
      rfl
    rw [hrun]
    exact compiler_run _ h
  failed_load path file report h := by simp only [Session.step, h]
  compile_answer job := rfl
  compileAt_answer index job h := by
    simp only [Session.step, h]
    rfl
  compileAll_answer := by
    cases hbatch : (compileBatch (reached steps).compiler (reached steps).config.jobs).value <;>
      simp [Session.step, hbatch]
  compile_state step h := (reached steps).step_of_compiles step h
  failed_compile step h hnone := by
    rw [step_of_compiles _ _ h, hnone, List.append_nil]
  plan_begun h := plan_run {} h
  plan_taken before rest hsteps h := by
    have hafter : reached (before ++ [.takePlan]) = { reached before with plan := [] } := by
      rw [reached, run_append]
      rfl
    have hrun : reached steps = ((reached (before ++ [.takePlan])).run rest).1 := by
      rw [hafter, reached, hsteps, run_append]
      rfl
    rw [hrun, plan_run _ h, hafter]
    rfl
  wellFormed := isWellFormed_run {} (List.forall_mem_nil _)

end Session

end BackupPlan
