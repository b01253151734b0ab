import BackupPlan.Compile
import BackupPlan.Config.Load

/-!
# Sessions

A session holds a configuration, the defaults of a compiler, and a plan.  The
compiler keeps the defaults that the configuration had when it was made; the plan
collects what has been compiled since it was last taken.
-/

namespace BackupPlan

/-- The state of a session. -/
structure Session where
  config : Config := {}
  compiler : Defaults := {}
  plan : List CompiledJob := []

namespace Session

/-- A step of a session. -/
inductive Step where
  | load (path : UnixPath) (file : FileContent)
  | view
  | setHost (host : Option String)
  | setDefaults (defaults : Defaults)
  | validate
  | newCompiler
  | compile (job : JobSpec)
  | compileAt (index : Nat)
  | compileAll
  | takePlan

/-- The answer to a step. -/
inductive Answer where
  | config (config : Config)
  | report (report : Report)
  | defaults (defaults : Defaults)
  | issues (issues : Except Unwritable Issues)
  | outcome (outcome : Outcome)
  | outcomes (outcomes : Option (List Reported))
  | noSuchJob
  | plan (jobs : List CompiledJob)

/-- Compiles a job and adds it to the plan. -/
def compileJob (s : Session) (job : JobSpec) : Session × Answer :=
  let outcome := (job.compile s.compiler).value
  ({ s with plan := s.plan ++ outcome.toOption.toList }, .outcome outcome)

/-- Makes a step. -/
def step (s : Session) : Step → Session × Answer
  | .load path file =>
    match Config.load path file with
    | .ok config => ({ s with config }, .config config)
    | .error report => (s, .report report)
  | .view => (s, .config s.config)
  | .setHost host =>
    let defaults := s.config.defaults.withHost host
    ({ s with config := { s.config with defaults } }, .defaults defaults)
  | .setDefaults defaults => ({ s with config := { s.config with defaults } }, .defaults defaults)
  | .validate => (s, .issues s.config.issues)
  | .newCompiler => ({ s with compiler := s.config.defaults }, .defaults s.config.defaults)
  | .compile job => s.compileJob job
  | .compileAt index =>
    match s.config.jobs[index]? with
    | some job => s.compileJob job
    | none => (s, .noSuchJob)
  | .compileAll =>
    match (compileBatch s.compiler s.config.jobs).value with
    | some outcomes => ({ s with plan := s.plan ++ successes outcomes }, .outcomes (some outcomes))
    | none => (s, .outcomes none)
  | .takePlan => ({ s with plan := [] }, .plan s.plan)

/-- Makes steps one after another, and collects the answers. -/
def run (s : Session) : List Step → Session × List Answer
  | [] => (s, [])
  | first :: rest =>
    let (s, answer) := s.step first
    let (s, answers) := s.run rest
    (s, answer :: answers)

end Session

end BackupPlan
