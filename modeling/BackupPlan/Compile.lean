import BackupPlan.Job.Check
import BackupPlan.Script

/-!
# From a declared job to its script

A job is settled, checked, given a destination and written as a script.  The
result depends on the job and the defaults alone, and jobs of one batch do not
see each other.
-/

namespace BackupPlan

/-- What becomes of a job that is accepted. -/
structure CompiledJob where
  title : String
  script : Script
  keyImport : Option KeyImport
  deriving DecidableEq

namespace CompiledJob

/-- A compiled job as JSON, if the path of its script is a text. -/
def toJson? (job : CompiledJob) : Option Json :=
  job.script.toJson?.map fun script =>
    .object ([("title", .text job.title), ("script", script)] ++
      (job.keyImport.map fun action => ("key_import", action.toJson)).toList)

end CompiledJob

/-- What has come out for one job. -/
abbrev Outcome := Except Failure CompiledJob

namespace ResolvedJob

/-- The script and the key import of a job with its destination. -/
def compileTo (job : ResolvedJob) (destination : Destination) : Logged CompiledJob :=
  let chain := commandChain job destination
  let script := Script.render job (environment job destination) chain
  { value := { title := job.title, script, keyImport := KeyImport.ofJob job }
    log := [destination.record job] ++ credentialRecords job destination ++
      [⟨.info, .compilation, "Compiled job " ++ Text.quoted job.title ++ " into " ++
        script.path.quoted ++ " (" ++ toString chain.commands.length ++ " command(s))"⟩] }

/-- The order to remove the script of a job. -/
def compileRemoval (job : ResolvedJob) : Logged CompiledJob where
  value := { title := job.title, script := .removed job.scriptPath, keyImport := none }
  log := [⟨.debug, .compilation,
    "Job " ++ Text.quoted job.title ++ " is absent, emitting removal marker"⟩]

/-- Checks a job and writes its script. -/
def compile (job : ResolvedJob) : Logged Outcome :=
  match job.check with
  | .error failure => ⟨.error failure, []⟩
  | .ok () =>
    match job.ensure with
    | .absent => let done := job.compileRemoval; ⟨.ok done.value, done.log⟩
    | .present =>
      match job.destination with
      | .error rejection => ⟨.error (.rejected rejection), []⟩
      | .ok destination => let done := job.compileTo destination; ⟨.ok done.value, done.log⟩

end ResolvedJob

namespace JobSpec

/-- The record on a key file that is dropped. -/
def resolutionRecords (job : JobSpec) : List Record :=
  (job.ignoredIdentity.map fun path =>
    ⟨.debug, .resolution, "Job " ++ Text.quoted job.title ++
      " has no target, ignoring ssh identity " ++ path.quoted⟩).toList

/-- Settles a job against the defaults, checks it and writes its script. -/
def compile (job : JobSpec) (defaults : Defaults) : Logged Outcome :=
  let done := (job.resolve defaults).compile
  ⟨done.value, job.resolutionRecords ++ done.log⟩

end JobSpec

/-- What has come out for a job that could be reported on. -/
abbrev Reported := Except Rejection CompiledJob

/-- An outcome that can be reported. -/
def Outcome.reported? : Outcome → Option Reported
  | .ok job => some (.ok job)
  | .error (.rejected r) => some (.error r)
  | .error .unreportable => none

/-- The jobs that have been compiled, in order. -/
def successes (outcomes : List Reported) : List CompiledJob :=
  outcomes.filterMap Except.toOption

/-- The jobs that have been rejected, in order. -/
def rejections (outcomes : List Reported) : List Rejection :=
  outcomes.filterMap fun
    | .ok _ => none
    | .error r => some r

/-- Compiles jobs one by one, in order.  There is no result if there is a job
that cannot be reported on. -/
def compileBatch (defaults : Defaults) (jobs : List JobSpec) : Logged (Option (List Reported)) :=
  let all := jobs.map (·.compile defaults)
  ⟨all.mapM (·.value.reported?), all.flatMap (·.log)⟩

end BackupPlan
