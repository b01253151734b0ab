import BackupPlan.Check.Rules
import BackupPlan.Job.Resolved
import BackupPlan.Job.Writing
import BackupPlan.Rejection

/-!
# Checks of settled jobs

The rules on the whole job come first, in a fixed order, and the first that
fails is reported.  The rules on single fields come last and are reported all
together.  A job whose script is to be removed is checked only for what the
removal needs: the title and the path of the script.
-/

namespace BackupPlan.ResolvedJob

/-- The checks of the fields of a job, in order. -/
def fieldChecks (job : ResolvedJob) : List FieldCheck :=
  [ ⟨"title", Check.title job.title, some (.text job.title)⟩,
    ⟨"directories", Check.allAbsolute job.directories,
      (job.directories.mapM UnixPath.toJson?).map .list⟩,
    ⟨"ssh_identity", job.sshIdentity.bind Check.absolute, job.sshIdentity.bind UnixPath.toJson?⟩,
    ⟨"pubkey_ids", Check.keyIds job.pubkeyIds, some (.list (job.pubkeyIds.map .text))⟩,
    ⟨"full_if_older_than", Check.interval job.fullIfOlderThan, some (.text job.fullIfOlderThan)⟩,
    ⟨"remove_older_than", job.removeOlderThan.bind Check.interval,
      job.removeOlderThan.map .text⟩,
    ⟨"script_path", Check.absolute job.scriptPath, job.scriptPath.toJson?⟩,
    ⟨"keyserver", Check.keyserver job.keyserver, some (.text job.keyserver)⟩ ]

/-- What is wrong with a job whose script is to be removed. -/
def removalIssues (job : ResolvedJob) : Issues :=
  let found (field : String) (finding : Option Issue) : Issues :=
    finding.toList.map fun issue => (field, .own [issue])
  found "title" (Check.title job.title) ++ found "script_path" (Check.absolute job.scriptPath)

/-- The first rule on the whole job that fails, if any. -/
def structuralCause (job : ResolvedJob) : Option Cause :=
  match job.target, job.bucket with
  | some target, bucket =>
    if bucket.isSome || job.provider.isSome then
      some (.conflictingDestination target bucket job.provider)
    else if job.directories = [] then some .missingSource
    else none
  | none, none => some .missingDestination
  | none, some bucket =>
    if job.directories = [] then some .missingSource
    else if job.destId.isNone && job.destKey.isNone then some (.missingCredentials bucket)
    else if job.usesS3Layout && job.hostIdentifier.isNone then some (.missingHostIdentifier bucket)
    else none

/-- Accepts a job, or says why not. -/
def check (job : ResolvedJob) : Except Failure Unit :=
  let rejected (cause : Cause) : Except Failure Unit := .error (.rejected ⟨job.title, cause⟩)
  let verdict (issues : Issues) : Except Failure Unit :=
    if issues.isEmpty then .ok () else rejected (.invalidFields issues)
  match job.ensure with
  | .absent => verdict job.removalIssues
  | .present =>
    match job.structuralCause with
    | some cause => rejected cause
    | none =>
      match Issues.collect job.fieldChecks with
      | .error .mk => .error .unreportable
      | .ok issues => verdict issues

end BackupPlan.ResolvedJob
