import BackupPlan.Check.Issue
import BackupPlan.Job.Basic

/-!
# Why a job is rejected

Every rejection names its job, so that the report on a batch stays readable.
-/

namespace BackupPlan

/-- The reasons for which a job has no script. -/
inductive Cause where
  /-- A remote URL stands beside a bucket or a provider. -/
  | conflictingDestination (target : String) (bucket : Option String) (provider : Option Provider)
  /-- There is neither a remote URL nor a bucket. -/
  | missingDestination
  /-- There is nothing to back up. -/
  | missingSource
  /-- A bucket has neither login name nor key. -/
  | missingCredentials (bucket : String)
  /-- A bucket that is addressed by machine name has none. -/
  | missingHostIdentifier (bucket : String)
  /-- Fields break the rules for their values. -/
  | invalidFields (issues : Issues)

/-- A job that is rejected, and why. -/
structure Rejection where
  /-- The name of the job. -/
  title : String
  /-- The reason. -/
  cause : Cause

/-- The reason of a rejection in words. -/
def Cause.message : Cause → String
  | conflictingDestination target bucket provider =>
    "target " ++ Text.quoted target ++ " conflicts with bucket " ++ Text.quotedOption bucket ++
      " / cloud provider " ++ Provider.quotedOption provider
  | missingDestination => "neither target nor bucket is set"
  | missingSource => "no directories to back up"
  | missingCredentials bucket =>
    "bucket " ++ Text.quoted bucket ++ " has neither dest_id nor dest_key"
  | missingHostIdentifier bucket =>
    "bucket " ++ Text.quoted bucket ++ " needs a host identifier to build its path"
  | invalidFields issues => issues.message

/-- A rejection in words. -/
def Rejection.message (r : Rejection) : String :=
  "job " ++ Text.quoted r.title ++ ": " ++ r.cause.message

/-- The two ways in which a job has no result: it is rejected, or the value at
fault cannot be written into the report on it. -/
inductive Failure where
  /-- The job is rejected. -/
  | rejected (r : Rejection)
  /-- The job breaks a rule with a value that no report can show. -/
  | unreportable

end BackupPlan
