import BackupPlan.Job.Basic
import BackupPlan.Job.Distinct

/-!
# Jobs settled against the defaults

`JobSpec.resolve` gives every field of a job its final value.  A setting takes
its fallback only if it is left out; an empty text counts as none, and only
after the fallback was taken.  Directories and public keys lose their
repetitions, and a key file is kept only beside a remote target.
-/

namespace BackupPlan

/-- A job whose every field is settled. -/
structure ResolvedJob where
  /-- The name of the job. -/
  title : String
  /-- Whether the script is to exist. -/
  ensure : Ensure
  /-- What is backed up; no path twice. -/
  directories : List UnixPath
  /-- The bucket; not empty. -/
  bucket : Option String
  /-- The login name; not empty. -/
  destId : Option String
  /-- The login key; not empty. -/
  destKey : Option Secret
  /-- The service that holds the bucket. -/
  provider : Option Provider
  /-- The remote URL; not empty. -/
  target : Option String
  /-- The key file for the remote URL. -/
  sshIdentity : Option UnixPath
  /-- The public keys; none twice. -/
  pubkeyIds : List String
  /-- The age from which a new full backup is made. -/
  fullIfOlderThan : String
  /-- The age from which old backups are removed; not empty. -/
  removeOlderThan : Option String
  /-- The shell fragment that runs first; not empty. -/
  preCommand : Option String
  /-- The name of the machine; not empty. -/
  hostIdentifier : Option String
  /-- Where the script is written. -/
  scriptPath : UnixPath
  /-- The server from which missing public keys are fetched. -/
  keyserver : String
  deriving DecidableEq

/-- Takes an empty text for none. -/
def nonEmpty (value : Option String) : Option String :=
  value.filter (· ≠ "")

/-- The name of the script file of a job without a script path of its own. -/
def scriptFileName (title : String) : String :=
  title ++ ".sh"

/-- Settles every field of a job. -/
def JobSpec.resolve (job : JobSpec) (defaults : Defaults) : ResolvedJob where
  title := job.title
  ensure := job.ensure
  directories := distinctBy UnixPath.components job.directories
  bucket := nonEmpty (job.bucket.resolve defaults.bucket)
  destId := nonEmpty (job.destId.resolve defaults.destId)
  destKey := (job.destKey.resolve defaults.destKey).filter (·.reveal ≠ "")
  provider := job.provider.resolve none
  target := nonEmpty job.target
  sshIdentity := if (nonEmpty job.target).isSome then job.sshIdentity else none
  pubkeyIds := distinctBy id job.pubkeyIds
  fullIfOlderThan := job.fullIfOlderThan
  removeOlderThan := nonEmpty job.removeOlderThan
  preCommand := nonEmpty job.preCommand
  hostIdentifier := nonEmpty (job.hostIdentifier.or defaults.hostIdentifier)
  scriptPath := job.scriptPath.getD (defaults.spoolDir.join (.ofText (scriptFileName job.title)))
  keyserver := defaults.keyserver

/-- The key file that resolution drops because the job has no remote target. -/
def JobSpec.ignoredIdentity (job : JobSpec) : Option UnixPath :=
  if (nonEmpty job.target).isSome then none else job.sshIdentity

/-- Whether a bucket is addressed by machine and title. -/
def ResolvedJob.usesS3Layout (job : ResolvedJob) : Bool :=
  job.target.isNone && (job.provider.isNone || job.provider = some .s3)

end BackupPlan
