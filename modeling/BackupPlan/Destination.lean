import BackupPlan.Job.Resolved
import BackupPlan.Log
import BackupPlan.Rejection
import BackupPlan.Shell.Command

/-!
# Where a backup goes

A settled job leads to one destination.  Whatever comes after looks at the
destination only, never at the remote URL or the provider of the job.
-/

namespace BackupPlan

open Shell

/-- The bucket services with an addressing scheme of their own. -/
inductive ObjectStorage where
  | cloudFiles
  deriving DecidableEq

namespace ObjectStorage

/-- The service of a provider, if it has a scheme of its own. -/
def ofProvider : Provider → Option ObjectStorage
  | .s3 => none
  | .cloudFiles => some cloudFiles

/-- The scheme by which the service is addressed. -/
def scheme : ObjectStorage → String
  | cloudFiles => "cf"

/-- The environment variables for login name and key. -/
def credentialVariables : ObjectStorage → String × String
  | cloudFiles => ("CLOUDFILES_USERNAME", "CLOUDFILES_APIKEY")

end ObjectStorage

/-- The kinds of destinations. -/
inductive DestinationKind where
  | objectStorage (storage : ObjectStorage)
  | s3Compatible
  | remoteHost
  deriving DecidableEq

namespace DestinationKind

/-- The kind of a bucket. -/
def ofBucket : Option ObjectStorage → DestinationKind
  | none => s3Compatible
  | some storage => objectStorage storage

/-- The environment variables for login name and key, if the kind reads any. -/
def credentialVariables : DestinationKind → Option (String × String)
  | objectStorage storage => some storage.credentialVariables
  | s3Compatible => some ("AWS_ACCESS_KEY_ID", "AWS_SECRET_ACCESS_KEY")
  | remoteHost => none

/-- A kind as the log shows it. -/
def shown : DestinationKind → String
  | objectStorage .cloudFiles => "CloudObjectStorage(CloudFiles)"
  | s3Compatible => "S3Compatible"
  | remoteHost => "RemoteHost"

end DestinationKind

/-- A place that takes a backup. -/
structure Destination where
  kind : DestinationKind
  url : String
  extraFlags : List Arg
  deriving DecidableEq

/-- The flags that name a key file. -/
def identityFlags (identity : Option UnixPath) : List Arg :=
  match identity with
  | none => []
  | some path => [.word "--ssh-options", .assign "-oIdentityFile" path.lossyText]

/-- The destination of a job. -/
def ResolvedJob.destination (job : ResolvedJob) : Except Rejection Destination :=
  let storage := job.provider.bind ObjectStorage.ofProvider
  match job.target, job.bucket with
  | some target, _ => .ok ⟨.remoteHost, target, identityFlags job.sshIdentity⟩
  | none, none => .error ⟨job.title, .missingDestination⟩
  | none, some bucket =>
    match storage, job.hostIdentifier with
    | some s, _ => .ok ⟨.ofBucket storage, s.scheme ++ "+http://" ++ bucket, []⟩
    | none, none => .error ⟨job.title, .missingHostIdentifier bucket⟩
    | none, some host =>
      .ok ⟨.ofBucket storage, "s3+http://" ++ bucket ++ "/" ++ host ++ "/" ++ job.title ++ "/", []⟩

/-- The record on the destination of a job. -/
def Destination.record (d : Destination) (job : ResolvedJob) : Record :=
  ⟨.debug, .destination,
    "Job " ++ Text.quoted job.title ++ " writes to " ++ d.kind.shown ++ " at " ++ d.url⟩

end BackupPlan
