import BackupPlan.Secret
import BackupPlan.Setting
import BackupPlan.UnixPath.Basic

/-!
# Declared backup jobs

What an operator writes down: the jobs, and the defaults they fall back to.
-/

namespace BackupPlan

/-- Whether the script of a job is to exist. -/
inductive Ensure where
  /-- The script is written. -/
  | present
  /-- The script is removed. -/
  | absent
  deriving DecidableEq, Inhabited

/-- The services that keep backups in buckets. -/
inductive Provider where
  /-- Any service that speaks the S3 protocol. -/
  | s3
  /-- The Cloud Files service. -/
  | cloudFiles
  deriving DecidableEq

/-- The word by which a job names the state of its script. -/
def Ensure.word : Ensure → String
  | present => "present"
  | absent => "absent"

/-- The word by which a job names a provider. -/
def Provider.word : Provider → String
  | s3 => "s3"
  | cloudFiles => "cf"

/-- An optional provider as a message shows it. -/
def Provider.quotedOption : Option Provider → String
  | none => "None"
  | some s3 => "Some(S3)"
  | some cloudFiles => "Some(CloudFiles)"

/-- One declared backup job. -/
structure JobSpec where
  /-- The name of the job, its script and its place in a bucket. -/
  title : String
  /-- Whether the script is to exist. -/
  ensure : Ensure := .present
  /-- What is backed up. -/
  directories : List UnixPath := []
  /-- The bucket that takes the backup. -/
  bucket : Setting String := .unset
  /-- The name under which the job logs in to the bucket's service. -/
  destId : Setting String := .unset
  /-- The key with which the job logs in to the bucket's service. -/
  destKey : Setting Secret := .unset
  /-- The service that holds the bucket. -/
  provider : Setting Provider := .unset
  /-- A remote URL that takes the backup in place of a bucket. -/
  target : Option String := none
  /-- The key file for a remote URL. -/
  sshIdentity : Option UnixPath := none
  /-- The public keys to which the backup is encrypted. -/
  pubkeyIds : List String := []
  /-- The age from which a new full backup is made. -/
  fullIfOlderThan : String := "30D"
  /-- The age from which old backups are removed. -/
  removeOlderThan : Option String := none
  /-- A shell fragment that runs before the backup. -/
  preCommand : Option String := none
  /-- The name of the machine in the bucket. -/
  hostIdentifier : Option String := none
  /-- Where the script is written. -/
  scriptPath : Option UnixPath := none
  deriving DecidableEq

/-- What every job falls back to. -/
structure Defaults where
  /-- The bucket of jobs that name none. -/
  bucket : Option String := none
  /-- The login name of jobs that give none. -/
  destId : Option String := none
  /-- The login key of jobs that give none. -/
  destKey : Option Secret := none
  /-- The machine name of jobs that give none. -/
  hostIdentifier : Option String := none
  /-- The server from which missing public keys are fetched. -/
  keyserver : String := "subkeys.pgp.net"
  /-- The directory of the scripts. -/
  spoolDir : UnixPath := .ofText "/var/spool/duplicity"
  deriving DecidableEq

/-- The declared jobs and the defaults they share. -/
structure Config where
  /-- The shared defaults. -/
  defaults : Defaults := {}
  /-- The jobs, in the order of their declaration. -/
  jobs : List JobSpec := []
  deriving DecidableEq

/-- The defaults with another machine name. -/
def Defaults.withHost (d : Defaults) (host : Option String) : Defaults :=
  { d with hostIdentifier := host }

end BackupPlan
