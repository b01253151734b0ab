import BackupPlan.Destination
import BackupPlan.Job.Writing

/-!
# The script of a job

A script holds, line by line, the credentials of the destination, an `export`
of their variables, and last the chain of commands on a single line.

* `remoteHost_environment` — a remote host gets no credentials.
-/

namespace BackupPlan

open Shell

/-- The flags that encrypt a backup to public keys. -/
def encryptionFlags (ids : List String) : List Arg :=
  if ids = [] then [.word "--no-encryption"]
  else [.word "--gpg-options", .quoted "--trust-model=always"] ++
    ids.flatMap fun id => [.word "--encrypt-key", .quoted id]

/-- The flags that name what is backed up. -/
def includeFlags (directories : List UnixPath) : List Arg :=
  directories.flatMap fun dir => [.word "--include", .quoted dir.lossyText]

/-- The command that makes the backup. -/
def backupCommand (job : ResolvedJob) (destination : Destination) : Command where
  args :=
    [.word "duplicity", .word "--full-if-older-than", .word job.fullIfOlderThan,
      .word "--s3-use-new-style"] ++
    encryptionFlags job.pubkeyIds ++
    includeFlags job.directories ++
    [.word "--exclude", .quoted "**"] ++
    destination.extraFlags ++
    [.word "/", .quoted destination.url]

/-- The command that removes old backups; it only deletes, so it never encrypts. -/
def removalCommand (age : String) (destination : Destination) : Command where
  args :=
    [.word "duplicity", .word "remove-older-than", .word age, .word "--no-encryption",
      .word "--force"] ++
    destination.extraFlags ++
    [.quoted destination.url]

/-- The commands of a job: its own fragment, the backup, the removal. -/
def commandChain (job : ResolvedJob) (destination : Destination) : Chain where
  commands :=
    (job.preCommand.map Command.ofWord).toList ++ [backupCommand job destination] ++
    (job.removeOlderThan.map (removalCommand · destination)).toList

/-- The credentials of a job, each under the name of its variable. -/
def credentials (job : ResolvedJob) : Option (String × String) → List (String × String)
  | none => []
  | some (idVariable, keyVariable) =>
    (job.destId.map (idVariable, ·)).toList ++
    (job.destKey.map fun key => (keyVariable, key.reveal)).toList

/-- The lines that hand the credentials to the commands. -/
def environment (job : ResolvedJob) (destination : Destination) : List Command :=
  let assigned := credentials job destination.kind.credentialVariables
  if assigned = [] then []
  else
    assigned.map (fun (name, value) => Command.ofArg (.assign name value)) ++
    [(Command.ofWord "export").addArgs (assigned.map fun (name, _) => .word name)]

theorem remoteHost_environment {job : ResolvedJob} {destination : Destination}
    (h : destination.kind = .remoteHost) : environment job destination = [] := by
  simp [environment, h, DestinationKind.credentialVariables, credentials]

/-- The record on a bucket that lacks one of its credentials. -/
def credentialRecords (job : ResolvedJob) (destination : Destination) : List Record :=
  if destination.kind.credentialVariables.isSome && (job.destId.isNone || job.destKey.isNone) then
    [⟨.warn, .command, "Job " ++ Text.quoted job.title ++
      " has only one of dest_id/dest_key, emitting the one that is set"⟩]
  else []

/-- A script file, or the order to remove it. -/
structure Script where
  /-- Where the file is. -/
  path : UnixPath
  /-- Whose file it is. -/
  owner : String := "root"
  /-- Who may do what with it; scripts hold credentials, so only the owner may
  read them. -/
  mode : Nat := 0o700
  /-- Whether the file is to exist. -/
  ensure : Ensure
  /-- What stands in it; none for a file that is to be removed. -/
  content : Option String
  deriving DecidableEq

namespace Script

/-- The order to remove a script. -/
def removed (path : UnixPath) : Script :=
  { path, ensure := .absent, content := none }

/-- A script with its content. -/
def written (path : UnixPath) (content : String) : Script :=
  { path, ensure := .present, content := some content }

/-- A mode in octal, with at least four digits. -/
def modeText (mode : Nat) : String :=
  let digits := Nat.toDigits 8 mode
  String.ofList (List.replicate (4 - digits.length) '0' ++ digits)

/-- The script of a job. -/
def render (job : ResolvedJob) (lines : List Command) (chain : Chain) : Script :=
  written job.scriptPath ("\n".intercalate (lines.map Command.text ++ [chain.text]) ++ "\n")

/-- A script as JSON, if its path is a text. -/
def toJson? (script : Script) : Option Json :=
  script.path.toJson?.map fun path =>
    .object ([("path", path), ("owner", .text script.owner),
      ("mode", .text (modeText script.mode)), ("ensure", .text script.ensure.word)] ++
      (script.content.map fun content => ("content", .text content)).toList)

end Script

/-- The import of the public keys of a job: a command that need not run if
another one succeeds. -/
structure KeyImport where
  /-- The name by which repeated imports are told. -/
  name : String
  /-- The command that fetches the keys. -/
  command : String
  /-- The command that succeeds if the keys are there. -/
  skipIf : String
  /-- Where the programs are searched. -/
  searchPath : String := "/usr/bin:/usr/sbin:/bin"
  deriving DecidableEq

namespace KeyImport

/-- The import of the public keys of a job, if it has any. -/
def ofJob (job : ResolvedJob) : Option KeyImport :=
  if job.pubkeyIds = [] then none
  else
    let keys := job.pubkeyIds.map Arg.quoted
    let fetch : Command :=
      ⟨[.word "gpg", .word "--keyserver", .word job.keyserver, .word "--recv-keys"] ++ keys⟩
    let list : Command := ⟨[.word "gpg", .word "--batch", .word "--list-keys"] ++ keys⟩
    some { name := "duplicity-pgp-" ++ job.title, command := fetch.text, skipIf := list.text }

/-- A key import as JSON. -/
def toJson (action : KeyImport) : Json :=
  .object [("name", .text action.name), ("command", .text action.command),
    ("unless", .text action.skipIf), ("path", .text action.searchPath)]

end KeyImport

end BackupPlan
