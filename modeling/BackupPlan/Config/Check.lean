import BackupPlan.Check.Rules
import BackupPlan.Job.Writing

/-!
# Checks of configurations

The defaults must hold a usable key server and directory, and no title may be
declared twice.
-/

namespace BackupPlan

/-- The elements that stand in a list for the second time, in order, given what
stands before it. -/
def secondOccurrences (before : List String) : List String → List String
  | [] => []
  | x :: rest =>
    (if before.count x = 1 then [x] else []) ++ secondOccurrences (before ++ [x]) rest

/-- The elements that stand in a list more than once, each once. -/
def duplicates (xs : List String) : List String :=
  secondOccurrences [] xs

/-- The checks of the fields of the defaults. -/
def Defaults.fieldChecks (defaults : Defaults) : List FieldCheck :=
  [ ⟨"keyserver", Check.keyserver defaults.keyserver, some (.text defaults.keyserver)⟩,
    ⟨"spool_dir", Check.absolute defaults.spoolDir, defaults.spoolDir.toJson?⟩ ]

/-- What is wrong with the defaults. -/
def Defaults.issues (defaults : Defaults) : Except Unwritable Issues :=
  Issues.collect defaults.fieldChecks

/-- The titles of jobs must differ. -/
def Check.titles (titles : List String) : Option Issue :=
  let shown := ", ".intercalate (duplicates titles)
  if shown = "" then none
  else some {
    code := "DuplicateJobTitle"
    message := some ("job titles declared more than once: " ++ shown) }

/-- What is wrong with a configuration. -/
def Config.issues (config : Config) : Except Unwritable Issues := do
  let ofDefaults ← config.defaults.issues
  let ofJobs ← Issues.collect [⟨"jobs", Check.titles (config.jobs.map (·.title)),
    (config.jobs.mapM JobSpec.toJson?).map .list⟩]
  pure ((if ofDefaults.isEmpty then [] else [("defaults", .nested ofDefaults)]) ++ ofJobs)

end BackupPlan
