import BackupPlan.CommandLine
import BackupPlan.Compile
import BackupPlan.Config.Load
import BackupPlan.Json.Printer
import BackupPlan.Yaml.Printer

/-!
# A run of the program

A run loads a configuration, compiles all its jobs and prints the plan: the jobs
that compile, in their order, even if others do not.  Those others are reported
together in one record, and the exit code tells whether there are any.
-/

namespace BackupPlan

/-- What a run leaves behind. -/
structure RunResult where
  exitCode : Nat
  output : String
  log : List Record := []

/-- A plan as JSON, if the paths of its scripts are texts. -/
def planToJson? (jobs : List CompiledJob) : Option Json :=
  (jobs.mapM CompiledJob.toJson?).map .list

/-- A value in the format that is asked for. -/
def PlanFormat.print (value : Json) : PlanFormat → String
  | yaml => Yaml.document value
  | json => value.pretty

/-- The record of a failed run. -/
def failureRecord (report : Report) : Record :=
  ⟨.error, .run, report.text⟩

/-- Takes the name of the machine as default if the configuration gives none.  The
name may be one that cannot be read, for a reason in words. -/
def fillHost (config : Config) (machine : Except String String) : Config × List Record :=
  match config.defaults.hostIdentifier, machine with
  | some _, _ => (config, [])
  | none, .ok host =>
    ({ config with defaults := config.defaults.withHost (some host) },
      [⟨.info, .run,
        "Using machine hostname " ++ Text.quoted host ++ " as default host identifier"⟩])
  | none, .error reason => (config, [⟨.warn, .run, "Cannot read machine hostname: " ++ reason⟩])

/-- The jobs that are rejected, each as a report. -/
def failures (outcomes : List Reported) : List Report :=
  (rejections outcomes).map .job

/-- Prints the plan of outcomes and reports the failures among them.  A plan with the
path of a script that is no text cannot be written; what would be written of it before
that path is left out here.  No run comes to such a plan, for all paths that a
configuration file names are texts. -/
def finish (path : UnixPath) (format : PlanFormat) (outcomes : List Reported)
    (log : List Record) : RunResult :=
  match planToJson? (successes outcomes) with
  | none =>
    ⟨1, "", log ++ [failureRecord (.unwritable "path contains invalid UTF-8 characters")]⟩
  | some plan =>
    let output := format.print plan
    match Report.gather (failures outcomes) with
    | .ok () => ⟨0, output, log⟩
    | .error report =>
      let heading := "Some jobs failed to compile: " ++ path.quoted
      ⟨1, output, log ++ [failureRecord (.under heading report)]⟩

/-- Runs the program on a configuration file, on a machine of some name or of one that
cannot be read.  There is no result if there is a job that cannot be reported on. -/
def runPlan (path : UnixPath) (format : PlanFormat) (file : FileContent)
    (machine : Except String String) : Option RunResult :=
  match Config.load path file with
  | .error report => some ⟨1, "", [failureRecord report]⟩
  | .ok config =>
    let (config, hostRecords) := fillHost config machine
    let done := compileBatch config.defaults config.jobs
    done.value.map fun outcomes => finish path format outcomes (hostRecords ++ done.log)

/-- What is shown of a log: all but the details. -/
def shownLog (log : List Record) : List Record :=
  (log.filter fun record => record.level != .debug).map Record.shown

end BackupPlan
