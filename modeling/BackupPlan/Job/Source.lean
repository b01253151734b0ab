import BackupPlan.Job.Reading
import BackupPlan.Json.DraftDatum

/-!
# Jobs and defaults from JSON

A JSON value is read with the members of its objects in ascending order of
names, so the order in which they are written decides nothing.  A JSON text is
read in the order in which it is written.
-/

namespace BackupPlan

open Reading

/-- Reads a job from a JSON value. -/
def JobSpec.ofJson (json : Json) : Read JobSpec :=
  JobSpec.read json.sorted

/-- Reads a job from a JSON text. -/
def JobSpec.ofText (source : String) : Read JobSpec :=
  Json.readText JobSpec.read source

/-- Reads a list of jobs from a JSON value. -/
def JobSpec.listOfJson (json : Json) : Read (List JobSpec) :=
  list JobSpec.read json.sorted

/-- Reads a list of jobs from a JSON text. -/
def JobSpec.listOfText (source : String) : Read (List JobSpec) :=
  Json.readText (list JobSpec.read) source

/-- Reads defaults from a JSON value. -/
def Defaults.ofJson (json : Json) : Read Defaults :=
  Defaults.read json.sorted

/-- Reads defaults from a JSON text. -/
def Defaults.ofText (source : String) : Read Defaults :=
  Json.readText Defaults.read source

/-- Reads a configuration from a JSON value. -/
def Config.ofJson (json : Json) : Read Config :=
  Config.read json.sorted

end BackupPlan
