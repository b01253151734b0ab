import BackupPlan.Config.Check
import BackupPlan.Job.Reading
import BackupPlan.Report
import BackupPlan.Yaml.Datum

/-!
# Loading configuration files

A configuration is loaded from what its file turns out to be.  It must open,
hold a YAML document of the right shape, and pass the checks; the report on the
first of these that fails names the file.
-/

namespace BackupPlan

/-- What a file turns out to be. -/
inductive FileContent where
  /-- The file cannot be opened: the kind of error and its text. -/
  | unopenable (kind text : String)
  /-- The file opens, but its bytes cannot be had. -/
  | unavailable (text : String)
  /-- The bytes of the file. -/
  | bytes (content : List UInt8)

/-- Reads the configuration that a file holds, not checked yet. -/
def Config.parse (path : UnixPath) (file : FileContent) : Except Report Config :=
  let parsing (report : Report) : Report :=
    .under ("Parse YAML config failed: " ++ path.quoted) report
  match file with
  | .unopenable kind text =>
    .error (.under ("Open config failed: " ++ path.quoted) (.file kind text))
  | .unavailable text => .error (parsing (.unavailable text))
  | .bytes content =>
    match Yaml.read Config.read content with
    | .error fault => .error (parsing (.document fault))
    | .ok config => .ok config

/-- Loads the configuration that a file holds.  The last case is never met: the
paths of a document are texts, so whatever is wrong with them can be written. -/
def Config.load (path : UnixPath) (file : FileContent) : Except Report Config := do
  let config ← Config.parse path file
  match config.issues with
  | .ok [] => pure config
  | .ok issues => throw (.under ("Config validation failed: " ++ path.quoted) (.issues issues))
  | .error .mk => throw (.under ("Config validation failed: " ++ path.quoted) (.issues []))

end BackupPlan
