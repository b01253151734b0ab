import BackupPlan.Reading.Problem

/-!
# Characters and words of YAML
-/

namespace BackupPlan.Yaml

/-- How YAML documents speak of values. -/
def wording : Reading.Wording where
  nothing := "unit value"
  real := Number.positional

/-- The characters that end a line. -/
def isBreak (c : Char) : Bool :=
  c == '\n' || c == '\r' || c == '\u0085' || c == '\u2028' || c == '\u2029'

/-- The characters that part words. -/
def isBlank (c : Char) : Bool :=
  c == ' ' || c == '\t'

end BackupPlan.Yaml
