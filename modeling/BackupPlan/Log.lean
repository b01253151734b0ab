/-!
# Log records

What happens beside the result is told in records.  `Logged` pairs a result with
the records that were told on the way to it, in order.
-/

namespace BackupPlan

/-- How much a record matters. -/
inductive Level where
  | debug
  | info
  | warn
  | error
  deriving DecidableEq

/-- The part of the work that a record tells about. -/
inductive Topic where
  | resolution
  | destination
  | command
  | compilation
  | run
  deriving DecidableEq

/-- A record of the log. -/
structure Record where
  level : Level
  topic : Topic
  message : String
  deriving DecidableEq

/-- The name of a level in the log. -/
def Level.word : Level → String
  | debug => "DEBUG"
  | info => "INFO"
  | warn => "WARN"
  | error => "ERROR"

/-- The name of a topic in the log. -/
def Topic.word : Topic → String
  | resolution => "duplicity_job::job::resolve"
  | destination => "duplicity_job::job::destination"
  | command => "duplicity_job::job::command"
  | compilation => "duplicity_job::job::compiler"
  | run => "duplicity_job"

/-- How a character of a record is shown: those that steer a terminal are
escaped. -/
def shownChar (c : Char) : List Char :=
  match c with
  | '\x1b' => ['\\', 'x', '1', 'b']
  | '\x07' => ['\\', 'x', '0', '7']
  | '\x08' => ['\\', 'x', '0', '8']
  | '\x0c' => ['\\', 'x', '0', 'c']
  | '\x7f' => ['\\', 'x', '7', 'f']
  | c =>
    if 0x80 ≤ c.toNat && c.toNat ≤ 0x9F then
      ['\\', 'u', '\x7b'] ++ Nat.toDigits 16 c.toNat ++ ['\x7d']
    else [c]

/-- A record as it is shown on a terminal. -/
def Record.shown (r : Record) : Record :=
  { r with message := String.ofList (r.message.toList.flatMap shownChar) }

/-- A result and the records told on the way to it. -/
structure Logged (α : Type) where
  value : α
  log : List Record

end BackupPlan
