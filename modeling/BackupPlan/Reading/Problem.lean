import BackupPlan.Number.Shortest
import BackupPlan.Text.Quoted

/-!
# What can be wrong with a value that is read

A value is read as something: a text, a list, a record.  What goes wrong is told
by a `Problem`; `Problem.message` puts it into words.  Two kinds of documents
differ in a few of these words, which a `Wording` collects.
-/

namespace BackupPlan.Reading

/-- What stands where something else is expected. -/
inductive Found where
  /-- A truth value. -/
  | truth (b : Bool)
  /-- An integer. -/
  | integer (n : Int)
  /-- An integer of more than 64 bits that is shown by its type only. -/
  | wide (n : Int)
  /-- A number with a fraction or an exponent. -/
  | real (x : Float)
  /-- A text. -/
  | text (s : String)
  /-- The value that stands for none. -/
  | nothing
  /-- A list. -/
  | list
  /-- A table of named values. -/
  | table

/-- Why a document is no document of its kind. -/
inductive Stop where
  /-- A character that cannot stand where it does. -/
  | malformed
  /-- The document ends too early. -/
  | truncated
  deriving DecidableEq

/-- What is wrong with a value. -/
inductive Problem where
  /-- The value is of another type. -/
  | mistyped (found : Found) (expected : String)
  /-- The value is of the right type, but none of the values expected. -/
  | misvalued (found : Found) (expected : String)
  /-- The list has another number of items. -/
  | badLength (length : Nat) (expected : String)
  /-- The word names none of the choices. -/
  | unknownWord (word : String) (known : List String)
  /-- The record has no field of the name. -/
  | unknownField (name : String) (known : List String)
  /-- The field is given twice. -/
  | duplicateField (name : String)
  /-- The field must be given. -/
  | missingField (name : String)
  /-- A setting is switched on without a value. -/
  | trueSetting
  /-- The value of a setting is no value of its type. -/
  | noSetting
  /-- The value is neither one item nor a list of items. -/
  | neitherOneNorMany (one many : Problem)
  /-- A tagged value stands where any untagged value may. -/
  | taggedOpen
  /-- The value is nested too deeply. -/
  | tooDeep
  /-- The document cannot be read any further. -/
  | unreadable (stop : Stop)

/-- The words in which kinds of documents differ. -/
structure Wording where
  /-- The value that stands for none. -/
  nothing : String
  /-- A number with a fraction or an exponent. -/
  real : Float → String

/-- Whether an integer takes more than 64 bits. -/
def isWide (n : Int) : Bool :=
  n < -0x8000000000000000 || 0x10000000000000000 ≤ n

/-- The type of an integer of more than 64 bits. -/
def wideType (n : Int) : String :=
  if n < 0 then "i128" else "u128"

/-- What was found, in words. -/
def Found.shown (w : Wording) : Found → String
  | truth b => "boolean `" ++ (if b then "true" else "false") ++ "`"
  | integer n => "integer `" ++ toString n ++ "`" ++ (if isWide n then " as " ++ wideType n else "")
  | wide n => wideType n
  | real x => "floating point `" ++ w.real x ++ "`"
  | .text s => "string " ++ Text.quoted s
  | nothing => w.nothing
  | list => "sequence"
  | table => "map"

/-- The names of which one was expected, in words. -/
def expectedNames (names : List String) : String :=
  match names.map fun name => "`" ++ name ++ "`" with
  | [one] => one
  | [one, other] => one ++ " or " ++ other
  | shown => "one of " ++ ", ".intercalate shown

/-- A problem in words. -/
def Problem.message (w : Wording) : Problem → String
  | mistyped found expected => "invalid type: " ++ found.shown w ++ ", expected " ++ expected
  | misvalued found expected => "invalid value: " ++ found.shown w ++ ", expected " ++ expected
  | badLength length expected => "invalid length " ++ toString length ++ ", expected " ++ expected
  | unknownWord word known =>
    "unknown variant `" ++ word ++ "`, expected " ++ expectedNames known
  | unknownField name known => "unknown field `" ++ name ++ "`, expected " ++ expectedNames known
  | duplicateField name => "duplicate field `" ++ name ++ "`"
  | missingField name => "missing field `" ++ name ++ "`"
  | trueSetting => "`true` is not a valid setting, give a value or `false`"
  | noSetting => "data did not match any variant of untagged enum RawSetting"
  | neitherOneNorMany one many =>
    "OneOrMany could not deserialize any variant:\n  One: " ++ one.message w ++
      "\n  Many: " ++ many.message w
  | taggedOpen => "untagged and internally tagged enums do not support enum input"
  | tooDeep => "recursion limit exceeded"
  | unreadable .malformed => "malformed document"
  | unreadable .truncated => "unexpected end of document"

/-- A step from a value to a part of it. -/
inductive Step where
  /-- To the value of a name. -/
  | key (name : String)
  /-- To an item of a list. -/
  | index (i : Nat)
  /-- To the value of something that is no name. -/
  | unnamed
  deriving DecidableEq

/-- The way from the whole document to a part of it. -/
abbrev Place := List Step

/-- A step in words. -/
def Step.text : Step → String
  | key name => name
  | index i => "\\[" ++ toString i ++ "\\]"
  | unnamed => "?"

/-- A problem and where it is. -/
structure Fault where
  /-- Where the problem is, as far as that is known. -/
  place : Option Place
  /-- The problem. -/
  problem : Problem

namespace Fault

/-- A problem of which the place is not known yet. -/
def of (problem : Problem) : Fault :=
  ⟨none, problem⟩

/-- Puts a fault at a place, unless it has one. -/
def settle (place : Place) (fault : Fault) : Fault :=
  { fault with place := some (fault.place.getD place) }

/-- A fault in words, with the way to its place in front. -/
def message (w : Wording) (fault : Fault) : String :=
  match fault.place with
  | none | some [] => fault.problem.message w
  | some place => ".".intercalate (place.map Step.text) ++ ": " ++ fault.problem.message w

end Fault

/-- What has been read. -/
abbrev Read (α : Type) := Except Fault α

/-- Reading fails with a problem. -/
def fail {α : Type} (problem : Problem) : Read α :=
  .error (.of problem)

/-- Puts the fault of a reading at its place. -/
def Read.mapFault {α : Type} (f : Fault → Fault) (r : Read α) : Read α :=
  r.mapError f

end BackupPlan.Reading
