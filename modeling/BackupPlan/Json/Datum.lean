import BackupPlan.Json.Basic
import BackupPlan.Reading.Datum

/-!
# Reading from JSON values

A JSON value is read as a `Datum`.  The members of an object are visited in the
order in which they stand; `Json.sorted` puts them in order beforehand.
-/

namespace BackupPlan.Json

open Reading

/-- The value as a message names it. -/
def found : Json → Found
  | null => .nothing
  | bool b => .truth b
  | integer n => .integer n
  | real x => .real x
  | text s => .text s
  | list _ => .list
  | object _ => .table

/-- JSON writes small and large numbers with an exponent, and `null` as such. -/
def wording : Wording where
  nothing := "null"
  real := Number.scientific

mutual

/-- A JSON value as an open value. -/
def toOpen : Json → Open
  | null => .nothing
  | bool b => .truth b
  | integer n => .integer n
  | real x => .real x
  | text s => .text s
  | list items => .list (toOpenItems items)
  | object members => .table (toOpenMembers members)

/-- The items of a list as open values. -/
def toOpenItems : List Json → List Open
  | [] => []
  | item :: rest => toOpen item :: toOpenItems rest

/-- The members of an object as open values. -/
def toOpenMembers : List (String × Json) → List (Open × Open)
  | [] => []
  | (name, value) :: rest => (.text name, toOpen value) :: toOpenMembers rest

end

/-- A JSON value as a text. -/
def asText (expected : String) : Json → Read String
  | text s => .ok s
  | value => fail (.mistyped value.found expected)

/-- A JSON value, unless it is `null`. -/
def asOptional : Json → Read (Option Json)
  | null => .ok none
  | value => .ok (some value)

/-- A JSON value as a list. -/
def asItems (expected : String) : Json → Read (Items Json)
  | list items => .ok { items }
  | value => fail (.mistyped value.found expected)

/-- A JSON value as a record: an object, or the list of the fields. -/
def asFields (expected : String) : Json → Read (Fields Json)
  | object members => .ok (.named (members.map fun (name, value) => (.ok name, value)) (.ok ()))
  | list items =>
    .ok (.listed { items } (.of (.badLength items.length "fewer elements in array")))
  | value => fail (.mistyped value.found expected)

/-- Accepts `null`, as the value of a choice without parts. -/
def asNothing : Json → Read Unit
  | null => .ok ()
  | value => fail (.mistyped value.found "unit")

/-- A JSON value as a choice: a word, or an object of one word with the value
`null`. -/
def asChoice {α : Type} (choices : Choices α) : Json → Read α
  | text word => (choices.ofWord word).mapError Fault.of
  | object [(word, value)] => do
    let choice ← (choices.ofWord word).mapError Fault.of
    value.asNothing
    pure choice
  | object _ => fail (.misvalued .table "map with a single key")
  | value => fail (.mistyped value.found "string or map")

instance : Datum Json where
  text := asText
  optional := asOptional
  items := asItems
  fields := asFields
  choice := asChoice
  content _ value := .ok value.toOpen

end BackupPlan.Json
