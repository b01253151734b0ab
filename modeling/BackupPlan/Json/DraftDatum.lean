import BackupPlan.Json.Datum
import BackupPlan.Json.Draft

/-!
# Reading from JSON texts

A draft is read as a `Datum`.  A value of the wrong type is reported even if the
text stops being JSON within it; otherwise the place where it stops is met in
its turn.
-/

namespace BackupPlan.Json.Draft

open Reading

/-- The value as a message names it. -/
def found : Draft → Found
  | null => .nothing
  | bool b => .truth b
  | integer n => .integer n
  | real x => .real x
  | text s => .text s
  | list _ _ => .list
  | object _ _ => .table
  | broken _ _ => .nothing

/-- The document stops. -/
def stopped {α : Type} (stop : Stop) : Read α :=
  fail (.unreadable stop)

/-- Whether a list or an object ends. -/
def ended : Option Stop → Read Unit
  | none => .ok ()
  | some stop => stopped stop

/-- The fault of a value of the wrong type. -/
def mistyped {α : Type} (expected : String) : Draft → Read α
  | broken stop _ => stopped stop
  | value => fail (.mistyped value.found expected)

/-- A draft as a text. -/
def asText (expected : String) : Draft → Read String
  | text s => .ok s
  | value => value.mistyped expected

/-- A draft, unless it is `null`. -/
def asOptional : Draft → Read (Option Draft)
  | null => .ok none
  | broken stop _ => stopped stop
  | value => .ok (some value)

/-- A draft as a list. -/
def asItems (expected : String) : Draft → Read (Items Draft)
  | list items ending => .ok { items, ending := ended ending }
  | value => value.mistyped expected

/-- A draft as the name of a member. -/
def asName : Draft → Read String
  | text s => .ok s
  | broken stop _ => stopped stop
  | _ => stopped .malformed

/-- A draft as a record: an object, or the list of the fields. -/
def asFields (expected : String) : Draft → Read (Fields Draft)
  | object members ending =>
    .ok (.named (members.map fun (key, value) => (key.asName, value)) (ended ending))
  | list items ending =>
    .ok (.listed { items, ending := ended ending } (.of (.unreadable .malformed)))
  | value => value.mistyped expected

/-- Accepts `null`, as the value of a choice without parts. -/
def asNothing : Draft → Read Unit
  | null => .ok ()
  | value => value.mistyped "unit"

/-- A draft as a choice: a word, or an object of one word with the value `null`. -/
def asChoice {α : Type} (choices : Choices α) : Draft → Read α
  | text word => (choices.ofWord word).mapError Fault.of
  | object [] ending => stopped (ending.getD .malformed)
  | object ((key, value) :: rest) ending => do
    let word ← key.asText "variant identifier"
    let choice ← (choices.ofWord word).mapError Fault.of
    value.asNothing
    if rest.isEmpty then ended ending else stopped .malformed
    pure choice
  | broken _ stop => stopped stop
  | _ => stopped .malformed

mutual

/-- A draft as an open value. -/
def toOpen : Draft → Read Open
  | null => .ok .nothing
  | bool b => .ok (.truth b)
  | integer n => .ok (.integer n)
  | real x => .ok (.real x)
  | text s => .ok (.text s)
  | list items ending => do
    let items ← toOpenItems items
    ended ending
    pure (.list items)
  | object members ending => do
    let members ← toOpenMembers members
    ended ending
    pure (.table members)
  | broken stop _ => stopped stop

/-- The items of a list as open values. -/
def toOpenItems : List Draft → Read (List Open)
  | [] => .ok []
  | item :: rest => do
    let value ← toOpen item
    let values ← toOpenItems rest
    pure (value :: values)

/-- The members of an object as open values. -/
def toOpenMembers : List (Draft × Draft) → Read (List (Open × Open))
  | [] => .ok []
  | (key, item) :: rest => do
    let name ← key.asName
    let value ← toOpen item
    let values ← toOpenMembers rest
    pure ((.text name, value) :: values)

end

instance : Datum Draft where
  text := asText
  optional := asOptional
  items := asItems
  fields := asFields
  choice := asChoice
  content _ := toOpen

end BackupPlan.Json.Draft

namespace BackupPlan.Json

open Reading

/-- Reads a value from a whole JSON text. -/
def readText {α : Type} (inner : Draft → Read α) (source : String) : Read α := do
  let (draft, ending) := Draft.ofText source
  let value ← inner draft
  ending
  pure value

end BackupPlan.Json
