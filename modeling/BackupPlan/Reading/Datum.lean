import BackupPlan.Reading.Problem

/-!
# Values that can be read

Documents of several kinds hold the same things: texts, lists, records, choices
between words.  A `Datum` is a value of any such document; it is asked for what
it is expected to be, and answers with that or with what is wrong.
-/

namespace BackupPlan.Reading

/-- The words that stand for choices. -/
structure Choices (α : Type) where
  /-- Every word with its choice. -/
  words : List (String × α)
  /-- The choices by their rank, for documents that count them. -/
  ranked : List α

namespace Choices

variable {α : Type}

/-- The choice of a word. -/
def ofWord (choices : Choices α) (word : String) : Except Problem α :=
  match choices.words.lookup word with
  | some choice => .ok choice
  | none => .error (.unknownWord word (choices.words.map Prod.fst))

/-- The choice of a rank. -/
def ofRank (choices : Choices α) (rank : Int) : Except Problem α :=
  match choices.ranked[rank.toNat]? with
  | some choice =>
    if 0 ≤ rank then .ok choice else .error (.misvalued (.integer rank) "variant index")
  | none => .error (.misvalued (.integer rank) "variant index")

end Choices

/-- The items of a list, as far as it could be read. -/
structure Items (ν : Type) where
  /-- The items. -/
  items : List ν
  /-- Whether the list ends behind them. -/
  ending : Read Unit := .ok ()

/-- The fields of a record, as far as it could be read. -/
inductive Fields (ν : Type) where
  /-- Each field with its name; names that are no texts are faults. -/
  | named (members : List (Read String × ν)) (ending : Read Unit)
  /-- The fields in their order, without names, and the fault if they are too many. -/
  | listed (items : Items ν) (surplus : Fault)

/-- A value of any type, as it is kept when nothing is expected. -/
inductive Open where
  /-- The value that stands for none. -/
  | nothing
  /-- A truth value. -/
  | truth (b : Bool)
  /-- An integer. -/
  | integer (n : Int)
  /-- A number with a fraction or an exponent. -/
  | real (x : Float)
  /-- A text. -/
  | text (s : String)
  /-- A list. -/
  | list (items : List Open)
  /-- A table. -/
  | table (members : List (Open × Open))

/-- A value of a document. -/
class Datum (ν : Type) where
  /-- The value as a text. -/
  text (expected : String) : ν → Read String
  /-- The value, unless it stands for none. -/
  optional : ν → Read (Option ν)
  /-- The value as a list. -/
  items (expected : String) : ν → Read (Items ν)
  /-- The value as a record. -/
  fields (expected : String) : ν → Read (Fields ν)
  /-- The value as one of several choices. -/
  choice {α : Type} (choices : Choices α) : ν → Read α
  /-- The value as it is; integers of more than 64 bits only where `wide` is set. -/
  content (wide : Bool) : ν → Read Open
  /-- Puts a fault at the place of the value, unless it has a place. -/
  settle : ν → Fault → Fault := fun _ fault => fault

namespace Open

/-- The value as a message names it. -/
def found : Open → Found
  | nothing => .nothing
  | truth b => .truth b
  | integer n => if isWide n then .wide n else .integer n
  | real x => .real x
  | text s => .text s
  | list _ => .list
  | table _ => .table

/-- An open value as a text. -/
def asText (expected : String) : Open → Read String
  | text s => .ok s
  | value => fail (.mistyped value.found expected)

/-- An open value as a list. -/
def asItems (expected : String) : Open → Read (Items Open)
  | list items => .ok { items }
  | value => fail (.mistyped value.found expected)

/-- An open value as a record. -/
def asFields (expected : String) : Open → Read (Fields Open)
  | table members => .ok (.named (members.map fun (key, value) =>
      (key.asText "field identifier", value)) (.ok ()))
  | list items =>
    .ok (.listed { items } (.of (.badLength items.length "fewer elements in sequence")))
  | value => fail (.mistyped value.found expected)

/-- The choice that an open value names. -/
def named {α : Type} (choices : Choices α) : Open → Read α
  | text s => (choices.ofWord s).mapError Fault.of
  | integer n => (choices.ofRank n).mapError Fault.of
  | value => fail (.mistyped value.found "variant identifier")

/-- Accepts what stands for none, as the value of a choice without parts. -/
def asNothing : Open → Read Unit
  | nothing => .ok ()
  | value => fail (.mistyped value.found "unit")

/-- An open value as a choice: a word, or a table of one word without a value. -/
def asChoice {α : Type} (choices : Choices α) : Open → Read α
  | text s => named choices (text s)
  | table [(key, value)] => do
    let choice ← named choices key
    value.asNothing
    pure choice
  | table _ => fail (.misvalued .table "map with a single key")
  | value => fail (.mistyped value.found "string or map")

/-- An open value, unless it stands for none. -/
def asOptional : Open → Read (Option Open)
  | nothing => .ok none
  | value => .ok (some value)

instance : Datum Open where
  text := asText
  optional := asOptional
  items := asItems
  fields := asFields
  choice := asChoice
  content _ value := .ok value

end Open

end BackupPlan.Reading
