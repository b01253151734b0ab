import BackupPlan.Yaml.Node.OfTokens
import BackupPlan.Yaml.Scalar

/-!
# Reading from YAML documents

A node is read as a `Datum`, together with the way to it, so that faults can say
where they are.  A node that stands for another is read as that one, and no
document is read more than 128 levels deep.
-/

namespace BackupPlan.Yaml

open Reading

/-- A node of a document and the way to it. -/
structure Cursor where
  document : Document
  node : Node
  place : Place := []
  /-- How many levels may still be entered. -/
  depth : Nat := 128

namespace Cursor

/-- The node at hand; never one that stands for another. -/
def target (c : Cursor) : Node :=
  c.document.resolve c.node

/-- A part of the node. -/
def enter (c : Cursor) (step : Step) (node : Node) : Cursor :=
  { c with node, place := c.place ++ [step], depth := c.depth - 1 }

/-- The tag of a choice: one that begins with an exclamation mark, without that
mark. -/
def choiceTag (tag : Option String) : Option String :=
  (tag.map String.toList).bind fun
    | '!' :: rest => some (String.ofList (if rest.isEmpty then ['!'] else rest))
    | _ => none

/-- Fails at the node. -/
def failAt {α : Type} (c : Cursor) (problem : Problem) : Read α :=
  .error ⟨some c.place, problem⟩

/-- The fault of a node that is nested too deeply. -/
def tooDeep {α : Type} : Read α :=
  .error ⟨some [], .tooDeep⟩

/-- Fails because the node is of another type. -/
def mistyped {α : Type} (c : Cursor) (expected : String) : Read α :=
  match c.target with
  | .scalar tag isPlain text =>
    match Scalar.tagged tag isPlain text with
    | .ok (.integer n) => c.failAt (.mistyped (.integer n) expected)
    | .ok value => c.failAt (.mistyped value.found expected)
    | .error problem => c.failAt problem
  | .sequence _ _ => c.failAt (.mistyped .list expected)
  | .mapping _ _ => c.failAt (.mistyped .table expected)
  | .alias _ => c.failAt (.mistyped .nothing expected)

/-- A node as a text: any text, whatever it might stand for. -/
def asText (expected : String) (c : Cursor) : Read String :=
  match c.target with
  | .scalar _ _ text => .ok text
  | _ => c.mistyped expected

/-- A node, unless it stands for none. -/
def asOptional (c : Cursor) : Read (Option Cursor) :=
  let present : Read (Option Cursor) := .ok (some c)
  match c.target with
  | .scalar tag true text =>
    if tag = some (Scalar.typeTag "null") then
      if Scalar.isNull text then .ok none else fail (.misvalued (.text text) "null")
    else if tag.isSome then present
    else if text = "" || Scalar.isNull text then .ok none
    else present
  | _ => present

/-- Whether a node is a bare text without characters. -/
def isEmptyText : Node → Bool
  | .scalar _ true "" => true
  | _ => false

/-- A node as a list; an empty text counts as an empty list. -/
def asItems (expected : String) (c : Cursor) : Read (Items Cursor) :=
  match c.target with
  | .sequence _ items =>
    if c.depth = 0 then tooDeep
    else .ok { items := items.zipIdx.map fun (item, i) => c.enter (.index i) item }
  | node => if isEmptyText node then .ok { items := [] } else c.mistyped expected

/-- The step to the value of a key. -/
def stepOf : Node → Step
  | .scalar _ _ text => .key text
  | _ => .unnamed

/-- A node as a record; an empty text counts as a record without fields. -/
def asFields (expected : String) (c : Cursor) : Read (Fields Cursor) :=
  match c.target with
  | .mapping _ members =>
    if c.depth = 0 then tooDeep
    else .ok (.named (members.map fun (key, value) =>
      ({ c with node := key }.asText "field identifier", c.enter (stepOf key) value)) (.ok ()))
  | node => if isEmptyText node then .ok (.named [] (.ok ())) else c.mistyped expected

/-- Accepts what stands for none, as the value of a choice without parts. -/
def asNothing (c : Cursor) : Read Unit :=
  match c.target with
  | .scalar _ isPlain text =>
    if isPlain && (text = "" || Scalar.isNull text) then .ok ()
    else c.failAt (.misvalued (.text text) "null")
  | _ => c.mistyped "unit"

/-- A node as a choice: a text, or a tag on nothing. -/
def asChoice {α : Type} (choices : Choices α) (c : Cursor) : Read α :=
  let byTag (tag : String) : Read α := do
    let choice ← (choices.ofWord tag).mapError Fault.of
    c.asNothing
    pure choice
  let untagged (found : Found) : Read α :=
    c.failAt (.mistyped found "a YAML tag starting with '!'")
  match c.target with
  | .scalar tag _ text =>
    match choiceTag tag with
    | some tag => byTag tag
    | none => (choices.ofWord text).mapError fun problem => ⟨some c.place, problem⟩
  | .sequence tag _ => (choiceTag tag).elim (untagged .list) byTag
  | .mapping tag _ => (choiceTag tag).elim (untagged .table) byTag
  | .alias _ => untagged .nothing

/-- The value of a bare or tagged text where any value may stand. -/
def openScalar (wide : Bool) (tag : Option String) (isPlain : Bool) (text : String) :
    Except Problem Open :=
  if (choiceTag tag).isSome then .error .taggedOpen
  else match Scalar.tagged tag isPlain text with
    | .ok (.integer n) =>
      if !wide && isWide n then .error (.mistyped (.integer n) "any value") else .ok (.integer n)
    | result => result

/-- A node as an open value, so many levels deep. -/
def openNode (document : Document) (wide : Bool) : Nat → Place → Node → Read Open
  | depth, place, node =>
    let guarded (tag : Option String) (inner : Read Open) : Read Open :=
      if (choiceTag tag).isSome then .error ⟨some place, .taggedOpen⟩ else inner
    match document.resolve node, depth with
    | .scalar tag isPlain text, _ =>
      (openScalar wide tag isPlain text).mapError fun problem => ⟨some place, problem⟩
    | .sequence tag _, 0 | .mapping tag _, 0 => guarded tag tooDeep
    | .sequence tag items, depth + 1 => guarded tag do
      let values ← items.zipIdx.mapM fun (item, i) =>
        openNode document wide depth (place ++ [.index i]) item
      pure (.list values)
    | .mapping tag members, depth + 1 => guarded tag do
      let values ← members.mapM fun (key, value) => do
        let name ← openNode document wide depth place key
        let value ← openNode document wide depth (place ++ [stepOf key]) value
        pure (name, value)
      pure (.table values)
    | .alias _, _ => .ok .nothing
termination_by depth => depth

/-- A node as an open value. -/
def toOpen (wide : Bool) (c : Cursor) : Read Open :=
  openNode c.document wide c.depth c.place c.node

instance : Datum Cursor where
  text := asText
  optional := asOptional
  items := asItems
  fields := asFields
  choice := asChoice
  content := toOpen
  settle c fault := fault.settle c.place

end Cursor

/-- Reads a value from a whole YAML document. -/
def read {α : Type} (inner : Cursor → Read α) (bytes : List UInt8) : Read α :=
  match Document.ofBytes? bytes with
  | none => fail (.unreadable .malformed)
  | some document => inner { document, node := document.root }

end BackupPlan.Yaml
