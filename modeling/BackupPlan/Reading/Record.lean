import BackupPlan.Reading.Datum

/-!
# Reading records

A record is read from a table of named fields, in the order of the table, or
from a list of its fields in their own order.  A `Schema` says which fields
there are and by which names they go; no field may be given twice, and no other
name may stand in the table.
-/

namespace BackupPlan.Reading

/-- The fields of a record type. -/
structure Schema where
  /-- What a message calls the record. -/
  label : String
  /-- The fields. -/
  Field : Type
  /-- Fields can be told apart. -/
  fieldDecEq : DecidableEq Field
  /-- The type of the values of a field. -/
  Value : Field → Type
  /-- The name of a field in messages. -/
  name : Field → String
  /-- The fields in their order. -/
  order : List Field
  /-- Every name by which a field goes. -/
  names : List (String × Field)
  /-- Whether a list of the fields may end before the field. -/
  isOptional : Field → Bool

namespace Schema

variable {ν σ : Type} [Datum ν] (schema : Schema)

instance : DecidableEq schema.Field :=
  schema.fieldDecEq

/-- A field with its value. -/
abbrev Entry := (f : schema.Field) × schema.Value f

/-- The value of a field among entries. -/
def get? (f : schema.Field) : List schema.Entry → Option (schema.Value f)
  | [] => none
  | ⟨g, value⟩ :: rest => if h : g = f then some (h ▸ value) else get? f rest

/-- The field of a name. -/
def fieldOf (name : String) : Read schema.Field :=
  match schema.names.lookup name with
  | some f => .ok f
  | none => fail (.unknownField name (schema.names.map Prod.fst))

/-- How the value of each field is read. -/
abbrev Reader (ν : Type) := (f : schema.Field) → ν → Read (schema.Value f)

/-- Reads named fields one after another, given those that are read already. -/
def readNamed (read : schema.Reader ν) :
    List (Read String × ν) → List schema.Entry → Read (List schema.Entry)
  | [], done => .ok done
  | (name, value) :: rest, done => do
    let f ← schema.fieldOf (← name)
    if (schema.get? f done).isSome then fail (.duplicateField (schema.name f))
    let value ← read f value
    readNamed read rest (done ++ [⟨f, value⟩])

/-- Reads fields that stand in their order, of which so many are read already;
answers with the values that are left over. -/
def readListed (read : schema.Reader ν) (index : Nat) :
    List schema.Field → Items ν → Read (List schema.Entry × Items ν)
  | [], items => .ok ([], items)
  | f :: fields, ⟨value :: rest, ending⟩ => do
    let value ← read f value
    let (done, left) ← readListed read (index + 1) fields ⟨rest, ending⟩
    pure (⟨f, value⟩ :: done, left)
  | f :: fields, ⟨[], ending⟩ => do
    ending
    if schema.isOptional f then readListed read (index + 1) fields ⟨[], ending⟩
    else fail (.badLength index
      (schema.label ++ " with " ++ toString schema.order.length ++ " elements"))

/-- Reads the fields of a record. -/
def readEntries (read : schema.Reader ν) (value : ν) : Read (List schema.Entry) := do
  match ← Datum.fields schema.label value with
  | .named members ending =>
    let done ← schema.readNamed read members []
    ending
    pure done
  | .listed items surplus =>
    let (done, left) ← schema.readListed read 0 schema.order items
    if left.items.isEmpty then left.ending
    else .error surplus
    pure done

/-- The entries of a record, by field. -/
abbrev Values := (f : schema.Field) → Option (schema.Value f)

/-- Reads a record and puts its fields together. -/
def read (read : schema.Reader ν) (assemble : schema.Values → Except Problem σ) (value : ν) :
    Read σ :=
  Read.mapFault (Datum.settle value) do
    let entries ← schema.readEntries read value
    (assemble fun f => schema.get? f entries).mapError Fault.of

end Schema

end BackupPlan.Reading
