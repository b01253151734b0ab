import BackupPlan.Proofs.Elementwise
import BackupPlan.Proofs.Reading.Records
import BackupPlan.UnixPath.Basic

/-!
# Records written and read back

A record is written as the object of the fields that it shows, or as the list of all
its fields.  Reading gives it back if every field reads back and if reading supplies
what the object leaves out.

* `RoundTrips` — what it is to read back;
* `Schema.Writing`, `Schema.Writing.Lawful` — how the records of a type are written, field
  by field, and when that agrees with how they are read;
* `Schema.Writing.HidesIn` — what is written when secrets are hidden;
* `Lawful.object?_eq_none_iff`, `Lawful.row?_eq_none_iff` — a record cannot be written
  exactly if one of its fields cannot;
* `Lawful.roundTrips_object?`, `Lawful.roundTrips_row?` — what is written reads back.
-/

namespace BackupPlan.Reading

/-- A record can be written exactly if the paths in it are texts; then it reads back
as what is left of it when its secrets are hidden, and that is written the same. -/
structure RoundTrips {σ : Type} (write : σ → Option Json) (read : Json → Read σ) (hide : σ → σ)
    (paths : List UnixPath) (a : σ) : Prop where
  fails_iff : write a = none ↔ ∃ path ∈ paths, path.toText? = none
  reads_back : ∀ json, write a = some json → read json = .ok (hide a)
  again : write (hide a) = write a

/-- A value that is given or supplied is the value with the supplied one to fall
back to. -/
theorem getD_of_or_eq_some {α : Type} {given : Option α} {supplied a : α}
    (h : given.or (some supplied) = some a) : given.getD supplied = a := by
  cases given <;> simpa using h

/-- A value that was left out counts as missing. -/
theorem join_of_or_eq_some {α : Type} {given : Option (Option α)} {a : Option α}
    (h : given.or (some none) = some a) : given.join = a := by
  cases given <;> simpa using h

namespace Schema

/-- How the records of a type are written. -/
structure Writing (schema : Schema) (σ : Type) where
  /-- The value of a field. -/
  get : σ → (f : schema.Field) → schema.Value f
  /-- The value of a field as JSON, if it can be written. -/
  toJson? : (f : schema.Field) → schema.Value f → Option Json
  /-- Whether an object shows the value of a field. -/
  isShown : (f : schema.Field) → schema.Value f → Bool
  /-- The value that reading supplies for a field that is not given. -/
  default? : (f : schema.Field) → Option (schema.Value f)

namespace Writing

variable {schema : Schema} {σ : Type} (w : schema.Writing σ)

/-- A field of a record as a member of an object. -/
def member? (a : σ) (f : schema.Field) : Option (String × Json) :=
  (w.toJson? f (w.get a f)).map fun json => (schema.name f, json)

/-- The fields that the object of a record shows. -/
def shown (a : σ) : List schema.Field :=
  schema.order.filter fun f => w.isShown f (w.get a f)

/-- A record as the object of the fields that are shown. -/
def object? (a : σ) : Option Json :=
  ((w.shown a).mapM (w.member? a)).map .object

/-- A record as the list of all its fields. -/
def row? (a : σ) : Option Json :=
  (schema.order.mapM fun f => w.toJson? f (w.get a f)).map .list

/-- What an object shows of a field: a member or nothing. -/
def members? (a : σ) (f : schema.Field) : Option (List (String × Json)) :=
  if w.isShown f (w.get a f) then
    (w.toJson? f (w.get a f)).map fun json => [(schema.name f, json)]
  else some []

/-- An object is put together from what it shows of each field. -/
theorem object?_eq_flatten (a : σ) :
    w.object? a = (schema.order.mapM (w.members? a)).map fun parts => .object parts.flatten := by
  simp only [object?, shown, mapM_filter, member?, Option.map_map]
  rfl

/-- A writing that agrees with how the records are read: every field goes by its
name, a field that is not shown has the value that reading supplies, and a
record is put together from what is given and what is supplied. -/
structure Lawful (assemble : schema.Values → Except Problem σ) : Prop where
  nodup_order : schema.order.Nodup
  mem_order : ∀ f, f ∈ schema.order
  fieldOf_name : ∀ f, schema.fieldOf (schema.name f) = .ok f
  toJson?_of_hidden : ∀ f v, w.isShown f v = false → w.toJson? f v = some .null
  default?_of_hidden : ∀ f v, w.isShown f v = false → w.default? f = some v
  assemble_eq_ok : ∀ a get, (∀ f, (get f).or (w.default? f) = some (w.get a f)) →
    assemble get = .ok a

/-- Hiding the secrets of a record changes nothing that is written of it, and with its
secrets hidden the record reads back field by field. -/
structure HidesIn (read : schema.Reader Json) (hide : σ → σ) (a : σ) : Prop where
  toJson?_eq : ∀ f, w.toJson? f (w.get (hide a) f) = w.toJson? f (w.get a f)
  isShown_eq : ∀ f, w.isShown f (w.get (hide a) f) = w.isShown f (w.get a f)
  read_eq_ok : ∀ f json, w.toJson? f (w.get (hide a) f) = some json →
    read f json.sorted = .ok (w.get (hide a) f)

namespace Lawful

variable {w} {assemble : schema.Values → Except Problem σ} {read : schema.Reader Json} {a : σ}
  {json : Json}

/-- The fields that are written are those whose value is shown. -/
theorem mem_shown_iff (h : w.Lawful assemble) {f : schema.Field} :
    f ∈ w.shown a ↔ w.isShown f (w.get a f) = true := by
  rw [shown, List.mem_filter]
  exact and_iff_right (h.mem_order f)

/-- No field is written twice. -/
theorem nodup_shown (h : w.Lawful assemble) : (w.shown a).Nodup :=
  h.nodup_order.filter _

/-- A record cannot be written as a list exactly if one of its fields cannot be written. -/
theorem row?_eq_none_iff (h : w.Lawful assemble) :
    w.row? a = none ↔ ∃ f, w.toJson? f (w.get a f) = none := by
  rw [row?, Option.map_eq_none_iff, mapM_eq_none_iff]
  simp only [h.mem_order, true_and]

/-- A record cannot be written as an object exactly if one of its fields cannot be
written, since the fields that are not shown can. -/
theorem object?_eq_none_iff (h : w.Lawful assemble) :
    w.object? a = none ↔ ∃ f, w.toJson? f (w.get a f) = none := by
  rw [object?, Option.map_eq_none_iff, mapM_eq_none_iff]
  simp only [member?, h.mem_shown_iff, Option.map_eq_none_iff]
  constructor
  · rintro ⟨f, -, hnone⟩
    exact ⟨f, hnone⟩
  · rintro ⟨f, hnone⟩
    refine ⟨f, ?_, hnone⟩
    by_cases hshown : w.isShown f (w.get a f) = true
    · exact hshown
    · have hnull := h.toJson?_of_hidden f _ (Bool.eq_false_iff.mpr hshown)
      rw [hnone] at hnull
      cases hnull

/-- **Lists of fields read back.** -/
theorem read_of_row? (h : w.Lawful assemble)
    (hread : ∀ f json, w.toJson? f (w.get a f) = some json → read f json.sorted = .ok (w.get a f))
    (hrow : w.row? a = some json) : schema.read read assemble json.sorted = .ok a := by
  obtain ⟨items, hitems, rfl⟩ := Option.map_eq_some_iff.mp hrow
  have hgiven : List.Forall₂ (fun f item => read f item.sorted = .ok (w.get a f))
      schema.order items :=
    (mapM_eq_some_iff.mp hitems).imp fun f item hitem => hread f item hitem
  refine read_row hgiven (h.assemble_eq_ok a _ fun f => ?_)
  rw [if_pos (h.mem_order f), Option.some_or]

/-- **Objects of fields read back.** -/
theorem read_of_object? (h : w.Lawful assemble)
    (hread : ∀ f json, w.toJson? f (w.get a f) = some json → read f json.sorted = .ok (w.get a f))
    (hobject : w.object? a = some json) : schema.read read assemble json.sorted = .ok a := by
  obtain ⟨members, hmembers, rfl⟩ := Option.map_eq_some_iff.mp hobject
  have hgiven : List.Forall₂ (fun f member => Gives read (w.get a) f (member.1, member.2.sorted))
      (w.shown a) members := by
    refine (mapM_eq_some_iff.mp hmembers).imp fun f member hmember => ?_
    obtain ⟨json, hjson, rfl⟩ := Option.map_eq_some_iff.mp hmember
    exact ⟨h.fieldOf_name f, hread f json hjson⟩
  refine read_object h.nodup_shown hgiven (h.assemble_eq_ok a _ fun f => ?_)
  -- A field that is not shown has the value that is supplied.
  by_cases hshown : w.isShown f (w.get a f) = true
  · rw [if_pos (h.mem_shown_iff.mpr hshown), Option.some_or]
  · rw [if_neg fun hmem => hshown (h.mem_shown_iff.mp hmem), Option.none_or,
      h.default?_of_hidden f _ (Bool.eq_false_iff.mpr hshown)]

variable {hide : σ → σ} {paths : List UnixPath}

/-- Records make the round trip as lists of all their fields where nothing but a path
cannot be written. -/
theorem roundTrips_row? (h : w.Lawful assemble) (hhide : w.HidesIn read hide a)
    (hfails : (∃ f, w.toJson? f (w.get a f) = none) ↔ ∃ path ∈ paths, path.toText? = none) :
    RoundTrips w.row? (fun json => schema.read read assemble json.sorted) hide paths a := by
  have hagain : w.row? (hide a) = w.row? a := by simp only [row?, hhide.toJson?_eq]
  refine ⟨h.row?_eq_none_iff.trans hfails, fun json hjson => ?_, hagain⟩
  exact h.read_of_row? hhide.read_eq_ok (hagain.trans hjson)

/-- So they do as objects. -/
theorem roundTrips_object? (h : w.Lawful assemble) (hhide : w.HidesIn read hide a)
    (hfails : (∃ f, w.toJson? f (w.get a f) = none) ↔ ∃ path ∈ paths, path.toText? = none) :
    RoundTrips w.object? (fun json => schema.read read assemble json.sorted) hide paths a := by
  have hmembers : w.members? (hide a) = w.members? a := by
    funext f
    simp only [members?, hhide.toJson?_eq, hhide.isShown_eq]
  have hagain : w.object? (hide a) = w.object? a := by
    rw [object?_eq_flatten, object?_eq_flatten, hmembers]
  refine ⟨h.object?_eq_none_iff.trans hfails, fun json hjson => ?_, hagain⟩
  exact h.read_of_object? hhide.read_eq_ok (hagain.trans hjson)

end Lawful

end Writing

end Schema

end BackupPlan.Reading
