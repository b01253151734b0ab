import BackupPlan.Json.Datum
import BackupPlan.Proofs.Reading.Entries
import BackupPlan.Proofs.Reading.Members

/-!
# Records read back

A record is written as an object of its fields, or as the list of all its fields in
their order.  Both read back to whatever the values of the fields read back to: the
members of an object may stand in any order, each under any name of its field, and
the fields that are not written have to be those that reading supplies.

* `Schema.readListed_eq_ok` — fields one after another;
* `Schema.read_sorted_eq_ok_iff` — objects read to what their members hold, sorted or not;
* `Schema.read_object`, `Schema.read_row` — whole records.
-/

namespace BackupPlan.Reading.Schema

/-- Entries made for a list of fields hold the value of each of these fields and nothing else. -/
theorem get?_map (schema : Schema) (f : schema.Field) (fields : List schema.Field)
    (value : (f : schema.Field) → schema.Value f) :
    schema.get? f (fields.map fun g => ⟨g, value g⟩) =
      if f ∈ fields then some (value f) else none := by
  induction fields with
  | nil => rfl
  | cons g rest ih =>
      rw [List.map_cons, get?]
      by_cases hgf : g = f
      · subst hgf
        simp
      · rw [dif_neg hgf, ih]
        simp [Ne.symm hgf]

variable {schema : Schema} {ν : Type} {read : schema.Reader ν}
  {value : (f : schema.Field) → schema.Value f}

/-- A member is given under a name of the field, and reads to the value of the field. -/
def Gives (read : schema.Reader ν) (value : (f : schema.Field) → schema.Value f)
    (f : schema.Field) (member : String × ν) : Prop :=
  schema.fieldOf member.1 = .ok f ∧ read f member.2 = .ok (value f)

/-- Fields in their order read one after another. -/
theorem readListed_eq_ok {fields : List schema.Field} {items : List ν} {ending : Read Unit}
    (h : List.Forall₂ (fun f item => read f item = .ok (value f)) fields items) (index : Nat) :
    schema.readListed read index fields ⟨items, ending⟩ =
      .ok (fields.map fun f => ⟨f, value f⟩, ⟨[], ending⟩) := by
  induction h generalizing index with
  | nil => rfl
  | cons hitem _ ih =>
      rw [readListed, hitem]
      simp only [bind, Except.bind, ih (index + 1), pure, Except.pure]
      rfl

/-- Entries made for a list of fields have these fields as their keys. -/
theorem keys_map (fields : List schema.Field) (value : (f : schema.Field) → schema.Value f) :
    (fields.map fun f => (⟨f, value f⟩ : schema.Entry)).keys = fields := by
  simp [List.keys, Function.comp_def]

/-- Members that give fields read to entries of these. -/
theorem forall₂_readsTo {fields : List schema.Field} {members : List (String × ν)}
    (h : List.Forall₂ (Gives read value) fields members) :
    List.Forall₂ (ReadsTo read) members (fields.map fun f => ⟨f, value f⟩) :=
  List.forall₂_map_right_iff.mpr h.flip

/-- Members that give different fields have different names. -/
theorem nodup_names {fields : List schema.Field} {members : List (String × ν)}
    (hnodup : fields.Nodup) (h : List.Forall₂ (Gives read value) fields members) :
    (members.map Prod.fst).Nodup := by
  have hfields : (members.map Prod.fst).map schema.fieldOf = fields.map .ok := by
    rw [List.map_map]
    exact (fields_eq (forall₂_readsTo h)).trans (by rw [keys_map])
  refine List.Nodup.of_map schema.fieldOf ?_
  rw [hfields]
  exact hnodup.map fun f g hfg => Except.ok.inj hfg

/-! ### Whole records from JSON -/

section Json

variable {σ : Type} {read : schema.Reader Json}
  {assemble : schema.Values → Except Problem σ} {record : σ}

/-- Where entries are read, the record is put together from them. -/
theorem read_eq_ok {json : Json} {fields : List schema.Field}
    (hentries : schema.readEntries read json = .ok (fields.map fun f => ⟨f, value f⟩))
    (hrecord : assemble (fun f => if f ∈ fields then some (value f) else none) = .ok record) :
    schema.read read assemble json = .ok record := by
  have hget : (fun f => schema.get? f (fields.map fun g => ⟨g, value g⟩)) =
      fun f => if f ∈ fields then some (value f) else none :=
    funext fun f => get?_map schema f fields value
  rw [Schema.read, hentries]
  simp only [bind, Except.bind, hget, hrecord]
  rfl

/-- **Objects**, whatever the order of their members, read to what the members hold. -/
theorem read_sorted_eq_ok_iff {members : List (String × Json)}
    (hnames : (members.map Prod.fst).Nodup) :
    schema.read read assemble (Json.object members).sorted = .ok record ↔
      Holds (fun f json => read f json.sorted) assemble members record := by
  have hread : schema.read read assemble (Json.object members).sorted = .ok record ↔
      Holds read assemble (Json.sortedMembers members []) record := by
    rw [Json.sorted]
    exact read_eq_ok_iff rfl
  have hnew : (members.map Prod.fst ++ ([] : List (String × Json)).map Prod.fst).Nodup := by
    simpa using hnames
  have hperm := Json.sortedMembers_perm hnew
  rw [List.append_nil] at hperm
  have hmap : Holds read assemble (members.map fun member => (member.1, member.2.sorted)) record ↔
      Holds (fun f json => read f json.sorted) assemble members record := holds_map_iff
  rw [hread, ← hmap]
  exact ⟨fun h => h.perm hperm, fun h => h.perm hperm.symm⟩

/-- **Objects read back.**  An object whose members are fields, none of them twice,
reads to the values to which its members read once they are sorted. -/
theorem read_object {fields : List schema.Field} {members : List (String × Json)}
    (hnodup : fields.Nodup)
    (h : List.Forall₂ (fun f member => Gives read value f (member.1, member.2.sorted))
      fields members)
    (hrecord : assemble (fun f => if f ∈ fields then some (value f) else none) = .ok record) :
    schema.read read assemble (Json.object members).sorted = .ok record := by
  have hgives : List.Forall₂ (Gives (fun f json => read f json.sorted) value) fields members := h
  have hkeys : (fields.map fun f => (⟨f, value f⟩ : schema.Entry)).NodupKeys := by
    rw [List.NodupKeys, keys_map]
    exact hnodup
  refine (read_sorted_eq_ok_iff (nodup_names hnodup hgives)).mpr
    ⟨_, forall₂_readsTo hgives, hkeys, ?_⟩
  simpa only [get?_map] using hrecord

/-- **Rows read back.**  The list of all fields in their order reads to the values to
which its items read. -/
theorem read_row {items : List Json}
    (h : List.Forall₂ (fun f item => read f item.sorted = .ok (value f)) schema.order items)
    (hrecord : assemble (fun f => if f ∈ schema.order then some (value f) else none) =
      .ok record) :
    schema.read read assemble (Json.list items).sorted = .ok record := by
  refine read_eq_ok ?_ hrecord
  have hsorted : List.Forall₂ (fun f item => read f item = .ok (value f)) schema.order
      (Json.sortedItems items) := by
    rw [Json.sortedItems_eq_map, List.forall₂_map_right_iff]
    exact h
  rw [Json.sorted, readEntries]
  simp only [Datum.fields, Json.asFields, bind, Except.bind, readListed_eq_ok hsorted]
  rfl

end Json

end BackupPlan.Reading.Schema
