import BackupPlan.Reading.Record
import BackupPlan.Reading.Values

/-!
# What reading can come to

A property of what is read follows from that of its parts: of an item for a list, of the
values of the fields for a record.  Nothing is said of readings that fail.

* `Yields` — whatever is read has the property;
* `yields_optional`, `yields_list`, `yields_oneOrMany` — values made of values;
* `Schema.yields_read` — records, whether their fields are named or listed.
-/

namespace BackupPlan.Reading

variable {ν α β : Type} {P : α → Prop} {Q : β → Prop}

/-- Whatever is read has the property. -/
def Yields (r : Read α) (P : α → Prop) : Prop :=
  ∀ a, r = .ok a → P a

namespace Yields

theorem trivial (r : Read α) : Yields r fun _ => True :=
  fun _ _ => True.intro

/-- A value that is returned is what the reader yields. -/
theorem pure {a : α} (h : P a) : Yields (Pure.pure a) P := by
  intro b hb
  cases hb
  exact h

/-- A reader that fails yields whatever is asked of it. -/
theorem error (fault : Fault) : Yields (.error fault) P := by
  intro a ha
  cases ha

/-- What comes second may rely on what the first reader yields. -/
theorem bind {r : Read α} {f : α → Read β} (h : Yields r P) (hf : ∀ a, P a → Yields (f a) Q) :
    Yields (r >>= f) Q := by
  cases r with
  | error fault => exact error fault
  | ok a => exact hf a (h a rfl)

/-- A step of which nothing is known. -/
theorem after {r : Read α} {f : α → Read β} (hf : ∀ a, Yields (f a) Q) : Yields (r >>= f) Q :=
  bind (trivial r) fun a _ => hf a

/-- A function of what is read yields what it makes of it. -/
theorem map {r : Read α} {f : α → β} (h : Yields r P) (hf : ∀ a, P a → Q (f a)) :
    Yields (f <$> r) Q := by
  cases r with
  | error fault => exact error fault
  | ok a => exact pure (hf a (h a rfl))

/-- Rewording the faults of a reader leaves what it yields. -/
theorem mapFault {r : Read α} {f : Fault → Fault} (h : Yields r P) :
    Yields (Read.mapFault f r) P := by
  cases r with
  | error fault => exact error (f fault)
  | ok a => exact h

/-- Reading several values yields for each of them what reading one does. -/
theorem mapM {f : ν → Read α} (h : ∀ x, Yields (f x) P) (xs : List ν) :
    Yields (xs.mapM f) fun as => ∀ a ∈ as, P a := by
  induction xs with
  | nil => exact pure (by simp)
  | cons x rest ih =>
      rw [List.mapM_cons]
      refine bind (h x) fun a ha => bind ih fun as has => pure ?_
      rw [List.forall_mem_cons]
      exact ⟨ha, has⟩

end Yields

/-! ### Values made of values -/

section

variable [Datum ν]

/-- A value that may be null is one that the inner reader yields, where there is one. -/
theorem yields_optional {inner : ν → Read α} (h : ∀ value, Yields (inner value) P) (value : ν) :
    Yields (optional inner value) fun given => ∀ a ∈ given, P a := by
  refine .after fun found => ?_
  cases found with
  | none => exact .pure (by simp)
  | some value => exact (h value).map fun a ha => by simpa using ha

/-- The items of a list are ones that the inner reader yields. -/
theorem yields_list {inner : ν → Read α} (h : ∀ value, Yields (inner value) P) (value : ν) :
    Yields (list inner value) fun as => ∀ a ∈ as, P a := by
  refine Yields.mapFault (.after fun found => ?_)
  exact (Yields.mapM h found.items).bind fun as has => .after fun _ => .pure has

/-- One value or several are ones that the inner reader yields. -/
theorem yields_oneOrMany {inner : Open → Read α} (h : ∀ value, Yields (inner value) P)
    (value : ν) : Yields (oneOrMany inner value) fun as => ∀ a ∈ as, P a := by
  refine .after fun content => ?_
  cases hone : inner content with
  | ok one => exact .pure (by simpa using h content one hone)
  | error =>
      cases hmany : list inner content with
      | ok many => exact .pure (yields_list h content many hmany)
      | error => exact .error _

end

/-! ### Records -/

namespace Schema

variable {schema : Schema} {σ : Type} {read : schema.Reader ν}
  {P : (f : schema.Field) → schema.Value f → Prop}

/-- Every entry has the property of its field. -/
def Keeps (P : (f : schema.Field) → schema.Value f → Prop) (entries : List schema.Entry) : Prop :=
  ∀ entry ∈ entries, P entry.1 entry.2

/-- The entry of a field has the property of its field. -/
theorem Keeps.of_get? {entries : List schema.Entry} (h : Keeps P entries) {f : schema.Field}
    {value : schema.Value f} (hvalue : schema.get? f entries = some value) : P f value := by
  induction entries with
  | nil => cases hvalue
  | cons entry rest ih =>
      obtain ⟨g, given⟩ := entry
      obtain ⟨hfirst, hrest⟩ := List.forall_mem_cons.mp h
      rw [get?] at hvalue
      split at hvalue
      · next hgf =>
          subst hgf
          cases hvalue
          exact hfirst
      · exact ih hrest hvalue

/-- Members read by their names are kept with the properties of their fields. -/
theorem yields_readNamed (hread : ∀ f value, Yields (read f value) (P f))
    (members : List (Read String × ν)) {done : List schema.Entry} (hdone : Keeps P done) :
    Yields (schema.readNamed read members done) (Keeps P) := by
  induction members generalizing done with
  | nil => exact .pure hdone
  | cons member rest ih =>
      obtain ⟨name, value⟩ := member
      refine .after fun _ => .after fun f => ?_
      have hrest : Yields (do
          let a ← read f value
          schema.readNamed read rest (done ++ [⟨f, a⟩])) (Keeps P) := by
        refine (hread f value).bind fun a ha => ih fun entry hentry => ?_
        rcases List.mem_append.mp hentry with hold | hnew
        · exact hdone entry hold
        · rw [List.mem_singleton.mp hnew]
          exact ha
      split
      · exact .after fun _ => hrest
      · exact hrest

/-- Items read by their positions are kept with the properties of their fields. -/
theorem yields_readListed (hread : ∀ f value, Yields (read f value) (P f)) (index : Nat)
    (fields : List schema.Field) (items : Items ν) :
    Yields (schema.readListed read index fields items) fun result => Keeps P result.1 := by
  induction fields generalizing index items with
  | nil => exact .pure (by simp [Keeps])
  | cons f rest ih =>
      obtain ⟨values, ending⟩ := items
      cases values with
      | nil =>
          refine .after fun _ => ?_
          split
          · exact ih (index + 1) ⟨[], ending⟩
          · exact .error _
      | cons value values =>
          refine (hread f value).bind fun a ha => (ih (index + 1) ⟨values, ending⟩).bind ?_
          intro result hresult
          exact .pure (List.forall_mem_cons.mpr ⟨ha, hresult⟩)

/-- A record is read into entries with the properties of their fields, from an object or from a
list. -/
theorem yields_readEntries [Datum ν] (hread : ∀ f value, Yields (read f value) (P f)) (value : ν) :
    Yields (schema.readEntries read value) (Keeps P) := by
  refine .after fun fields => ?_
  cases fields with
  | named members ending =>
      have hnone : Keeps P [] := by simp [Keeps]
      exact (yields_readNamed hread members hnone).bind fun done hdone =>
        .after fun _ => .pure hdone
  | listed items surplus =>
      refine (yields_readListed hread 0 schema.order items).bind fun result hresult => ?_
      obtain ⟨done, left⟩ := result
      dsimp only
      split
      · exact .after fun _ => .pure hresult
      · exact .after fun _ => .pure hresult

/-- **Records.**  What is put together of the fields has a property if it does wherever
the fields that are given have theirs. -/
theorem yields_read [Datum ν] {assemble : schema.Values → Except Problem σ} {Q : σ → Prop}
    (hread : ∀ f value, Yields (read f value) (P f))
    (hassemble : ∀ get a, (∀ f v, get f = some v → P f v) → assemble get = .ok a → Q a)
    (value : ν) : Yields (schema.read read assemble value) Q := by
  refine Yields.mapFault ((yields_readEntries hread value).bind fun entries hentries => ?_)
  intro a ha
  cases hresult : assemble fun f => schema.get? f entries with
  | error problem =>
      rw [hresult] at ha
      cases ha
  | ok result =>
      rw [hresult] at ha
      cases ha
      exact hassemble _ _ (fun f v hv => hentries.of_get? hv) hresult

end Schema

end BackupPlan.Reading
