import BackupPlan.Reading.Record
import Mathlib.Data.List.Perm.Basic
import Mathlib.Data.List.Sigma

/-!
# What the members of a record hold

A record with named fields is read member by member, each into an entry.  That the
reading succeeds, and to what, depends on the entries as a collection only: they
have to belong to different fields, and the record is put together of them in
whatever order they stand.

* `Schema.fieldOf_eq_ok_iff` — by which names a field goes;
* `Schema.readNamed_eq_ok_iff` — the entries that are read;
* `Schema.Holds`, `Schema.read_eq_ok_iff` — the record that the members hold;
* `Schema.Holds.perm`, `Schema.Holds.of_forall₂`, `Schema.Holds.of_cons`,
  `Schema.Holds.cons` — other members that hold it.
-/

namespace BackupPlan.Reading.Schema

variable {schema : Schema} {ν μ σ : Type}

/-- Where no name stands twice in a table, it is looked up wherever it stands. -/
theorem lookup_eq_some_iff {α : Type} {table : List (String × α)} {name : String} {a : α}
    (hnames : (table.map Prod.fst).Nodup) : table.lookup name = some a ↔ (name, a) ∈ table := by
  induction table with
  | nil => simp
  | cons known rest ih =>
      obtain ⟨n, b⟩ := known
      obtain ⟨hnew, hrest⟩ := List.nodup_cons.mp hnames
      rw [List.mem_cons, Prod.mk.injEq]
      by_cases hname : name = n
      · subst hname
        have hother : (name, a) ∉ rest := fun hmem => hnew (List.mem_map.mpr ⟨_, hmem, rfl⟩)
        rw [List.lookup_cons_self]
        simp [hother, eq_comm]
      · rw [List.lookup_cons, beq_eq_false_iff_ne.mpr hname]
        simp [hname, ih hrest]

/-- Fields go by the names of their table. -/
theorem fieldOf_eq_ok_iff (hnames : (schema.names.map Prod.fst).Nodup) {name : String}
    {f : schema.Field} : schema.fieldOf name = .ok f ↔ (name, f) ∈ schema.names := by
  rw [← lookup_eq_some_iff hnames, fieldOf]
  cases schema.names.lookup name <;> simp [fail]

/-- Entries are looked up by their fields. -/
theorem get?_eq_dlookup (f : schema.Field) (entries : List schema.Entry) :
    schema.get? f entries = entries.dlookup f := by
  induction entries with
  | nil => rfl
  | cons entry rest ih =>
      obtain ⟨g, value⟩ := entry
      rw [get?]
      by_cases hgf : g = f
      · subst hgf
        rw [dif_pos rfl, List.dlookup_cons_eq]
      · rw [dif_neg hgf, ih, List.dlookup_cons_ne _ _ (Ne.symm hgf)]

/-- A member reads to an entry: to the field of its name, with the value of the field. -/
def ReadsTo (read : schema.Reader ν) (member : String × ν) (entry : schema.Entry) : Prop :=
  schema.fieldOf member.1 = .ok entry.1 ∧ read entry.1 member.2 = .ok entry.2

section

variable {read : schema.Reader ν} {member : String × ν} {members : List (String × ν)}
  {done result : List schema.Entry}

/-- The members, each with a name that is a text. -/
def named (members : List (String × ν)) : List (Read String × ν) :=
  members.map fun member => (.ok member.1, member.2)

/-- Reading goes beyond a member exactly if it reads to an entry of a new field. -/
theorem readNamed_cons_eq_ok_iff :
    schema.readNamed read (named (member :: members)) done = .ok result ↔
      ∃ entry, ReadsTo read member entry ∧ entry.1 ∉ done.keys ∧
        schema.readNamed read (named members) (done ++ [entry]) = .ok result := by
  obtain ⟨name, value⟩ := member
  simp only [ReadsTo, Sigma.exists, named, List.map_cons, readNamed, bind, Except.bind]
  cases hfield : schema.fieldOf name with
  | error fault => simp
  | ok f =>
      have hdone : (schema.get? f done).isSome = true ↔ f ∈ done.keys := by
        rw [get?_eq_dlookup, List.dlookup_isSome]
      simp only [Except.ok.injEq, hdone]
      by_cases hold : f ∈ done.keys
      · rw [if_pos hold]
        constructor
        · intro h
          cases h
        · rintro ⟨g, v, ⟨rfl, -⟩, hnew, -⟩
          exact absurd hold hnew
      · rw [if_neg hold]
        cases hvalue : read f value with
        | error fault =>
            simp only [reduceCtorEq, false_iff, not_exists]
            rintro g v ⟨⟨rfl, hv⟩, -⟩
            rw [hvalue] at hv
            cases hv
        | ok v =>
            constructor
            · intro h
              exact ⟨f, v, ⟨rfl, hvalue⟩, hold, h⟩
            · rintro ⟨g, w, ⟨rfl, hw⟩, -, h⟩
              rw [hvalue] at hw
              cases hw
              exact h

/-- One more entry has to be of a new field. -/
theorem nodupKeys_concat {entry : schema.Entry} :
    (done ++ [entry]).NodupKeys ↔ entry.1 ∉ done.keys ∧ done.NodupKeys := by
  rw [List.perm_nodupKeys (List.perm_append_singleton entry done), List.nodupKeys_cons]

/-- **Named fields**, of which none is given twice, read to the entries of the members. -/
theorem readNamed_eq_ok_iff (hdone : done.NodupKeys) :
    schema.readNamed read (named members) done = .ok result ↔
      ∃ entries, List.Forall₂ (ReadsTo read) members entries ∧ result = done ++ entries ∧
        result.NodupKeys := by
  induction members generalizing done with
  | nil =>
      simp only [List.forall₂_nil_left_iff, exists_eq_left, List.append_nil]
      constructor
      · intro h
        cases h
        exact ⟨rfl, hdone⟩
      · rintro ⟨rfl, -⟩
        rfl
  | cons member rest ih =>
      rw [readNamed_cons_eq_ok_iff]
      constructor
      · rintro ⟨entry, hentry, hnew, hrest⟩
        obtain ⟨entries, hentries, rfl, hkeys⟩ :=
          (ih (nodupKeys_concat.mpr ⟨hnew, hdone⟩)).mp hrest
        exact ⟨entry :: entries, .cons hentry hentries, List.append_assoc .., hkeys⟩
      · rintro ⟨_, hentries, rfl, hkeys⟩
        obtain ⟨entry, entries, hentry, hrest, rfl⟩ := List.forall₂_cons_left_iff.mp hentries
        have hresult : done ++ entry :: entries = done ++ [entry] ++ entries :=
          List.append_cons ..
        have hfirst : (done ++ [entry]).NodupKeys :=
          (hresult ▸ hkeys).sublist (List.sublist_append_left _ _)
        exact ⟨entry, hentry, (nodupKeys_concat.mp hfirst).1,
          (ih hfirst).mpr ⟨entries, hrest, hresult, hkeys⟩⟩

end

/-- What members hold: they read to entries of different fields, of which the record is
put together. -/
def Holds (read : schema.Reader ν) (assemble : schema.Values → Except Problem σ)
    (members : List (String × ν)) (record : σ) : Prop :=
  ∃ entries, List.Forall₂ (ReadsTo read) members entries ∧ entries.NodupKeys ∧
    assemble (fun f => schema.get? f entries) = .ok record

variable {read : schema.Reader ν} {assemble : schema.Values → Except Problem σ} {record : σ}
  {members : List (String × ν)}

/-- **Records with named fields** read to what their members hold. -/
theorem read_eq_ok_iff [Datum ν] {value : ν}
    (hfields : Datum.fields schema.label value = .ok (.named (named members) (.ok ()))) :
    schema.read read assemble value = .ok record ↔ Holds read assemble members record := by
  have hentries : schema.readEntries read value = schema.readNamed read (named members) [] := by
    rw [readEntries, hfields]
    cases hnamed : schema.readNamed read (named members) [] <;>
      simp [bind, Except.bind, hnamed, pure, Except.pure]
  have hread : schema.read read assemble value = .ok record ↔
      ∃ entries, schema.readNamed read (named members) [] = .ok entries ∧
        assemble (fun f => schema.get? f entries) = .ok record := by
    rw [Schema.read, hentries]
    cases hnamed : schema.readNamed read (named members) [] with
    | error fault => simp [bind, Except.bind, Read.mapFault, Except.mapError]
    | ok entries =>
        simp only [bind, Except.bind, Read.mapFault, Except.ok.injEq, exists_eq_left']
        cases assemble fun f => schema.get? f entries <;> simp [Except.mapError]
  rw [hread, Holds]
  simp only [readNamed_eq_ok_iff List.nodupKeys_nil, List.nil_append]
  constructor
  · rintro ⟨_, ⟨entries, hmembers, rfl, hkeys⟩, hrecord⟩
    exact ⟨_, hmembers, hkeys, hrecord⟩
  · rintro ⟨entries, hmembers, hkeys, hrecord⟩
    exact ⟨entries, ⟨entries, hmembers, rfl, hkeys⟩, hrecord⟩

/-- What is done to the values may be done when they are read. -/
theorem holds_map_iff {g : ν → μ} {readOther : schema.Reader μ} :
    Holds readOther assemble (members.map fun member => (member.1, g member.2)) record ↔
      Holds (fun f value => readOther f (g value)) assemble members record := by
  simp only [Holds, List.forall₂_map_left_iff]
  rfl

/-- The members of a record go by the fields of its entries. -/
theorem fields_eq {entries : List schema.Entry}
    (h : List.Forall₂ (ReadsTo read) members entries) :
    (members.map fun member => schema.fieldOf member.1) = entries.keys.map .ok := by
  induction h with
  | nil => rfl
  | cons hmember _ ih => rw [List.map_cons, hmember.1, ih, List.keys_cons, List.map_cons]

/-- Every member of a record goes by a field. -/
theorem Holds.exists_fieldOf (h : Holds read assemble members record) :
    ∀ member ∈ members, ∃ f, schema.fieldOf member.1 = .ok f := by
  obtain ⟨entries, hmembers, -, -⟩ := h
  intro member hmember
  have hmem : schema.fieldOf member.1 ∈ entries.keys.map .ok := by
    rw [← fields_eq hmembers]
    exact List.mem_map_of_mem hmember
  obtain ⟨f, -, hf⟩ := List.mem_map.mp hmem
  exact ⟨f, hf.symm⟩

/-- No two members of a record go by one field. -/
theorem Holds.nodup_fieldOf (h : Holds read assemble members record) :
    (members.map fun member => schema.fieldOf member.1).Nodup := by
  obtain ⟨entries, hmembers, hkeys, -⟩ := h
  rw [fields_eq hmembers]
  exact List.Nodup.map (fun f g hfg => Except.ok.inj hfg) hkeys

/-- **Order of members.**  Members hold in any order what they hold in one. -/
theorem Holds.perm {others : List (String × ν)} (h : Holds read assemble members record)
    (hperm : members.Perm others) : Holds read assemble others record := by
  obtain ⟨entries, hmembers, hkeys, hrecord⟩ := h
  -- The entries are reordered with the members; looked up by their fields, they are the same.
  obtain ⟨entries', hothers, hentries⟩ := List.perm_comp_forall₂ hperm.symm hmembers
  have hkeys' : entries'.NodupKeys := (List.perm_nodupKeys hentries).mpr hkeys
  have hget : (fun f => schema.get? f entries') = fun f => schema.get? f entries := by
    funext f
    rw [get?_eq_dlookup, get?_eq_dlookup, List.perm_dlookup f hkeys' hentries]
  refine ⟨entries', hothers, hkeys', ?_⟩
  rw [hget, hrecord]

/-- Members hold what others hold that read to the same entries one by one. -/
theorem Holds.of_forall₂ {others : List (String × μ)} {readOther : schema.Reader μ}
    (h : Holds read assemble members record)
    (hsame : List.Forall₂ (fun member other => ∀ entry, ReadsTo read member entry →
      ReadsTo readOther other entry) members others) :
    Holds readOther assemble others record := by
  obtain ⟨entries, hmembers, hkeys, hrecord⟩ := h
  refine ⟨entries, ?_, hkeys, hrecord⟩
  clear hkeys hrecord
  induction hmembers generalizing others with
  | nil => cases hsame; exact .nil
  | cons hmember _ ih =>
      cases hsame with
      | cons hfirst hrest => exact .cons (hfirst _ hmember) (ih hrest)

/-! ### Fields that may be left out -/

/-- Where a field is not given, a record is put together as if its default were. -/
def Supplies (default? : (f : schema.Field) → Option (schema.Value f))
    (assemble : schema.Values → Except Problem σ) : Prop :=
  ∀ (get given : schema.Values) (record : σ),
    (∀ f, (get f).or (default? f) = (given f).or (default? f)) →
      (assemble get = .ok record ↔ assemble given = .ok record)

variable {default? : (f : schema.Field) → Option (schema.Value f)} {f : schema.Field}
  {v : schema.Value f} {member : String × ν}

/-- Giving a field its default changes nothing in what is assembled. -/
theorem assemble_cons_eq_ok_iff (hsupplies : Supplies default? assemble)
    (hdefault : default? f = some v) {entries : List schema.Entry} (hnew : f ∉ entries.keys) :
    assemble (fun g => schema.get? g (⟨f, v⟩ :: entries)) = .ok record ↔
      assemble (fun g => schema.get? g entries) = .ok record := by
  refine hsupplies _ _ _ fun g => ?_
  rw [get?_eq_dlookup, get?_eq_dlookup]
  by_cases hgf : g = f
  · subst hgf
    rw [List.dlookup_cons_eq, List.dlookup_eq_none.mpr hnew, hdefault]
    rfl
  · rw [List.dlookup_cons_ne _ _ hgf]

/-- A member that gives the default of its field may be dropped. -/
theorem Holds.of_cons (hsupplies : Supplies default? assemble) (hdefault : default? f = some v)
    (hmember : ReadsTo read member ⟨f, v⟩)
    (h : Holds read assemble (member :: members) record) : Holds read assemble members record := by
  obtain ⟨_, hmembers, hkeys, hrecord⟩ := h
  obtain ⟨⟨g, w⟩, entries, ⟨hfield, hvalue⟩, hrest, rfl⟩ := List.forall₂_cons_left_iff.mp hmembers
  rw [hmember.1] at hfield
  cases hfield
  rw [hmember.2] at hvalue
  cases hvalue
  exact ⟨entries, hrest, List.nodupKeys_of_nodupKeys_cons hkeys,
    (assemble_cons_eq_ok_iff hsupplies hdefault
      (List.notMem_keys_of_nodupKeys_cons hkeys)).mp hrecord⟩

/-- It may be added, where no other member goes by the field. -/
theorem Holds.cons (hsupplies : Supplies default? assemble) (hdefault : default? f = some v)
    (hmember : ReadsTo read member ⟨f, v⟩)
    (hnew : ∀ other ∈ members, schema.fieldOf other.1 ≠ .ok f)
    (h : Holds read assemble members record) : Holds read assemble (member :: members) record := by
  obtain ⟨entries, hmembers, hkeys, hrecord⟩ := h
  have hkey : f ∉ entries.keys := by
    intro hmem
    have hfield : .ok f ∈ members.map fun other => schema.fieldOf other.1 := by
      rw [fields_eq hmembers]
      exact List.mem_map_of_mem hmem
    obtain ⟨other, hother, heq⟩ := List.mem_map.mp hfield
    exact hnew other hother heq
  exact ⟨⟨f, v⟩ :: entries, .cons hmember hmembers, List.nodupKeys_cons.mpr ⟨hkey, hkeys⟩,
    (assemble_cons_eq_ok_iff hsupplies hdefault hkey).mpr hrecord⟩

end BackupPlan.Reading.Schema
