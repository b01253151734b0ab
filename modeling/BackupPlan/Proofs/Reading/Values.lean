import BackupPlan.Job.Writing
import BackupPlan.Json.Datum
import BackupPlan.Proofs.Elementwise
import BackupPlan.Proofs.Reading.Members
import BackupPlan.Reading.Values

/-!
# Single values read back

What is written of a value is a text, or is made of texts: none of them, one, or a
list.  So a value reads back if it reads back from its text.

* `exists_text_of_toJson?`, `exists_texts_of_mapM_toJson?` — paths are written as their texts;
* `optional_of_texts`, `setting_of_texts`, `oneOrMany_of_texts` — values that may be left
  out, settings, and lists of which a single item stands for the whole;
* `members_setting`, `members_optional`, `members_path` — what an object shows of them.
-/

namespace BackupPlan.Reading

variable {ν α : Type}

/-! ### Texts and paths -/

/-- A path that can be written is made of the text it is written as. -/
theorem exists_text_of_toJson? {p : UnixPath} {json : Json} (h : p.toJson? = some json) :
    ∃ s, json = .text s ∧ p = .ofText s := by
  obtain ⟨s, hs, rfl⟩ := Option.map_eq_some_iff.mp h
  exact ⟨s, rfl, UnixPath.eq_ofText_of_toText? hs⟩

/-- A path that may be missing and can be written is missing or made of the text it is written
as. -/
theorem exists_text?_of_mapM_toJson? {given : Option UnixPath} {json : Option Json}
    (h : given.mapM UnixPath.toJson? = some json) :
    ∃ text : Option String, json = text.map .text ∧ given = text.map .ofText := by
  cases given with
  | none => exact ⟨none, (Option.some_inj.mp h).symm, rfl⟩
  | some path =>
      obtain ⟨item, hitem, rfl⟩ := Option.map_eq_some_iff.mp h
      obtain ⟨s, rfl, rfl⟩ := exists_text_of_toJson? hitem
      exact ⟨some s, rfl, rfl⟩

/-- Paths that can be written are made of the texts they are written as. -/
theorem exists_texts_of_mapM_toJson? {paths : List UnixPath} {items : List Json}
    (h : paths.mapM UnixPath.toJson? = some items) :
    ∃ texts : List String, items = texts.map .text ∧ paths = texts.map .ofText := by
  have hitems := mapM_eq_some_iff.mp h
  clear h
  induction hitems with
  | nil => exact ⟨[], rfl, rfl⟩
  | cons hfirst _ ih =>
      obtain ⟨s, rfl, rfl⟩ := exists_text_of_toJson? hfirst
      obtain ⟨texts, rfl, rfl⟩ := ih
      exact ⟨s :: texts, rfl, rfl⟩

/-! ### Values made of texts -/

/-- A list reads to what its items read to. -/
theorem list_eq_ok [Datum ν] {inner : ν → Read α} {value : ν} {items : List ν} {as : List α}
    (hvalue : Datum.items "a sequence" value = .ok { items })
    (h : List.Forall₂ (fun item a => inner item = .ok a) items as) :
    list inner value = .ok as := by
  simp only [list, hvalue, bind, Except.bind, mapM_eq_ok h]
  rfl

/-- A text that may be left out reads to what the text reads to. -/
theorem optional_of_texts {inner : Json → Read α} {make : String → α}
    (h : ∀ s, inner (.text s) = .ok (make s)) (given : Option String) :
    optional inner ((given.map Json.text).getD .null).sorted = .ok (given.map make) := by
  cases given with
  | none => rfl
  | some s =>
      show optional inner (Json.text s).sorted = _
      rw [Json.sorted_text, optional]
      simp only [Datum.optional, Json.asOptional, bind, Except.bind, h]
      rfl

/-- A setting reads back if its value, where it has one, reads back from its text. -/
theorem setting_of_texts {inner : Open → Read α} {spell : α → String} {given : Setting α}
    (h : ∀ a, given = .value a → inner (.text (spell a)) = .ok a) :
    setting inner (given.toJson fun a => .text (spell a)).sorted = .ok given := by
  cases given with
  | unset => rfl
  | disabled => rfl
  | value a =>
      show setting inner (Json.text (spell a)).sorted = _
      rw [Json.sorted_text, setting]
      simp only [Datum.optional, Json.asOptional, Datum.content, Json.toOpen, bind, Except.bind,
        settingValue, h a rfl]
      rfl

/-- A list of texts is open to a reader as it stands. -/
theorem toOpenItems_texts (texts : List String) :
    Json.toOpenItems (texts.map .text) = texts.map .text := by
  induction texts with
  | nil => rfl
  | cons s rest ih => rw [List.map_cons, Json.toOpenItems, ih, Json.toOpen, List.map_cons]

/-- There is nothing to sort in a list of texts. -/
theorem sortedItems_texts (texts : List String) :
    Json.sortedItems (texts.map .text) = texts.map .text := by
  rw [Json.sortedItems_eq_map, List.map_map]
  rfl

/-- A list of texts reads back where a list is no item, also if it is written as its
only item. -/
theorem oneOrMany_of_texts {inner : Open → Read α} {make : String → α}
    (htext : ∀ s, inner (.text s) = .ok (make s))
    (hlist : ∀ items, ∃ fault, inner (.list items) = .error fault) (texts : List String) :
    oneOrMany inner (oneOrManyToJson (texts.map .text)).sorted = .ok (texts.map make) := by
  by_cases hone : ∃ s, texts = [s]
  · obtain ⟨s, rfl⟩ := hone
    show oneOrMany inner (Json.text s).sorted = _
    rw [Json.sorted_text, oneOrMany]
    simp only [Datum.content, Json.toOpen, bind, Except.bind, htext]
    rfl
  · have hvalue : (oneOrManyToJson (texts.map .text)).sorted = .list (texts.map .text) := by
      have hmany : oneOrManyToJson (texts.map .text) = .list (texts.map .text) := by
        rcases texts with _ | ⟨s, _ | ⟨t, rest⟩⟩
        · rfl
        · exact absurd ⟨s, rfl⟩ hone
        · rfl
      rw [hmany, Json.sorted, sortedItems_texts]
    obtain ⟨fault, hfault⟩ := hlist (texts.map .text)
    have hitems : list inner (.list (texts.map .text)) = .ok (texts.map make) := by
      refine list_eq_ok rfl ?_
      rw [List.forall₂_map_left_iff, List.forall₂_map_right_iff, List.forall₂_same]
      exact fun s _ => htext s
    rw [hvalue, oneOrMany]
    simp only [Datum.content, Json.toOpen, toOpenItems_texts, bind, Except.bind, hfault, hitems]
    rfl

/-! ### Texts and paths among them -/

/-- A text that may be missing is read as it was written. -/
theorem optional_text (given : Option String) :
    optional text ((given.map Json.text).getD .null).sorted = .ok given := by
  have htext : ∀ s, text (Json.text s) = .ok (id s) := fun _ => rfl
  rw [optional_of_texts htext, Option.map_id_fun, id]

/-- A path that may be missing is read as it was written. -/
theorem optional_path {given : Option UnixPath} {json : Option Json}
    (h : given.mapM UnixPath.toJson? = some json) :
    optional path (json.getD .null).sorted = .ok given := by
  obtain ⟨text, rfl, rfl⟩ := exists_text?_of_mapM_toJson? h
  have hpath : ∀ s, path (Json.text s) = .ok (UnixPath.ofText s) := fun _ => rfl
  exact optional_of_texts hpath text

/-- Texts are read as they were written, be it one alone or a list. -/
theorem oneOrMany_text (texts : List String) :
    oneOrMany text (oneOrManyToJson (texts.map .text)).sorted = .ok texts := by
  have htext : ∀ s, text (Open.text s) = .ok (id s) := fun _ => rfl
  have hlist : ∀ items, ∃ fault, text (Open.list items) = .error fault := fun _ => ⟨_, rfl⟩
  rw [oneOrMany_of_texts htext hlist, List.map_id]

/-- Paths are read as they were written, be it one alone or a list. -/
theorem oneOrMany_path {paths : List UnixPath} {items : List Json}
    (h : paths.mapM UnixPath.toJson? = some items) :
    oneOrMany path (oneOrManyToJson items).sorted = .ok paths := by
  obtain ⟨texts, rfl, rfl⟩ := exists_texts_of_mapM_toJson? h
  have hpath : ∀ s, path (Open.text s) = .ok (UnixPath.ofText s) := fun _ => rfl
  have hlist : ∀ items, ∃ fault, path (Open.list items) = .error fault := fun _ => ⟨_, rfl⟩
  exact oneOrMany_of_texts hpath hlist texts

/-! ### Members of objects -/

/-- An object shows a setting unless it is left out. -/
theorem members_setting {α : Type} {name : String} {inner : α → Json} (setting : Setting α) :
    (if (!setting.isUnset) = true then
      (some (setting.toJson inner)).map fun json => [(name, json)]
    else some []) = some (settingMember name inner setting) := by
  cases setting <;> rfl

/-- An object shows a value that is given. -/
theorem members_optional {α : Type} {name : String} {inner : α → Json} (given : Option α) :
    (if given.isSome = true then
      (some ((given.map inner).getD .null)).map fun json => [(name, json)]
    else some []) = some (optionalMember name (given.map inner)) := by
  cases given <;> rfl

/-- An object shows a path that is given. -/
theorem members_path {name : String} (given : Option UnixPath) :
    (if given.isSome = true then
      ((given.mapM UnixPath.toJson?).map fun json => json.getD .null).map fun json => [(name, json)]
    else some []) = (given.mapM UnixPath.toJson?).map (optionalMember name) := by
  cases given with
  | none => rfl
  | some path => cases h : path.toJson? <;> simp [h, optionalMember]

end BackupPlan.Reading
