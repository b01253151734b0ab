import BackupPlan.Json.DraftDatum
import BackupPlan.Proofs.Elementwise
import BackupPlan.Proofs.Reading.Entries
import BackupPlan.Reading.Values

/-!
# Texts that are JSON to their end

A text is read through its draft, which may stop at any character.  Where it does not
stop, reading finds in it what it finds in the value that the text spells.  Only what
is said of a value that is not as expected may differ.

* `Draft.toOpen_of_toJson?` — the draft as an open value;
* `Draft.toOption_optional`, `Draft.toOption_setting`, `Draft.toOption_oneOrMany`,
  `Draft.toOption_choice` — values made of values;
* `Schema.readText_eq_ok_iff` — records.
-/

namespace BackupPlan.Json.Draft

open Reading

variable {α : Type} {draft : Draft} {json : Json}

/-! ### Open values -/

mutual

/-- What is read of a complete draft is the value that it spells. -/
theorem toOpen_of_toJson? : ∀ (draft : Draft) {json : Json}, draft.toJson? = some json →
    draft.toOpen = .ok json.toOpen
  | null, _, h | bool _, _, h | integer _, _, h | real _, _, h | text _, _, h => by
    cases h
    rfl
  | list items none, json, h => by
    obtain ⟨values, hitems, rfl⟩ := Option.map_eq_some_iff.mp h
    rw [toOpen, toOpenItems_of_itemsToJson? items hitems]
    rfl
  | object members none, json, h => by
    obtain ⟨values, hmembers, rfl⟩ := Option.map_eq_some_iff.mp h
    rw [toOpen, toOpenMembers_of_membersToJson? members hmembers]
    rfl
  | list _ (some _), _, h | object _ (some _), _, h | broken _ _, _, h => by cases h

/-- Items that can be written are read as what is written. -/
theorem toOpenItems_of_itemsToJson? : ∀ (items : List Draft) {values : List Json},
    itemsToJson? items = some values → toOpenItems items = .ok (Json.toOpenItems values)
  | [], _, h => by
    cases h
    rfl
  | item :: rest, _, h => by
    obtain ⟨value, hitem, h⟩ := Option.bind_eq_some_iff.mp h
    obtain ⟨values, hrest, h⟩ := Option.bind_eq_some_iff.mp h
    cases h
    rw [toOpenItems, toOpen_of_toJson? item hitem, toOpenItems_of_itemsToJson? rest hrest]
    rfl

/-- Members that can be written are read as what is written. -/
theorem toOpenMembers_of_membersToJson? : ∀ (members : List (Draft × Draft))
    {values : List (String × Json)}, membersToJson? members = some values →
    toOpenMembers members = .ok (Json.toOpenMembers values)
  | [], _, h => by
    cases h
    rfl
  | (text name, item) :: rest, _, h => by
    obtain ⟨value, hitem, h⟩ := Option.bind_eq_some_iff.mp h
    obtain ⟨values, hrest, h⟩ := Option.bind_eq_some_iff.mp h
    cases h
    rw [toOpenMembers, toOpen_of_toJson? item hitem, toOpenMembers_of_membersToJson? rest hrest]
    rfl
  | (null, _) :: _, _, h | (bool _, _) :: _, _, h | (integer _, _) :: _, _, h
  | (real _, _) :: _, _, h | (list _ _, _) :: _, _, h | (object _ _, _) :: _, _, h
  | (broken _ _, _) :: _, _, h => by cases h

end

/-! ### Values -/

/-- A draft that is complete, with the value that it spells. -/
inductive Spells : Draft → Json → Prop
  | null : Spells null .null
  | bool (b : Bool) : Spells (bool b) (.bool b)
  | integer (n : Int) : Spells (integer n) (.integer n)
  | real (x : Float) : Spells (real x) (.real x)
  | text (s : String) : Spells (text s) (.text s)
  | list {items : List Draft} {values : List Json} (h : itemsToJson? items = some values) :
    Spells (list items none) (.list values)
  | object {members : List (Draft × Draft)} {values : List (String × Json)}
    (h : membersToJson? members = some values) : Spells (object members none) (.object values)

/-- A draft that can be written spells what is written. -/
theorem spells_of_toJson? (h : draft.toJson? = some json) : Spells draft json := by
  cases draft with
  | null | bool | integer | real | text =>
      cases h
      constructor
  | list items ending =>
      cases ending with
      | none =>
          obtain ⟨values, hitems, rfl⟩ := Option.map_eq_some_iff.mp h
          exact .list hitems
      | some stop => cases h
  | object members ending =>
      cases ending with
      | none =>
          obtain ⟨values, hmembers, rfl⟩ := Option.map_eq_some_iff.mp h
          exact .object hmembers
      | some stop => cases h
  | broken => cases h

/-- The members of a complete draft have texts as names and complete drafts as values. -/
theorem exists_named_of_membersToJson? {members : List (Draft × Draft)}
    {values : List (String × Json)} (h : membersToJson? members = some values) :
    ∃ named : List (String × Draft), members = named.map (fun member => (text member.1, member.2)) ∧
      List.Forall₂ (fun member value => member.1 = value.1 ∧ member.2.toJson? = some value.2)
        named values := by
  induction members generalizing values with
  | nil =>
      cases h
      exact ⟨[], rfl, .nil⟩
  | cons member rest ih =>
      obtain ⟨key, item⟩ := member
      cases key with
      | text name =>
          obtain ⟨value, hitem, h⟩ := Option.bind_eq_some_iff.mp h
          obtain ⟨values, hrest, h⟩ := Option.bind_eq_some_iff.mp h
          cases h
          obtain ⟨named, rfl, hnamed⟩ := ih hrest
          exact ⟨(name, item) :: named, rfl, .cons ⟨rfl, hitem⟩ hnamed⟩
      | _ => cases h

/-- A draft is taken as a text where its written form is. -/
theorem toOption_asText (h : draft.toJson? = some json) (expected : String) :
    (draft.asText expected).toOption = (json.asText expected).toOption := by
  cases spells_of_toJson? h <;> rfl

/-- A draft is taken as null where its written form is. -/
theorem toOption_asNothing (h : draft.toJson? = some json) :
    draft.asNothing.toOption = json.asNothing.toOption := by
  cases spells_of_toJson? h <;> rfl

/-- A complete draft stands for none exactly if its value does. -/
theorem asOptional_cases (h : draft.toJson? = some json) :
    draft = null ∧ json = .null ∨
      draft.asOptional = .ok (some draft) ∧ json.asOptional = .ok (some json) := by
  cases spells_of_toJson? h with
  | null => exact Or.inl ⟨rfl, rfl⟩
  | _ => exact Or.inr ⟨rfl, rfl⟩

theorem toOption_text (h : draft.toJson? = some json) :
    (Reading.text draft).toOption = (Reading.text json).toOption :=
  toOption_asText h "a string"

/-- A path is read from a draft as from its written form. -/
theorem toOption_path (h : draft.toJson? = some json) :
    (path draft).toOption = (path json).toOption := by
  have hdraft : (path draft).toOption = (draft.asText "path string").toOption.map .ofText :=
    toOption_map _
  have hjson : (path json).toOption = (json.asText "path string").toOption.map .ofText :=
    toOption_map _
  rw [hdraft, hjson, toOption_asText h]

/-- A value that may be null is read from a draft as from its written form, if the value itself
is. -/
theorem toOption_optional {inner : Draft → Read α} {innerJson : Json → Read α}
    (hinner : (inner draft).toOption = (innerJson json).toOption) (h : draft.toJson? = some json) :
    (Reading.optional inner draft).toOption = (Reading.optional innerJson json).toOption := by
  rcases asOptional_cases h with ⟨rfl, rfl⟩ | ⟨hdraft, hjson⟩
  · rfl
  · have hgiven : Reading.optional inner draft = some <$> inner draft := by
      simp only [Reading.optional, Datum.optional, hdraft, bind, Except.bind]
    have hgivenJson : Reading.optional innerJson json = some <$> innerJson json := by
      simp only [Reading.optional, Datum.optional, hjson, bind, Except.bind]
    rw [hgiven, hgivenJson, toOption_map, toOption_map, hinner]

/-- A setting is read from a draft as from its written form. -/
theorem toOption_setting (inner : Open → Read α) (h : draft.toJson? = some json) :
    (setting inner draft).toOption = (setting inner json).toOption := by
  rcases asOptional_cases h with ⟨rfl, rfl⟩ | ⟨hdraft, hjson⟩
  · rfl
  · simp only [setting, Datum.optional, hdraft, hjson, bind, Except.bind, Datum.content,
      toOpen_of_toJson? draft h]

theorem toOption_oneOrMany (inner : Open → Read α) (h : draft.toJson? = some json) :
    (oneOrMany inner draft).toOption = (oneOrMany inner json).toOption := by
  simp only [oneOrMany, Datum.content, toOpen_of_toJson? draft h]

/-- A choice between names is read from a draft as from its written form. -/
theorem toOption_choice (choices : Choices α) (h : draft.toJson? = some json) :
    (choice choices draft).toOption = (choice choices json).toOption := by
  cases spells_of_toJson? h with
  | null | bool | integer | real | text | list => rfl
  | object hmembers =>
      obtain ⟨named, rfl, hnamed⟩ := exists_named_of_membersToJson? hmembers
      cases hnamed with
      | nil => rfl
      | @cons member value named values hmember hrest =>
          obtain ⟨word, item⟩ := member
          obtain ⟨_, value⟩ := value
          obtain ⟨rfl, hitem⟩ := hmember
          have hnothing := toOption_asNothing hitem
          simp only [choice, Datum.choice, List.map_cons, asChoice, asText, toOption_bind]
          cases hrest with
          | nil =>
              simp only [Json.asChoice, toOption_bind, hnothing]
              rfl
          | cons =>
              -- The first member may be read as a choice, but no other may stand behind it.
              have hmany : ∀ a, (do stopped .malformed; pure a : Read α).toOption = none :=
                fun _ => rfl
              have hjson : ∀ problem, (fail problem : Read α).toOption = none := fun _ => rfl
              simp only [Json.asChoice, List.map_cons, List.isEmpty_cons, Bool.false_eq_true,
                if_false, hmany, hjson, Option.bind_fun_none]

/-! ### Records -/

end BackupPlan.Json.Draft

namespace BackupPlan.Reading

open Json (Draft)

variable {σ : Type} {schema : Schema} {read : schema.Reader Draft} {readJson : schema.Reader Json}
  {assemble : schema.Values → Except Problem σ} {record : σ}

/-- A text that is JSON to its end is read to what its draft is read to. -/
theorem readText_eq_ok_iff {inner : Draft → Read σ} {source : String} {draft : Draft}
    (hsource : Draft.ofText source = (draft, .ok ())) :
    Json.readText inner source = .ok record ↔ inner draft = .ok record := by
  rw [Json.readText, hsource]
  cases hinner : inner draft <;> simp [bind, Except.bind, pure, Except.pure, hinner]

/-- **Objects in texts**, of which the fields are read as from values, read to what the
members hold that the text spells. -/
theorem Schema.readText_eq_ok_iff {source : String} {members : List (String × Json)}
    (hread : ∀ f draft json, draft.toJson? = some json →
      (read f draft).toOption = (readJson f json).toOption)
    (hsource : Json.parse? source = some (.object members)) :
    Json.readText (schema.read read assemble) source = .ok record ↔
      Holds readJson assemble members record := by
  obtain ⟨draft, hdraft, hobject⟩ : ∃ draft, Draft.ofText source = (draft, .ok ()) ∧
      draft.toJson? = some (.object members) := by
    rw [Json.parse?] at hsource
    split at hsource
    · next draft h => exact ⟨draft, h, hsource⟩
    · cases hsource
  rw [Reading.readText_eq_ok_iff hdraft]
  cases Draft.spells_of_toJson? hobject with
  | object hmembers =>
      obtain ⟨named, rfl, hnamed⟩ := Draft.exists_named_of_membersToJson? hmembers
      have hfields : Datum.fields schema.label
          (Draft.object (named.map fun member => (.text member.1, member.2)) none) =
          .ok (.named (Schema.named named) (.ok ())) := by
        simp only [Datum.fields, Draft.asFields, List.map_map]
        rfl
      have hsame : ∀ {member : String × Draft} {value : String × Json},
          member.1 = value.1 ∧ member.2.toJson? = some value.2 →
          ∀ entry, ReadsTo read member entry ↔ ReadsTo readJson value entry := by
        intro member value hmember entry
        have hvalue : read entry.1 member.2 = .ok entry.2 ↔
            readJson entry.1 value.2 = .ok entry.2 := by
          rw [← toOption_eq_some_iff, hread _ _ _ hmember.2, toOption_eq_some_iff]
        rw [ReadsTo, ReadsTo, hmember.1, hvalue]
      rw [read_eq_ok_iff hfields]
      constructor
      · intro h
        exact h.of_forall₂ (hnamed.imp fun member value hm entry => (hsame hm entry).mp)
      · intro h
        exact h.of_forall₂ (hnamed.flip.imp fun value member hm entry => (hsame hm entry).mpr)

end BackupPlan.Reading
