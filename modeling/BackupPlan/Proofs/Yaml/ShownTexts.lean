import BackupPlan.Proofs.PathSteps
import BackupPlan.Proofs.Yaml.Records
import BackupPlan.Yaml.Source

/-!
# Printed documents have only characters that may stand there

Whatever a text holds, it is written with characters that a document shows, so the bytes of a
printed document are read as its characters.
-/

namespace BackupPlan.Yaml

/-- Only characters that a document shows. -/
def IsShown (cs : List Char) : Prop :=
  ∀ c ∈ cs, isShown c = true

namespace IsShown

/-- Nothing at all. -/
theorem nil : IsShown [] :=
  List.forall_mem_nil _

/-- One more. -/
theorem cons {c : Char} {cs : List Char} (hc : isShown c = true) (h : IsShown cs) :
    IsShown (c :: cs) :=
  List.forall_mem_cons.mpr ⟨hc, h⟩

/-- One text after another. -/
theorem append {front back : List Char} (h : IsShown front) (h' : IsShown back) :
    IsShown (front ++ back) :=
  List.forall_mem_append.mpr ⟨h, h'⟩

/-- Spaces. -/
theorem spaces (n : Nat) : IsShown (List.replicate n ' ') := by
  intro c hc
  rw [List.eq_of_mem_replicate hc]
  rfl

/-- The end of a line. -/
theorem closing (cs : List Char) : IsShown (closing cs) := by
  rw [Yaml.closing]
  split
  · exact nil
  · exact cons rfl nil

end IsShown

/-- Spelled characters are shown if each of the spellings is. -/
theorem isShown_spelled {spell : Char → List Char} {brk : Char → Bool} {margin : Nat}
    {cs : List Char} (hspell : ∀ c ∈ cs, IsShown (spell c))
    (hbreak : ∀ c ∈ cs, brk c = true → isShown c = true) :
    IsShown (spelled spell brk margin cs) := by
  induction cs with
  | nil => exact .nil
  | cons c cs ih =>
      rw [List.forall_mem_cons] at hspell hbreak
      have hrest := ih hspell.2 hbreak.2
      cases hc : brk c with
      | true =>
          rw [spelled, hc, if_pos rfl]
          refine .cons (hbreak.1 hc) (.append ?_ hrest)
          split
          · exact .nil
          · exact .spaces margin
      | false =>
          rw [spelled, hc, if_neg Bool.false_ne_true]
          exact .append hspell.1 hrest

/-- Indented lines are shown if the text is. -/
theorem isShown_indented {margin : Nat} {cs : List Char} (begins : Bool) (h : IsShown cs) :
    IsShown (indented margin begins cs) := by
  induction cs generalizing begins with
  | nil => exact .nil
  | cons c cs ih =>
      obtain ⟨hc, h⟩ := List.forall_mem_cons.mp h
      rw [indented]
      split
      · exact .cons hc (ih true h)
      · split
        · exact .append (.spaces margin) (.cons hc (ih false h))
        · exact .cons hc (ih false h)

/-- Every character is shown by its escape. -/
theorem isShown_escaped (c : Char) : IsShown (escaped c) := by
  have hnames : ∀ p ∈ Quoted.namedEscapes, (escaped p.1).all isShown = true := by decide
  have hbytes : ∀ n < 256, (hexDigits 2 n).all isShown = true := by decide +kernel
  by_cases hnamed : c ∈ Quoted.namedEscapes.map Prod.fst
  · obtain ⟨p, hp, rfl⟩ := List.mem_map.mp hnamed
    exact List.all_eq_true.mp (hnames p hp)
  rw [Quoted.escaped_of_notMem hnamed]
  split
  · exact .cons (by assumption) .nil
  · rename_i hhidden
    rw [Bool.not_eq_true] at hhidden
    split
    · exact .cons rfl (.cons rfl (List.all_eq_true.mp (hbytes c.toNat (by omega))))
    · rename_i hbyte
      have hdigits : c.toNat ≤ 0xFFFF ∧ (hexDigits 4 c.toNat).all isShown = true := by
        rcases Quoted.hidden_cases hhidden hbyte with hn | hn | hn <;> rw [hn] <;> decide
      rw [if_pos hdigits.1]
      exact .cons rfl (.cons rfl (List.all_eq_true.mp hdigits.2))

/-- **Every text is written with characters that a document shows.** -/
theorem isShown_writtenText (indent : Nat) (text : String) :
    IsShown (writtenText indent text).toList := by
  cases hstyle : Style.ofText text with
  | plain =>
      simp only [writtenText, hstyle]
      exact (Style.isPlain_of_ofText hstyle).isShown
  | singleQuoted =>
      have hescapes := (Style.unmixed_of_singleQuoted hstyle).1
      rw [Style.needsEscapes, Bool.or_eq_false_iff] at hescapes
      have hshown : IsShown text.toList := by
        intro c hc
        simpa using List.any_eq_false.mp hescapes.1 c hc
      have hdoubled : ∀ c ∈ text.toList, IsShown (doubled c) := by
        intro c hc
        rw [doubled]
        split
        · exact .cons rfl (.cons rfl .nil)
        · exact .cons (hshown c hc) .nil
      simp only [writtenText, hstyle, Quoted.toList_singleQuoted]
      exact .cons rfl (.append (isShown_spelled hdoubled fun c hc _ => hshown c hc)
        (.cons rfl .nil))
  | doubleQuoted =>
      simp only [writtenText, hstyle, Quoted.toList_doubleQuoted 1]
      exact .cons rfl (.append (isShown_spelled (fun c _ => isShown_escaped c)
        fun c _ h => absurd h Bool.false_ne_true) (.cons rfl .nil))
  | literal =>
      have hshown : IsShown text.toList := (Style.shown_of_literal hstyle).2
      simp only [writtenText, hstyle, String.toList_append, String.toList_ofList,
        Block.toList_literalHints]
      refine .append (.append (.append (.cons rfl .nil) (.append ?_ ?_)) (.cons rfl .nil))
        (isShown_indented true hshown)
      · split
        · exact .cons rfl .nil
        · exact .nil
      · cases Block.endingOf text.toList
        · exact .cons rfl .nil
        · exact .nil
        · exact .cons rfl .nil

/-- The members of a record are shown if their values are. -/
theorem isShown_memberChars {indent : Nat} {members : List (String × Json)}
    (hnames : ∀ member ∈ members, IsName member.1)
    (hvalues : ∀ member ∈ members, IsShown (valueChars indent member.2)) :
    IsShown (memberChars indent members) := by
  induction members with
  | nil => exact .nil
  | cons member members ih =>
      obtain ⟨name, value⟩ := member
      rw [List.forall_mem_cons] at hnames hvalues
      have hname := (Style.isPlain_of_ofText hnames.1.1).isShown
      rw [memberChars]
      refine .append hname (.cons rfl (.append hvalues.1 ?_))
      split
      · exact .nil
      · exact .append (.spaces indent) (ih hnames.2 hvalues.2)

/-- What is printed of a value is shown. -/
theorem isShown_valueChars {levels : Nat} {value : Json} (h : IsRecordTree levels value)
    (indent : Nat) : IsShown (valueChars indent value) := by
  induction h generalizing indent with
  | text _ s =>
      rw [valueChars, written, toList_freshLine]
      · exact .cons rfl (.append (isShown_writtenText _ s) (.closing _))
      · rintro member members ⟨⟩
  | @record levels members hne hnames htrees hvalues =>
      obtain ⟨member, members, rfl⟩ := List.exists_cons_of_ne_nil hne
      rw [valueChars, toList_freshLine_object hne hnames htrees]
      exact .cons rfl (.append (.spaces _)
        (isShown_memberChars hnames fun m hm => hvalues m hm _))

/-- **A printed list of records has only characters that may stand in a document.** -/
theorem isShown_recordChars {levels : Nat} {records : List Json}
    (hrecords : ∀ record ∈ records, IsRecord levels record) : IsShown (recordChars records) := by
  intro c hc
  obtain ⟨record, hrecord, hc⟩ := List.mem_flatMap.mp hc
  obtain ⟨htree, members, rfl⟩ := hrecords record hrecord
  cases htree with
  | record hne hnames htrees =>
      rw [toList_freshLine_object hne hnames htrees] at hc
      exact IsShown.cons rfl (.cons rfl
        (isShown_memberChars hnames fun m hm => isShown_valueChars (htrees m hm) 2)) c hc

namespace Source

/-- What a document shows may stand in it. -/
theorem isAllowed_of_isShown {c : Char} (h : isShown c = true) : isAllowed c = true := by
  simp only [isShown, Bool.or_eq_true, Bool.and_eq_true, beq_iff_eq, decide_eq_true_eq,
    bne_iff_ne] at h
  rcases h with (rfl | h) | h
  · rfl
  · simp [isAllowed, h]
  · simp only [isAllowed, Bool.or_eq_true, Bool.and_eq_true, beq_iff_eq, decide_eq_true_eq]
    omega

/-- The bytes of a text that begins with a character of ASCII are read as its characters: they
begin with no mark of an encoding. -/
theorem decode_toByteArray {text : String} {c : Char} {rest : List Char} {b : UInt8}
    (htext : text.toList = c :: rest) (hc : String.utf8EncodeChar c = [b])
    (hb : b ≠ 0xFF ∧ b ≠ 0xFE ∧ b ≠ 0xEF) :
    decode text.toByteArray.data.toList = some text.toList := by
  have hbytes : text.toByteArray.data.toList = b :: rest.flatMap String.utf8EncodeChar := by
    have hchars := UnixPath.bytes_ofText text
    rw [htext, List.flatMap_cons, hc] at hchars
    exact hchars
  have hutf8 : String.fromUTF8? ⟨text.toByteArray.data.toList.toArray⟩ = some text :=
    UnixPath.toText?_ofText text
  rw [hbytes] at hutf8 ⊢
  rw [decode]
  · rw [hutf8]
    rfl
  · exact fun _ h => hb.1 (List.cons.inj h).1
  · exact fun _ h => hb.2.1 (List.cons.inj h).1
  · exact fun _ h => hb.2.2 (List.cons.inj h).1

/-- **The bytes of a printed text are read as its characters.** -/
theorem chars?_toByteArray {text : String} {c : Char} {rest : List Char} {b : UInt8}
    (htext : text.toList = c :: rest) (hc : String.utf8EncodeChar c = [b])
    (hb : b ≠ 0xFF ∧ b ≠ 0xFE ∧ b ≠ 0xEF) (hshown : IsShown text.toList) :
    chars? text.toByteArray.data.toList = some text.toList := by
  have hallowed : text.toList.all isAllowed = true :=
    List.all_eq_true.mpr fun c hc => isAllowed_of_isShown (hshown c hc)
  rw [chars?, decode_toByteArray htext hc hb]
  simp [Option.filter, hallowed]

end Source

end BackupPlan.Yaml
