import BackupPlan.Proofs.Yaml.Gaps

/-!
# Bare texts read back

A text that is written bare has words with single spaces or runs of them in between, and
nothing in it that would end it early.  The reader takes it word by word and stops at the
colon behind it, or at the line below it if that is indented less.
-/

namespace BackupPlan.Yaml

/-! ### Texts that are written bare -/

/-- What a text must be to be written bare. -/
structure Style.IsPlain (text : String) : Prop where
  unambiguous : isAmbiguous text = false
  ends : hasAtEnd (fun c => c == ' ' || isBreak c) text.toList = false
  unbroken : ∀ c ∈ text.toList, isBreak c = false
  indicators : hasIndicators text.toList = false
  escapes : needsEscapes text.toList = false

/-- Texts that are written bare are such texts. -/
theorem Style.isPlain_of_ofText {text : String} (h : ofText text = .plain) : IsPlain text := by
  simp only [ofText] at h
  split at h
  · cases h
  · split at h
    · split at h <;> cases h
    · split at h
      · split at h <;> cases h
      · split at h
        · cases h
        · rename_i hmarks hescapes
          simp only [Bool.or_eq_true, not_or, Bool.not_eq_true, List.any_eq_false] at hmarks
          obtain ⟨⟨⟨hambiguous, hends⟩, hbreaks⟩, hindicators⟩ := hmarks
          exact ⟨hambiguous, hends, hbreaks, hindicators, by simpa using hescapes⟩

/-- A text in which the reader of bare texts finds no end and no comment. -/
structure IsBare (cs : List Char) : Prop where
  eq_space : ∀ c ∈ cs, Head.isGap (some c) = true → c = ' '
  colon : cs.IsChain fun a b => a = ':' → b ≠ ' '
  hash : cs.IsChain fun a b => a = ' ' → b ≠ '#'
  last : ∀ c, cs.getLast? = some c → c ≠ ' ' ∧ c ≠ ':'

/-- What is left of a bare text behind a part of it is bare. -/
theorem IsBare.of_append {front back : List Char} (h : IsBare (front ++ back)) : IsBare back where
  eq_space c hc := h.eq_space c (List.mem_append_right front hc)
  colon := h.colon.right_of_append
  hash := h.hash.right_of_append
  last c hc := h.last c (by rw [List.getLast?_append, hc]; rfl)

/-- Only the spaces of a bare text are gaps. -/
theorem IsBare.isGap_eq_false {cs : List Char} (h : IsBare cs) {c : Char} (hc : c ∈ cs)
    (hne : c ≠ ' ') : Head.isGap (some c) = false := by
  cases hgap : Head.isGap (some c) with
  | false => rfl
  | true => exact absurd (h.eq_space c hc hgap) hne

namespace Style.IsPlain

variable {text : String}

/-- It is made of characters that a document shows. -/
theorem isShown (h : IsPlain text) : ∀ c ∈ text.toList, isShown c = true := by
  have hescapes := h.escapes
  simp only [needsEscapes, Bool.or_eq_false_iff, List.any_eq_false] at hescapes
  simpa using hescapes.1

/-- It is not empty. -/
theorem ne_nil (h : IsPlain text) : text.toList ≠ [] := by
  intro hnil
  have hambiguous := h.unambiguous
  simp [isAmbiguous, hnil] at hambiguous

/-- The reader finds no end and no comment in it. -/
theorem isBare (h : IsPlain text) : IsBare text.toList := by
  have hindicators := h.indicators
  simp only [hasIndicators, Bool.or_eq_false_iff, hasPair_eq_false_iff] at hindicators
  obtain ⟨⟨-, hcolon⟩, hhash⟩ := hindicators
  have hends := h.ends
  simp only [hasAtEnd, Bool.or_eq_false_iff] at hends
  refine ⟨?_, ?_, ?_, ?_⟩
  · intro c hc hgap
    have hblank : isBlank c = true := by simpa [Head.isGap, h.unbroken c hc] using hgap
    exact eq_space_of_isBlank hblank (h.isShown c hc)
  · refine hcolon.left_of_append.imp fun a b hab ha => ?_
    rintro rfl
    simp [ha, isBlank] at hab
  · refine hhash.imp fun a b hab ha => ?_
    rintro rfl
    simp [ha, isBlank] at hab
  · intro c hc
    have hlast := hends.2
    rw [hc] at hlast
    have hnull := (List.isChain_append.mp hcolon).2.2 c hc '\x00' rfl
    exact ⟨by rintro rfl; simp at hlast, by rintro rfl; simp at hnull⟩

/-- Its first character begins no other token: no gap, no indicator, no dash and no sign, and a
question mark or a colon only in front of another character. -/
structure Begins (c : Char) (rest : List Char) : Prop where
  isIndicator : isIndicator c = false
  sign : c.isDigit = false ∧ c ≠ '-' ∧ c ≠ '.' ∧ c ≠ '+'
  isGap : Head.isGap (some c) = false
  mark : c = '?' ∨ c = ':' → ∃ d, rest.head? = some d ∧ Head.isGap (some d) = false

/-- Texts that are written bare begin like that. -/
theorem begins (h : IsPlain text) {c : Char} {rest : List Char} (hcs : text.toList = c :: rest) :
    Begins c rest := by
  have hambiguous := h.unambiguous
  simp only [isAmbiguous, hcs, Bool.or_eq_false_iff, beq_eq_false_iff_ne] at hambiguous
  have hindicators := h.indicators
  simp only [hasIndicators, hcs, Bool.or_eq_false_iff, hasPair_eq_false_iff] at hindicators
  obtain ⟨⟨⟨hindicator, hquestion⟩, hcolon⟩, -⟩ := hindicators
  have hends := h.ends
  rw [hasAtEnd, hcs, Bool.or_eq_false_iff] at hends
  have hfirst : c ≠ ' ' ∧ isBreak c = false := by simpa using hends.1
  have hgap := h.isBare.isGap_eq_false (by simp [hcs]) hfirst.1
  refine ⟨hindicator, ⟨hambiguous.2.1.1.1, hambiguous.2.1.1.2, hambiguous.2.1.2, hambiguous.2.2⟩,
    hgap, ?_⟩
  cases rest with
  | nil =>
      rintro (rfl | rfl)
      · simp at hquestion
      · simp [isBlank] at hcolon
  | cons d rest =>
      rintro (rfl | rfl)
      · refine ⟨d, rfl, ?_⟩
        simp only [beq_self_eq_true, Bool.true_and, List.head?_cons, Option.map_some,
          Option.getD_some, Bool.or_eq_false_iff] at hquestion
        simp [Head.isGap, hquestion.1.1, hquestion.1.2]
      · refine ⟨d, rfl, ?_⟩
        rw [List.cons_append, List.cons_append, List.isChain_cons_cons] at hcolon
        obtain ⟨⟨hblank, hbreak⟩, -⟩ := hcolon.1 rfl
        simp [Head.isGap, hblank, hbreak]

/-- A bare text begins a token. -/
theorem beginsToken (h : IsPlain text) (rest : List Char) : BeginsToken (text.toList ++ rest) := by
  intro c hc
  obtain ⟨d, more, hcs⟩ := List.exists_cons_of_ne_nil h.ne_nil
  rw [hcs] at hc
  cases hc
  have hbegins := h.begins hcs
  have hgap := Bool.or_eq_false_iff.mp hbegins.isGap
  refine ⟨hgap.1, hgap.2, ?_, ?_⟩
  · rintro rfl
    exact absurd hbegins.isIndicator (by decide)
  · rintro rfl
    exact absurd (h.isShown '\uFEFF' (by simp [hcs])) (by decide)

end Style.IsPlain

namespace Plain

/-- The way on behind a word: the text ends in front of a colon, and below in a line that
is indented less; else it goes on behind the gap. -/
def behindWord (indent fuel : Nat) (done : List Char) (h : Head) :
    Option (List Char × Bool × Head) :=
  if h.next.isNone || !Head.isGap h.next then some (done, false, h)
  else (Gap.read indent false (h.rest.length + 1) {} h).bind fun (gap, h) =>
    if h.column < indent then some (done, !gap.breaks.isEmpty, h)
    else read false indent fuel done gap h

/-- What ends a word: a gap, or a colon in front of one. -/
def EndsWord (rest : List Char) : Prop :=
  Head.isGap rest.head? = true ∨ ∃ after, rest = ':' :: after ∧ Head.isGap after.head? = true

/-- A word is taken whole. -/
theorem chunk_word {w rest : List Char} (hw : ∀ c ∈ w, Head.isGap (some c) = false)
    (hlast : w.getLast? ≠ some ':') (hrest : EndsWord rest) :
    chunk false (w ++ rest) = some w := by
  induction w with
  | nil =>
      rcases hrest with hgap | ⟨after, rfl, hgap⟩
      · cases rest with
        | nil => rfl
        | cons c rest =>
            have : Head.isGap (some c) = true := hgap
            simp [chunk, this]
      · have : Head.isGap (some ':') = false := by decide
        simp [chunk, this, hgap]
  | cons c w ih =>
      rw [List.forall_mem_cons] at hw
      obtain ⟨hc, hw⟩ := hw
      have hcolon : c = ':' → Head.isGap (w ++ rest).head? = false := by
        intro hc
        cases w with
        | nil => exact absurd (by rw [hc, List.getLast?_singleton]) hlast
        | cons d w => exact hw d List.mem_cons_self
      have htail : w.getLast? ≠ some ':' := by
        cases w with
        | nil => simp
        | cons d w => simpa [List.getLast?_cons_cons] using hlast
      simpa [chunk, hc, ih hw htail] using hcolon

/-- Reading takes the next word together with the gap in front of it. -/
theorem read_word {indent fuel : Nat} {done blanks w : List Char} {h : Head}
    (hcolumn : h.column ≠ 0) (hhash : h.next ≠ some '#') (hchunk : chunk false h.rest = some w)
    (hne : w ≠ []) :
    read false indent (fuel + 1) done { blanks } h =
      behindWord indent fuel (done ++ blanks ++ w) (h.skip w.length) := by
  have hsees : h.sees '#' = false := by simpa [Head.sees] using hhash
  rw [read]
  simp [Head.atDocumentMark_eq_false hcolumn, hsees, hchunk, hne, Gap.folded, behindWord,
    Option.bind]

/-- A word in front of a space goes on behind the space. -/
theorem behindWord_spaces {indent fuel : Nat} {done more : List Char} {h : Head} (n : Nat)
    (hrest : h.rest = List.replicate (n + 1) ' ' ++ more)
    (hmore : ∀ c, more.head? = some c → Head.isGap (some c) = false)
    (hcolumn : indent ≤ h.column + (n + 1)) :
    behindWord indent fuel done h =
      read false indent fuel done { blanks := List.replicate (n + 1) ' ' } (h.skip (n + 1)) := by
  have hnext : h.next = some ' ' := by simp [Head.next, hrest, List.replicate_succ]
  have hgap : Head.isGap (some ' ') = true := by decide
  have hword : ∀ c, more.head? = some c → isBlank c = false ∧ isBreak c = false := by
    intro c hc
    simpa [Head.isGap] using hmore c hc
  rw [behindWord, Gap.read_toWord (n + 1) hrest hword]
  simp [hnext, hgap, Nat.not_lt.mpr hcolumn]

/-- A text of words is taken whole, up to what is behind the last word. -/
theorem read_parted {indent : Nat} {cs rest : List Char} (hrest : EndsWord rest)
    (h : Parted (fun _ => false) cs) (hbare : IsBare cs) (hne : cs ≠ [])
    (hspace : cs.head? ≠ some ' ') (hhash : cs.head? ≠ some '#') {fuel : Nat}
    {done blanks : List Char} {head : Head} (hfuel : cs.length ≤ fuel + 1)
    (hhead : head.rest = cs ++ rest) (hcolumn : head.column ≠ 0)
    (hindent : indent ≤ head.column + 1) :
    ∃ left, read false indent (fuel + 1) done { blanks } head =
      behindWord indent left (done ++ blanks ++ cs) (head.skip cs.length) := by
  -- Induction on the words and gaps: a step takes a word with the gap in front of it.
  induction h generalizing done blanks head fuel with
  | @word w hw =>
      have hgaps : ∀ c ∈ w, Head.isGap (some c) = false :=
        fun c hc => hbare.isGap_eq_false hc (hw c hc).1
      have hlast : w.getLast? ≠ some ':' := fun hc => (hbare.last _ hc).2 rfl
      have hchunk : chunk false head.rest = some w := by
        rw [hhead, chunk_word hgaps hlast hrest]
      have hnext : head.next ≠ some '#' := by
        rwa [Head.next, hhead, List.head?_append_of_ne_nil w hne]
      exact ⟨fuel, read_word hcolumn hnext hchunk hne⟩
  | @spaces w cs n hw hcs h ih =>
      have hwne : w ≠ [] := by
        rintro rfl
        exact hspace rfl
      have hcsne : cs ≠ [] := by
        rintro rfl
        exact (hbare.last ' ' (by simp [List.getLast?_append, List.getLast?_replicate])).1 rfl
      -- The first word and the gap behind it.
      have hgaps : ∀ c ∈ w, Head.isGap (some c) = false :=
        fun c hc => hbare.isGap_eq_false (List.mem_append_left _ hc) (hw c hc).1
      have hlast : w.getLast? ≠ some ':' := by
        intro hc
        exact (List.isChain_append.mp hbare.colon).2.2 ':' hc ' ' rfl rfl rfl
      have hchunk : chunk false head.rest = some w := by
        rw [hhead, List.append_assoc]
        exact chunk_word hgaps hlast (.inl rfl)
      have hnext : head.next ≠ some '#' := by
        rwa [Head.next, hhead, List.head?_append_of_ne_nil _ hne]
      have hspaces : (head.skip w.length).rest = List.replicate (n + 1) ' ' ++ (cs ++ rest) := by
        simp [hhead]
      have hbare' : IsBare cs := hbare.of_append.of_append
      have hmore : ∀ c, (cs ++ rest).head? = some c → Head.isGap (some c) = false := by
        intro c hc
        rw [List.head?_append_of_ne_nil cs hcsne] at hc
        exact hbare'.isGap_eq_false (List.mem_of_mem_head? hc) (hcs c hc).1
      -- The words behind it.
      have hspace' : cs.head? ≠ some ' ' := fun hc => (hcs ' ' hc).1 rfl
      have hhash' : cs.head? ≠ some '#' := by
        intro hc
        exact (List.isChain_append.mp hbare.of_append.hash).2.2 ' '
          (by simp [List.getLast?_replicate]) '#' hc rfl rfl
      have hlength : 0 < w.length ∧ 0 < cs.length :=
        ⟨List.length_pos_of_ne_nil hwne, List.length_pos_of_ne_nil hcsne⟩
      simp only [List.length_append, List.length_replicate] at hfuel
      obtain ⟨fuel, rfl⟩ : ∃ k, fuel = k + 1 := ⟨fuel - 1, by omega⟩
      obtain ⟨left, hread⟩ := @ih hbare' hcsne hspace' hhash' fuel (done ++ blanks ++ w)
        (List.replicate (n + 1) ' ') ((head.skip w.length).skip (n + 1)) (by omega)
        (by simp [hhead]) (by simp) (by simp; omega)
      refine ⟨left, ?_⟩
      rw [read_word hcolumn hnext hchunk hwne,
        behindWord_spaces n hspaces hmore (by simp; omega), hread]
      simp [Head.skip_skip, Nat.add_assoc]
  | breaks hw hbs hall hcs h ih =>
      obtain ⟨b, hb⟩ := List.exists_mem_of_ne_nil _ hbs
      cases hall b hb

/-- **A text that is written bare is taken whole**, up to what is behind it. -/
theorem read_plain {text : String} (h : Style.IsPlain text) {indent : Nat} {rest : List Char}
    (hrest : EndsWord rest) {head : Head} (hhead : head.rest = text.toList ++ rest)
    (hcolumn : head.column ≠ 0) (hindent : indent ≤ head.column + 1) :
    ∃ left, read false indent (head.rest.length + 1) [] {} head =
      behindWord indent left text.toList (head.skip text.toList.length) := by
  obtain ⟨c, more, hcs⟩ := List.exists_cons_of_ne_nil h.ne_nil
  have hfirst := h.beginsToken [] c (by simp [hcs])
  have hspace : text.toList.head? ≠ some ' ' := by
    rw [hcs]
    rintro ⟨⟩
    cases hfirst.1
  have hhash : text.toList.head? ≠ some '#' := by
    rw [hcs]
    rintro ⟨⟩
    exact hfirst.2.2.1 rfl
  exact @read_parted indent _ rest hrest (.of_spaces _) h.isBare h.ne_nil hspace hhash _ [] [] head
    (by rw [hhead, List.length_append]; omega) hhead hcolumn hindent

/-- A bare text ends in front of a colon. -/
theorem behindWord_colon {indent left : Nat} {text after : List Char} {h : Head}
    (hrest : h.rest = ':' :: after) : behindWord indent left text h = some (text, false, h) := by
  have hgap : Head.isGap (some ':') = false := by decide
  simp [behindWord, Head.next, hrest, hgap]

/-- A bare text ends above a line that is indented less. -/
theorem behindWord_nextLine {indent left margin : Nat} {text line : List Char} {h : Head}
    (hrest : h.rest = nextLine margin line) (hline : BeginsToken line) (hmargin : margin < indent) :
    ∃ h', h'.rest = line ∧ h'.column = margin ∧
      behindWord indent left text h = some (text, true, h') := by
  have hbreaks : ∀ b ∈ ['\n'], isBreak b = true ∧ isShown b = true :=
    List.forall_mem_singleton.mpr (by decide)
  obtain ⟨h', hrest', hcolumn, hread⟩ := @Gap.read_toLine indent h ['\n'] margin line
    hrest (List.cons_ne_nil _ _) hbreaks fun c hc => ⟨(hline c hc).1, (hline c hc).2.1⟩
  have hnext : h.next = some '\n' := by rw [Head.next, hrest]; rfl
  have hgap : Head.isGap (some '\n') = true := by decide
  refine ⟨h', hrest', hcolumn, ?_⟩
  rw [behindWord, hread]
  simp [hnext, hgap, hcolumn, hmargin]

end Plain

end BackupPlan.Yaml
