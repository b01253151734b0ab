import BackupPlan.Proofs.Yaml.Gaps
import BackupPlan.Yaml.Token.Scan

/-!
# Quoted texts read back

Between single quotes a quote is written twice and a line break is followed by the
indentation of the place; between double quotes every character that cannot stand in a
document is written with an escape.
-/

namespace BackupPlan.Yaml

/-- A text between quotes: each character of a word in its spelling, each gap as it is, and
an indentation behind the line breaks of a gap. -/
def spelled (spell : Char → List Char) (brk : Char → Bool) (margin : Nat) :
    List Char → List Char
  | [] => []
  | c :: rest =>
    if brk c then
      c :: ((if (rest.head?.map brk).getD false then [] else List.replicate margin ' ') ++
        spelled spell brk margin rest)
    else spell c ++ spelled spell brk margin rest

section spelled

variable {spell : Char → List Char} {brk : Char → Bool} {margin : Nat}

/-- Words are spelled character by character. -/
theorem spelled_append {w : List Char} (hw : ∀ c ∈ w, brk c = false) (cs : List Char) :
    spelled spell brk margin (w ++ cs) = w.flatMap spell ++ spelled spell brk margin cs := by
  induction w with
  | nil => rfl
  | cons c w ih =>
      rw [List.forall_mem_cons] at hw
      simp [spelled, hw.1, ih hw.2]

/-- Spaces are spelled as they are. -/
theorem spelled_spaces (hspace : spell ' ' = [' '] ∧ brk ' ' = false) (n : Nat) (cs : List Char) :
    spelled spell brk margin (List.replicate n ' ' ++ cs) =
      List.replicate n ' ' ++ spelled spell brk margin cs := by
  rw [spelled_append (fun c hc => by rw [List.eq_of_mem_replicate hc, hspace.2])]
  congr 1
  induction n with
  | zero => rfl
  | succ n ih => rw [List.replicate_succ, List.flatMap_cons, hspace.1, ih, List.singleton_append]

/-- Line breaks are followed by one indentation. -/
theorem spelled_breaks {bs cs : List Char} (hne : bs ≠ []) (hbs : ∀ b ∈ bs, brk b = true)
    (hcs : ∀ c, cs.head? = some c → brk c = false) :
    spelled spell brk margin (bs ++ cs) =
      bs ++ (List.replicate margin ' ' ++ spelled spell brk margin cs) := by
  induction bs with
  | nil => exact absurd rfl hne
  | cons b bs ih =>
      rw [List.forall_mem_cons] at hbs
      cases bs with
      | nil =>
          have hhead : (cs.head?.map brk).getD false = false := by
            cases cs with
            | nil => rfl
            | cons c cs => exact hcs c rfl
          simp [spelled, hbs.1, hhead]
      | cons b' bs =>
          rw [List.cons_append, spelled, ih (List.cons_ne_nil _ _) hbs.2]
          simp [hbs.1, hbs.2]

end spelled

/-- Between single quotes, a quote stands for itself only if it is written twice. -/
def doubled (c : Char) : List Char :=
  if c == '\'' then ['\'', '\''] else [c]

namespace Quoted

/-- The end of a chunk: a gap, or the closing quote. -/
def EndsChunk (quote : Char) (rest : List Char) : Prop :=
  ∃ c after, rest = c :: after ∧
    (Head.isGap (some c) = true ∨ c = quote ∧ after.head? ≠ some quote)

/-- How the characters of a text are spelled between quotes, apart from its gaps. -/
structure Spells (quote : Char) (spell : Char → List Char) (c : Char) : Prop where
  /-- The spelling does not begin like a gap, and not like the end of the text. -/
  begins : ∃ d more, spell c = d :: more ∧ Head.isGap (some d) = false ∧
    (d = quote → more.head? = some quote)
  /-- The reader takes it for the character. -/
  chunk_cons : ∀ {fuel : Nat} {done rest : List Char} {h : Head}, h.rest = spell c ++ rest →
    chunk quote (fuel + 1) done h = chunk quote fuel (done ++ [c]) (h.skip (spell c).length)

variable {quote : Char} {spell : Char → List Char}

/-- A spelling is at least as long as what it spells. -/
theorem length_le_flatMap {w : List Char} (hw : ∀ c ∈ w, Spells quote spell c) :
    w.length ≤ (w.flatMap spell).length := by
  induction w with
  | nil => exact Nat.le_refl 0
  | cons c w ih =>
      rw [List.forall_mem_cons] at hw
      obtain ⟨d, more, hc, -⟩ := hw.1.begins
      have := ih hw.2
      simp only [List.flatMap_cons, List.length_append, hc, List.length_cons]
      omega

/-- A word is taken whole. -/
theorem chunk_word (hquote : Head.isGap (some quote) = false) {w rest : List Char}
    (hw : ∀ c ∈ w, Spells quote spell c) (hrest : EndsChunk quote rest) {fuel : Nat}
    {done : List Char} {h : Head} (hfuel : w.length < fuel)
    (hhead : h.rest = w.flatMap spell ++ rest) :
    chunk quote fuel done h =
      some (done ++ w, false, h.skip (w.flatMap spell).length) := by
  induction w generalizing fuel done h with
  | nil =>
      obtain ⟨fuel, rfl⟩ : ∃ k, fuel = k + 1 := ⟨fuel - 1, by omega⟩
      obtain ⟨c, after, rfl, hend⟩ := hrest
      rw [List.flatMap_nil, List.nil_append] at hhead
      have hnext : h.next = some c := by rw [Head.next, hhead, List.head?_cons]
      have hahead : h.ahead 1 = after.head? := by
        rw [Head.ahead, hhead, List.getElem?_cons_succ, List.head?_eq_getElem?]
      have hskip : h.skip 0 = h := rfl
      rcases hend with hgap | ⟨rfl, hafter⟩
      · simp [chunk, hnext, hgap, hskip]
      · simp only [chunk, hnext, hquote, List.append_nil, Bool.false_eq_true, if_false]
        rw [hahead, if_neg, if_pos (beq_self_eq_true c)]
        · rfl
        · rintro hdouble
          simp only [Bool.and_eq_true, beq_iff_eq] at hdouble
          obtain ⟨⟨rfl, -⟩, hquoted⟩ := hdouble
          exact hafter hquoted
  | cons c w ih =>
      rw [List.forall_mem_cons] at hw
      obtain ⟨hc, hw⟩ := hw
      rw [List.length_cons] at hfuel
      obtain ⟨fuel, rfl⟩ : ∃ k, fuel = k + 1 := ⟨fuel - 1, by omega⟩
      rw [List.flatMap_cons, List.append_assoc] at hhead
      rw [hc.chunk_cons hhead, ih hw (by omega) (by simp [hhead])]
      simp [Head.skip_skip]

/-- The way on behind a chunk: the text ends at its quote, or goes on behind the gap. -/
def behindChunk (quote : Char) (fuel : Nat) (done : List Char) (h : Head) :
    Option (List Char × Head) :=
  if h.sees quote then some (done, h.skip 1)
  else (Gap.read 0 false (h.rest.length + 1) {} h).bind fun (gap, h) =>
    read quote fuel (done ++ gap.folded) h

/-- Reading takes the next word. -/
theorem read_word (hquote : Head.isGap (some quote) = false) {w rest : List Char}
    (hw : ∀ c ∈ w, Spells quote spell c) (hrest : EndsChunk quote rest) {fuel : Nat}
    {done : List Char} {h : Head} (hhead : h.rest = w.flatMap spell ++ rest)
    (hcolumn : h.column ≠ 0) :
    read quote (fuel + 1) done h =
      behindChunk quote fuel (done ++ w) (h.skip (w.flatMap spell).length) := by
  have hsome : h.next.isNone = false := by
    obtain ⟨c, after, rfl, -⟩ := hrest
    simp [Head.next, hhead]
  have hlength : w.length < h.rest.length + 1 := by
    have := length_le_flatMap hw
    rw [hhead, List.length_append]
    omega
  have hchunk := @chunk_word _ _ hquote _ _ hw hrest _ done _ hlength hhead
  simp [read, Head.atDocumentMark_eq_false hcolumn, hsome, hchunk, behindChunk, Option.bind]

/-- The closing quote ends the text. -/
theorem behindChunk_quote {fuel : Nat} {done rest : List Char} {h : Head}
    (hrest : h.rest = quote :: rest) : behindChunk quote fuel done h = some (done, h.skip 1) := by
  have hsees : h.sees quote = true := by simp [Head.sees, Head.next, hrest]
  rw [behindChunk, if_pos hsees]

/-- A word in front of spaces goes on behind them. -/
theorem behindChunk_spaces (hquote : quote ≠ ' ') {fuel : Nat} {done more : List Char} {h : Head}
    (n : Nat) (hrest : h.rest = List.replicate (n + 1) ' ' ++ more)
    (hmore : ∀ c, more.head? = some c → isBlank c = false ∧ isBreak c = false) :
    behindChunk quote fuel done h =
      read quote fuel (done ++ List.replicate (n + 1) ' ') (h.skip (n + 1)) := by
  have hsees : h.sees quote = false := by
    simpa [Head.sees, Head.next, hrest, List.replicate_succ] using hquote.symm
  rw [behindChunk, Gap.read_toWord (n + 1) hrest hmore]
  simp [hsees, Gap.folded]

/-- A word in front of line breaks goes on behind them and the indentation. -/
theorem behindChunk_breaks {fuel margin : Nat} {done bs more : List Char} {h : Head}
    (hrest : h.rest = bs ++ (List.replicate margin ' ' ++ more)) (hne : bs ≠ [])
    (hquote : isBreak quote = false)
    (hbs : ∀ b ∈ bs, isBreak b = true ∧ isShown b = true ∧ b ≠ '\n')
    (hmore : ∀ c, more.head? = some c → isBlank c = false ∧ isBreak c = false) :
    ∃ h', h'.rest = more ∧ h'.column = margin ∧
      behindChunk quote fuel done h = read quote fuel (done ++ bs) h' := by
  obtain ⟨h', hrest', hcolumn, hread⟩ := @Gap.read_toLine 0 h bs margin more hrest hne
    (fun b hb => ⟨(hbs b hb).1, (hbs b hb).2.1⟩) hmore
  obtain ⟨b, bs, rfl⟩ := List.exists_cons_of_ne_nil hne
  obtain ⟨hbreak, -, hfeed⟩ := hbs b List.mem_cons_self
  have hsees : h.sees quote = false := by
    have : b ≠ quote := by
      rintro rfl
      rw [hbreak] at hquote
      cases hquote
    simpa [Head.sees, Head.next, hrest] using this
  have hfolded : Gap.folded { breaks := b :: bs } = b :: bs := by
    simp only [Gap.folded]
    split <;> simp_all
  refine ⟨h', hrest', hcolumn, ?_⟩
  rw [behindChunk, hread]
  simp [hsees, hfolded]

/-- What stands behind a gap of a quoted text is no gap. -/
theorem begins_spelled {brk : Char → Bool} {margin : Nat} {cs rest : List Char}
    (hgap : Head.isGap (some quote) = false) (hcs : BeginsWord brk cs)
    (hspell : ∀ c ∈ cs, InWord brk c → Spells quote spell c) :
    ∀ c, (spelled spell brk margin cs ++ quote :: rest).head? = some c →
      isBlank c = false ∧ isBreak c = false := by
  intro c hc
  rw [← Bool.or_eq_false_iff]
  cases cs with
  | nil =>
      cases hc
      exact hgap
  | cons d cs =>
      have hd := hcs d rfl
      obtain ⟨e, more, hspelled, he, -⟩ := (hspell d List.mem_cons_self hd).begins
      rw [spelled, hd.2, if_neg Bool.false_ne_true, hspelled] at hc
      cases hc
      exact he

/-- **A quoted text is taken whole**, up to its closing quote. -/
theorem read_spelled {brk : Char → Bool} {margin : Nat} {cs rest : List Char}
    (hgap : Head.isGap (some quote) = false) (hspace : spell ' ' = [' '] ∧ brk ' ' = false)
    (hspell : ∀ c ∈ cs, InWord brk c → Spells quote spell c)
    (hbreak : ∀ c ∈ cs, brk c = true → isBreak c = true ∧ isShown c = true ∧ c ≠ '\n')
    (hmargin : 0 < margin) (hrest : rest.head? ≠ some quote) (h : Parted brk cs) {fuel : Nat}
    {done : List Char} {head : Head} (hfuel : cs.length ≤ fuel)
    (hhead : head.rest = spelled spell brk margin cs ++ quote :: rest)
    (hcolumn : head.column ≠ 0) :
    ∃ h', h'.rest = rest ∧ read quote (fuel + 1) done head = some (done ++ cs, h') := by
  -- Induction on the words and gaps: a step takes a word with the gap behind it.
  induction h generalizing done head fuel with
  | @word w hw =>
      have hend : EndsChunk quote (quote :: rest) := ⟨quote, rest, rfl, .inr ⟨rfl, hrest⟩⟩
      have hchars : head.rest = w.flatMap spell ++ quote :: rest := by
        have hspelled := @spelled_append spell brk margin w (fun c hc => (hw c hc).2) []
        rw [List.append_nil] at hspelled
        rw [hhead, hspelled, spelled, List.append_nil]
      have hquote : (head.skip (w.flatMap spell).length).rest = quote :: rest := by simp [hchars]
      refine ⟨(head.skip (w.flatMap spell).length).skip 1, by simp [hchars], ?_⟩
      rw [read_word hgap (fun c hc => hspell c hc (hw c hc)) hend hchars hcolumn,
        behindChunk_quote hquote]
  | @spaces w cs n hw hcs h ih =>
      have hin : ∀ c ∈ cs, c ∈ w ++ (List.replicate (n + 1) ' ' ++ cs) :=
        fun c hc => List.mem_append_right _ (List.mem_append_right _ hc)
      have hwords : ∀ c ∈ w, Spells quote spell c :=
        fun c hc => hspell c (List.mem_append_left _ hc) (hw c hc)
      rw [spelled_append (fun c hc => (hw c hc).2), spelled_spaces hspace, List.append_assoc,
        List.append_assoc] at hhead
      have hspaces : (head.skip (w.flatMap spell).length).rest = List.replicate (n + 1) ' ' ++
          (spelled spell brk margin cs ++ quote :: rest) := by simp [hhead]
      have hmore := @begins_spelled quote spell brk margin cs rest hgap hcs
        fun c hc => hspell c (hin c hc)
      simp only [List.length_append, List.length_replicate] at hfuel
      obtain ⟨fuel, rfl⟩ : ∃ k, fuel = k + 1 := ⟨fuel - 1, by omega⟩
      obtain ⟨h', hrest', hread⟩ := @ih (fun c hc => hspell c (hin c hc))
        (fun c hc => hbreak c (hin c hc)) fuel (done ++ w ++ List.replicate (n + 1) ' ')
        ((head.skip (w.flatMap spell).length).skip (n + 1)) (by omega) (by simp [hhead]) (by simp)
      refine ⟨h', hrest', ?_⟩
      have hquote : quote ≠ ' ' := by
        rintro rfl
        cases hgap
      rw [read_word hgap hwords ⟨' ', _, rfl, .inl rfl⟩ hhead hcolumn,
        behindChunk_spaces hquote n hspaces hmore, hread]
      simp
  | @breaks w bs cs hw hne hbs hcs h ih =>
      have hin : ∀ c ∈ cs, c ∈ w ++ (bs ++ cs) :=
        fun c hc => List.mem_append_right _ (List.mem_append_right _ hc)
      have hwords : ∀ c ∈ w, Spells quote spell c :=
        fun c hc => hspell c (List.mem_append_left _ hc) (hw c hc)
      have hgaps : ∀ b ∈ bs, isBreak b = true ∧ isShown b = true ∧ b ≠ '\n' :=
        fun b hb => hbreak b (List.mem_append_right _ (List.mem_append_left _ hb)) (hbs b hb)
      rw [spelled_append (fun c hc => (hw c hc).2), spelled_breaks hne hbs fun c hc => (hcs c hc).2,
        List.append_assoc, List.append_assoc, List.append_assoc] at hhead
      have hlines : (head.skip (w.flatMap spell).length).rest = bs ++ (List.replicate margin ' ' ++
          (spelled spell brk margin cs ++ quote :: rest)) := by simp [hhead]
      have hmore := @begins_spelled quote spell brk margin cs rest hgap hcs
        fun c hc => hspell c (hin c hc)
      have hpositive := List.length_pos_of_ne_nil hne
      simp only [List.length_append] at hfuel
      obtain ⟨fuel, rfl⟩ : ∃ k, fuel = k + 1 := ⟨fuel - 1, by omega⟩
      have hquote : isBreak quote = false := (Bool.or_eq_false_iff.mp hgap).2
      obtain ⟨line, hline, hcolumn', hbehind⟩ := @behindChunk_breaks quote (fuel + 1) margin
        (done ++ w) bs _ _ hlines hne hquote hgaps hmore
      obtain ⟨h', hrest', hread⟩ := @ih (fun c hc => hspell c (hin c hc))
        (fun c hc => hbreak c (hin c hc)) fuel (done ++ w ++ bs) line (by omega) hline (by omega)
      refine ⟨h', hrest', ?_⟩
      obtain ⟨b, bs, rfl⟩ := List.exists_cons_of_ne_nil hne
      have hfirst : Head.isGap (some b) = true := by
        simp [Head.isGap, (hgaps b List.mem_cons_self).1]
      rw [read_word hgap hwords ⟨b, _, rfl, .inl hfirst⟩ hhead hcolumn, hbehind, hread]
      simp

/-! ### Single quotes -/

/-- A character between single quotes stands for itself, a quote if it is doubled. -/
theorem spells_doubled {c : Char} (hc : InWord isBreak c) (hshown : isShown c = true) :
    Spells '\'' doubled c := by
  have hblank : isBlank c = false := by
    cases hb : isBlank c with
    | false => rfl
    | true => exact absurd (eq_space_of_isBlank hb hshown) hc.1
  have hgap : Head.isGap (some c) = false := by simp [Head.isGap, hblank, hc.2]
  by_cases hquote : c = '\''
  · subst hquote
    refine ⟨⟨'\'', ['\''], rfl, hgap, fun _ => rfl⟩, ?_⟩
    intro fuel done rest h hrest
    have hnext : h.next = some '\'' := by rw [Head.next, hrest]; rfl
    have hahead : h.ahead 1 = some '\'' := by rw [Head.ahead, hrest]; rfl
    simp [chunk, hnext, hahead, hgap, doubled]
  · have hspelled : doubled c = [c] := by simp [doubled, hquote]
    refine ⟨⟨c, [], hspelled, hgap, fun h => absurd h hquote⟩, ?_⟩
    intro fuel done rest h hrest
    rw [hspelled] at hrest ⊢
    have hnext : h.next = some c := by rw [Head.next, hrest]; rfl
    simp [chunk, hnext, hgap, hquote]

/-- Line breaks are not doubled. -/
theorem doubled_of_isBreak {c : Char} (h : isBreak c = true) : doubled c = [c] := by
  have : c ≠ '\'' := by
    rintro rfl
    cases h
  simp [doubled, this]

/-- Within a line, a doubled character stays where it is. -/
theorem indented_doubled {c : Char} (hc : isBreak c = false) (margin : Nat) (cs : List Char) :
    indented margin false (doubled c ++ cs) = doubled c ++ indented margin false cs := by
  by_cases hquote : c = '\''
  · subst hquote
    simp [doubled, indented, hc]
  · simp [doubled, hquote, indented, hc]

/-- The lines of a doubled text, with the indentation that its last line break asks for. -/
theorem indented_flatMap_doubled (margin : Nat) (cs : List Char) :
    indented margin false (cs.flatMap doubled) ++
      (if (cs.getLast?.map isBreak).getD false then List.replicate margin ' ' else []) =
        spelled doubled isBreak margin cs := by
  induction cs with
  | nil => rfl
  | cons c cs ih =>
      -- The printer indents the character behind a line break, the spelling indents behind the
      -- break; at the end of the text the printer has no such character, and adds the
      -- indentation itself.
      cases hc : isBreak c with
      | false =>
          rw [List.flatMap_cons, indented_doubled hc, spelled, hc, if_neg Bool.false_ne_true, ← ih]
          cases cs with
          | nil => simp [indented, hc]
          | cons d cs => simp [List.getLast?_cons_cons]
      | true =>
          rw [List.flatMap_cons, doubled_of_isBreak hc, List.singleton_append, indented, if_pos hc,
            spelled, if_pos hc, ← ih]
          cases cs with
          | nil => simp [indented, hc]
          | cons d cs =>
              rw [List.getLast?_cons_cons]
              cases hd : isBreak d with
              | true =>
                  rw [List.flatMap_cons, doubled_of_isBreak hd, List.singleton_append,
                    indented_true_cons]
                  simp [hd]
              | false =>
                  have hbegins : ∃ e more, doubled d ++ cs.flatMap doubled = e :: more ∧
                      isBreak e = false := by
                    by_cases hquote : d = '\''
                    · exact ⟨'\'', '\'' :: cs.flatMap doubled, by simp [doubled, hquote], rfl⟩
                    · exact ⟨d, cs.flatMap doubled, by simp [doubled, hquote], hd⟩
                  obtain ⟨e, more, hbegins, he⟩ := hbegins
                  rw [List.flatMap_cons, hbegins, indented_true_cons, he]
                  simp [hd]

/-- A text between single quotes is spelled with doubled quotes. -/
theorem toList_singleQuoted (margin : Nat) (cs : List Char) :
    (singleQuoted margin cs).toList =
      '\'' :: (spelled doubled isBreak margin cs ++ ['\'']) := by
  rw [← indented_flatMap_doubled]
  have hdoubled : (cs.flatMap fun c => if c == '\'' then ['\'', '\''] else [c]) =
      cs.flatMap doubled := rfl
  simp only [singleQuoted, hdoubled, String.toList_append, String.toList_ofList, Yaml.margin]
  split <;> simp

/-! ### Double quotes -/

/-- An escape stands for a character if what is behind its backslash does. -/
theorem chunk_escape {c : Char} {body : List Char} (hescaped : escaped c = '\\' :: body)
    (hbody : ∃ d more, body = d :: more ∧ isBreak d = false)
    (hescape : ∀ {rest : List Char} {h : Head}, h.rest = body ++ rest →
      escape h = some (c, h.skip body.length)) : Spells '"' escaped c := by
  obtain ⟨d, more, rfl, hd⟩ := hbody
  refine ⟨⟨'\\', d :: more, hescaped, by decide, fun h => absurd h (by decide)⟩, ?_⟩
  intro fuel done rest h hrest
  rw [hescaped] at hrest ⊢
  have hnext : h.next = some '\\' := by rw [Head.next, hrest]; rfl
  have hahead : h.ahead 1 = some d := by rw [Head.ahead, hrest]; rfl
  have hgap : Head.isGap (some '\\') = false := by decide
  have hline : Head.isLineEnd (some d) = false := hd
  have hread : escape (h.skip 1) = some (c, (h.skip 1).skip (d :: more).length) :=
    @hescape rest (h.skip 1) (by simp [hrest])
  simp [chunk, hnext, hahead, hgap, hline, hread, Head.skip_skip, Nat.add_comm]

/-- A named escape is read by its letter. -/
theorem spells_named {c letter : Char} (hescaped : escaped c = ['\\', letter])
    (hletter : isBreak letter = false)
    (hescape : ∀ h : Head, h.next = some letter → escape h = some (c, h.skip 1)) :
    Spells '"' escaped c := by
  refine chunk_escape hescaped ⟨letter, [], rfl, hletter⟩ ?_
  intro rest h hrest
  exact hescape h (by rw [Head.next, hrest]; rfl)

/-- The characters with an escape of their own, and the letters of these escapes. -/
def namedEscapes : List (Char × Char) :=
  [('"', '"'), ('\\', '\\'), ('\x00', '0'), ('\x07', 'a'), ('\x08', 'b'), ('\t', 't'), ('\n', 'n'),
    ('\x0b', 'v'), ('\x0c', 'f'), ('\r', 'r'), ('\x1b', 'e'), ('\u0085', 'N'), ('\u2028', 'L'),
    ('\u2029', 'P')]

/-- The named escapes are read by their letters. -/
theorem spells_of_mem_namedEscapes : ∀ p ∈ namedEscapes, Spells '"' escaped p.1 := by
  simp only [namedEscapes, List.forall_mem_cons]
  refine ⟨?_, ?_, ?_, ?_, ?_, ?_, ?_, ?_, ?_, ?_, ?_, ?_, ?_, ?_, List.forall_mem_nil _⟩ <;>
    exact spells_named rfl rfl fun h hnext => by simp [escape, hnext]

/-- The characters without an escape of their own stand for themselves or are spelled by
their numbers. -/
theorem escaped_of_notMem {c : Char} (h : c ∉ namedEscapes.map Prod.fst) :
    escaped c = if isShown c then [c]
      else if c.toNat ≤ 0xFF then '\\' :: 'x' :: hexDigits 2 c.toNat
      else if c.toNat ≤ 0xFFFF then '\\' :: 'u' :: hexDigits 4 c.toNat
      else '\\' :: 'U' :: hexDigits 8 c.toNat := by
  rw [escaped]
  · rfl
  all_goals
    rintro rfl
    exact h (by decide)

/-- The digits of a number are read as the character of that number. -/
theorem coded_eq {c : Char} {count : Nat} {digits rest : List Char} {h : Head}
    (hlength : digits.length = count)
    (hvalue : (digits.mapM hexValue).map
      (fun ds => (ds.length, ds.foldl (fun n d => n * 16 + d) 0)) = some (count, c.toNat))
    (hrest : h.rest = digits ++ rest) :
    coded h count = some (c, h.skip count) := by
  obtain ⟨ds, hds, hpair⟩ := Option.map_eq_some_iff.mp hvalue
  have htake : h.rest.take count = digits := by rw [hrest, ← hlength, List.take_left]
  obtain ⟨hcount, hnumber⟩ := Prod.mk.inj hpair
  have hvalid : c.toNat.isValidChar := c.valid
  simp [coded, htake, hds, hcount, hnumber, hvalid, Char.ofNat_toNat]

/-- Two hexadecimal digits spell any number of one byte. -/
theorem hexDigits_byte : ∀ n < 256, (hexDigits 2 n).length = 2 ∧
    ((hexDigits 2 n).mapM hexValue).map
      (fun ds => (ds.length, ds.foldl (fun n d => n * 16 + d) 0)) = some (2, n) := by
  decide +kernel

/-- A character that needs no escape stands for itself. -/
theorem spells_shown {c : Char} (hc : c ≠ ' ') (hnamed : c ∉ namedEscapes.map Prod.fst)
    (hshown : isShown c = true) : Spells '"' escaped c := by
  have hescaped : escaped c = [c] := by rw [escaped_of_notMem hnamed, if_pos hshown]
  have hgap : Head.isGap (some c) = false := by
    refine Bool.eq_false_iff.mpr fun hgap => ?_
    rcases Bool.or_eq_true _ _ ▸ hgap with hblank | hbreak
    · exact hc (eq_space_of_isBlank hblank hshown)
    · rcases break_cases hbreak hshown with rfl | rfl | rfl <;> exact hnamed (by decide)
  have hquote : c ≠ '"' := by
    rintro rfl
    exact hnamed (by decide)
  have hslash : c ≠ '\\' := by
    rintro rfl
    exact hnamed (by decide)
  refine ⟨⟨c, [], hescaped, hgap, fun h => absurd h hquote⟩, ?_⟩
  intro fuel done rest h hrest
  rw [hescaped] at hrest ⊢
  have hnext : h.next = some c := by rw [Head.next, hrest]; rfl
  simp [chunk, hnext, hgap, hquote, hslash]

/-- A character of more than one byte that no document shows is one of three. -/
theorem hidden_cases {c : Char} (hshown : isShown c = false) (hbyte : ¬ c.toNat ≤ 0xFF) :
    c.toNat = 0xFEFF ∨ c.toNat = 0xFFFE ∨ c.toNat = 0xFFFF := by
  simp only [isShown, Bool.or_eq_false_iff, Bool.and_eq_false_iff, decide_eq_false_iff_not,
    bne_eq_false_iff_eq] at hshown
  omega

/-- A character that no document shows is spelled by its number. -/
theorem spells_hidden {c : Char} (hnamed : c ∉ namedEscapes.map Prod.fst)
    (hshown : isShown c = false) : Spells '"' escaped c := by
  have hescaped := escaped_of_notMem hnamed
  rw [hshown, if_neg Bool.false_ne_true] at hescaped
  by_cases hbyte : c.toNat ≤ 0xFF
  · rw [if_pos hbyte] at hescaped
    obtain ⟨hlength, hvalue⟩ := hexDigits_byte c.toNat (by omega)
    refine chunk_escape hescaped ⟨'x', _, rfl, by decide⟩ ?_
    intro rest h hrest
    have hnext : h.next = some 'x' := by rw [Head.next, hrest]; rfl
    have hcoded := @coded_eq c 2 _ rest (h.skip 1) hlength hvalue (by simp [hrest])
    simp [escape, hnext, hcoded, Head.skip_skip, hlength, Nat.add_comm]
  · have hdigits : c.toNat ≤ 0xFFFF ∧ (hexDigits 4 c.toNat).length = 4 ∧
        ((hexDigits 4 c.toNat).mapM hexValue).map
          (fun ds => (ds.length, ds.foldl (fun n d => n * 16 + d) 0)) = some (4, c.toNat) := by
      rcases hidden_cases hshown hbyte with hn | hn | hn <;> rw [hn] <;> decide
    obtain ⟨hshort, hlength, hvalue⟩ := hdigits
    rw [if_neg hbyte, if_pos hshort] at hescaped
    refine chunk_escape hescaped ⟨'u', _, rfl, by decide⟩ ?_
    intro rest h hrest
    have hnext : h.next = some 'u' := by rw [Head.next, hrest]; rfl
    have hcoded := @coded_eq c 4 _ rest (h.skip 1) hlength hvalue (by simp [hrest])
    simp [escape, hnext, hcoded, Head.skip_skip, hlength, Nat.add_comm]

/-- **Every character but the space** is read back from its escape, or from itself. -/
theorem spells_escaped {c : Char} (hc : c ≠ ' ') : Spells '"' escaped c := by
  by_cases hnamed : c ∈ namedEscapes.map Prod.fst
  · obtain ⟨p, hp, rfl⟩ := List.mem_map.mp hnamed
    exact spells_of_mem_namedEscapes p hp
  · cases hshown : isShown c with
    | true => exact spells_shown hc hnamed hshown
    | false => exact spells_hidden hnamed hshown

/-- A text between double quotes is spelled with escapes. -/
theorem toList_doubleQuoted (margin : Nat) (cs : List Char) :
    (doubleQuoted cs).toList =
      '"' :: (spelled escaped (fun _ => false) margin cs ++ ['"']) := by
  have hspelled := @spelled_append escaped (fun _ => false) margin cs (fun _ _ => rfl) []
  rw [List.append_nil, spelled, List.append_nil] at hspelled
  simp [doubleQuoted, hspelled]

end Quoted

/-! ### Texts that are written between quotes -/

/-- A text between single quotes needs no escapes, and none of its gaps is mixed. -/
theorem Style.unmixed_of_singleQuoted {text : String} (h : ofText text = .singleQuoted) :
    needsEscapes text.toList = false ∧ hasPair isBreak (· == ' ') text.toList = false ∧
      '\n' ∉ text.toList := by
  have hwords : ∀ word ∈ truthWords, needsEscapes word.toList = false ∧
      hasPair isBreak (· == ' ') word.toList = false ∧ '\n' ∉ word.toList := by decide
  simp only [ofText] at h
  split at h
  · rename_i hword
    exact hwords text (List.contains_iff_mem.mp hword)
  · split at h
    · split at h <;> cases h
    · rename_i hline
      split at h
      · split at h
        · cases h
        · rename_i hmixed
          rw [Bool.or_eq_true, not_or, Bool.not_eq_true, Bool.not_eq_true] at hmixed
          exact ⟨hmixed.1, hmixed.2, by simpa using hline⟩
      · split at h <;> cases h

namespace Scan

open Quoted

/-- A spelled text is no shorter than the text. -/
theorem length_le_spelled {spell : Char → List Char} {brk : Char → Bool} {margin : Nat}
    {cs : List Char} (h : ∀ c ∈ cs, spell c ≠ []) :
    cs.length ≤ (spelled spell brk margin cs).length := by
  induction cs with
  | nil => exact Nat.le_refl 0
  | cons c cs ih =>
      rw [List.forall_mem_cons] at h
      have hrest := ih h.2
      have hfirst := List.length_pos_of_ne_nil h.1
      rw [spelled]
      split <;> simp <;> omega

/-- **A text between single quotes is read back.** -/
theorem quotedText_singleQuoted {text : String} (h : Style.ofText text = .singleQuoted)
    {margin : Nat} (hmargin : 0 < margin) {rest : List Char} (hrest : rest.head? ≠ some '\'')
    {head : Head} (hhead : head.rest = (singleQuoted margin text.toList).toList ++ rest) :
    ∃ h', h'.rest = rest ∧ quotedText '\'' head = some (.scalar false text, h') := by
  obtain ⟨hescapes, hbreaks, hline⟩ := Style.unmixed_of_singleQuoted h
  rw [Style.needsEscapes, Bool.or_eq_false_iff] at hescapes
  obtain ⟨hall, hspaces⟩ := hescapes
  have hshown : ∀ c ∈ text.toList, isShown c = true := by simpa using hall
  rw [hasPair_eq_false_iff] at hspaces hbreaks
  have hparted : Parted isBreak text.toList :=
    Parted.of_unmixed _ (hspaces.imp fun a b hab ha => hab (by simpa using ha))
      (hbreaks.imp fun a b hab ha => by simpa using hab ha)
  rw [toList_singleQuoted] at hhead
  have hfuel : text.toList.length ≤ head.rest.length := by
    have := @length_le_spelled doubled isBreak margin text.toList fun c _ => by
      rw [doubled]; split <;> simp
    rw [hhead]
    simp
    omega
  obtain ⟨h', hrest', hread⟩ := @read_spelled '\'' doubled isBreak margin _ rest (by decide)
    (by decide) (fun c hc hword => spells_doubled hword (hshown c hc))
    (fun c hc hb => ⟨hb, hshown c hc, fun heq => hline (heq ▸ hc)⟩) hmargin hrest hparted _ []
    (head.skip 1) hfuel (by simp [hhead]) (by simp)
  refine ⟨h', hrest', ?_⟩
  simp [quotedText, hread]

/-- **A text between double quotes is read back.** -/
theorem quotedText_doubleQuoted (text : String) {rest : List Char} (hrest : rest.head? ≠ some '"')
    {head : Head} (hhead : head.rest = (doubleQuoted text.toList).toList ++ rest) :
    ∃ h', h'.rest = rest ∧ quotedText '"' head = some (.scalar false text, h') := by
  rw [toList_doubleQuoted 1] at hhead
  have hfuel : text.toList.length ≤ head.rest.length := by
    have := @length_le_spelled escaped (fun _ => false) 1 text.toList fun c _ => by
      by_cases hc : c = ' '
      · subst hc
        decide
      · obtain ⟨d, more, hd, -⟩ := (spells_escaped hc).begins
        simp [hd]
    rw [hhead]
    simp
    omega
  obtain ⟨h', hrest', hread⟩ := @read_spelled '"' escaped (fun _ => false) 1 _ rest (by decide)
    (by decide) (fun c _ hword => spells_escaped hword.1)
    (fun c _ hb => absurd hb Bool.false_ne_true) (by decide) hrest (.of_spaces _) _ []
    (head.skip 1) hfuel (by simp [hhead]) (by simp)
  refine ⟨h', hrest', ?_⟩
  simp [quotedText, hread]

end Scan

end BackupPlan.Yaml
