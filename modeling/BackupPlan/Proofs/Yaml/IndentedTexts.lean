import BackupPlan.Proofs.Yaml.Gaps

/-!
# Indented texts read back

A text of several lines is written behind a bar: its lines, indented, and in front of them
whether the indentation shows and what becomes of the line breaks at the end.
-/

namespace BackupPlan.Yaml

/-! ### Lines at an indentation -/

section indented

variable {margin : Nat}

/-- Within a line nothing is indented. -/
theorem indented_line {line : List Char} (hline : ∀ c ∈ line, isBreak c = false)
    (cs : List Char) : indented margin false (line ++ cs) = line ++ indented margin false cs := by
  induction line with
  | nil => rfl
  | cons c line ih =>
      rw [List.forall_mem_cons] at hline
      simp [indented, hline.1, ih hline.2]

/-- Behind line breaks a line begins. -/
theorem indented_breaks {bs : List Char} (hbs : ∀ b ∈ bs, isBreak b = true) (cs : List Char) :
    indented margin true (bs ++ cs) = bs ++ indented margin true cs := by
  induction bs with
  | nil => rfl
  | cons b bs ih =>
      rw [List.forall_mem_cons] at hbs
      simp [indented, hbs.1, ih hbs.2]

/-- A line break at the end stays where it is. -/
theorem indented_append_newline (begins : Bool) (cs : List Char) :
    indented margin begins (cs ++ ['\n']) = indented margin begins cs ++ ['\n'] := by
  induction cs generalizing begins with
  | nil => cases begins <;> rfl
  | cons c cs ih =>
      cases hc : isBreak c <;> cases begins <;> simp [indented, hc, ih]

/-- Indenting makes no text shorter. -/
theorem length_le_indented (begins : Bool) (cs : List Char) :
    cs.length ≤ (indented margin begins cs).length := by
  induction cs generalizing begins with
  | nil => exact Nat.le_refl 0
  | cons c cs ih =>
      have htrue := ih true
      have hfalse := ih false
      cases hc : isBreak c <;> cases begins <;> simp [indented, hc] <;> omega

/-- Indenting leaves the last character. -/
theorem getLast?_indented (begins : Bool) (cs : List Char) :
    (indented margin begins cs).getLast? = cs.getLast? := by
  induction cs generalizing begins with
  | nil => rfl
  | cons c cs ih =>
      cases hc : isBreak c <;> cases begins <;>
        simp [indented, hc, List.getLast?_cons, List.getLast?_append, ih]

end indented

/-- The line break that a text gets if it does not end with one. -/
def closing (cs : List Char) : List Char :=
  if (cs.getLast?.map isBreak).getD false then [] else ['\n']

/-- A text that ends with no line break gets one. -/
theorem closing_of_getLast? {cs : List Char} {c : Char} (hlast : cs.getLast? = some c)
    (hc : isBreak c = false) : closing cs = ['\n'] := by
  simp [closing, hlast, hc]

/-- What is appended to a text decides how it ends. -/
theorem closing_append {front back : List Char} (h : back ≠ []) :
    closing (front ++ back) = closing back := by
  rw [closing, closing, List.getLast?_append_of_ne_nil _ h]

/-- The end of a line does not depend on what does not end one. -/
theorem closing_cons {c : Char} (hc : isBreak c = false) (cs : List Char) :
    closing (c :: cs) = closing cs := by
  cases cs with
  | nil => simp [closing, hc]
  | cons d cs => rw [closing, closing, List.getLast?_cons_cons]

/-- What a line that ends with a text is followed by. -/
theorem toList_freshLine (text : String) :
    (freshLine text).toList = text.toList ++ closing text.toList := by
  rw [freshLine, closing]
  split <;> simp

/-- The closing line break is not indented. -/
theorem indented_append_closing (margin : Nat) (begins : Bool) (cs : List Char) :
    indented margin begins (cs ++ closing cs) = indented margin begins cs ++ closing cs := by
  rw [closing]
  split
  · simp
  · exact indented_append_newline begins cs

namespace Block

variable {least indent fuel : Nat} {h : Head}

/-- The spaces in front of a line, as far as they count. -/
theorem min_length_takeWhile {j : Nat} {line : List Char} (hj : j ≤ indent)
    (hline : ∀ c, line.head? = some c → j < indent → c ≠ ' ') :
    min ((List.replicate j ' ' ++ line).takeWhile (· == ' ')).length indent = j := by
  rw [List.takeWhile_append_of_pos (by simp [List.mem_replicate])]
  rcases Nat.lt_or_eq_of_le hj with hlt | rfl
  · have hnone : line.takeWhile (· == ' ') = [] := by
      cases line with
      | nil => rfl
      | cons c line => simp [hline c rfl hlt]
    simp [hnone, hj]
  · simp

/-- Empty lines are read, and the indentation of the line behind them: all of it, or as far
as the text is indented. -/
theorem emptyLines_given (bs : List Char) (j widest : Nat) {line done : List Char}
    (hbs : ∀ b ∈ bs, isBreak b = true ∧ isShown b = true) (hj : j ≤ indent)
    (hrest : h.rest = bs ++ (List.replicate j ' ' ++ line)) (hcolumn : h.column = 0)
    (hfuel : bs.length < fuel)
    (hline : ∀ c, line.head? = some c → isBreak c = false ∧ (j < indent → isBlank c = false)) :
    ∃ h', h'.rest = line ∧ h'.column = j ∧
      emptyLines least fuel (some indent) widest done h = some (done ++ bs, indent, h') := by
  induction bs generalizing widest done h fuel with
  | nil =>
      obtain ⟨fuel, rfl⟩ : ∃ k, fuel = k + 1 := ⟨fuel - 1, by simp at hfuel; omega⟩
      rw [List.nil_append] at hrest
      have hspaces : min (h.rest.takeWhile (· == ' ')).length (indent - h.column) = j := by
        rw [hcolumn, hrest, Nat.sub_zero]
        refine min_length_takeWhile hj fun c hc hlt => ?_
        rintro rfl
        cases (hline ' ' hc).2 hlt
      have hnext : (h.skip j).next = line.head? := by simp [Head.next, hrest]
      have htab : ((h.skip j).sees '\t' && decide ((h.skip j).column < indent)) = false := by
        rw [Head.sees, hnext, Head.column_skip, hcolumn, Nat.zero_add, Bool.and_eq_false_iff]
        by_cases hlt : j < indent
        · refine .inl ?_
          simp only [beq_eq_false_iff_ne]
          intro hc
          cases (hline '\t' hc).2 hlt
        · exact .inr (by simp [hlt])
      have hend : ((h.skip j).next.isSome && Head.isLineEnd (h.skip j).next) = false := by
        rw [hnext]
        cases hc : line.head? with
        | none => rfl
        | some c => simpa [Head.isLineEnd] using (hline c hc).1
      refine ⟨h.skip j, by simp [hrest], by simp [hcolumn], ?_⟩
      simp only [emptyLines, Option.map_some, Option.getD_some, hspaces, htab, hend]
      simp
  | cons b bs ih =>
      obtain ⟨fuel, rfl⟩ : ∃ k, fuel = k + 1 := ⟨fuel - 1, by simp at hfuel; omega⟩
      rw [List.forall_mem_cons] at hbs
      obtain ⟨⟨hbreak, hshown⟩, hbs⟩ := hbs
      have hskip : h.skip 0 = h := rfl
      have hspaces : min (h.rest.takeWhile (· == ' ')).length (indent - h.column) = 0 := by
        have : b ≠ ' ' := by
          rintro rfl
          cases hbreak
        simp [hrest, this]
      have hnext : h.next = some b := by rw [Head.next, hrest]; rfl
      have htab : h.sees '\t' = false := by
        have : b ≠ '\t' := by
          rintro rfl
          cases hbreak
        simpa [Head.sees, hnext] using this
      obtain ⟨h', hrest', hcolumn', hread⟩ := @ih fuel (h.newLine 1) (max widest h.column)
        (done ++ [b]) hbs (by simp [hrest]) rfl (by simp at hfuel; omega)
      refine ⟨h', hrest', hcolumn', ?_⟩
      have hbreakRead := Head.readBreak_of_isShown hrest hbreak hshown
      simp only [emptyLines, Option.map_some, Option.getD_some, hspaces, hskip, htab, hnext,
        hbreakRead, hread]
      simp [Head.isLineEnd, hbreak]

/-- Where the indentation is not given, it is that of the first line. -/
theorem emptyLines_found {c : Char} {rest : List Char} (hleast : least ≤ indent)
    (hrest : h.rest = List.replicate indent ' ' ++ c :: rest) (hcolumn : h.column = 0)
    (hc : c ≠ ' ' ∧ c ≠ '\t' ∧ isBreak c = false) :
    emptyLines least (fuel + 1) none 0 [] h = some ([], indent, h.skip indent) := by
  have hspaces : (h.rest.takeWhile (· == ' ')).length = indent := by
    rw [hrest, List.takeWhile_append_of_pos (by simp [List.mem_replicate])]
    simp [hc.1]
  have hnext : (h.skip indent).next = some c := by simp [Head.next, hrest]
  have htab : (h.skip indent).sees '\t' = false := by
    simpa [Head.sees, hnext] using hc.2.1
  have hend : Head.isLineEnd (some c) = false := hc.2.2
  simp [emptyLines, hspaces, htab, hnext, hend, hcolumn, Nat.max_eq_left hleast]

/-- Lines that are not empty, each with its line break and the empty lines behind it. -/
inductive Lines : List Char → Prop
  | nil : Lines []
  | cons {line bs cs : List Char} {b : Char} (hne : line ≠ [])
      (hline : ∀ c ∈ line, isBreak c = false) (hb : isBreak b = true ∧ isShown b = true)
      (hbs : ∀ b ∈ bs, isBreak b = true ∧ isShown b = true) (h : Lines cs) :
      Lines (line ++ b :: (bs ++ cs))

/-- A text that ends with a line break is some empty lines and such lines. -/
theorem exists_lines (cs : List Char) (hshown : ∀ c ∈ cs, isShown c = true)
    (hlast : ∀ c, cs.getLast? = some c → isBreak c = true) :
    ∃ bs full, cs = bs ++ full ∧ (∀ b ∈ bs, isBreak b = true ∧ isShown b = true) ∧ Lines full := by
  induction cs with
  | nil => exact ⟨[], [], rfl, List.forall_mem_nil _, .nil⟩
  | cons c cs ih =>
      rw [List.forall_mem_cons] at hshown
      have hlast' : ∀ d, cs.getLast? = some d → isBreak d = true := by
        intro d hd
        exact hlast d (by rw [List.getLast?_cons, hd]; rfl)
      obtain ⟨bs, full, rfl, hbs, hfull⟩ := ih hshown.2 hlast'
      -- A line break goes with the empty lines; any other character begins a line, which the
      -- first empty line behind it ends, or goes with the line behind it.
      cases hc : isBreak c with
      | true => exact ⟨c :: bs, full, rfl, List.forall_mem_cons.mpr ⟨⟨hc, hshown.1⟩, hbs⟩, hfull⟩
      | false =>
          refine ⟨[], c :: (bs ++ full), rfl, List.forall_mem_nil _, ?_⟩
          cases bs with
          | cons b bs =>
              rw [List.forall_mem_cons] at hbs
              exact @Lines.cons [c] bs full b (List.cons_ne_nil c []) (by simpa using hc) hbs.1
                hbs.2 hfull
          | nil =>
              cases hfull with
              | nil =>
                  have := hlast c rfl
                  rw [hc] at this
                  cases this
              | @cons line bs cs b hne hline hb hbs h =>
                  exact @Lines.cons (c :: line) bs cs b (List.cons_ne_nil c line)
                    (List.forall_mem_cons.mpr ⟨hc, hline⟩) hb hbs h

/-- What the reader of lines has read: the text without the line breaks at its end, the
first of these, and the others. -/
structure Splits (cs done lastBreak empty : List Char) : Prop where
  append_eq : done ++ (lastBreak ++ empty) = cs
  done_ends : ∀ c, done.getLast? = some c → isBreak c = false
  breaks : ∀ b ∈ lastBreak ++ empty, isBreak b = true
  first : lastBreak.length = 1 ∨ done = []

/-- Where the reader of lines stands in front of lines, or behind the last one. -/
def Stands (indent margin : Nat) (tail full : List Char) (h : Head) : Prop :=
  (full = [] ∧ h.rest = tail ∧ h.column = margin) ∨
    (full ≠ [] ∧ h.rest = indented indent false full ++ (List.replicate margin ' ' ++ tail) ∧
      h.column = indent)

/-- Lines begin with a character, and that is no line break. -/
theorem Lines.head_ne_break {cs : List Char} (h : Lines cs) (hne : cs ≠ []) :
    ∃ c more, cs = c :: more ∧ isBreak c = false := by
  cases h with
  | nil => exact absurd rfl hne
  | @cons line bs cs b hwhole hline hb hbs h =>
      obtain ⟨c, line, rfl⟩ := List.exists_cons_of_ne_nil hwhole
      exact ⟨c, _, rfl, hline c List.mem_cons_self⟩

/-- The empty lines in front of lines are read, and the indentation behind them. -/
theorem emptyLines_lines {margin : Nat} {tail full bs done : List Char} (widest : Nat)
    (hmargin : margin < indent) (htail : BeginsToken tail) (hfull : Lines full)
    (hbs : ∀ b ∈ bs, isBreak b = true ∧ isShown b = true)
    (hrest : h.rest = bs ++ (indented indent true full ++ (List.replicate margin ' ' ++ tail)))
    (hcolumn : h.column = 0) (hfuel : bs.length < fuel) :
    ∃ h', Stands indent margin tail full h' ∧
      emptyLines least fuel (some indent) widest done h = some (done ++ bs, indent, h') := by
  by_cases hnil : full = []
  · subst hnil
    obtain ⟨h', hrest', hcolumn', hread⟩ := @emptyLines_given least indent fuel h bs margin widest
      tail done hbs (Nat.le_of_lt hmargin) hrest hcolumn hfuel
      fun c hc => ⟨(htail c hc).2.1, fun _ => (htail c hc).1⟩
    exact ⟨h', .inl ⟨rfl, hrest', hcolumn'⟩, hread⟩
  · obtain ⟨c, more, rfl, hc⟩ := hfull.head_ne_break hnil
    have hhead : ∀ d, (indented indent false (c :: more) ++
        (List.replicate margin ' ' ++ tail)).head? = some d →
          isBreak d = false ∧ (indent < indent → isBlank d = false) := by
      intro d hd
      rw [indented, hc, if_neg Bool.false_ne_true] at hd
      cases hd
      exact ⟨hc, fun h => absurd h (Nat.lt_irrefl _)⟩
    rw [indented_true_cons, hc, if_neg Bool.false_ne_true, List.append_assoc] at hrest
    obtain ⟨h', hrest', hcolumn', hread⟩ := @emptyLines_given least indent fuel h bs indent widest
      _ done hbs (Nat.le_refl indent) hrest hcolumn hfuel hhead
    exact ⟨h', .inr ⟨hnil, hrest', hcolumn'⟩, hread⟩

/-- One line is read with its line break and the empty lines behind it. -/
theorem lines_step {margin : Nat} {tail line bs cs : List Char} {b : Char}
    {done lastBreak empty : List Char} {wasBlank : Bool} (hmargin : margin < indent)
    (htail : BeginsToken tail) (hne : line ≠ []) (hline : ∀ c ∈ line, isBreak c = false)
    (hb : isBreak b = true ∧ isShown b = true)
    (hbs : ∀ b ∈ bs, isBreak b = true ∧ isShown b = true) (hcs : Lines cs)
    (hstands : Stands indent margin tail (line ++ b :: (bs ++ cs)) h) :
    ∃ wasBlank' h', Stands indent margin tail cs h' ∧
      lines false indent (fuel + 1) done wasBlank lastBreak empty h =
        lines false indent fuel (done ++ lastBreak ++ empty ++ line) wasBlank' [b] bs h' := by
  obtain ⟨hnil, -⟩ | ⟨-, hrest, hcolumn⟩ := hstands
  · simp at hnil
  rw [indented_line hline, indented, if_pos hb.1, indented_breaks fun b hb => (hbs b hb).1,
    List.append_assoc, List.cons_append, List.append_assoc] at hrest
  have hsome : h.next.isSome = true := by
    obtain ⟨c, line, rfl⟩ := List.exists_cons_of_ne_nil hne
    simp [Head.next, hrest]
  have htaken : h.rest.takeWhile (fun c => !isBreak c) = line := by
    rw [hrest, List.takeWhile_append_of_pos (by simpa using hline)]
    simp [hb.1]
  have hafter : (h.skip line.length).rest =
      b :: (bs ++ (indented indent true cs ++ (List.replicate margin ' ' ++ tail))) := by
    simp [hrest]
  obtain ⟨h', hstands', hempty⟩ := @emptyLines_lines 0 indent
    (((h.skip line.length).newLine 1).rest.length + 1) ((h.skip line.length).newLine 1) margin
    tail cs bs [] 0 hmargin htail hcs hbs (by simp [hrest]) rfl
    (Nat.lt_succ_of_le (by simp [hrest]))
  refine ⟨(h.next.map isBlank).getD false, h', hstands', ?_⟩
  rw [lines]
  simp only [hcolumn, beq_self_eq_true, hsome, Bool.and_self, if_true, Head.span, htaken,
    Head.readBreak_of_isShown hafter hb.1 hb.2, hempty]
  simp [Option.bind]

/-- **The lines of a text are read**, up to a line that is indented less. -/
theorem lines_text {margin : Nat} {tail : List Char} (hmargin : margin < indent)
    (htail : BeginsToken tail) {full : List Char} (hfull : Lines full) {fuel : Nat}
    {seen done lastBreak empty : List Char} {wasBlank : Bool} {h : Head}
    (hsplits : Splits seen done lastBreak empty) (hstands : Stands indent margin tail full h)
    (hfuel : full.length < fuel) :
    ∃ done' lastBreak' empty' h', h'.rest = tail ∧ h'.column = margin ∧
      Splits (seen ++ full) done' lastBreak' empty' ∧
      lines false indent fuel done wasBlank lastBreak empty h =
        some (done', lastBreak', empty', h') := by
  -- Induction on the lines.  What has been read so far grows by a line, its break and the
  -- empty lines behind it, and stays split in the same way.
  induction hfull generalizing seen done lastBreak empty wasBlank h fuel with
  | nil =>
      obtain ⟨fuel, rfl⟩ : ∃ k, fuel = k + 1 := ⟨fuel - 1, by simp at hfuel; omega⟩
      obtain ⟨-, hrest, hcolumn⟩ | ⟨hne, -⟩ := hstands
      · refine ⟨done, lastBreak, empty, h, hrest, hcolumn, by simpa using hsplits, ?_⟩
        have hother : (h.column == indent) = false := by simp [hcolumn]; omega
        simp [lines, hother]
      · exact absurd rfl hne
  | @cons line bs cs b hne hline hb hbs hlines ih =>
      obtain ⟨fuel, rfl⟩ : ∃ k, fuel = k + 1 := ⟨fuel - 1, by omega⟩
      obtain ⟨wasBlank', h', hstands', hstep⟩ := @lines_step indent fuel h margin tail line bs cs b
        done lastBreak empty wasBlank hmargin htail hne hline hb hbs hlines hstands
      have hsplits' : Splits (seen ++ (line ++ b :: bs)) (done ++ lastBreak ++ empty ++ line) [b]
          bs := by
        refine ⟨by simp [← hsplits.append_eq], ?_, ?_, .inl rfl⟩
        · intro c hc
          rw [List.getLast?_append_of_ne_nil _ hne] at hc
          exact hline c (List.mem_of_getLast? hc)
        · simpa using ⟨hb.1, fun b hb => (hbs b hb).1⟩
      simp only [List.length_append, List.length_cons] at hfuel
      obtain ⟨done', lastBreak', empty', h'', hrest, hcolumn, hs, hread⟩ :=
        @ih fuel _ _ _ _ wasBlank' h' hsplits' hstands' (by omega)
      refine ⟨done', lastBreak', empty', h'', hrest, hcolumn, by simpa using hs, ?_⟩
      rw [hstep, hread]

/-! ### The line breaks at the end -/

/-- What the line breaks at the end of a text say about them. -/
def endingOf (cs : List Char) : Ending :=
  match cs.reverse with
  | [] => .strip
  | c :: rest =>
    if !isBreak c then .strip else if (rest.head?.map isBreak).getD true then .keep else .clip

/-- The mark of an ending behind the bar. -/
def Ending.mark : Ending → List Char
  | .strip => ['-']
  | .clip => []
  | .keep => ['+']

/-- A text begins with a space or a line break, so it does not show its indentation. -/
def startsBlank (cs : List Char) : Bool :=
  (cs.head?.map fun c => c == ' ' || isBreak c).getD false

/-- What is written behind the bar. -/
theorem toList_literalHints (cs : List Char) :
    (literalHints cs).toList =
      (if startsBlank cs then ['2'] else []) ++ (endingOf cs).mark := by
  simp only [literalHints, endingOf, startsBlank, String.toList_append]
  congr 1
  · rw [apply_ite String.toList]
    rfl
  · cases cs.reverse with
    | nil => rfl
    | cons c rest =>
        dsimp only
        split
        · rfl
        · split <;> rfl

/-- What an ending leaves of the line breaks at the end. -/
def Ending.kept (lastBreak empty : List Char) : Ending → List Char
  | .strip => []
  | .clip => lastBreak
  | .keep => lastBreak ++ empty

/-- Texts without line breaks at their ends, followed by line breaks, are equal only part by
part. -/
theorem append_breaks_inj {a b x y : List Char} (h : a ++ x = b ++ y)
    (ha : ∀ c, a.getLast? = some c → isBreak c = false)
    (hb : ∀ c, b.getLast? = some c → isBreak c = false)
    (hx : ∀ c ∈ x, isBreak c = true) (hy : ∀ c ∈ y, isBreak c = true) : a = b ∧ x = y := by
  have hdrop : ∀ {a x : List Char}, (∀ c, a.getLast? = some c → isBreak c = false) →
      (∀ c ∈ x, isBreak c = true) → (a ++ x).reverse.dropWhile isBreak = a.reverse := by
    intro a x ha hx
    rw [List.reverse_append, List.dropWhile_append_of_pos (by simpa using hx)]
    cases hrev : a.reverse with
    | nil => rfl
    | cons c more =>
        have hc := ha c (by rw [List.getLast?_eq_head?_reverse, hrev]; rfl)
        simp [hc]
  have hrev := hdrop ha hx
  rw [h, hdrop hb hy, List.reverse_inj] at hrev
  subst hrev
  exact ⟨rfl, List.append_cancel_left h⟩

/-- **The ending gives back the text** with the line breaks at its end. -/
theorem done_append_kept {cs done lastBreak empty : List Char}
    (h : Splits (cs ++ closing cs) done lastBreak empty) :
    done ++ (endingOf cs).kept lastBreak empty = cs := by
  rcases List.eq_nil_or_concat cs with rfl | ⟨front, c, rfl⟩
  · have hsplit := append_breaks_inj h.append_eq h.done_ends (by simp) h.breaks
      (List.forall_mem_singleton.mpr rfl)
    simp [hsplit.1, endingOf, Ending.kept]
  rw [List.concat_eq_append] at h ⊢
  -- A text without a line break at its end is stripped of the one that closes it; one with
  -- several keeps them all, and one with a single line break is clipped to it.
  cases hc : isBreak c with
  | false =>
      have hending : endingOf (front ++ [c]) = .strip := by simp [endingOf, hc]
      have hclosing : closing (front ++ [c]) = ['\n'] := by simp [closing, hc]
      rw [hclosing] at h
      have hsplit := append_breaks_inj h.append_eq h.done_ends (by simpa using hc) h.breaks
        (List.forall_mem_singleton.mpr rfl)
      simp [hending, hsplit.1, Ending.kept]
  | true =>
      have hclosing : closing (front ++ [c]) = [] := by simp [closing, hc]
      rw [hclosing, List.append_nil] at h
      cases hfront : (front.getLast?.map isBreak).getD true with
      | true =>
          have hending : endingOf (front ++ [c]) = .keep := by
            simp [endingOf, hc, List.head?_reverse, hfront]
          rw [hending]
          exact h.append_eq
      | false =>
          have hending : endingOf (front ++ [c]) = .clip := by
            simp [endingOf, hc, List.head?_reverse, hfront]
          have hne : front ≠ [] := by
            rintro rfl
            cases hfront
          have hlast : ∀ d, front.getLast? = some d → isBreak d = false := by
            intro d hd
            rw [hd] at hfront
            exact hfront
          obtain ⟨rfl, hbreaks⟩ := append_breaks_inj h.append_eq h.done_ends hlast h.breaks
            (by simpa using hc)
          have hone : lastBreak.length = 1 := h.first.resolve_right hne
          obtain ⟨b, rfl⟩ := List.length_eq_one_iff.mp hone
          obtain ⟨rfl, -⟩ : b = c ∧ empty = [] := by simpa using hbreaks
          rw [hending, Ending.kept]

/-! ### The text behind its bar -/

/-- What stands behind the bar is read. -/
theorem header_eq {blank : Bool} {ending : Ending} {body : List Char}
    (hrest : h.rest = (if blank then ['2'] else []) ++ (ending.mark ++ '\n' :: body)) :
    ∃ h', h'.rest = body ∧ h'.column = 0 ∧
      header h = some (ending, if blank then some 2 else none, h') := by
  refine ⟨(h.skip (blank.toNat + ending.mark.length)).newLine 1, ?_, rfl, ?_⟩
  · cases blank <;> cases ending <;> simp [hrest, Ending.mark]
  · cases blank <;> cases ending <;>
      simp [header, hrest, Ending.mark, Head.sees, Head.next, Head.finishLine, Head.skipWhile,
        Head.span, Head.readBreak, Head.isLineEnd, isBlank, isBreak, Head.skip, Head.newLine]

end Block

/-- A text of several lines needs no escapes. -/
theorem Style.shown_of_literal {text : String} (h : ofText text = .literal) :
    text.toList ≠ [] ∧ ∀ c ∈ text.toList, isShown c = true := by
  simp only [ofText] at h
  split at h
  · cases h
  · split at h
    · rename_i hbreak
      split at h
      · cases h
      · rename_i hescapes
        simp only [needsEscapes, Bool.or_eq_true, not_or, Bool.not_eq_true, List.any_eq_false]
          at hescapes
        refine ⟨?_, by simpa using hescapes.1.1⟩
        intro hnil
        simp [hnil] at hbreak
    · split at h
      · split at h <;> cases h
      · split at h <;> cases h

namespace Block

/-- The empty lines in front of a text are read, and the indentation of its first line, be it
given or found. -/
theorem emptyLines_text {indent margin least : Nat} {tail cs bs full : List Char} {h : Head}
    (hleast : least ≤ indent) (hmargin : margin < indent) (htail : BeginsToken tail)
    (hshown : ∀ c ∈ cs, isShown c = true) (hne : cs ≠ []) (hsplit : cs ++ closing cs = bs ++ full)
    (hbs : ∀ b ∈ bs, isBreak b = true ∧ isShown b = true) (hfull : Lines full)
    (hrest : h.rest = indented indent true cs ++ closing cs ++ (List.replicate margin ' ' ++ tail))
    (hcolumn : h.column = 0) :
    ∃ h', Stands indent margin tail full h' ∧
      emptyLines least (h.rest.length + 1) (if startsBlank cs then some indent else none) 0 [] h =
        some (bs, indent, h') := by
  have hlines : h.rest =
      bs ++ (indented indent true full ++ (List.replicate margin ' ' ++ tail)) := by
    rw [hrest, ← indented_append_closing, hsplit, indented_breaks fun b hb => (hbs b hb).1,
      List.append_assoc]
  cases hblank : startsBlank cs with
  | true =>
      obtain ⟨h', hstands, hread⟩ := @emptyLines_lines least indent (h.rest.length + 1) h margin
        tail full bs [] 0 hmargin htail hfull hbs hlines hcolumn
        (Nat.lt_succ_of_le (by simp [hlines]))
      exact ⟨h', hstands, hread⟩
  | false =>
      obtain ⟨c, more, rfl⟩ := List.exists_cons_of_ne_nil hne
      have hc : c ≠ ' ' ∧ isBreak c = false := by simpa [startsBlank] using hblank
      have htab : c ≠ '\t' := by
        rintro rfl
        cases hshown '\t' List.mem_cons_self
      obtain rfl : bs = [] := by
        cases bs with
        | nil => rfl
        | cons b bs =>
            obtain ⟨rfl, -⟩ := List.cons.inj hsplit
            have hbreak := (hbs c List.mem_cons_self).1
            rw [hc.2] at hbreak
            cases hbreak
      obtain rfl : full = c :: (more ++ closing (c :: more)) := hsplit.symm
      rw [List.nil_append, indented_true_cons, hc.2, if_neg Bool.false_ne_true, List.append_assoc]
        at hlines
      have hhead : h.rest = List.replicate indent ' ' ++ c :: (indented indent false
          (more ++ closing (c :: more)) ++ (List.replicate margin ' ' ++ tail)) := by
        simpa [indented, hc.2] using hlines
      refine ⟨h.skip indent, .inr ⟨List.cons_ne_nil _ _, by simp [hlines], by simp [hcolumn]⟩, ?_⟩
      exact emptyLines_found hleast hhead hcolumn ⟨hc.1, htab, hc.2⟩

/-- **A text of several lines is read back** behind its bar. -/
theorem read_literal {text : String} (h : Style.ofText text = .literal) {parent margin : Nat}
    {tail : List Char} {head : Head} (hmargin : margin ≤ parent) (htail : BeginsToken tail)
    (hhead : head.rest = (literalHints text.toList).toList ++ '\n' ::
      (indented (parent + 2) true text.toList ++ closing text.toList ++
        (List.replicate margin ' ' ++ tail))) :
    ∃ h', h'.rest = tail ∧ h'.column = margin ∧
      read false parent head = some (text.toList, h') := by
  obtain ⟨hne, hshown⟩ := Style.shown_of_literal h
  have hclosed : ∀ c ∈ text.toList ++ closing text.toList, isShown c = true := by
    intro c hc
    rcases List.mem_append.mp hc with hc | hc
    · exact hshown c hc
    · rw [closing] at hc
      split at hc
      · cases hc
      · rw [List.mem_singleton.mp hc]
        rfl
  have hends : ∀ c, (text.toList ++ closing text.toList).getLast? = some c → isBreak c = true := by
    intro c hc
    rw [closing] at hc
    split at hc
    · rename_i hlast
      rw [List.append_nil] at hc
      rw [hc] at hlast
      exact hlast
    · rw [List.getLast?_concat] at hc
      cases hc
      rfl
  obtain ⟨bs, full, hsplit, hbs, hfull⟩ := exists_lines _ hclosed hends
  rw [toList_literalHints, List.append_assoc] at hhead
  obtain ⟨body, hbody, hcolumn, hheader⟩ := header_eq hhead
  have hleast : max 1 ((parent : Int) + 1).toNat ≤ parent + 2 := by omega
  obtain ⟨first, hstands, hempty⟩ := emptyLines_text hleast (by omega) htail hshown hne hsplit hbs
    hfull hbody hcolumn
  have hfuel : full.length < first.rest.length + 1 := by
    obtain ⟨rfl, -⟩ | ⟨-, hrest, -⟩ := hstands
    · simp
    · have := @length_le_indented (parent + 2) false full
      rw [hrest, List.length_append]
      omega
  have hbegin : Splits bs [] [] bs := ⟨rfl, by simp, fun b hb => (hbs b hb).1, .inr rfl⟩
  obtain ⟨done, lastBreak, empty, last, hrest, hcolumn', hsplits, hlines⟩ :=
    @lines_text (parent + 2) margin tail (by omega) htail full hfull _ bs [] [] bs false first
      hbegin hstands hfuel
  rw [← hsplit] at hsplits
  have htext := done_append_kept hsplits
  refine ⟨last, hrest, hcolumn', ?_⟩
  have hgiven : (if startsBlank text.toList = true then some 2 else none).map
      (fun n => if (0 : Int) ≤ parent then (parent : Int).toNat + n else n) =
        if startsBlank text.toList = true then some (parent + 2) else none := by
    cases startsBlank text.toList <;> simp
  simp only [read, hheader, Option.bind_eq_bind, Option.bind_some, hgiven, hempty, hlines]
  exact congrArg (fun cs => some (cs, last)) htext

end Block

end BackupPlan.Yaml
