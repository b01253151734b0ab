import BackupPlan.Yaml.Printer
import BackupPlan.Yaml.Token.Scalar
import Mathlib.Data.List.Chain

/-!
# Gaps in printed texts

What parts the words of a printed text is a run of blanks, or a run of line breaks with an
indentation behind it, never a mixture.  The reader of gaps keeps blanks, keeps line
breaks, and drops an indentation; it stops at the first character that is neither.

* `Head.readBreak_of_isShown` — a line break that a document shows counts as itself;
* `Gap.read_blanks`, `Gap.read_breaks`, `Gap.read_margin`, `Gap.read_stop` — the parts of a
  gap, one by one;
* `Gap.read_toWord`, `Gap.read_toLine` — a gap within a line, and one between lines;
* `Parted.of_unmixed` — a text none of whose gaps is mixed is one of words and gaps.
-/

namespace BackupPlan.Yaml

/-! ### Characters -/

/-- The line breaks that a document shows. -/
theorem break_cases {c : Char} (hbreak : isBreak c = true) (hshown : isShown c = true) :
    c = '\n' ∨ c = '\u2028' ∨ c = '\u2029' := by
  simp only [isBreak, Bool.or_eq_true, beq_iff_eq] at hbreak
  rcases hbreak with (((rfl | rfl) | rfl) | rfl) | rfl
  · exact Or.inl rfl
  · exact absurd hshown (by decide)
  · exact absurd hshown (by decide)
  · exact Or.inr (Or.inl rfl)
  · exact Or.inr (Or.inr rfl)

/-- The only blank that a document shows is the space. -/
theorem eq_space_of_isBlank {c : Char} (hblank : isBlank c = true) (hshown : isShown c = true) :
    c = ' ' := by
  simp only [isBlank, Bool.or_eq_true, beq_iff_eq] at hblank
  rcases hblank with rfl | rfl
  · rfl
  · exact absurd hshown (by decide)

/-- No line break is a blank. -/
theorem isBlank_eq_false_of_isBreak {c : Char} (h : isBreak c = true) : isBlank c = false := by
  simp only [isBreak, Bool.or_eq_true, beq_iff_eq] at h
  rcases h with (((rfl | rfl) | rfl) | rfl) | rfl <;> rfl

/-! ### Heads -/

namespace Head

variable (h : Head) (n : Nat)

@[simp] theorem rest_skip : (h.skip n).rest = h.rest.drop n := rfl

@[simp] theorem column_skip : (h.skip n).column = h.column + n := rfl

@[simp] theorem line_skip : (h.skip n).line = h.line := rfl

@[simp] theorem index_skip : (h.skip n).index = h.index + n := rfl

@[simp] theorem rest_newLine : (h.newLine n).rest = h.rest.drop n := rfl

@[simp] theorem column_newLine : (h.newLine n).column = 0 := rfl

theorem skip_skip (m : Nat) : (h.skip m).skip n = h.skip (m + n) := by
  simp [skip, Nat.add_assoc]

/-- No line that has begun is a mark of a document. -/
theorem atDocumentMark_eq_false {h : Head} (hcolumn : h.column ≠ 0) : h.atDocumentMark = false := by
  simp [atDocumentMark, hcolumn]

/-- A line break that a document shows counts as itself. -/
theorem readBreak_of_isShown {h : Head} {b : Char} {rest : List Char} (hrest : h.rest = b :: rest)
    (hbreak : isBreak b = true) (hshown : isShown b = true) :
    h.readBreak = ([b], h.newLine 1) := by
  rcases break_cases hbreak hshown with rfl | rfl | rfl <;>
    simp [readBreak, hrest, isBreak]

end Head

/-- What stands behind a line: its end, and another line at some indentation. -/
def nextLine (margin : Nat) (line : List Char) : List Char :=
  '\n' :: (List.replicate margin ' ' ++ line)

/-- A line on which a token begins: it is empty and the last one, or it begins with a
character that parts no words, begins no comment and marks no encoding. -/
def BeginsToken (line : List Char) : Prop :=
  ∀ c, line.head? = some c →
    isBlank c = false ∧ isBreak c = false ∧ c ≠ '#' ∧ c ≠ '\uFEFF'

/-! ### Gaps -/

namespace Gap

variable {indent fuel : Nat} {gap : Gap} {h : Head}

/-- A gap ends in front of anything else. -/
theorem read_stop {isLineStart : Bool}
    (hnext : ∀ c, h.next = some c → isBlank c = false ∧ isBreak c = false) :
    Gap.read indent isLineStart fuel gap h = some (gap, h) := by
  cases fuel with
  | zero => rfl
  | succ fuel =>
      rw [Gap.read]
      cases hhead : h.next with
      | none => rfl
      | some c => simp [hnext c hhead]

/-- Blanks within a line are kept. -/
theorem read_blanks (n : Nat) {blanks rest : List Char}
    (hrest : h.rest = List.replicate n ' ' ++ rest) :
    Gap.read indent false (fuel + n) { blanks } h =
      Gap.read indent false fuel { blanks := blanks ++ List.replicate n ' ' } (h.skip n) := by
  induction n generalizing blanks h with
  | zero => simp [Head.skip]
  | succ n ih =>
      rw [List.replicate_succ, List.cons_append] at hrest
      have hnext : h.next = some ' ' := by rw [Head.next, hrest, List.head?_cons]
      have hafter : (h.skip 1).rest = List.replicate n ' ' ++ rest := by simp [hrest]
      rw [← Nat.add_assoc, Gap.read]
      simp [hnext, isBlank, ih hafter, Head.skip_skip, List.replicate_succ, Nat.add_comm]

/-- An indentation behind line breaks is dropped. -/
theorem read_margin (n : Nat) {rest : List Char} (hrest : h.rest = List.replicate n ' ' ++ rest)
    (hbreaks : gap.breaks ≠ []) :
    Gap.read indent false (fuel + n) gap h = Gap.read indent false fuel gap (h.skip n) := by
  induction n generalizing h with
  | zero => simp [Head.skip]
  | succ n ih =>
      rw [List.replicate_succ, List.cons_append] at hrest
      have hnext : h.next = some ' ' := by rw [Head.next, hrest, List.head?_cons]
      have hafter : (h.skip 1).rest = List.replicate n ' ' ++ rest := by simp [hrest]
      rw [← Nat.add_assoc, Gap.read]
      simp [hnext, hbreaks, isBlank, ih hafter, Head.skip_skip, Nat.add_comm]

/-- A line break is kept. -/
theorem read_break {b : Char} {rest : List Char} (hrest : h.rest = b :: rest)
    (hbreak : isBreak b = true) (hshown : isShown b = true) :
    Gap.read indent false (fuel + 1) gap h =
      Gap.read indent false fuel { gap with breaks := gap.breaks ++ [b] } (h.newLine 1) := by
  have hnext : h.next = some b := by rw [Head.next, hrest, List.head?_cons]
  rw [Gap.read]
  simp only [hnext, isBlank_eq_false_of_isBreak hbreak, hbreak,
    Head.readBreak_of_isShown hrest hbreak hshown]
  simp

/-- Line breaks are kept. -/
theorem read_breaks (bs : List Char) {rest : List Char} (hrest : h.rest = bs ++ rest)
    (hbreaks : ∀ b ∈ bs, isBreak b = true ∧ isShown b = true) :
    ∃ h', h'.rest = rest ∧ h'.column = (if bs = [] then h.column else 0) ∧
      Gap.read indent false (fuel + bs.length) gap h =
        Gap.read indent false fuel { gap with breaks := gap.breaks ++ bs } h' := by
  induction bs generalizing gap h with
  | nil => exact ⟨h, hrest, by simp, by simp⟩
  | cons b bs ih =>
      rw [List.forall_mem_cons] at hbreaks
      obtain ⟨hfirst, hothers⟩ := hbreaks
      have hafter : (h.newLine 1).rest = bs ++ rest := by simp [hrest]
      obtain ⟨h', hrest', hcolumn, hread⟩ :=
        @ih { gap with breaks := gap.breaks ++ [b] } _ hafter hothers
      refine ⟨h', hrest', by simp [hcolumn], ?_⟩
      rw [List.length_cons, ← Nat.add_assoc, read_break hrest hfirst.1 hfirst.2, hread]
      simp

/-- **A gap within a line** is its blanks, up to the next word. -/
theorem read_toWord (n : Nat) {word : List Char} (hrest : h.rest = List.replicate n ' ' ++ word)
    (hword : ∀ c, word.head? = some c → isBlank c = false ∧ isBreak c = false) :
    Gap.read indent false (h.rest.length + 1) {} h =
      some ({ blanks := List.replicate n ' ' }, h.skip n) := by
  have hfuel : h.rest.length + 1 = word.length + 1 + n := by
    simp [hrest]
    omega
  have hnext : ∀ c, (h.skip n).next = some c → isBlank c = false ∧ isBreak c = false := by
    intro c hc
    exact hword c (by simpa [Head.next, hrest] using hc)
  rw [hfuel, read_blanks n hrest, List.nil_append, read_stop hnext]

/-- **A gap between lines** is its line breaks; the indentation behind them is no part of
it. -/
theorem read_toLine (bs : List Char) (n : Nat) {line : List Char}
    (hrest : h.rest = bs ++ (List.replicate n ' ' ++ line)) (hne : bs ≠ [])
    (hbreaks : ∀ b ∈ bs, isBreak b = true ∧ isShown b = true)
    (hline : ∀ c, line.head? = some c → isBlank c = false ∧ isBreak c = false) :
    ∃ h', h'.rest = line ∧ h'.column = n ∧
      Gap.read indent false (h.rest.length + 1) {} h = some ({ breaks := bs }, h') := by
  have hfuel : h.rest.length + 1 = line.length + 1 + n + bs.length := by
    simp [hrest]
    omega
  obtain ⟨h', hrest', hcolumn, hread⟩ :=
    @read_breaks indent (line.length + 1 + n) {} h bs _ hrest hbreaks
  have hnext : ∀ c, (h'.skip n).next = some c → isBlank c = false ∧ isBreak c = false := by
    intro c hc
    exact hline c (by simpa [Head.next, hrest'] using hc)
  refine ⟨h'.skip n, by simp [hrest'], by simp [hcolumn, hne], ?_⟩
  rw [hfuel, hread, List.nil_append, read_margin n hrest' hne, read_stop hnext]

end Gap

/-! ### Lines at an indentation -/

/-- Only in front of another character than a break is a line indented that begins. -/
theorem indented_true_cons (margin : Nat) (c : Char) (cs : List Char) :
    indented margin true (c :: cs) =
      (if isBreak c then [] else List.replicate margin ' ') ++ indented margin false (c :: cs) := by
  cases hc : isBreak c <;> simp [indented, hc]

/-! ### Words and gaps -/

/-- No character of one kind stands right before one of another exactly if this holds from
neighbour to neighbour. -/
theorem hasPair_eq_false_iff {first second : Char → Bool} {cs : List Char} :
    hasPair first second cs = false ↔ cs.IsChain fun a b => first a = true → second b = false := by
  induction cs with
  | nil => simp [hasPair]
  | cons a cs ih =>
      cases cs with
      | nil => simp [hasPair]
      | cons b cs =>
          rw [List.isChain_cons_cons, ← ih]
          simp [hasPair]

/-- A character is part of a word: it is no space and no line break of a kind. -/
def InWord (brk : Char → Bool) (c : Char) : Prop :=
  c ≠ ' ' ∧ brk c = false

/-- A text does not begin with a gap. -/
def BeginsWord (brk : Char → Bool) (cs : List Char) : Prop :=
  ∀ c, cs.head? = some c → InWord brk c

/-- A text of words and of gaps between them, each gap of spaces only or of line breaks
only. -/
inductive Parted (brk : Char → Bool) : List Char → Prop
  | word {w : List Char} (hw : ∀ c ∈ w, InWord brk c) : Parted brk w
  | spaces {w cs : List Char} (n : Nat) (hw : ∀ c ∈ w, InWord brk c) (hcs : BeginsWord brk cs)
      (h : Parted brk cs) : Parted brk (w ++ (List.replicate (n + 1) ' ' ++ cs))
  | breaks {w bs cs : List Char} (hw : ∀ c ∈ w, InWord brk c) (hne : bs ≠ [])
      (hbs : ∀ b ∈ bs, brk b = true) (hcs : BeginsWord brk cs) (h : Parted brk cs) :
      Parted brk (w ++ (bs ++ cs))

namespace Parted

variable {brk : Char → Bool} {cs : List Char}

/-- A character of a word goes with the word behind it. -/
theorem cons_inWord {c : Char} (hc : InWord brk c) (h : Parted brk cs) : Parted brk (c :: cs) := by
  have hcons : ∀ {w : List Char}, (∀ d ∈ w, InWord brk d) → ∀ d ∈ c :: w, InWord brk d :=
    fun hw => List.forall_mem_cons.mpr ⟨hc, hw⟩
  cases h with
  | word hw => exact .word (hcons hw)
  | spaces n hw hcs h => exact .spaces n (hcons hw) hcs h
  | breaks hw hne hbs hcs h => exact .breaks (hcons hw) hne hbs hcs h

/-- A text that begins no word begins with spaces or with line breaks. -/
theorem cases_of_not_beginsWord (h : Parted brk cs) (hbegins : ¬ BeginsWord brk cs) :
    (∃ n rest, cs = List.replicate (n + 1) ' ' ++ rest ∧ BeginsWord brk rest ∧ Parted brk rest) ∨
    ∃ bs rest, cs = bs ++ rest ∧ bs ≠ [] ∧ (∀ b ∈ bs, brk b = true) ∧ BeginsWord brk rest ∧
      Parted brk rest := by
  -- A word in front would begin the text.
  have hword : ∀ {w rest : List Char}, (∀ c ∈ w, InWord brk c) → cs = w ++ rest → w = [] := by
    intro w rest hw hcs
    cases w with
    | nil => rfl
    | cons c w =>
        refine absurd ?_ hbegins
        rw [hcs]
        rintro d ⟨⟩
        exact hw c List.mem_cons_self
  cases h with
  | word hw => exact absurd (fun c hc => hw c (List.mem_of_mem_head? hc)) hbegins
  | @spaces w rest n hw hrest h =>
      obtain rfl := hword hw rfl
      exact Or.inl ⟨n, rest, rfl, hrest, h⟩
  | @breaks w bs rest hw hne hbs hrest h =>
      obtain rfl := hword hw rfl
      exact Or.inr ⟨bs, rest, rfl, hne, hbs, hrest, h⟩

/-- A space begins a gap, or goes with the spaces behind it. -/
theorem cons_space (h : Parted brk cs) (hcs : ∀ c, cs.head? = some c → brk c = false) :
    Parted brk (' ' :: cs) := by
  by_cases hbegins : BeginsWord brk cs
  · exact .spaces 0 (List.forall_mem_nil _) hbegins h
  · obtain ⟨n, rest, rfl, hrest, h⟩ | ⟨bs, rest, rfl, hne, hbs, -⟩ :=
      h.cases_of_not_beginsWord hbegins
    · exact .spaces (n + 1) (List.forall_mem_nil _) hrest h
    · obtain ⟨b, bs, rfl⟩ := List.exists_cons_of_ne_nil hne
      have hbreak := hbs b List.mem_cons_self
      rw [hcs b rfl] at hbreak
      cases hbreak

/-- A line break begins a gap, or goes with the breaks behind it. -/
theorem cons_break {b : Char} (hb : brk b = true) (h : Parted brk cs)
    (hcs : cs.head? ≠ some ' ') : Parted brk (b :: cs) := by
  have hone : ∀ c ∈ [b], brk c = true := by simpa using hb
  by_cases hbegins : BeginsWord brk cs
  · exact .breaks (List.forall_mem_nil _) (List.cons_ne_nil b []) hone hbegins h
  · obtain ⟨n, rest, rfl, -⟩ | ⟨bs, rest, rfl, hne, hbs, hrest, h⟩ :=
      h.cases_of_not_beginsWord hbegins
    · exact absurd rfl hcs
    · exact .breaks (List.forall_mem_nil _) (List.cons_ne_nil b bs)
        (List.forall_mem_cons.mpr ⟨hb, hbs⟩) hrest h

/-- **Every text whose gaps are not mixed** is one of words and gaps. -/
theorem of_unmixed (cs : List Char)
    (hspace : cs.IsChain fun a b => a = ' ' → brk b = false)
    (hbreak : cs.IsChain fun a b => brk a = true → b ≠ ' ') : Parted brk cs := by
  induction cs with
  | nil => exact .word (List.forall_mem_nil _)
  | cons c cs ih =>
      have h := ih hspace.tail hbreak.tail
      by_cases hc : c = ' '
      · subst hc
        exact cons_space h fun d hd => hspace.rel_head? hd rfl
      · cases hb : brk c with
        | true => exact cons_break hb h fun hd => hbreak.rel_head? hd hb rfl
        | false => exact cons_inWord ⟨hc, hb⟩ h

/-- Where no character breaks lines, every text is one of words and spaces. -/
theorem of_spaces (cs : List Char) : Parted (fun _ => false) cs :=
  of_unmixed cs (List.Pairwise.isChain (List.pairwise_of_forall fun _ _ _ => rfl))
    (List.Pairwise.isChain (List.pairwise_of_forall fun _ _ h => absurd h Bool.false_ne_true))

end Parted

end BackupPlan.Yaml
