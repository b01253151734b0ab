import BackupPlan.Report
import Mathlib.Data.List.Chain

/-!
# Reports, line by line

A report below a heading is the line of the heading and the lines of the report, all
but the empty ones indented; the reports of a list follow each other with an empty
line between them.  So a report keeps its lines at any depth.

A carriage return in front of a line break is left out: indenting drops it.

* `Text.lines` — the lines of a text;
* `Text.HasPlainBreaks` — no line break has a carriage return in front of it;
* `Text.lines_indent` — the lines of an indented text;
* `Report.lines_text_under`, `Report.lines_text_several` — the lines of reports.
-/

namespace BackupPlan

namespace Text

/-- The lines of a text: what stands between its line breaks. -/
def lines (s : String) : List String :=
  (s.toList.splitOn '\n').map String.ofList

/-- A line break ends an empty first line. -/
theorem splitOn_break_cons (cs : List Char) :
    ('\n' :: cs).splitOn '\n' = [] :: cs.splitOn '\n' := by
  simp [List.splitOn_cons_eq_if_modifyHead]

/-- Any other character belongs to the first line. -/
theorem splitOn_cons_of_ne_break {c : Char} (h : c ≠ '\n') (cs : List Char) :
    (c :: cs).splitOn '\n' = (cs.splitOn '\n').modifyHead (c :: ·) := by
  simp [List.splitOn_cons_eq_if_modifyHead, h]

/-- A text without a break is one line. -/
theorem lines_eq_singleton {s : String} (h : '\n' ∉ s.toList) : lines s = [s] := by
  rw [lines, List.splitOn_eq_singleton h, List.map_singleton, String.ofList_toList]

/-- A break between two texts separates their lines. -/
theorem lines_append_break (s t : String) : lines (s ++ "\n" ++ t) = lines s ++ lines t := by
  have hchars : (s ++ "\n" ++ t).toList = s.toList ++ '\n' :: t.toList := by simp
  rw [lines, hchars, List.splitOn_append_cons_self, List.map_append, lines, lines]

/-- What stands in front of a text belongs to its first line. -/
theorem exists_lines_append {lead : String} (h : '\n' ∉ lead.toList) (s : String) :
    ∃ first rest, lines s = first :: rest ∧ lines (lead ++ s) = (lead ++ first) :: rest := by
  have hsplit : ∀ (cs : List Char), '\n' ∉ cs → ∀ first rest,
      s.toList.splitOn '\n' = first :: rest →
      (cs ++ s.toList).splitOn '\n' = (cs ++ first) :: rest := by
    intro cs hcs first rest hlines
    induction cs with
    | nil => exact hlines
    | cons c cs ih =>
        rw [List.mem_cons, not_or] at hcs
        rw [List.cons_append, splitOn_cons_of_ne_break (Ne.symm hcs.1), ih hcs.2]
        rfl
  obtain ⟨first, rest, hlines⟩ := List.exists_cons_of_ne_nil (List.splitOn_ne_nil '\n' s.toList)
  refine ⟨String.ofList first, rest.map String.ofList, by rw [lines, hlines, List.map_cons], ?_⟩
  rw [lines, String.toList_append, hsplit lead.toList h first rest hlines, List.map_cons,
    String.ofList_append, String.ofList_toList]

/-- Texts without breaks are the lines of what joins them with breaks. -/
theorem lines_intercalate_break {texts : List String} (hne : texts ≠ [])
    (h : ∀ text ∈ texts, '\n' ∉ text.toList) : lines ("\n".intercalate texts) = texts := by
  have hchars : ("\n".intercalate texts).toList.splitOn '\n' = texts.map String.toList := by
    have hbreak : "\n".toList = ['\n'] := rfl
    rw [String.toList_intercalate, hbreak]
    refine List.splitOn_intercalate '\n' ?_ (by simpa using hne)
    simpa using h
  rw [lines, hchars, List.map_map]
  simp [Function.comp_def]

/-- Texts joined by empty lines have their own lines, with an empty one in between. -/
theorem lines_intercalate {texts : List String} (h : texts ≠ []) :
    lines ("\n\n".intercalate texts) = [""].intercalate (texts.map lines) := by
  induction texts with
  | nil => exact absurd rfl h
  | cons first rest ih =>
      cases rest with
      | nil => simp
      | cons second rest =>
          have hbreaks : first ++ "\n\n" ++ "\n\n".intercalate (second :: rest) =
              first ++ "\n" ++ ("" ++ "\n" ++ "\n\n".intercalate (second :: rest)) := by
            simp [String.append_assoc, ← String.toList_inj]
          have hempty : lines "" = [""] := lines_eq_singleton (by simp)
          rw [String.intercalate_cons_cons, hbreaks, lines_append_break, lines_append_break, hempty,
            ih (List.cons_ne_nil _ _)]
          simp

/-- A character that stands neither in the separator nor in the texts. -/
theorem not_mem_intercalate {c : Char} {separator : String} {texts : List String}
    (hseparator : c ∉ separator.toList) (h : ∀ text ∈ texts, c ∉ text.toList) :
    c ∉ (separator.intercalate texts).toList := by
  induction texts with
  | nil => simp
  | cons first rest ih =>
      obtain ⟨hfirst, hrest⟩ := List.forall_mem_cons.mp h
      cases rest with
      | nil => rwa [String.intercalate_singleton]
      | cons second rest =>
          rw [String.intercalate_cons_cons, String.toList_append, String.toList_append,
            List.mem_append, List.mem_append, not_or, not_or]
          exact ⟨⟨hfirst, hseparator⟩, ih hrest⟩

/-! ### Indented texts -/

/-- Changing every element commutes with joining. -/
theorem map_intercalate {α β : Type} (f : α → β) (separator : List α) (parts : List (List α)) :
    (separator.intercalate parts).map f =
      (separator.map f).intercalate (parts.map fun part => part.map f) := by
  induction parts with
  | nil => rfl
  | cons first rest ih =>
      cases rest with
      | nil => simp
      | cons second rest =>
          rw [List.intercalate_cons_cons, List.map_append, List.map_append, ih]
          simp

/-- A line behind two blanks, unless it is empty. -/
def indentedLine (line : String) : String :=
  if line = "" then "" else "  " ++ line

/-- A line that is not empty is indented by two blanks. -/
theorem indentedLine_of_ne_empty {line : String} (h : line ≠ "") :
    indentedLine line = "  " ++ line :=
  if_neg h

/-- The same, in characters. -/
def indentedChars (line : List Char) : List Char :=
  if line = [] then [] else ' ' :: ' ' :: line

/-- Indenting a line is indenting its characters. -/
theorem indentedLine_ofList (line : List Char) :
    indentedLine (String.ofList line) = String.ofList (indentedChars line) := by
  cases line with
  | nil => rfl
  | cons c rest => simp [indentedLine, indentedChars, ← String.toList_inj]

/-- No line break has a carriage return in front of it. -/
def HasPlainBreaks (cs : List Char) : Prop :=
  cs.IsChain fun c d => c = '\r' → d ≠ '\n'

/-- A text without a carriage return has plain breaks only. -/
theorem hasPlainBreaks_of_notMem {cs : List Char} (h : '\r' ∉ cs) : HasPlainBreaks cs := by
  refine List.isChain_iff_forall_rel_of_append_cons_cons.mpr ?_
  rintro c d before rest rfl rfl
  exact absurd (by simp) h

/-- A break stays where it is, and a line begins behind it. -/
theorem indentFrom_break (begins : Bool) (cs : List Char) :
    Report.indentFrom begins ('\n' :: cs) = '\n' :: Report.indentFrom true cs := by
  cases begins <;> simp [Report.indentFrom]

/-- A character within a line stays where it is, with two blanks before it if it begins the
line. -/
theorem indentFrom_cons (begins : Bool) {c : Char} {cs : List Char} (hbreak : c ≠ '\n')
    (hplain : ∀ d ∈ cs.head?, c = '\r' → d ≠ '\n') :
    Report.indentFrom begins (c :: cs) =
      (if begins then [' ', ' '] else []) ++ c :: Report.indentFrom false cs := by
  cases cs with
  | nil => cases begins <;> simp [Report.indentFrom]
  | cons d cs =>
      have hd : c = '\r' → d ≠ '\n' := hplain d rfl
      cases begins <;> simp +contextual [Report.indentFrom, hd]

/-- Indenting within a line leaves the next character. -/
theorem head?_indentFrom {cs : List Char} (h : HasPlainBreaks cs) :
    (Report.indentFrom false cs).head? = cs.head? := by
  cases cs with
  | nil => rfl
  | cons c cs =>
      obtain ⟨hplain, -⟩ := List.isChain_cons.mp h
      by_cases hbreak : c = '\n'
      · rw [hbreak, indentFrom_break, List.head?_cons, List.head?_cons]
      · rw [indentFrom_cons false hbreak hplain]
        rfl

/-- Indenting adds no carriage return before a break. -/
theorem HasPlainBreaks.indentFrom {cs : List Char} (h : HasPlainBreaks cs) (begins : Bool) :
    HasPlainBreaks (Report.indentFrom begins cs) := by
  induction cs generalizing begins with
  | nil =>
      rw [Report.indentFrom]
      exact .nil
  | cons c cs ih =>
      obtain ⟨hplain, hcs⟩ := List.isChain_cons.mp h
      by_cases hbreak : c = '\n'
      · rw [hbreak, indentFrom_break]
        exact List.isChain_cons.mpr ⟨by simp, ih hcs true⟩
      · have hrest : HasPlainBreaks (c :: Report.indentFrom false cs) := by
          refine List.isChain_cons.mpr ⟨?_, ih hcs false⟩
          rwa [head?_indentFrom hcs]
        rw [indentFrom_cons begins hbreak hplain]
        cases begins with
        | false => exact hrest
        | true => exact .cons_cons (by simp) (.cons_cons (by simp) hrest)

/-- At the beginning of a line every line is indented, and within a line every line
but that one. -/
theorem splitOn_indentFrom {cs : List Char} (h : HasPlainBreaks cs) :
    (Report.indentFrom true cs).splitOn '\n' = (cs.splitOn '\n').map indentedChars ∧
    ∀ first rest, cs.splitOn '\n' = first :: rest →
      (Report.indentFrom false cs).splitOn '\n' = first :: rest.map indentedChars := by
  induction cs with
  | nil => simp [Report.indentFrom, indentedChars]
  | cons c cs ih =>
      obtain ⟨hplain, hcs⟩ := List.isChain_cons.mp h
      obtain ⟨hbegin, hwithin⟩ := ih hcs
      by_cases hbreak : c = '\n'
      · subst hbreak
        simp only [indentFrom_break, splitOn_break_cons, hbegin, List.map_cons, indentedChars,
          if_true, true_and]
        rintro first rest ⟨rfl, rfl⟩
        rfl
      · obtain ⟨first, rest, hlines⟩ := List.exists_cons_of_ne_nil (List.splitOn_ne_nil '\n' cs)
        have hblank : ' ' ≠ '\n' := by decide
        have hrest := hwithin first rest hlines
        constructor
        · rw [indentFrom_cons true hbreak hplain, if_pos rfl, List.cons_append,
            List.singleton_append, splitOn_cons_of_ne_break hblank, splitOn_cons_of_ne_break hblank,
            splitOn_cons_of_ne_break hbreak, hrest, splitOn_cons_of_ne_break hbreak, hlines]
          simp [indentedChars]
        · intro first' rest' hlines'
          rw [splitOn_cons_of_ne_break hbreak, hlines] at hlines'
          cases hlines'
          rw [indentFrom_cons false hbreak hplain, if_neg (by decide), List.nil_append,
            splitOn_cons_of_ne_break hbreak, hrest]
          rfl

/-- **Indenting keeps the lines.** -/
theorem lines_indent {s : String} (h : HasPlainBreaks s.toList) :
    lines (Report.indent s) = (lines s).map indentedLine := by
  rw [lines, Report.indent, String.toList_ofList, (splitOn_indentFrom h).1, lines, List.map_map,
    List.map_map]
  exact List.map_congr_left fun line _ => (indentedLine_ofList line).symm

end Text

/-! ### Reports -/

namespace Report

theorem texts_eq_map (reports : List Report) : texts reports = reports.map text := by
  induction reports with
  | nil => rfl
  | cons report rest ih => rw [texts, ih, List.map_cons]

/-- A report under a heading has the heading as its first line and its own lines indented below. -/
theorem lines_text_under {heading : String} {inner : Report} (hheading : '\n' ∉ heading.toList)
    (hinner : Text.HasPlainBreaks inner.text.toList) :
    Text.lines (under heading inner).text =
      (heading ++ ":") :: (Text.lines inner.text).map Text.indentedLine := by
  have htext : (under heading inner).text = (heading ++ ":") ++ "\n" ++ indent inner.text := by
    rw [text, ← String.toList_inj]
    simp
  have hcolon : '\n' ∉ (heading ++ ":").toList := by simpa using hheading
  rw [htext, Text.lines_append_break, Text.lines_eq_singleton hcolon, Text.lines_indent hinner,
    List.singleton_append]

/-- The lines of several reports are those of each, with one empty line between two. -/
theorem lines_text_several {reports : List Report} (h : reports ≠ []) :
    Text.lines (several reports).text =
      [""].intercalate (reports.map fun report => Text.lines report.text) := by
  have hne : reports.map text ≠ [] := by simpa using h
  rw [text, texts_eq_map, Text.lines_intercalate hne, List.map_map]
  rfl

/-- The leaves of reports that are no lists are these reports. -/
theorem leavesOf_eq_self {reports : List Report} (h : ∀ report ∈ reports, report.leaves = [report]) :
    leavesOf reports = reports := by
  induction reports with
  | nil => rfl
  | cons report rest ih =>
      obtain ⟨hfirst, hrest⟩ := List.forall_mem_cons.mp h
      rw [leavesOf, hfirst, ih hrest, List.singleton_append]

end Report

end BackupPlan
