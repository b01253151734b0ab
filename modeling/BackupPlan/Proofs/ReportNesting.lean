import BackupPlan.Proofs.ReportLines

/-!
# Reports below headings

A report may stand below any number of headings.  Each heading indents all that stands
below it once more, the headings and the empty lines there included, and still the text
is what one would write at once: each heading two blanks further in than the one above
it, and below them the lines of the report, all but the empty ones as far in as there
are headings.  So the report can be read off again, at any depth.

* `Text.indentedLine_indentedBy` — indentations add up;
* `Text.fromColumn_indentedBy` — an indentation can be taken back;
* `Report.hasPlainBreaks_text_under` — what a heading keeps of what stands below it;
* `Report.lines_text_underAll` — the lines of a report below any number of headings;
* `nested_reports_keep_their_lines` — the report is still there, line by line.
-/

namespace BackupPlan

namespace Text

/-! ### Indentations -/

/-- So many blanks. -/
def blanks (n : Nat) : String :=
  String.ofList (List.replicate n ' ')

/-- A line behind so many blanks, unless it is empty. -/
def indentedBy (n : Nat) (line : String) : String :=
  if line = "" then "" else blanks n ++ line

/-- What stands in a line from a column on. -/
def fromColumn (n : Nat) (line : String) : String :=
  String.ofList (line.toList.drop n)

theorem toList_blanks (n : Nat) : (blanks n).toList = List.replicate n ' ' :=
  String.toList_ofList

/-- An empty line is not indented. -/
theorem indentedBy_empty (n : Nat) : indentedBy n "" = "" :=
  if_pos rfl

/-- Any other line is indented by `n` blanks. -/
theorem indentedBy_of_ne_empty {line : String} (h : line ≠ "") (n : Nat) :
    indentedBy n line = blanks n ++ line :=
  if_neg h

/-- Indenting by nothing changes nothing. -/
theorem indentedBy_zero : indentedBy 0 = id := by
  funext line
  by_cases h : line = ""
  · rw [h, indentedBy_empty, id]
  · rw [indentedBy_of_ne_empty h, ← String.toList_inj]
    simp [toList_blanks]

/-- Two blanks more in front of blanks. -/
theorem two_blanks_append (n : Nat) (s : String) :
    "  " ++ (blanks n ++ s) = blanks (n + 2) ++ s := by
  rw [← String.toList_inj]
  simp [toList_blanks, List.replicate_succ]

/-- Indentations add up. -/
theorem indentedLine_indentedBy (n : Nat) (line : String) :
    indentedLine (indentedBy n line) = indentedBy (n + 2) line := by
  by_cases h : line = ""
  · rw [h, indentedBy_empty, indentedBy_empty]
    rfl
  · have hne : blanks n ++ line ≠ "" := by simp [h]
    rw [indentedBy_of_ne_empty h, indentedLine_of_ne_empty hne, two_blanks_append,
      indentedBy_of_ne_empty h]

/-- An indentation can be taken back. -/
theorem fromColumn_indentedBy (n : Nat) (line : String) :
    fromColumn n (indentedBy n line) = line := by
  by_cases h : line = ""
  · rw [h, indentedBy_empty]
    simp [fromColumn]
  · rw [indentedBy_of_ne_empty h, fromColumn, String.toList_append, toList_blanks]
    simp

/-- A text is its lines, with line breaks between them. -/
theorem intercalate_break_lines (s : String) : "\n".intercalate (lines s) = s := by
  have hbreak : "\n".toList = ['\n'] := rfl
  have hchars : (lines s).map String.toList = s.toList.splitOn '\n' := by
    rw [lines, List.map_map]
    simp [Function.comp_def]
  rw [← String.toList_inj, String.toList_intercalate, hbreak, hchars, List.intercalate_splitOn]

/-- A text without a break has plain breaks only. -/
theorem hasPlainBreaks_of_break_notMem {cs : List Char} (h : '\n' ∉ cs) : HasPlainBreaks cs := by
  refine List.isChain_iff_forall_rel_of_append_cons_cons.mpr ?_
  rintro c d before rest rfl - rfl
  exact absurd (by simp) h

end Text

namespace Report

/-! ### Headings -/

/-- A report below headings, the outermost one first. -/
def underAll (headings : List String) (report : Report) : Report :=
  headings.foldr under report

@[simp] theorem underAll_nil (report : Report) : report.underAll [] = report := rfl

/-- The outermost heading stands above what is under the others. -/
@[simp] theorem underAll_cons (heading : String) (headings : List String) (report : Report) :
    report.underAll (heading :: headings) = under heading (report.underAll headings) := rfl

/-- The lines of headings, each two blanks further in than the one above it. -/
def headingLines (headings : List String) : List String :=
  headings.mapIdx fun depth heading => Text.blanks (2 * depth) ++ heading ++ ":"

/-- Each heading takes one line. -/
theorem length_headingLines (headings : List String) :
    (headingLines headings).length = headings.length :=
  List.length_mapIdx

/-- Below a heading the lines of the others are indented. -/
theorem headingLines_cons (heading : String) (headings : List String) :
    headingLines (heading :: headings) =
      (heading ++ ":") :: (headingLines headings).map Text.indentedLine := by
  have hfirst : Text.blanks (2 * 0) ++ heading ++ ":" = heading ++ ":" := by
    rw [← String.toList_inj]
    simp [Text.toList_blanks]
  have hindented : ∀ (depth : Nat) (heading : String),
      Text.indentedLine (Text.blanks (2 * depth) ++ heading ++ ":") =
        Text.blanks (2 * (depth + 1)) ++ heading ++ ":" := by
    intro depth heading
    rw [Text.indentedLine_of_ne_empty (by simp), String.append_assoc, Text.two_blanks_append,
      String.append_assoc, Nat.mul_succ]
  have hrest : (headings.mapIdx fun depth heading =>
      Text.blanks (2 * (depth + 1)) ++ heading ++ ":") =
        (headingLines headings).map Text.indentedLine := by
    apply List.ext_getElem?
    intro k
    simp only [headingLines, List.getElem?_map, List.getElem?_mapIdx, Option.map_map,
      Function.comp_def, hindented]
  rw [headingLines, List.mapIdx_cons, hfirst, hrest]

/-- A heading brings no carriage return in front of a line break: behind the heading
stands a colon. -/
theorem hasPlainBreaks_text_under {heading : String} {inner : Report}
    (hheading : '\n' ∉ heading.toList) (hinner : Text.HasPlainBreaks inner.text.toList) :
    Text.HasPlainBreaks (under heading inner).text.toList := by
  have htext : (under heading inner).text.toList =
      (heading.toList ++ [':']) ++ '\n' :: indentFrom true inner.text.toList := by
    rw [text, indent]
    simp
  have hline : Text.HasPlainBreaks (heading.toList ++ [':']) :=
    Text.hasPlainBreaks_of_break_notMem (by simpa using hheading)
  have hbelow : Text.HasPlainBreaks ('\n' :: indentFrom true inner.text.toList) :=
    List.isChain_cons.mpr ⟨by simp, hinner.indentFrom true⟩
  rw [htext]
  exact List.isChain_append.mpr ⟨hline, hbelow, by simp⟩

variable {headings : List String} {report : Report}

/-- Headings of one line keep the breaks of the report plain. -/
theorem hasPlainBreaks_text_underAll (hheadings : ∀ heading ∈ headings, '\n' ∉ heading.toList)
    (hreport : Text.HasPlainBreaks report.text.toList) :
    Text.HasPlainBreaks (report.underAll headings).text.toList := by
  induction headings with
  | nil => exact hreport
  | cons heading headings ih =>
      obtain ⟨hheading, hrest⟩ := List.forall_mem_cons.mp hheadings
      exact hasPlainBreaks_text_under hheading (ih hrest)

/-- **The lines of a report below headings** are those of the headings and those of the
report. -/
theorem lines_text_underAll (hheadings : ∀ heading ∈ headings, '\n' ∉ heading.toList)
    (hreport : Text.HasPlainBreaks report.text.toList) :
    Text.lines (report.underAll headings).text =
      headingLines headings ++
        (Text.lines report.text).map (Text.indentedBy (2 * headings.length)) := by
  induction headings with
  | nil => simp [headingLines, Text.indentedBy_zero]
  | cons heading headings ih =>
      obtain ⟨hheading, hrest⟩ := List.forall_mem_cons.mp hheadings
      have hlines : ((Text.lines report.text).map
            (Text.indentedBy (2 * headings.length))).map Text.indentedLine =
          (Text.lines report.text).map (Text.indentedBy (2 * (heading :: headings).length)) := by
        rw [List.map_map]
        exact List.map_congr_left fun line _ => Text.indentedLine_indentedBy _ line
      have hinner := hasPlainBreaks_text_underAll hrest hreport
      rw [underAll_cons, lines_text_under hheading hinner, ih hrest, List.map_append, hlines,
        headingLines_cons, List.cons_append]

/-- **Nested reports keep their lines.**  A report below headings is the lines of the
headings, each two blanks further in than the one above it, and the lines of the report,
all but the empty ones behind two blanks for each heading; without the headings and
these blanks it is the report as it was.  And if it is a list, its lines are those of its
reports in their order, with one empty line between two of them. -/
theorem nested_reports_keep_their_lines
    (hheadings : ∀ heading ∈ headings, '\n' ∉ heading.toList)
    (hreport : Text.HasPlainBreaks report.text.toList) :
    Text.lines (report.underAll headings).text =
        headingLines headings ++
          (Text.lines report.text).map (Text.indentedBy (2 * headings.length)) ∧
    "\n".intercalate (((Text.lines (report.underAll headings).text).drop headings.length).map
        (Text.fromColumn (2 * headings.length))) = report.text ∧
    ∀ reports, report = several reports → reports ≠ [] →
      Text.lines report.text =
        [""].intercalate (reports.map fun report => Text.lines report.text) := by
  have hlines := lines_text_underAll hheadings hreport
  refine ⟨hlines, ?_, ?_⟩
  · have hback : (fun line => Text.fromColumn (2 * headings.length)
        (Text.indentedBy (2 * headings.length) line)) = id :=
      funext fun line => Text.fromColumn_indentedBy _ line
    rw [hlines, List.drop_left' (length_headingLines headings), List.map_map, Function.comp_def,
      hback, List.map_id, Text.intercalate_break_lines]
  · rintro reports rfl hne
    exact lines_text_several hne

/-- A text with an empty line in it, and a list below a heading. -/
def layeredReport : Report :=
  several [unavailable "a\n\nb", under "c" (several [unavailable "d", unavailable "e"])]

theorem layeredReport_keeps_its_lines :
    (∀ heading ∈ ["x", "y"], '\n' ∉ heading.toList) ∧
    Text.HasPlainBreaks layeredReport.text.toList ∧
    layeredReport.text = "a\n\nb\n\nc:\n  d\n\n  e" ∧
    Text.lines (layeredReport.underAll ["x", "y"]).text =
      ["x:", "  y:", "    a", "", "    b", "", "    c:", "      d", "", "      e"] ∧
    "\n".intercalate (((Text.lines (layeredReport.underAll ["x", "y"]).text).drop 2).map
      (Text.fromColumn 4)) = layeredReport.text ∧
    Text.lines layeredReport.text =
      [""].intercalate [["a", "", "b"], ["c:", "  d", "", "  e"]] := by
  have htext : layeredReport.text = "a\n\nb\n\nc:\n  d\n\n  e" := by decide +kernel
  have hheadings : ∀ heading ∈ ["x", "y"], '\n' ∉ heading.toList := by decide
  have hreport : Text.HasPlainBreaks layeredReport.text.toList := by
    rw [htext]
    exact Text.hasPlainBreaks_of_notMem (by decide)
  obtain ⟨hlines, hback, hlist⟩ := nested_reports_keep_their_lines hheadings hreport
  refine ⟨hheadings, hreport, htext, ?_, hback, ?_⟩
  · rw [hlines, htext]
    decide +kernel
  · rw [hlist _ rfl (List.cons_ne_nil _ _)]
    decide +kernel

end Report

end BackupPlan
