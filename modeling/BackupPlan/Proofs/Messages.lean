import BackupPlan.Proofs.Acceptance
import BackupPlan.Proofs.ReportLines

/-!
# The messages of rejections

A message shows what an operator wrote between quotes, where line breaks are escaped.
So a rejection is told in one line, or in one line for each field at fault, and none
of these lines is empty: whatever the fields hold, an empty line in a report stands
between two rejections.

* `Text.isLine_quoted`, `UnixPath.isLine_quoted` — quoted texts and paths are lines;
* `Text.IsParagraph` — texts of lines of which none is empty;
* `ResolvedJob.isParagraph_of_compile` — rejections are such texts.
-/

namespace BackupPlan

namespace Text

/-! ### Lines -/

/-- A character that ends no line. -/
def isInner (c : Char) : Bool :=
  c != '\n' && c != '\r'

/-- Whether no line ends within a text. -/
def isLine (s : String) : Bool :=
  s.toList.all isInner

/-- A line is a text without a line feed or a carriage return. -/
theorem isLine_iff {s : String} : isLine s = true ↔ '\n' ∉ s.toList ∧ '\r' ∉ s.toList := by
  simp only [isLine, isInner, List.all_eq_true, Bool.and_eq_true, bne_iff_ne]
  constructor
  · intro h
    exact ⟨fun hmem => (h _ hmem).1 rfl, fun hmem => (h _ hmem).2 rfl⟩
  · rintro ⟨hfeed, hreturn⟩ c hc
    exact ⟨fun heq => hfeed (heq ▸ hc), fun heq => hreturn (heq ▸ hc)⟩

/-- Two texts are one line together exactly if each is one. -/
@[simp] theorem isLine_append (s t : String) : isLine (s ++ t) = (isLine s && isLine t) := by
  simp [isLine]

/-! ### Quoted texts -/

/-- A hexadecimal number is written with the sixteen digits. -/
theorem exists_digitChar_of_mem_toDigits {n : Nat} {c : Char} (h : c ∈ Nat.toDigits 16 n) :
    ∃ d < 16, c = Nat.digitChar d := by
  induction n using Nat.strongRecOn with
  | ind n ih =>
      rw [Nat.toDigits_eq_if (by decide)] at h
      split at h
      · next hlt => exact ⟨n, hlt, List.mem_singleton.mp h⟩
      · next hge =>
          rcases List.mem_append.mp h with hfront | hlast
          · exact ih (n / 16) (by omega) hfront
          · exact ⟨n % 16, Nat.mod_lt n (by decide), List.mem_singleton.mp hlast⟩

/-- A hexadecimal digit breaks no line, in either case. -/
theorem isInner_of_mem_toDigits {n : Nat} {c : Char} (h : c ∈ Nat.toDigits 16 n) :
    isInner c = true ∧ isInner c.toUpper = true := by
  have hdigits : ∀ d < 16, isInner (Nat.digitChar d) = true ∧
      isInner (Nat.digitChar d).toUpper = true := by decide
  obtain ⟨d, hd, rfl⟩ := exists_digitChar_of_mem_toDigits h
  exact hdigits d hd

/-- No character of a quoted character breaks the line. -/
theorem all_isInner_quotedChar (c : Char) : (quotedChar c).all isInner = true := by
  unfold quotedChar
  split
  · rfl
  · rfl
  · rfl
  · rfl
  · rfl
  · rfl
  · next hreturn hfeed _ _ =>
      split
      · simpa [isInner] using ⟨hfeed, hreturn⟩
      · have hdigits : (hexDigits c.toNat).all isInner = true := by
          rw [List.all_eq_true]
          exact fun d hd => (isInner_of_mem_toDigits hd).1
        rw [List.all_append, List.all_append, hdigits]
        rfl

/-- A quoted text is one line, whatever is quoted. -/
@[simp] theorem isLine_quoted (s : String) : isLine (quoted s) = true := by
  have hquoted : (s.toList.flatMap quotedChar).all isInner = true := by
    rw [List.all_flatMap, List.all_eq_true]
    exact fun c _ => all_isInner_quotedChar c
  rw [isLine, quoted, String.toList_ofList, List.all_append, List.all_cons, hquoted]
  rfl

/-- A quoted value that may be missing is one line. -/
@[simp] theorem isLine_quotedOption (given : Option String) : isLine (quotedOption given) = true := by
  cases given with
  | none => rfl
  | some s => simp +decide [quotedOption]

end Text

/-- A quoted path is one line, whatever its bytes. -/
@[simp] theorem UnixPath.isLine_quoted (path : UnixPath) : Text.isLine path.quoted = true := by
  have hbyte : ∀ b : UInt8, (quotedByte b).all Text.isInner = true := by
    intro b
    have hdigits : ((Nat.toDigits 16 b.toNat).map Char.toUpper).all Text.isInner = true := by
      rw [List.all_map, List.all_eq_true]
      exact fun d hd => (Text.isInner_of_mem_toDigits hd).2
    simp [quotedByte, List.all_append, hdigits, Text.isInner]
  unfold quoted
  split
  · exact Text.isLine_quoted _
  · rw [Text.isLine, String.toList_ofList, List.all_append, List.all_cons]
    refine Bool.and_eq_true_iff.mpr ⟨Bool.and_eq_true_iff.mpr ⟨rfl, ?_⟩, rfl⟩
    rw [List.all_flatMap, List.all_eq_true]
    intro piece _
    cases piece with
    | char c => exact Text.all_isInner_quotedChar c
    | broken bytes =>
        rw [List.all_flatMap, List.all_eq_true]
        exact fun b _ => hbyte b

/-! ### Paragraphs -/

namespace Text

/-- The text has no empty line, and no carriage return. -/
def IsParagraph (s : String) : Prop :=
  '\r' ∉ s.toList ∧ ∀ line ∈ lines s, line ≠ ""

/-- A line that is not empty is a paragraph. -/
theorem isParagraph_of_isLine {s : String} (h : isLine s = true) (hne : s ≠ "") :
    IsParagraph s := by
  obtain ⟨hfeed, hreturn⟩ := isLine_iff.mp h
  refine ⟨hreturn, ?_⟩
  rw [lines_eq_singleton hfeed]
  intro line hline
  rwa [List.mem_singleton.mp hline]

/-- A paragraph stays one behind a lead on its first line. -/
theorem IsParagraph.append {lead s : String} (hlead : isLine lead = true) (hs : IsParagraph s) :
    IsParagraph (lead ++ s) := by
  obtain ⟨hfeed, hreturn⟩ := isLine_iff.mp hlead
  constructor
  · rw [String.toList_append, List.mem_append, not_or]
    exact ⟨hreturn, hs.1⟩
  · obtain ⟨first, rest, hlines, hjoined⟩ := exists_lines_append hfeed s
    have hall := hs.2
    rw [hlines, List.forall_mem_cons] at hall
    rw [hjoined, List.forall_mem_cons]
    refine ⟨?_, hall.2⟩
    intro hempty
    exact hall.1 (String.append_eq_empty_iff.mp hempty).2

/-- Lines that are not empty make a paragraph. -/
theorem isParagraph_intercalate {texts : List String} (hne : texts ≠ [])
    (h : ∀ text ∈ texts, isLine text = true ∧ text ≠ "") :
    IsParagraph ("\n".intercalate texts) := by
  have hlines : lines ("\n".intercalate texts) = texts := by
    refine lines_intercalate_break hne fun text htext => ?_
    exact (isLine_iff.mp (h text htext).1).1
  constructor
  · exact not_mem_intercalate (by decide) fun text htext => (isLine_iff.mp (h text htext).1).2
  · rw [hlines]
    exact fun text htext => (h text htext).2

end Text

/-! ### Issues -/

/-- An issue of the field itself, told in one line. -/
def IsToldInLine (entry : String × FieldIssues) : Prop :=
  Text.isLine entry.1 = true ∧
    ∃ issue : Issue, entry.2 = .own [issue] ∧ Text.isLine issue.text = true

/-- The message of issues that are told in lines is a paragraph. -/
theorem Issues.isParagraph_message {issues : Issues} (hne : issues ≠ [])
    (h : ∀ entry ∈ issues, IsToldInLine entry) : Text.IsParagraph issues.message := by
  have hlines : ∀ line ∈ Issues.linesUnder "" issues, Text.isLine line = true ∧ line ≠ "" := by
    clear hne
    induction issues with
    | nil => simp [Issues.linesUnder]
    | cons entry rest ih =>
        obtain ⟨⟨hfield, issue, hown, hissue⟩, hrest⟩ := List.forall_mem_cons.mp h
        obtain ⟨field, found⟩ := entry
        cases hown
        intro line hline
        rw [Issues.linesUnder, List.mem_append] at hline
        rcases hline with hline | hline
        · simp only [FieldIssues.lines, List.map_singleton, String.intercalate_singleton,
            List.mem_singleton] at hline
          subst hline
          constructor
          · simp +decide [hfield, hissue]
          · simp
        · exact ih hrest line hline
  refine Text.isParagraph_intercalate ?_ hlines
  cases issues with
  | nil => exact absurd rfl hne
  | cons entry rest =>
      obtain ⟨-, issue, hown, -⟩ := h entry List.mem_cons_self
      obtain ⟨field, found⟩ := entry
      cases hown
      simp [Issues.linesUnder, FieldIssues.lines]

namespace Check

/-- Whatever a rule finds is told in one line. -/
def TellsLine (finding : Option Issue) : Prop :=
  ∀ issue, finding = some issue → Text.isLine issue.text = true

theorem tellsLine_none : TellsLine none := by
  intro issue h
  cases h

theorem tellsLine_some {issue : Issue} (h : Text.isLine issue.text = true) :
    TellsLine (some issue) := by
  intro found hfound
  cases hfound
  exact h

/-- A check that looks for one thing and then for another tells a line if both do. -/
theorem tellsLine_ite {passes : Prop} [Decidable passes] {finding other : Option Issue}
    (h : TellsLine finding) (h' : TellsLine other) :
    TellsLine (if passes then finding else other) := by
  split
  · exact h
  · exact h'

/-- Titles are quoted before they are told. -/
theorem tellsLine_title (name : String) : TellsLine (title name) := by
  refine tellsLine_ite tellsLine_none (tellsLine_ite (tellsLine_some rfl) (tellsLine_some ?_))
  simp +decide [Issue.text]

theorem tellsLine_interval (text : String) : TellsLine (interval text) :=
  tellsLine_ite tellsLine_none (tellsLine_some (by simp +decide [Issue.text]))

theorem tellsLine_keyserver (address : String) : TellsLine (keyserver address) :=
  tellsLine_ite tellsLine_none (tellsLine_some (by simp +decide [Issue.text]))

theorem tellsLine_absolute (path : UnixPath) : TellsLine (absolute path) :=
  tellsLine_ite tellsLine_none (tellsLine_some (by simp +decide [Issue.text]))

theorem tellsLine_allAbsolute (paths : List UnixPath) : TellsLine (allAbsolute paths) := by
  intro issue h
  obtain ⟨path, -, hpath⟩ := List.exists_of_findSome?_eq_some h
  exact tellsLine_absolute path issue hpath

/-- Key ids are told by the one that is wrong, quoted. -/
theorem tellsLine_keyIds (ids : List String) : TellsLine (keyIds ids) := by
  intro issue h
  obtain ⟨id, -, rfl⟩ := Option.map_eq_some_iff.mp h
  simp +decide [Issue.text]

/-- A check of a value that may be missing tells a line if the check of the value does. -/
theorem tellsLine_bind {α : Type} {rule : α → Option Issue} (h : ∀ a, TellsLine (rule a))
    (given : Option α) : TellsLine (given.bind rule) := by
  intro issue hissue
  obtain ⟨a, -, ha⟩ := Option.bind_eq_some_iff.mp hissue
  exact h a issue ha

end Check

/-- What checks report is what they find. -/
theorem Issues.exists_check_of_mem_collect {checks : List FieldCheck} {issues : Issues}
    (h : Issues.collect checks = .ok issues) {entry : String × FieldIssues} (hentry : entry ∈ issues) :
    ∃ check ∈ checks, ∃ issue params, check.finding = some issue ∧
      entry = (check.field, .own [{ issue with params := params }]) := by
  fun_induction Issues.collect checks generalizing issues with
  | case1 =>
      cases h
      cases hentry
  | case2 field value rest ih =>
      obtain ⟨check, hcheck, hfound⟩ := ih h hentry
      exact ⟨check, List.mem_cons_of_mem _ hcheck, hfound⟩
  | case3 => cases h
  | case4 field issue value rest ih =>
      cases hrest : Issues.collect rest with
      | error failure =>
          rw [hrest] at h
          cases h
      | ok found =>
          rw [hrest] at h
          cases h
          rcases List.mem_cons.mp hentry with rfl | hentry
          · exact ⟨_, List.mem_cons_self, issue, _, rfl, rfl⟩
          · obtain ⟨check, hcheck, hfound⟩ := ih hrest hentry
            exact ⟨check, List.mem_cons_of_mem _ hcheck, hfound⟩

namespace ResolvedJob

variable {job : ResolvedJob}

/-- Every check of a job names its field in a line and tells a line. -/
theorem tellsLine_of_mem_fieldChecks {check : FieldCheck} (h : check ∈ job.fieldChecks) :
    Text.isLine check.field = true ∧ Check.TellsLine check.finding := by
  have hfields : (job.fieldChecks.map (·.field)).all Text.isLine = true := by
    simp only [fieldChecks, List.map_cons, List.map_nil]
    rfl
  refine ⟨List.all_eq_true.mp hfields _ (List.mem_map_of_mem h), ?_⟩
  simp only [fieldChecks, List.mem_cons, List.not_mem_nil, or_false] at h
  rcases h with rfl | rfl | rfl | rfl | rfl | rfl | rfl | rfl
  · exact Check.tellsLine_title _
  · exact Check.tellsLine_allAbsolute _
  · exact Check.tellsLine_bind Check.tellsLine_absolute _
  · exact Check.tellsLine_keyIds _
  · exact Check.tellsLine_interval _
  · exact Check.tellsLine_bind Check.tellsLine_interval _
  · exact Check.tellsLine_absolute _
  · exact Check.tellsLine_keyserver _

/-- What the checks of a job collect is told in lines. -/
theorem isToldInLine_of_collect {issues : Issues}
    (h : Issues.collect job.fieldChecks = .ok issues) : ∀ entry ∈ issues, IsToldInLine entry := by
  intro entry hentry
  obtain ⟨check, hcheck, issue, params, hfinding, rfl⟩ := Issues.exists_check_of_mem_collect h hentry
  obtain ⟨hfield, htold⟩ := tellsLine_of_mem_fieldChecks hcheck
  exact ⟨hfield, _, rfl, htold issue hfinding⟩

/-- The issues of a job that is to be removed are told in lines. -/
theorem isToldInLine_of_removalIssues : ∀ entry ∈ job.removalIssues, IsToldInLine entry := by
  have hfound : ∀ (field : String) (finding : Option Issue), Text.isLine field = true →
      Check.TellsLine finding →
      ∀ entry ∈ finding.toList.map fun issue => (field, FieldIssues.own [issue]),
        IsToldInLine entry := by
    intro field finding hfield htold entry hentry
    obtain ⟨issue, hissue, rfl⟩ := List.mem_map.mp hentry
    exact ⟨hfield, issue, rfl, htold issue (Option.mem_toList.mp hissue)⟩
  intro entry hentry
  rcases List.mem_append.mp hentry with hentry | hentry
  · exact hfound "title" _ rfl (Check.tellsLine_title _) entry hentry
  · exact hfound "script_path" _ rfl (Check.tellsLine_absolute _) entry hentry

/-! ### Rejections -/

/-- A rule on the whole job is named in one line. -/
theorem isParagraph_of_structuralCause {cause : Cause} (h : job.structuralCause = some cause) :
    Text.IsParagraph cause.message := by
  have hprovider : ∀ given, Text.isLine (Provider.quotedOption given) = true := by
    rintro (_ | _ | _) <;> rfl
  have hline : Text.isLine cause.message = true ∧ cause.message ≠ "" := by
    cases cause with
    | conflictingDestination => simp +decide [Cause.message, hprovider]
    | missingDestination => decide
    | missingSource => decide
    | missingCredentials => simp +decide [Cause.message]
    | missingHostIdentifier => simp +decide [Cause.message]
    | invalidFields issues => exact absurd h (structuralCause_ne_invalidFields job issues)
  exact Text.isParagraph_of_isLine hline.1 hline.2

/-- What the checks reject a job for: a rule on the whole job, or fields of which some
is at fault. -/
theorem cause_of_check_eq_rejected {rejection : Rejection}
    (h : job.check = .error (.rejected rejection)) :
    job.structuralCause = some rejection.cause ∨
    ∃ issues, rejection.cause = .invalidFields issues ∧ issues ≠ [] ∧
      (issues = job.removalIssues ∨ Issues.collect job.fieldChecks = .ok issues) := by
  have hverdict : ∀ issues : Issues,
      (if issues.isEmpty then .ok ()
        else .error (.rejected ⟨job.title, .invalidFields issues⟩) : Except Failure Unit) =
          .error (.rejected rejection) →
      rejection.cause = .invalidFields issues ∧ issues ≠ [] := by
    intro issues heq
    split at heq
    · cases heq
    · next hne =>
        cases heq
        exact ⟨rfl, by simpa using hne⟩
  cases hensure : job.ensure with
  | absent =>
      rw [check_of_absent hensure] at h
      obtain ⟨hcause, hne⟩ := hverdict _ h
      exact Or.inr ⟨_, hcause, hne, Or.inl rfl⟩
  | present =>
      cases hcause : job.structuralCause with
      | some cause =>
          simp only [check, hensure, hcause] at h
          cases h
          exact Or.inl rfl
      | none =>
          cases hfound : Issues.collect job.fieldChecks with
          | error failure =>
              simp only [check, hensure, hcause, hfound] at h
              cases h
          | ok issues =>
              simp only [check, hensure, hcause, hfound] at h
              obtain ⟨hcause, hne⟩ := hverdict issues h
              exact Or.inr ⟨issues, hcause, hne, Or.inr rfl⟩

/-- **Every rejection is told without an empty line**, whatever the fields of the job
hold. -/
theorem isParagraph_of_compile {rejection : Rejection}
    (h : job.compile.value = .error (.rejected rejection)) :
    Text.IsParagraph rejection.message := by
  have hcause : Text.IsParagraph rejection.cause.message := by
    rcases cause_of_check_eq_rejected (check_of_compile_eq_error h) with
      hcause | ⟨issues, hcause, hne, rfl | hcollect⟩
    · exact isParagraph_of_structuralCause hcause
    · rw [hcause]
      exact Issues.isParagraph_message hne isToldInLine_of_removalIssues
    · rw [hcause]
      exact Issues.isParagraph_message hne (isToldInLine_of_collect hcollect)
  exact .append (by simp +decide) hcause

end ResolvedJob

end BackupPlan
