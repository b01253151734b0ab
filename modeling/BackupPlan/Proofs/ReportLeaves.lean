import BackupPlan.Proofs.ReportLines

/-!
# The leaves of a report

Reports are gathered from many places and nest: a list may hold lists, empty ones too, and a
report below a heading may hold a list.  When they are gathered, lists are opened and nothing
else is; what stands below a heading stays whole.  Where a leaf stands is told by its place,
the numbers of the reports through which it is reached, and places are ordered as the words
of a dictionary are: that is from left to right.

* `Report.list_induction` — induction on the lists of a report;
* `Report.exists_enumerates_leaves` — the leaves are found in order, each once;
* `Report.Regroups.flatMap_leaves` — no regrouping changes them;
* `gathered_reports_are_their_leaves` — what is gathered, and gathered again.
-/

namespace BackupPlan

namespace Report

/-- A report is a list of reports. -/
def IsList (report : Report) : Prop :=
  ∃ reports, report = several reports

/-- **Induction on the lists of a report**: what holds of all reports that are no lists, and
of a list if it holds of its reports, holds of all.  A report below a heading counts as no
list, whatever stands there. -/
@[elab_as_elim]
theorem list_induction {motive : Report → Prop}
    (single : ∀ report, ¬ report.IsList → motive report)
    (list : ∀ reports, (∀ report ∈ reports, motive report) → motive (several reports)) :
    ∀ report, motive report
  | several reports => list reports fun report _ => list_induction single list report
  | file kind shown => single _ (by simp [IsList])
  | unavailable shown => single _ (by simp [IsList])
  | document fault => single _ (by simp [IsList])
  | unwritable shown => single _ (by simp [IsList])
  | issues found => single _ (by simp [IsList])
  | job rejection => single _ (by simp [IsList])
  | under heading inner => single _ (by simp [IsList])

/-! ### Leaves -/

/-- The leaves of several reports are those of each, in order. -/
theorem leavesOf_eq_flatMap (reports : List Report) :
    leavesOf reports = reports.flatMap leaves := by
  induction reports with
  | nil => rfl
  | cons report rest ih => rw [leavesOf, ih, List.flatMap_cons]

/-- A list of reports has the leaves of each, in order. -/
@[simp] theorem leaves_several (reports : List Report) :
    (several reports).leaves = reports.flatMap leaves := by
  rw [leaves, leavesOf_eq_flatMap]

/-- A report that is no list is its own leaf. -/
theorem leaves_eq_singleton {report : Report} (h : ¬ report.IsList) : report.leaves = [report] := by
  cases report with
  | several reports => exact absurd ⟨reports, rfl⟩ h
  | _ => rfl

/-- No leaf is a list. -/
theorem not_isList_of_mem_leaves {report leaf : Report} (h : leaf ∈ report.leaves) :
    ¬ leaf.IsList := by
  induction report using list_induction with
  | single report hsingle =>
      rw [leaves_eq_singleton hsingle, List.mem_singleton] at h
      rwa [h]
  | list reports ih =>
      rw [leaves_several, List.mem_flatMap] at h
      obtain ⟨report, hmem, hleaf⟩ := h
      exact ih report hmem hleaf

/-- The leaves of leaves are these leaves. -/
theorem flatMap_leaves_leaves (report : Report) : report.leaves.flatMap leaves = report.leaves := by
  rw [← leavesOf_eq_flatMap]
  exact leavesOf_eq_self fun leaf hleaf => leaves_eq_singleton (not_isList_of_mem_leaves hleaf)

/-! ### Places -/

/-- What stands in a report at a place.  A place is a list of numbers: the first one tells
which report of the outermost list is taken, the second one which report of that, and so
on.  Only lists are entered. -/
inductive StandsAt : Report → List Nat → Report → Prop
  | here (report : Report) : StandsAt report [] report
  | inside {reports : List Report} {i : Nat} {report found : Report} {place : List Nat}
      (hmember : reports[i]? = some report) (h : StandsAt report place found) :
      StandsAt (several reports) (i :: place) found

/-- A leaf stands in a report at a place: a report that is no list. -/
def LeafAt (report : Report) (place : List Nat) (leaf : Report) : Prop :=
  StandsAt report place leaf ∧ ¬ leaf.IsList

/-- A report that is no list has its one leaf at the empty place. -/
theorem leafAt_iff_of_not_isList {report : Report} (h : ¬ report.IsList) {place : List Nat}
    {leaf : Report} : report.LeafAt place leaf ↔ place = [] ∧ leaf = report := by
  constructor
  · rintro ⟨hstands, -⟩
    cases hstands with
    | here => exact ⟨rfl, rfl⟩
    | inside => exact absurd ⟨_, rfl⟩ h
  · rintro ⟨rfl, rfl⟩
    exact ⟨.here leaf, h⟩

/-- A place in a list of reports is a position and a place in the report there. -/
theorem leafAt_several_iff {reports : List Report} {place : List Nat} {leaf : Report} :
    (several reports).LeafAt place leaf ↔
      ∃ i report rest, reports[i]? = some report ∧ place = i :: rest ∧ report.LeafAt rest leaf := by
  constructor
  · rintro ⟨hstands, hleaf⟩
    cases hstands with
    | here => exact absurd ⟨reports, rfl⟩ hleaf
    | inside hmember h => exact ⟨_, _, _, hmember, rfl, h, hleaf⟩
  · rintro ⟨i, report, rest, hmember, rfl, hstands, hleaf⟩
    exact ⟨.inside hmember hstands, hleaf⟩

/-! ### Enumerations -/

/-- The entries, places with what stands there, are those of the relation, in the order of
their places, so that none is there twice; what stands there is what was found. -/
structure Enumerates (At : List Nat → Report → Prop) (entries : List (List Nat × Report))
    (found : List Report) : Prop where
  ordered : entries.Pairwise fun entry other => List.Lex (· < ·) entry.1 other.1
  mem_iff : ∀ place leaf, (place, leaf) ∈ entries ↔ At place leaf
  found_eq : found = entries.map Prod.snd

namespace Enumerates

variable {At Before Behind : List Nat → Report → Prop} {entries others : List (List Nat × Report)}
  {found rest : List Report}

/-- Below the `i`-th report of a list the places begin with `i`. -/
theorem inside (i : Nat) (h : Enumerates At entries found) :
    Enumerates (fun place leaf => ∃ rest, place = i :: rest ∧ At rest leaf)
      (entries.map fun entry => (i :: entry.1, entry.2)) found where
  ordered := by
    rw [List.pairwise_map]
    exact h.ordered.imp fun hless => .cons hless
  mem_iff := by
    intro place leaf
    rw [List.mem_map]
    constructor
    · rintro ⟨⟨rest, leaf⟩, hmem, ⟨⟩⟩
      exact ⟨rest, rfl, (h.mem_iff rest leaf).mp hmem⟩
    · rintro ⟨rest, rfl, hleaf⟩
      exact ⟨(rest, leaf), (h.mem_iff rest leaf).mpr hleaf, rfl⟩
  found_eq := by
    rw [h.found_eq, List.map_map]
    rfl

/-- What stands further left comes first. -/
theorem append (h : Enumerates Before entries found) (h' : Enumerates Behind others rest)
    (hless : ∀ entry ∈ entries, ∀ other ∈ others, List.Lex (· < ·) entry.1 other.1)
    (hat : ∀ place leaf, At place leaf ↔ Before place leaf ∨ Behind place leaf) :
    Enumerates At (entries ++ others) (found ++ rest) where
  ordered := List.pairwise_append.mpr ⟨h.ordered, h'.ordered, hless⟩
  mem_iff := by
    intro place leaf
    rw [List.mem_append, h.mem_iff, h'.mem_iff, hat]
  found_eq := by rw [List.map_append, h.found_eq, h'.found_eq]

end Enumerates

/-- A leaf stands in a list of reports that are numbered from `i` on. -/
def LeafFrom (i : Nat) (reports : List Report) (place : List Nat) (leaf : Report) : Prop :=
  ∃ k report rest, reports[k]? = some report ∧ place = (i + k) :: rest ∧ report.LeafAt rest leaf

/-- A place in a list counted from `i` is in its first report or in the list counted from `i +
1`. -/
theorem leafFrom_cons_iff {i : Nat} {report : Report} {reports : List Report} {place : List Nat}
    {leaf : Report} :
    LeafFrom i (report :: reports) place leaf ↔
      (∃ rest, place = i :: rest ∧ report.LeafAt rest leaf) ∨
        LeafFrom (i + 1) reports place leaf := by
  constructor
  · rintro ⟨k, found, rest, hmember, rfl, hleaf⟩
    cases k with
    | zero =>
        cases hmember
        exact Or.inl ⟨rest, rfl, hleaf⟩
    | succ k =>
        have hnumber : i + (k + 1) = i + 1 + k := by omega
        exact Or.inr ⟨k, found, rest, hmember, by rw [hnumber], hleaf⟩
  · rintro (⟨rest, rfl, hleaf⟩ | ⟨k, found, rest, hmember, rfl, hleaf⟩)
    · exact ⟨0, report, rest, rfl, rfl, hleaf⟩
    · have hnumber : i + 1 + k = i + (k + 1) := by omega
      exact ⟨k + 1, found, rest, hmember, by rw [hnumber], hleaf⟩

/-- The leaves of a list are found in order if those of its reports are. -/
theorem exists_enumerates_leafFrom {reports : List Report}
    (h : ∀ report ∈ reports, ∃ entries, Enumerates report.LeafAt entries report.leaves) (i : Nat) :
    ∃ entries, Enumerates (LeafFrom i reports) entries (reports.flatMap leaves) := by
  induction reports generalizing i with
  | nil =>
      have hnone : ∀ place leaf, ¬ LeafFrom i [] place leaf := by
        rintro place leaf ⟨k, report, rest, hmember, -⟩
        simp at hmember
      exact ⟨[], .nil, fun place leaf => by simp [hnone], rfl⟩
  | cons report reports ih =>
      obtain ⟨hfirst, hrest⟩ := List.forall_mem_cons.mp h
      obtain ⟨entries, hentries⟩ := hfirst
      obtain ⟨others, hothers⟩ := ih hrest (i + 1)
      refine ⟨_, (hentries.inside i).append hothers ?_ fun _ _ => leafFrom_cons_iff⟩
      -- Behind the `i`-th report every place begins with a greater number.
      rintro entry hentry ⟨place, leaf⟩ hother
      obtain ⟨below, -, rfl⟩ := List.mem_map.mp hentry
      obtain ⟨k, found, rest, -, rfl, -⟩ := (hothers.mem_iff place leaf).mp hother
      exact .rel (by omega)

/-- **The leaves of a report are found in order**, each once. -/
theorem exists_enumerates_leaves (report : Report) :
    ∃ entries, Enumerates report.LeafAt entries report.leaves := by
  induction report using list_induction with
  | single report hsingle =>
      refine ⟨[([], report)], List.pairwise_singleton _ _, fun place leaf => ?_, ?_⟩
      · rw [leafAt_iff_of_not_isList hsingle, List.mem_singleton, Prod.mk.injEq]
      · rw [leaves_eq_singleton hsingle]
        rfl
  | list reports ih =>
      have hat : LeafFrom 0 reports = (several reports).LeafAt := by
        funext place leaf
        simp only [LeafFrom, leafAt_several_iff, Nat.zero_add]
      rw [leaves_several, ← hat]
      exact exists_enumerates_leafFrom ih 0

/-! ### Regrouping -/

/-- Reports are regrouped: taken one by one in their order, each is kept or goes, with
neighbours, into a list.  Lists may be put into lists, and empty ones anywhere. -/
inductive Regroups : List Report → List Report → Prop
  | nil : Regroups [] []
  | keep (report : Report) {reports regrouped : List Report} (h : Regroups reports regrouped) :
      Regroups (report :: reports) (report :: regrouped)
  | group {front grouped rest regrouped : List Report} (hfront : Regroups front grouped)
      (hrest : Regroups rest regrouped) : Regroups (front ++ rest) (several grouped :: regrouped)

/-- **No regrouping changes the leaves.** -/
theorem Regroups.flatMap_leaves {reports regrouped : List Report} (h : Regroups reports regrouped) :
    regrouped.flatMap leaves = reports.flatMap leaves := by
  induction h with
  | nil => rfl
  | keep report h ih => rw [List.flatMap_cons, List.flatMap_cons, ih]
  | group hfront hrest ihfront ihrest =>
      rw [List.flatMap_cons, leaves_several, List.flatMap_append, ihfront, ihrest]

/-- Regrouping leaves no list empty that had a report. -/
theorem Regroups.ne_nil {reports regrouped : List Report} (h : Regroups reports regrouped)
    (hne : reports ≠ []) : regrouped ≠ [] := by
  cases h with
  | nil => exact hne
  | keep => exact List.cons_ne_nil _ _
  | group => exact List.cons_ne_nil _ _

/-! ### Gathering -/

/-- Gathering reports, one at least, fails with the list of their leaves. -/
theorem gather_of_ne_nil {reports : List Report} (h : reports ≠ []) :
    gather reports = .error (several (reports.flatMap leaves)) := by
  cases reports with
  | nil => exact absurd rfl h
  | cons report rest =>
      rw [← leavesOf_eq_flatMap]
      rfl

/-- Gathering succeeds exactly if there is nothing to report. -/
theorem gather_eq_ok_iff {reports : List Report} : gather reports = .ok () ↔ reports = [] := by
  constructor
  · intro hok
    cases reports with
    | nil => rfl
    | cons report rest =>
        rw [gather_of_ne_nil (List.cons_ne_nil report rest)] at hok
        cases hok
  · rintro rfl
    rfl

/-- **Gathered reports are their leaves.**  The leaves of a report are the reports in it that
are no lists and are reached through lists only, each once and from left to right.
Gathering succeeds exactly if there are no reports, and otherwise fails with the list of
all their leaves; no regrouping of the reports makes a difference, and neither does gathering
once more what was gathered, unless that is nothing. -/
theorem gathered_reports_are_their_leaves :
    (∀ report : Report, (∃ entries, Enumerates report.LeafAt entries report.leaves) ∧
      ∀ leaf ∈ report.leaves, ¬ leaf.IsList) ∧
    ∀ reports : List Report,
      (gather reports = .ok () ↔ reports = []) ∧
      (reports ≠ [] → gather reports = .error (several (reports.flatMap leaves)) ∧
        ∀ regrouped, Regroups reports regrouped → gather regrouped = gather reports) ∧
      ∀ failure, gather reports = .error failure →
        failure = several failure.leaves ∧
        (failure.leaves ≠ [] → gather failure.leaves = .error failure) := by
  refine ⟨fun report => ⟨exists_enumerates_leaves report, fun leaf => not_isList_of_mem_leaves⟩,
    fun reports => ⟨gather_eq_ok_iff, fun hne => ⟨gather_of_ne_nil hne, ?_⟩, ?_⟩⟩
  · intro regrouped hregrouped
    rw [gather_of_ne_nil hne, gather_of_ne_nil (hregrouped.ne_nil hne), hregrouped.flatMap_leaves]
  · intro failure hfailure
    have hne : reports ≠ [] := by
      rintro rfl
      cases hfailure
    rw [gather_of_ne_nil hne, ← leaves_several] at hfailure
    cases hfailure
    have hgathered : (several (several reports).leaves).leaves = (several reports).leaves := by
      rw [leaves_several, flatMap_leaves_leaves]
    rw [hgathered]
    refine ⟨rfl, fun hsome => ?_⟩
    rw [gather_of_ne_nil hsome, flatMap_leaves_leaves]

/-- Three reports, of which one is an empty list and one holds a list below its heading. -/
def flatReports : List Report :=
  [unavailable "a", several [], under "b" (several [unavailable "c", unavailable "d"])]

/-- The same reports with lists put around them and between them. -/
def nestedReports : List Report :=
  [several [unavailable "a", several [several []]], several [],
    under "b" (several [unavailable "c", unavailable "d"])]

theorem nestedReports_are_gathered_as_flatReports :
    flatReports ≠ [] ∧ Regroups flatReports nestedReports ∧
    gather nestedReports = gather flatReports ∧
    ∃ failure, gather flatReports = .error failure ∧ failure.leaves ≠ [] ∧
      failure.leaves =
        [unavailable "a", under "b" (several [unavailable "c", unavailable "d"])] ∧
      gather failure.leaves = .error failure := by
  have hne : flatReports ≠ [] := List.cons_ne_nil _ _
  have hregroups : Regroups flatReports nestedReports :=
    .group (.keep _ (.group (.keep _ .nil) .nil)) (.group .nil (.keep _ .nil))
  obtain ⟨-, hgather⟩ := gathered_reports_are_their_leaves
  obtain ⟨-, hsome, hagain⟩ := hgather flatReports
  obtain ⟨hfailure, hregrouped⟩ := hsome hne
  have hleaves : (several (flatReports.flatMap leaves)).leaves ≠ [] := List.cons_ne_nil _ _
  exact ⟨hne, hregroups, hregrouped nestedReports hregroups, _, hfailure, hleaves, rfl,
    (hagain _ hfailure).2 hleaves⟩

end Report

end BackupPlan
