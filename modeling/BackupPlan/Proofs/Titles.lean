import BackupPlan.Config.Load
import BackupPlan.Proofs.Acceptance
import Mathlib.Data.List.Nodup

/-!
# Titles that are declared more than once

The check of a configuration does not count titles.  It joins the repeated ones
to a text and asks whether that text is empty, so the empty title, where no
other is repeated, escapes it.

* `listsRepeated_duplicates` — the repeated titles, each once, in the order of their
  second occurrences;
* `Check.titles_eq_none_iff` — what the check lets pass;
* `Config.issues_cases` — the configurations that cannot be reported on, and the
  issues of the others;
* `repeated_titles_are_reported` — the verdict on every configuration, and what
  it means for those that are loaded.
-/

namespace BackupPlan

/-! ### Second occurrences -/

/-- At position `i` of a list an element stands for the second time, counting
what stands before the list. -/
def StandsSecondAt (before xs : List String) (x : String) (i : Nat) : Prop :=
  xs[i]? = some x ∧ (before ++ xs.take i).count x = 1

/-- Behind the head of a list the positions are counted from there, and the head
stands before them. -/
theorem standsSecondAt_succ {before rest : List String} {y x : String} {i : Nat} :
    StandsSecondAt before (y :: rest) x (i + 1) ↔ StandsSecondAt (before ++ [y]) rest x i := by
  simp [StandsSecondAt]

/-- An element stands for the second time only once. -/
theorem StandsSecondAt.unique {before xs : List String} {x : String} {i j : Nat}
    (hi : StandsSecondAt before xs x i) (hj : StandsSecondAt before xs x j) : i = j := by
  have hlt : ∀ {i j}, StandsSecondAt before xs x i → StandsSecondAt before xs x j → ¬ i < j := by
    rintro i j ⟨hi, hcount⟩ ⟨-, hcount'⟩ hij
    have hprefix : (xs.take (i + 1)).count x ≤ (xs.take j).count x :=
      ((List.take_prefix_take_left hij).sublist).count_le x
    rw [List.take_add_one, hi] at hprefix
    simp only [List.count_append, Option.toList_some, List.count_singleton_self]
      at hcount hcount' hprefix
    omega
  have := hlt hi hj
  have := hlt hj hi
  omega

/-- The elements that are found, given what stands before the list: those that
stand at most once before it, and twice in all. -/
theorem mem_secondOccurrences_iff {before xs : List String} {x : String} :
    x ∈ secondOccurrences before xs ↔
      before.count x ≤ 1 ∧ 2 ≤ before.count x + xs.count x := by
  induction xs generalizing before with
  | nil =>
      simp only [secondOccurrences, List.not_mem_nil, List.count_nil, false_iff]
      omega
  | cons y rest ih =>
      -- What stands before the rest now ends in the head: its count moves there.
      rw [secondOccurrences, List.mem_append, ih]
      by_cases hyx : y = x
      · subst hyx
        simp only [List.count_append, List.count_cons_self]
        split <;> simp <;> omega
      · have hnot : x ∉ (if before.count y = 1 then [y] else []) := by
          split <;> simp [Ne.symm hyx]
        simp [hnot, List.count_append, hyx]

/-- No element is found twice. -/
theorem nodup_secondOccurrences (before xs : List String) :
    (secondOccurrences before xs).Nodup := by
  induction xs generalizing before with
  | nil => exact List.nodup_nil
  | cons y rest ih =>
      rw [secondOccurrences]
      split
      next hcount =>
        refine List.nodup_cons.mpr ⟨?_, ih _⟩
        intro hmem
        have hbefore := (mem_secondOccurrences_iff.mp hmem).1
        simp only [List.count_append, List.count_singleton_self] at hbefore
        omega
      · exact ih _

/-- Every element that is found stands for the second time at some position. -/
theorem exists_standsSecondAt {before xs : List String} {x : String}
    (h : x ∈ secondOccurrences before xs) : ∃ i, StandsSecondAt before xs x i := by
  induction xs generalizing before with
  | nil => cases h
  | cons y rest ih =>
      rw [secondOccurrences] at h
      rcases List.mem_append.mp h with hhead | hrest
      · split at hhead
        next hcount =>
          rw [List.mem_singleton.mp hhead]
          exact ⟨0, rfl, by simpa using hcount⟩
        · cases hhead
      · obtain ⟨i, hi⟩ := ih hrest
        exact ⟨i + 1, standsSecondAt_succ.mpr hi⟩

/-- The elements are found in the order of their second occurrences. -/
theorem pairwise_secondOccurrences (before xs : List String) :
    (secondOccurrences before xs).Pairwise fun x y =>
      ∃ i j, i < j ∧ StandsSecondAt before xs x i ∧ StandsSecondAt before xs y j := by
  induction xs generalizing before with
  | nil => exact .nil
  | cons z rest ih =>
      have hrest : (secondOccurrences (before ++ [z]) rest).Pairwise fun x y =>
          ∃ i j, i < j ∧ StandsSecondAt before (z :: rest) x i ∧
            StandsSecondAt before (z :: rest) y j := by
        refine (ih (before ++ [z])).imp ?_
        rintro x y ⟨i, j, hij, hx, hy⟩
        exact ⟨i + 1, j + 1, by omega, standsSecondAt_succ.mpr hx, standsSecondAt_succ.mpr hy⟩
      rw [secondOccurrences]
      split
      next hcount =>
        refine .cons (fun y hy => ?_) hrest
        obtain ⟨j, hj⟩ := exists_standsSecondAt hy
        exact ⟨0, j + 1, by omega, ⟨rfl, by simpa using hcount⟩, standsSecondAt_succ.mpr hj⟩
      · exact hrest

/-- The repeated elements of a list are those that stand in it at least twice. -/
theorem mem_duplicates_iff {xs : List String} {x : String} :
    x ∈ duplicates xs ↔ 2 ≤ xs.count x := by
  rw [duplicates, mem_secondOccurrences_iff]
  simp

/-- The titles that are told as repeated: each that stands in the list at least
twice, once, and in the order of their second occurrences. -/
structure ListsRepeated (titles repeated : List String) : Prop where
  mem_iff : ∀ title, title ∈ repeated ↔ 2 ≤ titles.count title
  nodup : repeated.Nodup
  inOrder : repeated.Pairwise fun x y =>
    ∃ i j, i < j ∧ StandsSecondAt [] titles x i ∧ StandsSecondAt [] titles y j

/-- The list of duplicates names each repeated title once, where it is first repeated. -/
theorem listsRepeated_duplicates (titles : List String) :
    ListsRepeated titles (duplicates titles) where
  mem_iff _ := mem_duplicates_iff
  nodup := nodup_secondOccurrences [] titles
  inOrder := pairwise_secondOccurrences [] titles

example : duplicates ["etc", "db", "etc", "db", "etc"] = ["etc", "db"] := by decide

/-! ### The check of the titles -/

/-- Texts joined by a separator come to nothing only if there is no text, or a
single empty one. -/
theorem intercalate_eq_empty_iff {separator : String} (h : separator ≠ "") {texts : List String} :
    separator.intercalate texts = "" ↔ texts = [] ∨ texts = [""] := by
  match texts with
  | [] => simp
  | [text] => simp
  | first :: second :: rest => simp [String.intercalate_cons_cons, h]

/-- **What the check lets pass**: titles of which none but the empty one is
repeated. -/
theorem Check.titles_eq_none_iff {titles : List String} :
    Check.titles titles = none ↔ ∀ title, 2 ≤ titles.count title → title = "" := by
  have hnone : Check.titles titles = none ↔ ", ".intercalate (duplicates titles) = "" := by
    simp [Check.titles]
  rw [hnone, intercalate_eq_empty_iff (by decide)]
  constructor
  · intro h title htitle
    have hmem := mem_duplicates_iff.mpr htitle
    rcases h with hnil | hempty
    · rw [hnil] at hmem
      cases hmem
    · rw [hempty] at hmem
      exact List.mem_singleton.mp hmem
  · intro h
    have hempty : ∀ title ∈ duplicates titles, title = "" :=
      fun title htitle => h title (mem_duplicates_iff.mp htitle)
    have hnodup : (duplicates titles).Nodup := nodup_secondOccurrences [] titles
    rw [List.eq_replicate_of_mem hempty] at hnodup ⊢
    have hlength := List.nodup_replicate.mp hnodup
    rcases Nat.le_one_iff_eq_zero_or_eq_one.mp hlength with hzero | hone
    · rw [hzero]
      exact Or.inl rfl
    · rw [hone]
      exact Or.inr rfl

/-- What the check finds lists the repeated titles. -/
theorem Check.message_of_titles {titles : List String} {issue : Issue}
    (h : Check.titles titles = some issue) :
    ∃ repeated, ListsRepeated titles repeated ∧ issue.code = "DuplicateJobTitle" ∧
      issue.message =
        some ("job titles declared more than once: " ++ ", ".intercalate repeated) := by
  refine ⟨duplicates titles, listsRepeated_duplicates titles, ?_⟩
  simp only [Check.titles, Option.ite_none_left_eq_some, Option.some.injEq] at h
  obtain ⟨-, rfl⟩ := h
  exact ⟨rfl, rfl⟩

/-! ### Configurations -/

/-- A single check finds nothing, or cannot be reported, or reports its finding with
the value at fault. -/
theorem Issues.collect_singleton_cases (check : FieldCheck) :
    (check.finding = none ∧ Issues.collect [check] = .ok []) ∨
    (check.IsUnreportable ∧ Issues.collect [check] = .error .mk) ∨
    ∃ issue value, check.finding = some issue ∧ check.value = some value ∧
      Issues.collect [check] = .ok [(check.field,
        .own [{ issue with params := issue.params ++ [("value", value)] }])] := by
  obtain ⟨field, finding, value⟩ := check
  cases finding with
  | none => exact Or.inl ⟨rfl, rfl⟩
  | some issue =>
      cases value with
      | none => exact Or.inr (Or.inl ⟨⟨by simp, rfl⟩, rfl⟩)
      | some value => exact Or.inr (Or.inr ⟨issue, value, rfl, rfl, rfl⟩)

namespace Config

/-- The titles of the jobs, in the order of their declaration. -/
def titles (config : Config) : List String :=
  config.jobs.map (·.title)

/-- A title other than the empty one is declared more than once. -/
def RepeatsTitle (config : Config) : Prop :=
  ∃ title, title ≠ "" ∧ 2 ≤ config.titles.count title

/-- Nothing can be reported on the configuration: a value at fault is, or holds, a
path that is no text. -/
def IsUnreportable (config : Config) : Prop :=
  (config.defaults.spoolDir.isAbsolute = false ∧ config.defaults.spoolDir.toText? = none) ∨
  (config.RepeatsTitle ∧ ∃ job ∈ config.jobs, job.toJson? = none)

variable {config : Config}

/-- The titles of the jobs pass their check exactly if none is repeated, the empty one apart. -/
theorem titles_finding_eq_none_iff :
    Check.titles (config.jobs.map (·.title)) = none ↔ ¬ config.RepeatsTitle := by
  rw [Check.titles_eq_none_iff, RepeatsTitle]
  simp only [not_exists, not_and, titles]
  exact ⟨fun h title hne htwice => hne (h title htwice),
    fun h title htwice => by_contra fun hne => h title hne htwice⟩

/-- What is wrong with the defaults cannot be reported exactly if the directory of
the scripts is a relative path and no text. -/
theorem defaults_issues_eq_error_iff :
    config.defaults.issues = .error .mk ↔
      config.defaults.spoolDir.isAbsolute = false ∧ config.defaults.spoolDir.toText? = none := by
  rw [Defaults.issues, Issues.collect_eq_error_iff]
  simp [Defaults.fieldChecks, FieldCheck.IsUnreportable, Check.absolute_eq_none_iff,
    UnixPath.toJson?]

/-- The check of the titles, as one of the field `jobs`. -/
def titlesCheck (config : Config) : FieldCheck :=
  ⟨"jobs", Check.titles (config.jobs.map (·.title)),
    (config.jobs.mapM JobSpec.toJson?).map .list⟩

/-- The finding about the titles cannot be shown exactly if there is one and a job cannot be
written. -/
theorem isUnreportable_titlesCheck_iff :
    config.titlesCheck.IsUnreportable ↔
      config.RepeatsTitle ∧ ∃ job ∈ config.jobs, job.toJson? = none := by
  rw [FieldCheck.IsUnreportable, titlesCheck, Ne, titles_finding_eq_none_iff, not_not,
    Option.map_eq_none_iff, mapM_eq_none_iff]

/-- The defaults are checked first, then the titles. -/
theorem issues_eq_bind (config : Config) :
    config.issues = config.defaults.issues.bind fun ofDefaults =>
      (Issues.collect [config.titlesCheck]).bind fun ofJobs =>
        .ok ((if ofDefaults.isEmpty then [] else [("defaults", .nested ofDefaults)]) ++ ofJobs) :=
  rfl

/-- **The issues of a configuration** come from the defaults and from the check of
the titles, and cannot be told if one of the two cannot. -/
theorem issues_cases (config : Config) :
    (config.IsUnreportable ∧ config.issues = .error .mk) ∨
    (¬ config.IsUnreportable ∧ ∃ ofDefaults ofJobs,
      Issues.collect [config.titlesCheck] = .ok ofJobs ∧
      config.issues = .ok (ofDefaults ++ ofJobs) ∧ ∀ entry ∈ ofDefaults, entry.1 = "defaults") := by
  have hjobs : Issues.collect [config.titlesCheck] = .error .mk ↔
      config.RepeatsTitle ∧ ∃ job ∈ config.jobs, job.toJson? = none := by
    rw [Issues.collect_eq_error_iff, ← isUnreportable_titlesCheck_iff]
    simp
  rw [issues_eq_bind, IsUnreportable, ← defaults_issues_eq_error_iff, ← hjobs]
  cases hdefaults : config.defaults.issues with
  | error failure =>
      cases failure
      exact Or.inl ⟨Or.inl rfl, rfl⟩
  | ok ofDefaults =>
      cases hcollect : Issues.collect [config.titlesCheck] with
      | error failure =>
          cases failure
          exact Or.inl ⟨Or.inr rfl, rfl⟩
      | ok ofJobs =>
          refine Or.inr ⟨by simp, _, ofJobs, rfl, rfl, ?_⟩
          intro entry hentry
          split at hentry
          · cases hentry
          · rw [List.mem_singleton.mp hentry]

/-- A configuration whose issues are known can be reported. -/
theorem not_isUnreportable_of_issues_eq_ok {issues : Issues} (h : config.issues = .ok issues) :
    ¬ config.IsUnreportable := by
  rcases config.issues_cases with ⟨-, herror⟩ | ⟨hreportable, -⟩
  · cases h.symm.trans herror
  · exact hreportable

/-- Validation reports an error on the jobs. -/
def ReportsJobs (config : Config) : Prop :=
  ∃ issues found, config.issues = .ok issues ∧ ("jobs", found) ∈ issues

/-- What is reported on the jobs is the finding of the check of the titles. -/
theorem mem_issues_iff {issues : Issues} {found : FieldIssues} (h : config.issues = .ok issues) :
    ("jobs", found) ∈ issues ↔
      ∃ issue value, Check.titles config.titles = some issue ∧
        config.titlesCheck.value = some value ∧
        found = .own [{ issue with params := issue.params ++ [("value", value)] }] := by
  rcases config.issues_cases with ⟨-, herror⟩ | ⟨-, ofDefaults, ofJobs, hcollect, hok, hdefaults⟩
  · rw [herror] at h
    cases h
  rw [hok] at h
  cases h
  have hleft : ("jobs", found) ∉ ofDefaults := by
    intro hmem
    exact absurd (hdefaults _ hmem) (by simp)
  rw [List.mem_append, or_iff_right hleft]
  rcases Issues.collect_singleton_cases config.titlesCheck with
    ⟨hnone, hc⟩ | ⟨-, hc⟩ | ⟨issue, value, hissue, hvalue, hc⟩
  · rw [hcollect] at hc
    cases hc
    have hnone : Check.titles config.titles = none := hnone
    simp [hnone]
  · rw [hcollect] at hc
    cases hc
  · rw [hcollect] at hc
    cases hc
    have hissue : Check.titles config.titles = some issue := hissue
    have hfield : config.titlesCheck.field = "jobs" := rfl
    simp [hissue, hvalue, hfield]

/-- Where nothing is wrong, nothing is reported on the jobs. -/
theorem not_reportsJobs_of_issues_eq_nil (h : config.issues = .ok []) :
    ¬ config.ReportsJobs := by
  rintro ⟨issues, found, hissues, hmem⟩
  cases h.symm.trans hissues
  cases hmem

/-- Where validation can report, it reports an error on the jobs exactly if a title
other than the empty one is repeated. -/
theorem reportsJobs_iff (h : ¬ config.IsUnreportable) :
    config.ReportsJobs ↔ config.RepeatsTitle := by
  constructor
  · rintro ⟨issues, found, hissues, hmem⟩
    obtain ⟨issue, value, hfinding, -⟩ := (mem_issues_iff hissues).mp hmem
    by_contra hnone
    rw [titles, titles_finding_eq_none_iff.mpr hnone] at hfinding
    cases hfinding
  · intro hrepeats
    rcases config.issues_cases with ⟨herror, -⟩ | ⟨-, ofDefaults, ofJobs, -, hok, -⟩
    · exact absurd herror h
    have hfinding : Check.titles config.titles ≠ none :=
      fun hnone => titles_finding_eq_none_iff.mp hnone hrepeats
    obtain ⟨issue, hissue⟩ := Option.ne_none_iff_exists'.mp hfinding
    have hwritable : config.titlesCheck.value ≠ none := by
      intro hnone
      exact h (Or.inr (isUnreportable_titlesCheck_iff.mp ⟨hfinding, hnone⟩))
    obtain ⟨value, hvalue⟩ := Option.ne_none_iff_exists'.mp hwritable
    exact ⟨_, _, hok, (mem_issues_iff hok).mpr ⟨issue, value, hissue, hvalue, rfl⟩⟩

/-- The empty title is declared more than once, and no other is. -/
def RepeatsOnlyEmptyTitle (config : Config) : Prop :=
  2 ≤ config.titles.count "" ∧ ∀ title, 2 ≤ config.titles.count title → title = ""

/-- Titles that repeat differ from those that do not in one that is not empty, unless
only the empty one is repeated. -/
theorem not_repeatsTitle_iff_nodup_iff (config : Config) :
    (¬ config.RepeatsTitle ↔ config.titles.Nodup) ↔ ¬ config.RepeatsOnlyEmptyTitle := by
  have hnone : ¬ config.RepeatsTitle ↔ ∀ title, 2 ≤ config.titles.count title → title = "" := by
    rw [← titles_finding_eq_none_iff, ← titles, Check.titles_eq_none_iff]
  rw [hnone, List.nodup_iff_count_le_one, RepeatsOnlyEmptyTitle]
  constructor
  · rintro hsame ⟨htwice, honly⟩
    have honce := hsame.mp honly ""
    omega
  · intro hnot
    constructor
    · intro honly title
      by_contra htwice
      have hempty := honly title (by omega)
      subst hempty
      exact hnot ⟨by omega, honly⟩
    · intro honce title htwice
      have := honce title
      omega

/-- A configuration is loaded only if nothing is wrong with it. -/
theorem issues_of_load_eq_ok {path : UnixPath} {file : FileContent}
    (h : Config.load path file = .ok config) : config.issues = .ok [] := by
  unfold Config.load at h
  cases hparse : Config.parse path file with
  | error report =>
      rw [hparse] at h
      cases h
  | ok parsed =>
      rw [hparse] at h
      cases hissues : parsed.issues with
      | error failure =>
          cases failure
          simp [bind, Except.bind, hissues, throw, throwThe, MonadExceptOf.throw] at h
      | ok issues =>
          cases issues with
          | nil =>
              simp only [bind, Except.bind, hissues, pure, Except.pure, Except.ok.injEq] at h
              rw [← h, hissues]
          | cons issue rest =>
              simp [bind, Except.bind, hissues, throw, throwThe, MonadExceptOf.throw] at h

end Config

/-- **Repeated titles are reported**, all but the empty one.  If validation can
report on a configuration at all, it reports an error on the jobs exactly if a
title other than the empty one is declared more than once; so its verdict is the
wanted one, an error exactly if two titles agree, unless the empty title is the
only one that is repeated.  The message lists the repeated titles, and no
configuration that is loaded repeats a title other than the empty one. -/
theorem repeated_titles_are_reported (config : Config) :
    (config.issues = .error .mk ↔ config.IsUnreportable) ∧
    (¬ config.IsUnreportable →
      (config.ReportsJobs ↔ config.RepeatsTitle) ∧
      ((¬ config.ReportsJobs ↔ config.titles.Nodup) ↔ ¬ config.RepeatsOnlyEmptyTitle)) ∧
    (∀ issues found, config.issues = .ok issues → ("jobs", found) ∈ issues →
      ∃ issue repeated, found = .own [issue] ∧ ListsRepeated config.titles repeated ∧
        issue.code = "DuplicateJobTitle" ∧
        issue.message =
          some ("job titles declared more than once: " ++ ", ".intercalate repeated)) ∧
    ∀ path file, Config.load path file = .ok config →
      config.titles.Nodup ∨ config.RepeatsOnlyEmptyTitle := by
  refine ⟨?_, ?_, ?_, ?_⟩
  · rcases config.issues_cases with ⟨hnone, herror⟩ | ⟨hsome, ofDefaults, ofJobs, -, hok, -⟩
    · simp [hnone, herror]
    · simp [hsome, hok]
  · intro h
    refine ⟨Config.reportsJobs_iff h, ?_⟩
    rw [Config.reportsJobs_iff h]
    exact config.not_repeatsTitle_iff_nodup_iff
  · intro issues found hissues hmem
    obtain ⟨issue, value, hfinding, -, rfl⟩ := (Config.mem_issues_iff hissues).mp hmem
    obtain ⟨repeated, hlists, hcode, hmessage⟩ := Check.message_of_titles hfinding
    exact ⟨_, repeated, rfl, hlists, hcode, hmessage⟩
  · intro path file hload
    have hclean := Config.issues_of_load_eq_ok hload
    have hreportable := Config.not_isUnreportable_of_issues_eq_ok hclean
    have hsilent := Config.not_reportsJobs_of_issues_eq_nil hclean
    rw [Config.reportsJobs_iff hreportable] at hsilent
    by_cases honly : config.RepeatsOnlyEmptyTitle
    · exact Or.inr honly
    · exact Or.inl ((config.not_repeatsTitle_iff_nodup_iff.mpr honly).mp hsilent)

/-- Three jobs, of which the first and the last share a title. -/
def repeatingConfig : Config where
  jobs := [{ title := "etc" }, { title := "db" }, { title := "etc" }]

theorem repeated_titles_of_repeatingConfig_are_reported :
    ¬ repeatingConfig.IsUnreportable ∧ repeatingConfig.RepeatsTitle ∧
      repeatingConfig.ReportsJobs := by
  have hreportable : ¬ repeatingConfig.IsUnreportable := by
    obtain ⟨issues, hissues⟩ : ∃ issues, repeatingConfig.issues = .ok issues := ⟨_, rfl⟩
    exact Config.not_isUnreportable_of_issues_eq_ok hissues
  have hrepeats : repeatingConfig.RepeatsTitle := ⟨"etc", by decide, by decide⟩
  exact ⟨hreportable, hrepeats,
    ((repeated_titles_are_reported repeatingConfig).2.1 hreportable).1.mpr hrepeats⟩

/-- Two jobs of no title. -/
def namelessConfig : Config where
  jobs := [{ title := "" }, { title := "" }]

/-- The empty title may be repeated without a report. -/
theorem repeated_empty_title_is_not_reported :
    ¬ (¬ namelessConfig.ReportsJobs ↔ namelessConfig.titles.Nodup) := by
  have hclean : namelessConfig.issues = .ok [] := rfl
  intro hverdict
  have hnodup := hverdict.mp (Config.not_reportsJobs_of_issues_eq_nil hclean)
  exact absurd hnodup (by decide)

end BackupPlan
