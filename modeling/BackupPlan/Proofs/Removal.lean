import BackupPlan.Proofs.Acceptance

/-!
# Removals depend on what they remove

A job whose script is to be removed is still settled in full, with whatever its
other fields hold: two destinations at once, ages that are no intervals, relative
directories that are no texts.  None of that is looked at afterwards.

* `ResolvedJob.compile_value_of_absent` — the two ends of a removal, told from the
  title and the path of the script;
* `scriptPath_resolve_congr` — what the path of a script is told from;
* `removal_depends_on_what_it_removes` — two removals of one script come to the same.
-/

namespace BackupPlan

namespace ResolvedJob

variable {job other : ResolvedJob}

/-- **The two ends of a removal**: the order to remove the script, or a rejection with
the issues of the removal. -/
theorem compile_value_of_absent (habsent : job.ensure = .absent) :
    job.compile.value =
      if job.removalIssues.isEmpty then .ok ⟨job.title, .removed job.scriptPath, none⟩
      else .error (.rejected ⟨job.title, .invalidFields job.removalIssues⟩) := by
  have hcheck := check_of_absent habsent
  by_cases hclear : job.removalIssues.isEmpty = true
  · rw [if_pos hclear] at hcheck ⊢
    simp only [compile, hcheck, habsent]
    rfl
  · rw [if_neg hclear] at hcheck ⊢
    simp only [compile, hcheck]

/-- What is wrong with a removal depends on the title and the script path alone. -/
theorem removalIssues_congr (htitle : job.title = other.title)
    (hpath : job.scriptPath = other.scriptPath) : job.removalIssues = other.removalIssues := by
  rw [removalIssues, removalIssues, htitle, hpath]

/-- A removal is accepted exactly with a good title and an absolute script path. -/
theorem isEmpty_removalIssues_iff :
    job.removalIssues.isEmpty = true ↔
      Check.isTitle job.title = true ∧ job.scriptPath.isAbsolute = true := by
  rw [List.isEmpty_iff, removalIssues_eq_nil_iff, Check.title_eq_none_iff,
    Check.absolute_eq_none_iff]

/-- A removal is faulted at most for its title and its script path, in this order. -/
theorem fields_removalIssues_sublist :
    List.Sublist (job.removalIssues.map Prod.fst) ["title", "script_path"] := by
  simp only [removalIssues]
  cases Check.title job.title <;> cases Check.absolute job.scriptPath <;> simp

end ResolvedJob

section

variable {job other : JobSpec} {defaults otherDefaults : Defaults}

/-- The path of a script is told from the one that is declared, the title and the
directory of the defaults. -/
theorem scriptPath_resolve_congr (htitle : job.title = other.title)
    (hpath : job.scriptPath = other.scriptPath)
    (hdirectory : defaults.spoolDir = otherDefaults.spoolDir) :
    (job.resolve defaults).scriptPath = (other.resolve otherDefaults).scriptPath := by
  simp only [JobSpec.resolve, htitle, hpath, hdirectory]

/-- A compiled job that orders the removal of a script. -/
structure CompiledJob.IsRemoval (done : CompiledJob) (title : String) (path : UnixPath) :
    Prop where
  title : done.title = title
  path : done.script.path = path
  owner : done.script.owner = "root"
  mode : done.script.mode = 0o700
  ensure : done.script.ensure = .absent
  content : done.script.content = none
  keyImport : done.keyImport = none

/-- **Removals depend on what they remove.**  Two jobs whose scripts are to be removed
come to the same result wherever they agree in the title and the declared path of the
script, under defaults that agree in the directory of the scripts.  The result is the
order to remove the script if the title can name a file and the path is absolute, and
otherwise a rejection that names one of these two fields or both. -/
theorem removal_depends_on_what_it_removes
    (habsent : job.ensure = .absent) (habsent' : other.ensure = .absent)
    (htitle : job.title = other.title) (hpath : job.scriptPath = other.scriptPath)
    (hdirectory : defaults.spoolDir = otherDefaults.spoolDir) :
    (job.compile defaults).value = (other.compile otherDefaults).value ∧
    ((Check.isTitle job.title = true ∧ (job.resolve defaults).scriptPath.isAbsolute = true ∧
        ∃ done, (job.compile defaults).value = .ok done ∧
          done.IsRemoval job.title (job.resolve defaults).scriptPath) ∨
      (¬ (Check.isTitle job.title = true ∧
          (job.resolve defaults).scriptPath.isAbsolute = true) ∧
        ∃ issues, issues ≠ [] ∧
          List.Sublist (issues.map Prod.fst) ["title", "script_path"] ∧
          (job.compile defaults).value =
            .error (.rejected ⟨job.title, .invalidFields issues⟩))) := by
  have hsettled : (job.resolve defaults).ensure = .absent := habsent
  have hsettled' : (other.resolve otherDefaults).ensure = .absent := habsent'
  have htitles : (job.resolve defaults).title = (other.resolve otherDefaults).title := htitle
  have hscript := scriptPath_resolve_congr htitle hpath hdirectory
  have hvalue : (job.compile defaults).value = _ :=
    ResolvedJob.compile_value_of_absent hsettled
  have hvalue' : (other.compile otherDefaults).value = _ :=
    ResolvedJob.compile_value_of_absent hsettled'
  constructor
  · have hissues := ResolvedJob.removalIssues_congr htitles hscript
    rw [hvalue, hvalue', hissues, hscript, htitles]
  · have hclear : (job.resolve defaults).removalIssues.isEmpty = true ↔ _ :=
      ResolvedJob.isEmpty_removalIssues_iff
    by_cases hempty : (job.resolve defaults).removalIssues.isEmpty = true
    · rw [if_pos hempty] at hvalue
      obtain ⟨hname, habsolute⟩ := hclear.mp hempty
      exact Or.inl ⟨hname, habsolute, _, hvalue, rfl, rfl, rfl, rfl, rfl, rfl, rfl⟩
    · rw [if_neg hempty] at hvalue
      refine Or.inr ⟨fun hpass => hempty (hclear.mpr hpass), _, ?_,
        ResolvedJob.fields_removalIssues_sublist, hvalue⟩
      exact fun hnil => hempty (List.isEmpty_iff.mpr hnil)

end

/-- A job whose script is to be removed; nearly everything else about it is wrong. -/
def brokenRemoval : JobSpec where
  title := "db"
  ensure := .absent
  directories := [⟨[0xFF]⟩]
  bucket := .value "archive"
  target := some "ssh://host//backups"
  pubkeyIds := ["none"]
  fullIfOlderThan := "soon"
  removeOlderThan := some "later"

/-- The same removal, declared with nothing that it does not need. -/
def bareRemoval : JobSpec where
  title := "db"
  ensure := .absent

theorem brokenRemoval_removes_what_bareRemoval_does :
    (brokenRemoval.compile { keyserver := "" }).value = (bareRemoval.compile {}).value ∧
    ∃ done, (brokenRemoval.compile { keyserver := "" }).value = .ok done ∧
      done.IsRemoval "db" (.ofText "/var/spool/duplicity/db.sh") := by
  have habsent : brokenRemoval.ensure = .absent := rfl
  have habsent' : bareRemoval.ensure = .absent := rfl
  have hdirectory : ({ keyserver := "" } : Defaults).spoolDir = ({} : Defaults).spoolDir := rfl
  have hwhere : (brokenRemoval.resolve { keyserver := "" }).scriptPath =
      .ofText "/var/spool/duplicity/db.sh" := by decide
  obtain ⟨hsame, ⟨-, -, done, hdone, hremoval⟩ | ⟨hfails, -⟩⟩ :=
    removal_depends_on_what_it_removes habsent habsent' rfl rfl hdirectory
  · rw [hwhere] at hremoval
    exact ⟨hsame, done, hdone, hremoval⟩
  · exact absurd (by decide) hfails

end BackupPlan
