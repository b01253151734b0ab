import BackupPlan.Compile

/-!
# Settled jobs stay as they are

A settled job can be spelled out as a declaration that leaves nothing open.
Settling that declaration gives the job back, whatever the defaults are, for the
defaults fill only what is left open; the key server alone always comes from
them.

* `distinctBy_eq_self_iff` — a list keeps all its elements if no two share a key;
* `ResolvedJob.isSettled_iff` — which jobs come out of resolution;
* `resolve_spelledOut` — a settled job is what its declaration settles on;
* `spelled_out_job_ignores_the_defaults` — and compiles as it did before.
-/

namespace BackupPlan

/-- Keeping the first of each kind changes nothing exactly if there is no second. -/
theorem distinctBy_eq_self_iff {α β : Type} [DecidableEq β] {key : α → β} {xs : List α} :
    distinctBy key xs = xs ↔ xs.Pairwise (key · ≠ key ·) := by
  constructor
  · intro h
    have hpairwise := pairwise_distinctBy key xs
    rwa [h] at hpairwise
  · intro h
    induction h with
    | nil => rfl
    | @cons x rest hhead _ ih =>
        have hkept : rest.filter (key · ≠ key x) = rest := by
          refine List.filter_eq_self.mpr fun y hy => ?_
          exact decide_eq_true (Ne.symm (hhead y hy))
        rw [distinctBy, ih, hkept]

/-- A value keeps its text exactly if that is not the empty one. -/
theorem nonEmpty_eq_self_iff {value : Option String} :
    nonEmpty value = value ↔ value ≠ some "" := by
  cases value <;> simp [nonEmpty]

/-- What is left is never the empty text. -/
theorem nonEmpty_ne_empty (value : Option String) : nonEmpty value ≠ some "" := by
  cases value <;> simp [nonEmpty, Option.filter_eq_some_iff]

/-- The empty text stands for none where an optional text must be spelled out. -/
theorem nonEmpty_some_getD {value : Option String} (h : value ≠ some "") :
    nonEmpty (some (value.getD "")) = value := by
  cases value with
  | none => rfl
  | some text => exact nonEmpty_eq_self_iff.mpr h

namespace ResolvedJob

/-- The job has nothing left to settle. -/
structure IsSettled (job : ResolvedJob) : Prop where
  directories : job.directories.Pairwise (¬ UnixPath.Same · ·)
  bucket : job.bucket ≠ some ""
  destId : job.destId ≠ some ""
  destKey : job.destKey ≠ some ⟨""⟩
  target : job.target ≠ some ""
  /-- A key file stands beside a remote URL only. -/
  sshIdentity : job.target = none → job.sshIdentity = none
  pubkeyIds : job.pubkeyIds.Nodup
  removeOlderThan : job.removeOlderThan ≠ some ""
  preCommand : job.preCommand ≠ some ""
  hostIdentifier : job.hostIdentifier ≠ some ""

/-- The declaration that leaves nothing of a settled job open: settings that have
no value are switched off, and a machine that has no name is named by the empty
text. -/
def spelledOut (job : ResolvedJob) : JobSpec where
  title := job.title
  ensure := job.ensure
  directories := job.directories
  bucket := .ofResolved job.bucket
  destId := .ofResolved job.destId
  destKey := .ofResolved job.destKey
  provider := .ofResolved job.provider
  target := job.target
  sshIdentity := job.sshIdentity
  pubkeyIds := job.pubkeyIds
  fullIfOlderThan := job.fullIfOlderThan
  removeOlderThan := job.removeOlderThan
  preCommand := job.preCommand
  hostIdentifier := some (job.hostIdentifier.getD "")
  scriptPath := some job.scriptPath

end ResolvedJob

/-- Resolving leaves no repeated entry, no empty value and no identity without a target. -/
theorem isSettled_resolve (job : JobSpec) (defaults : Defaults) :
    (job.resolve defaults).IsSettled where
  directories := pairwise_distinctBy UnixPath.components job.directories
  bucket := nonEmpty_ne_empty _
  destId := nonEmpty_ne_empty _
  destKey := by
    intro h
    have hkept := (Option.filter_eq_some_iff.mp h).2
    simp at hkept
  target := nonEmpty_ne_empty _
  sshIdentity := by
    intro h
    have htarget : nonEmpty job.target = none := h
    simp [JobSpec.resolve, htarget]
  pubkeyIds := pairwise_distinctBy id job.pubkeyIds
  removeOlderThan := nonEmpty_ne_empty _
  preCommand := nonEmpty_ne_empty _
  hostIdentifier := nonEmpty_ne_empty _

/-- **Settling is undone by spelling out.**  The declaration of a settled job
settles on that job under all defaults with its key server. -/
theorem resolve_spelledOut {job : ResolvedJob} {defaults : Defaults} (h : job.IsSettled)
    (hserver : defaults.keyserver = job.keyserver) : job.spelledOut.resolve defaults = job := by
  have hdirectories : distinctBy UnixPath.components job.directories = job.directories :=
    distinctBy_eq_self_iff.mpr h.directories
  have hids : distinctBy id job.pubkeyIds = job.pubkeyIds :=
    distinctBy_eq_self_iff.mpr h.pubkeyIds
  have hbucket := nonEmpty_eq_self_iff.mpr h.bucket
  have hlogin := nonEmpty_eq_self_iff.mpr h.destId
  have hkey : job.destKey.filter (·.reveal ≠ "") = job.destKey := by
    cases hgiven : job.destKey with
    | none => rfl
    | some key =>
        have hne : key.reveal ≠ "" := fun hempty => h.destKey (by rw [hgiven, ← hempty])
        simp [hne]
  have htarget := nonEmpty_eq_self_iff.mpr h.target
  have hidentity : (if job.target.isSome then job.sshIdentity else none) = job.sshIdentity := by
    cases hgiven : job.target with
    | none => simp [h.sshIdentity hgiven]
    | some target => simp
  have hage := nonEmpty_eq_self_iff.mpr h.removeOlderThan
  have hfragment := nonEmpty_eq_self_iff.mpr h.preCommand
  have hhost := nonEmpty_some_getD h.hostIdentifier
  simp only [JobSpec.resolve, ResolvedJob.spelledOut, Setting.resolve_ofResolved, Option.some_or,
    Option.getD_some, hdirectories, hids, hbucket, hlogin, hkey, htarget, hidentity, hage,
    hfragment, hhost, hserver]

/-- The jobs that come out of resolution are those with nothing left to settle. -/
theorem ResolvedJob.isSettled_iff {job : ResolvedJob} :
    job.IsSettled ↔ ∃ (spec : JobSpec) (defaults : Defaults), spec.resolve defaults = job := by
  constructor
  · intro h
    exact ⟨job.spelledOut, { keyserver := job.keyserver }, resolve_spelledOut h rfl⟩
  · rintro ⟨spec, defaults, rfl⟩
    exact isSettled_resolve spec defaults

/-- No key file is dropped on the way to a settled job a second time. -/
theorem resolutionRecords_spelledOut {job : ResolvedJob} (h : job.IsSettled) :
    job.spelledOut.resolutionRecords = [] := by
  have hnone : job.spelledOut.ignoredIdentity = none := by
    have htarget := nonEmpty_eq_self_iff.mpr h.target
    simp only [JobSpec.ignoredIdentity, ResolvedJob.spelledOut, htarget]
    cases hgiven : job.target with
    | none => simp [h.sshIdentity hgiven]
    | some target => simp
  rw [JobSpec.resolutionRecords, hnone]
  rfl

/-- **A job that is spelled out ignores the defaults.**  What a job settles on is
spelled out and settled again, under any defaults with the same key server: it
comes out as it went in, and compiles to the same result.  The records differ
only in the one on a key file that was dropped the first time. -/
theorem spelled_out_job_ignores_the_defaults (job : JobSpec) (defaults other : Defaults)
    (hserver : other.keyserver = defaults.keyserver) :
    (job.resolve defaults).spelledOut.resolve other = job.resolve defaults ∧
    ((job.resolve defaults).spelledOut.compile other).value = (job.compile defaults).value ∧
    (job.compile defaults).log =
      job.resolutionRecords ++ ((job.resolve defaults).spelledOut.compile other).log := by
  have hsettled := isSettled_resolve job defaults
  have hagain : (job.resolve defaults).spelledOut.resolve other = job.resolve defaults :=
    resolve_spelledOut hsettled hserver
  refine ⟨hagain, ?_, ?_⟩
  · simp only [JobSpec.compile, hagain]
  · simp only [JobSpec.compile, hagain, resolutionRecords_spelledOut hsettled, List.nil_append]

/-- A job that leaves bucket, key and machine open, switches its login name off and
names a directory twice. -/
def looseJob : JobSpec where
  title := "etc"
  directories := [.ofText "/etc", .ofText "/etc/", .ofText "/srv"]
  destId := .disabled
  sshIdentity := some (.ofText "id")

/-- Defaults under which that job compiles. -/
def archiveDefaults : Defaults where
  bucket := some "archive"
  destKey := some ⟨"secret"⟩
  hostIdentifier := some "web"

/-- Defaults that differ from those in all but the key server. -/
def foreignDefaults : Defaults where
  bucket := some "other"
  destId := some "me"
  spoolDir := .ofText "/srv"

theorem looseJob_spelled_out_ignores_foreignDefaults :
    foreignDefaults.keyserver = archiveDefaults.keyserver ∧
    (looseJob.resolve archiveDefaults).spelledOut.resolve foreignDefaults =
      looseJob.resolve archiveDefaults ∧
    ((looseJob.resolve archiveDefaults).spelledOut.compile foreignDefaults).value =
      (looseJob.compile archiveDefaults).value := by
  have hserver : foreignDefaults.keyserver = archiveDefaults.keyserver := rfl
  obtain ⟨hagain, hsame, -⟩ :=
    spelled_out_job_ignores_the_defaults looseJob archiveDefaults foreignDefaults hserver
  exact ⟨hserver, hagain, hsame⟩

end BackupPlan
