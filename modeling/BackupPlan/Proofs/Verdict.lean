import BackupPlan.Proofs.Acceptance
import BackupPlan.Proofs.PathSteps
import Mathlib.Data.List.Basic

/-!
# The verdict on a declared job

What becomes of a job can be told from its declaration and the defaults, without
settling it: by a table of rules of which the first that applies decides, and a
table of fields of which all that are at fault are named.

* `rules`, `JobSpec.fieldTable`, `JobSpec.verdict` — the two tables, and what they say of
  a job;
* `firstVerdict_rules`, `fieldTable_resolve` — the checks of the settled job say the
  same;
* `first_rule_that_applies_decides` — and so does the whole compilation.
-/

namespace BackupPlan

open UnixPath

/-- What is said of a job; of the fields at fault, their names. -/
inductive Verdict where
  | accepted
  | conflictingDestination (target : String) (bucket : Option String) (provider : Option Provider)
  | missingDestination
  | missingSource
  | missingCredentials (bucket : String)
  | missingHostIdentifier (bucket : String)
  | invalidFields (fields : List String)
  deriving DecidableEq

/-- What a cause of rejection says, with the issues by their fields. -/
def Cause.verdict : Cause → Verdict
  | conflictingDestination target bucket provider =>
      .conflictingDestination target bucket provider
  | missingDestination => .missingDestination
  | missingSource => .missingSource
  | missingCredentials bucket => .missingCredentials bucket
  | missingHostIdentifier bucket => .missingHostIdentifier bucket
  | invalidFields issues => .invalidFields (issues.map Prod.fst)

/-- The verdict with which a check or a compilation ends, if it can be reported. -/
def verdict? {α : Type} : Except Failure α → Option Verdict
  | .ok _ => some .accepted
  | .error (.rejected rejection) => some rejection.cause.verdict
  | .error .unreportable => none

/-! ### What is in effect -/

/-- A setting that can be given or left out, but not switched off. -/
def Setting.ofGiven {α : Type} : Option α → Setting α
  | some a => value a
  | none => unset

/-- What is in effect for a setting: the value it gives, nothing where it is switched
off, the default where it is left out.  An empty value counts as nothing, and does
not make room for the default. -/
def inEffect {α : Type} (isEmpty : α → Bool) : Setting α → Option α → Option α
  | .value a, _ => if isEmpty a then none else some a
  | .disabled, _ => none
  | .unset, some a => if isEmpty a then none else some a
  | .unset, none => none

/-- What decides on the destination of a job. -/
structure Bearings where
  target : Option String
  bucket : Option String
  destId : Option String
  destKey : Option Secret
  provider : Option Provider
  hostIdentifier : Option String

/-- What a job and the defaults put into effect. -/
def JobSpec.bearings (job : JobSpec) (defaults : Defaults) : Bearings where
  target := inEffect (· == "") (.ofGiven job.target) none
  bucket := inEffect (· == "") job.bucket defaults.bucket
  destId := inEffect (· == "") job.destId defaults.destId
  destKey := inEffect (·.reveal == "") job.destKey defaults.destKey
  provider := inEffect (fun _ => false) job.provider none
  hostIdentifier := inEffect (· == "") (.ofGiven job.hostIdentifier) defaults.hostIdentifier

/-! ### The tables -/

/-- The fields of a job, each with whether it is at fault. -/
def JobSpec.fieldTable (job : JobSpec) (defaults : Defaults) : List (String × Bool) :=
  [ ("title", !Check.isTitle job.title),
    ("directories", job.directories.any (!·.isAbsolute)),
    ("ssh_identity",
      (job.bearings defaults).target.isSome && job.sshIdentity.any (!·.isAbsolute)),
    ("pubkey_ids", job.pubkeyIds.any (!Check.isKeyId ·)),
    ("full_if_older_than", !Check.isInterval job.fullIfOlderThan),
    ("remove_older_than",
      (inEffect (· == "") (.ofGiven job.removeOlderThan) none).any (!Check.isInterval ·)),
    ("script_path",
      match job.scriptPath with
      | some path => !path.isAbsolute
      | none =>
        !(defaults.spoolDir.isAbsolute ||
          (UnixPath.ofText (scriptFileName job.title)).isAbsolute)),
    ("keyserver",
      defaults.keyserver == "" || defaults.keyserver.toList.any (!Check.isServerChar ·)) ]

/-- The fields that are at fault, in order. -/
def JobSpec.faults (job : JobSpec) (defaults : Defaults) : List String :=
  ((job.fieldTable defaults).filter (·.2)).map (·.1)

/-- The rules for a job whose script is to be written, each with whether it applies;
what stands in a verdict is there where no earlier rule applies. -/
def rules (b : Bearings) (directories : List UnixPath) (faults : List String) :
    List (Bool × Verdict) :=
  [ (b.target.isSome && (b.bucket.isSome || b.provider.isSome),
      .conflictingDestination (b.target.getD "") b.bucket b.provider),
    (b.target.isNone && b.bucket.isNone, .missingDestination),
    (directories.isEmpty, .missingSource),
    (b.target.isNone && (b.destId.isNone && b.destKey.isNone),
      .missingCredentials (b.bucket.getD "")),
    (b.target.isNone && (b.provider != some .cloudFiles && b.hostIdentifier.isNone),
      .missingHostIdentifier (b.bucket.getD "")),
    (!faults.isEmpty, .invalidFields faults) ]

/-- The rule for a job whose script is to be removed. -/
def removalRules (faults : List String) : List (Bool × Verdict) :=
  let named := faults.filter fun field => field = "title" || field = "script_path"
  [(!named.isEmpty, .invalidFields named)]

/-- The verdict of the first rule that applies. -/
def firstVerdict : List (Bool × Verdict) → Verdict
  | [] => .accepted
  | (applies, verdict) :: rest => if applies then verdict else firstVerdict rest

/-- **The verdict on a job**, told from its declaration and the defaults. -/
def JobSpec.verdict (job : JobSpec) (defaults : Defaults) : Verdict :=
  match job.ensure with
  | .present => firstVerdict <|
      rules (job.bearings defaults) job.directories (job.faults defaults)
  | .absent => firstVerdict <| removalRules (job.faults defaults)

/-! ### The settled job -/

/-- What is in effect is what resolving gives, unless it is empty. -/
theorem inEffect_eq_filter {α : Type} (isEmpty : α → Bool) (setting : Setting α)
    (fallback : Option α) :
    inEffect isEmpty setting fallback = (setting.resolve fallback).filter (!isEmpty ·) := by
  have hsome : ∀ a, (if isEmpty a then none else some a) = (some a).filter (!isEmpty ·) := by
    intro a
    cases h : isEmpty a <;> simp [Option.filter_some, h]
  cases setting with
  | value a => exact hsome a
  | disabled => rfl
  | unset =>
      cases fallback with
      | some a => exact hsome a
      | none => rfl

/-- For texts, what is in effect is the resolved text without the empty one. -/
theorem inEffect_text_eq (setting : Setting String) (fallback : Option String) :
    inEffect (· == "") setting fallback = nonEmpty (setting.resolve fallback) := by
  rw [inEffect_eq_filter, nonEmpty]
  congr 1
  funext text
  cases h : decide (text = "") <;> simp_all

/-- A setting that can only be given or left out falls back to the default where it is left out. -/
theorem Setting.resolve_ofGiven {α : Type} (given fallback : Option α) :
    (Setting.ofGiven given).resolve fallback = given.or fallback := by
  cases given <;> rfl

/-- What is in effect for a settled job. -/
def ResolvedJob.bearings (job : ResolvedJob) : Bearings :=
  ⟨job.target, job.bucket, job.destId, job.destKey, job.provider, job.hostIdentifier⟩

/-- The bearings read off a job and its defaults are those of the resolved job. -/
theorem bearings_resolve (job : JobSpec) (defaults : Defaults) :
    (job.resolve defaults).bearings = job.bearings defaults := by
  have hkey : inEffect (·.reveal == "") job.destKey defaults.destKey =
      (job.destKey.resolve defaults.destKey).filter (·.reveal ≠ "") := by
    rw [inEffect_eq_filter]
    congr 1
    funext key
    cases h : decide (key.reveal = "") <;> simp_all
  have hprovider : inEffect (fun _ => false) job.provider none = job.provider.resolve none := by
    cases job.provider <;> rfl
  simp only [ResolvedJob.bearings, JobSpec.resolve, JobSpec.bearings, inEffect_text_eq,
    Setting.resolve_ofGiven, Option.or_none, hkey, hprovider]

/-- Keeping the first of each kind leaves nothing only of nothing. -/
theorem distinctBy_eq_nil_iff {α β : Type} [DecidableEq β] {key : α → β} {xs : List α} :
    distinctBy key xs = [] ↔ xs = [] := by
  cases xs <;> simp [distinctBy]

/-- Dropping repetitions loses nothing that could be found by its key. -/
theorem any_distinctBy {α β : Type} [DecidableEq β] {key : α → β} {p : α → Bool}
    (hp : ∀ x y, key x = key y → p x = p y) (xs : List α) :
    (distinctBy key xs).any p = xs.any p := by
  rw [Bool.eq_iff_iff, List.any_eq_true, List.any_eq_true]
  constructor
  · rintro ⟨x, hx, hpx⟩
    exact ⟨x, (sublist_distinctBy key xs).subset hx, hpx⟩
  · rintro ⟨x, hx, hpx⟩
    obtain ⟨y, hy, hkey⟩ := exists_mem_distinctBy key hx
    exact ⟨y, hy, hp y x hkey ▸ hpx⟩

/-! ### The rules on the whole job -/

/-- A job has the layout of an S3 store unless it names a target or Cloud Files. -/
theorem usesS3Layout_eq (job : ResolvedJob) :
    job.usesS3Layout = (job.target.isNone && job.provider != some .cloudFiles) := by
  rw [ResolvedJob.usesS3Layout]
  rcases job.provider with _ | provider
  · simp
  · cases provider <;> simp

/-- The table of rules and the checks of the whole job name the same cause; the
fields are looked at where there is none. -/
theorem firstVerdict_rules (job : ResolvedJob) (faults : List String) :
    firstVerdict (rules job.bearings job.directories faults) =
      match job.structuralCause with
      | some cause => cause.verdict
      | none => if faults = [] then .accepted else .invalidFields faults := by
  have hfields : firstVerdict [(!faults.isEmpty, .invalidFields faults)] =
      if faults = [] then .accepted else .invalidFields faults := by
    cases faults <;> simp [firstVerdict]
  rw [ResolvedJob.structuralCause, usesS3Layout_eq, rules, ResolvedJob.bearings]
  iterate 5 rw [firstVerdict]
  rw [hfields]
  cases htarget : job.target with
  | some target =>
      cases hoccupied : (job.bucket.isSome || job.provider.isSome) with
      | true => simp [hoccupied, Cause.verdict]
      | false => cases job.directories <;> simp [hoccupied, Cause.verdict]
  | none =>
      cases hbucket : job.bucket with
      | none => simp [Cause.verdict]
      | some bucket =>
          simp only [Option.isNone_none, Bool.true_and]
          cases job.directories with
          | nil => simp [Cause.verdict]
          | cons directory rest =>
              cases (job.destId.isNone && job.destKey.isNone) with
              | true => simp [Cause.verdict]
              | false =>
                  cases (job.provider != some .cloudFiles && job.hostIdentifier.isNone) with
                  | true => simp [Cause.verdict]
                  | false => simp

/-! ### The fields -/

namespace Check

/-- A check that finds nothing exactly in what passes finds something in what does not. -/
theorem isSome_eq_not {α : Type} {finding : Option α} {passes : Bool}
    (h : finding = none ↔ passes = true) : finding.isSome = !passes := by
  cases finding <;> cases passes <;> simp_all

theorem isSome_title (name : String) : (title name).isSome = !isTitle name :=
  isSome_eq_not title_eq_none_iff

theorem isSome_absolute (path : UnixPath) : (absolute path).isSome = !path.isAbsolute :=
  isSome_eq_not absolute_eq_none_iff

theorem isSome_interval (text : String) : (interval text).isSome = !isInterval text :=
  isSome_eq_not interval_eq_none_iff

/-- Several paths are faulted if one of them is relative. -/
theorem isSome_allAbsolute (paths : List UnixPath) :
    (allAbsolute paths).isSome = paths.any (!·.isAbsolute) := by
  simp only [allAbsolute, List.isSome_findSome?, isSome_absolute]

theorem isSome_keyIds (ids : List String) : (keyIds ids).isSome = ids.any (!isKeyId ·) := by
  simp only [keyIds, Option.isSome_map, List.isSome_find?]

/-- A keyserver is faulted if it is empty or has a character that no server name has. -/
theorem isSome_keyserver (address : String) :
    (keyserver address).isSome = (address == "" || address.toList.any (!isServerChar ·)) := by
  by_cases hempty : address = ""
  · simp [keyserver, hempty]
  · cases h : address.toList.all isServerChar <;>
      simp [keyserver, hempty, h, ← List.not_all_eq_any_not]

end Check

/-- Paths with the same components are absolute together. -/
theorem isAbsolute_eq_of_components_eq {p q : UnixPath} (h : p.components = q.components) :
    p.isAbsolute = q.isAbsolute := by
  rw [Bool.eq_iff_iff, isAbsolute_iff_head?_components, isAbsolute_iff_head?_components, h]

/-- The checks of the settled fields find fault with the fields that the table names. -/
theorem fieldTable_resolve (job : JobSpec) (defaults : Defaults) :
    ((job.resolve defaults).fieldChecks.map fun check => (check.field, check.finding.isSome)) =
      job.fieldTable defaults := by
  have hdirectories : (distinctBy components job.directories).any (!·.isAbsolute) =
      job.directories.any (!·.isAbsolute) :=
    any_distinctBy (fun p q h => by rw [isAbsolute_eq_of_components_eq h]) _
  have hids : (distinctBy id job.pubkeyIds).any (!Check.isKeyId ·) =
      job.pubkeyIds.any (!Check.isKeyId ·) :=
    any_distinctBy (fun x y h => by rw [id.eq_1 x, id.eq_1 y] at h; rw [h]) _
  have hidentity : ((job.resolve defaults).sshIdentity.bind Check.absolute).isSome =
      ((job.bearings defaults).target.isSome && job.sshIdentity.any (!·.isAbsolute)) := by
    rw [← bearings_resolve]
    simp only [JobSpec.resolve, ResolvedJob.bearings]
    cases (nonEmpty job.target).isSome <;> cases job.sshIdentity <;>
      simp [Check.isSome_absolute]
  have hage : ((nonEmpty job.removeOlderThan).bind Check.interval).isSome =
      (inEffect (· == "") (.ofGiven job.removeOlderThan) none).any (!Check.isInterval ·) := by
    rw [inEffect_text_eq, Setting.resolve_ofGiven, Option.or_none]
    cases nonEmpty job.removeOlderThan <;> simp [Check.isSome_interval]
  have hscript : (Check.absolute (job.resolve defaults).scriptPath).isSome =
      match job.scriptPath with
      | some path => !path.isAbsolute
      | none =>
        !(defaults.spoolDir.isAbsolute || (ofText (scriptFileName job.title)).isAbsolute) := by
    rw [Check.isSome_absolute, JobSpec.resolve]
    cases job.scriptPath with
    | some path => rfl
    | none => rw [Option.getD_none, isAbsolute_join]
  simp only [ResolvedJob.fieldChecks, List.map_cons, List.map_nil, hidentity, hscript]
  simp only [JobSpec.resolve, Check.isSome_title, Check.isSome_allAbsolute, Check.isSome_keyIds,
    Check.isSome_interval, Check.isSome_keyserver, hdirectories, hids, hage]
  rfl

/-- What is reported on the fields of a job whose script is to be written names those
at fault. -/
theorem fields_of_collect_fieldChecks {job : JobSpec} {defaults : Defaults} {issues : Issues}
    (h : Issues.collect (job.resolve defaults).fieldChecks = .ok issues) :
    issues.map Prod.fst = job.faults defaults := by
  rw [Issues.fields_of_collect_eq_ok h, JobSpec.faults, ← fieldTable_resolve, List.filter_map,
    List.map_map]
  rfl

/-- What is reported on a job whose script is to be removed names the title and the
path of the script, if they are at fault. -/
theorem fields_of_removalIssues (job : JobSpec) (defaults : Defaults) :
    (job.resolve defaults).removalIssues.map Prod.fst =
      (job.faults defaults).filter fun field => field = "title" || field = "script_path" := by
  have hrows : (job.fieldTable defaults).filter
      ((fun field => field = "title" || field = "script_path") ∘ Prod.fst) =
      [("title", (Check.title job.title).isSome),
        ("script_path", (Check.absolute (job.resolve defaults).scriptPath).isSome)] := by
    rw [← fieldTable_resolve]
    simp [ResolvedJob.fieldChecks, JobSpec.resolve]
  have hfaults : (job.faults defaults).filter (fun field =>
        field = "title" || field = "script_path") =
      (((job.fieldTable defaults).filter
        ((fun field => field = "title" || field = "script_path") ∘ Prod.fst)).filter
          (·.2)).map (·.1) := by
    rw [JobSpec.faults, List.filter_map, List.filter_comm]
  rw [hfaults, hrows]
  have htitle : (job.resolve defaults).title = job.title := rfl
  rw [ResolvedJob.removalIssues, htitle]
  cases Check.title job.title <;> cases Check.absolute (job.resolve defaults).scriptPath <;> rfl

/-! ### The whole compilation -/

/-- Behind the checks a compilation has no verdict of its own: what passes them has a
destination. -/
theorem verdict?_compile (job : ResolvedJob) :
    verdict? job.compile.value = verdict? job.check := by
  cases hvalue : job.compile.value with
  | error failure =>
      rw [ResolvedJob.check_of_compile_eq_error hvalue]
      cases failure <;> rfl
  | ok done =>
      rw [(ResolvedJob.check_of_compile_eq_ok hvalue).1]
      rfl

/-- The verdict on issues names their fields. -/
theorem verdict?_of_issues (issues : Issues) (title : String) :
    verdict? (if issues.isEmpty then .ok ()
      else .error (.rejected ⟨title, .invalidFields issues⟩)) =
      some (if issues.map Prod.fst = [] then .accepted
        else .invalidFields (issues.map Prod.fst)) := by
  cases issues <;> simp [verdict?, Cause.verdict]

/-- The verdict on a job whose script is to be written, in terms of the settled job. -/
theorem verdict_of_present {job : JobSpec} {defaults : Defaults} (h : job.ensure = .present) :
    job.verdict defaults =
      match (job.resolve defaults).structuralCause with
      | some cause => cause.verdict
      | none =>
        if job.faults defaults = [] then .accepted else .invalidFields (job.faults defaults) := by
  have hnone : job.directories.isEmpty = (job.resolve defaults).directories.isEmpty := by
    rw [Bool.eq_iff_iff, List.isEmpty_iff, List.isEmpty_iff]
    exact distinctBy_eq_nil_iff.symm
  have hrules : rules (job.bearings defaults) job.directories (job.faults defaults) =
      rules (job.resolve defaults).bearings (job.resolve defaults).directories
        (job.faults defaults) := by
    rw [bearings_resolve, rules, rules, hnone]
  rw [JobSpec.verdict, h]
  exact (congrArg firstVerdict hrules).trans (firstVerdict_rules _ _)

/-- The verdict of the checks is the one that the tables tell, wherever something can
be reported on the job. -/
theorem verdict?_check_resolve {job : JobSpec} {defaults : Defaults}
    (hreportable : (job.resolve defaults).check ≠ .error .unreportable) :
    verdict? (job.resolve defaults).check = some (job.verdict defaults) := by
  cases hensure : job.ensure with
  | absent =>
      have hsettled : (job.resolve defaults).ensure = .absent := hensure
      rw [ResolvedJob.check_of_absent hsettled, verdict?_of_issues, fields_of_removalIssues,
        JobSpec.verdict, hensure]
      simp only [removalRules]
      generalize (job.faults defaults).filter _ = named
      cases named <;> simp [firstVerdict]
  | present =>
      have hsettled : (job.resolve defaults).ensure = .present := hensure
      rw [verdict_of_present hensure]
      cases hcause : (job.resolve defaults).structuralCause with
      | some cause => simp [ResolvedJob.check, hsettled, hcause, verdict?]
      | none =>
          cases hfound : Issues.collect (job.resolve defaults).fieldChecks with
          | error failure =>
              refine absurd ?_ hreportable
              simp [ResolvedJob.check, hsettled, hcause, hfound]
          | ok issues =>
              have hcheck : (job.resolve defaults).check =
                  if issues.isEmpty then .ok ()
                  else .error (.rejected ⟨job.title, .invalidFields issues⟩) := by
                simp only [ResolvedJob.check, hsettled, hcause, hfound]
                rfl
              rw [hcheck, verdict?_of_issues, fields_of_collect_fieldChecks hfound]

/-- Where the paths that a job names are texts and still nothing can be reported on it,
that is for the path of its script, which comes from the defaults. -/
theorem scriptPath_of_isUnreportable {job : JobSpec} {defaults : Defaults}
    (htexts : ∀ path ∈ job.paths, path.toText? ≠ none)
    (h : (job.resolve defaults).IsUnreportable) :
    (job.resolve defaults).scriptPath.isAbsolute = false ∧ job.scriptPath = none ∧
      defaults.spoolDir.isAbsolute = false ∧ defaults.spoolDir.toText? = none := by
  obtain ⟨-, -, hdirectories | hidentity | ⟨hrelative, hnone⟩⟩ := h
  · obtain ⟨-, directory, hmem, hnone⟩ := hdirectories
    have hnamed : directory ∈ job.directories := (sublist_distinctBy _ _).subset hmem
    exact absurd hnone (htexts directory (by simp [JobSpec.paths, hnamed]))
  · obtain ⟨path, hpath, -, hnone⟩ := hidentity
    have hnamed : job.sshIdentity = some path := by
      simp only [JobSpec.resolve] at hpath
      split at hpath
      · exact hpath
      · cases hpath
    exact absurd hnone (htexts path (by simp [JobSpec.paths, hnamed]))
  · refine ⟨hrelative, ?_⟩
    cases hown : job.scriptPath with
    | some path =>
        have hpath : (job.resolve defaults).scriptPath = path := by
          rw [JobSpec.resolve, hown, Option.getD_some]
        rw [hpath] at hnone
        exact absurd hnone (htexts path (by simp [JobSpec.paths, hown]))
    | none =>
        have hpath : (job.resolve defaults).scriptPath =
            defaults.spoolDir.join (ofText (scriptFileName job.title)) := by
          rw [JobSpec.resolve, hown, Option.getD_none]
        rw [hpath] at hrelative hnone
        rw [isAbsolute_join, Bool.or_eq_false_iff] at hrelative
        refine ⟨rfl, hrelative.1, ?_⟩
        cases hspool : defaults.spoolDir.toText? with
        | none => rfl
        | some spool =>
            obtain ⟨joined, hjoined⟩ := exists_join_eq_ofText spool (scriptFileName job.title)
            rw [eq_ofText_of_toText? hspool, hjoined, toText?_ofText] at hnone
            cases hnone

/-- The path of the script is at fault exactly if it is relative. -/
theorem mem_faults_iff_relative_scriptPath {job : JobSpec} {defaults : Defaults} :
    "script_path" ∈ job.faults defaults ↔ (job.resolve defaults).scriptPath.isAbsolute = false := by
  rw [JobSpec.faults, ← fieldTable_resolve]
  simp [ResolvedJob.fieldChecks, Check.isSome_absolute]

/-- A verdict that names fields is one on a job that the rules on the whole job let pass. -/
theorem structuralCause_of_verdict {job : JobSpec} {defaults : Defaults} {fields : List String}
    (hpresent : job.ensure = .present) (h : job.verdict defaults = .invalidFields fields) :
    (job.resolve defaults).structuralCause = none ∧ fields = job.faults defaults := by
  rw [verdict_of_present hpresent] at h
  cases hcause : (job.resolve defaults).structuralCause with
  | some cause =>
      rw [hcause] at h
      cases cause with
      | invalidFields issues =>
          exact absurd hcause (ResolvedJob.structuralCause_ne_invalidFields _ issues)
      | _ => cases h
  | none =>
      rw [hcause] at h
      simp only at h
      split at h
      · cases h
      · exact ⟨rfl, (Verdict.invalidFields.inj h).symm⟩

/-- A verdict on a job that is to be told, and that names the path of the script, while this
path comes from a directory of the defaults that is relative and no text.  Such a path has
no place in a report. -/
def JobSpec.VerdictIsLost (job : JobSpec) (defaults : Defaults) : Prop :=
  job.ensure = .present ∧
    (∃ fields, job.verdict defaults = .invalidFields fields ∧ "script_path" ∈ fields) ∧
    job.scriptPath = none ∧ defaults.spoolDir.isAbsolute = false ∧
    defaults.spoolDir.toText? = none

/-- Where the paths of a job are texts, these are the verdicts that cannot be reported. -/
theorem verdictIsLost_iff {job : JobSpec} (htexts : ∀ path ∈ job.paths, path.toText? ≠ none)
    (defaults : Defaults) :
    job.VerdictIsLost defaults ↔ (job.resolve defaults).IsUnreportable := by
  constructor
  · rintro ⟨hpresent, ⟨fields, hverdict, hmem⟩, hown, -, hspool⟩
    obtain ⟨hcause, rfl⟩ := structuralCause_of_verdict hpresent hverdict
    have hrelative := mem_faults_iff_relative_scriptPath.mp hmem
    have hpath : (job.resolve defaults).scriptPath =
        defaults.spoolDir.join (ofText (scriptFileName job.title)) := by
      rw [JobSpec.resolve, hown, Option.getD_none]
    refine ⟨hpresent, hcause, Or.inr (Or.inr ⟨hrelative, ?_⟩)⟩
    rw [hpath] at hrelative ⊢
    rw [isAbsolute_join, Bool.or_eq_false_iff] at hrelative
    by_contra hjoined
    exact toText?_ne_none_of_join hrelative.2 hjoined hspool
  · intro hunreportable
    obtain ⟨hrelative, hdefaults⟩ := scriptPath_of_isUnreportable htexts hunreportable
    obtain ⟨hpresent, hcause, -⟩ := hunreportable
    have hmem : "script_path" ∈ job.faults defaults := mem_faults_iff_relative_scriptPath.mpr hrelative
    refine ⟨hpresent, ⟨job.faults defaults, ?_, hmem⟩, hdefaults⟩
    rw [verdict_of_present hpresent, hcause]
    exact if_neg (List.ne_nil_of_mem hmem)

/-- **The first rule that applies decides.**  Where the paths of a job are texts, its
compilation ends with the verdict that is told from the declaration and the defaults.
The one exception is a verdict on the path of a script under a relative directory of the
defaults that is no text: such a compilation has no end at all. -/
theorem first_rule_that_applies_decides {job : JobSpec}
    (htexts : ∀ path ∈ job.paths, path.toText? ≠ none) (defaults : Defaults) :
    (¬ job.VerdictIsLost defaults →
      verdict? (job.compile defaults).value = some (job.verdict defaults)) ∧
    (verdict? (job.compile defaults).value = none ↔ job.VerdictIsLost defaults) := by
  have hcompile : verdict? (job.compile defaults).value =
      verdict? (job.resolve defaults).check := verdict?_compile _
  have hlost : job.VerdictIsLost defaults ↔
      (job.resolve defaults).check = .error .unreportable := by
    rw [verdictIsLost_iff htexts, ResolvedJob.check_eq_unreportable_iff]
  rw [hcompile, hlost]
  refine ⟨verdict?_check_resolve, ?_⟩
  constructor
  · intro hnone
    by_contra hreportable
    rw [verdict?_check_resolve hreportable] at hnone
    cases hnone
  · intro hpanic
    rw [hpanic]
    rfl

/-- A job with three fields at fault and an empty bucket, which hides that of the
defaults. -/
def faultyJob : JobSpec where
  title := "db/1"
  directories := [.ofText "/srv", .ofText "srv"]
  bucket := .value ""
  target := some "ssh://host//backups"
  removeOlderThan := some "soon"

theorem first_rule_decides_on_faultyJob :
    (∀ path ∈ faultyJob.paths, path.toText? ≠ none) ∧
    verdict? (faultyJob.compile { bucket := some "archive" }).value =
      some (.invalidFields ["title", "directories", "remove_older_than"]) := by
  have htexts : ∀ path ∈ faultyJob.paths, path.toText? ≠ none := by
    intro path hpath
    have hcases : path = .ofText "/srv" ∨ path = .ofText "srv" := by
      simpa [JobSpec.paths, faultyJob] using hpath
    rcases hcases with rfl | rfl <;> simp [toText?_ofText]
  have hverdict : faultyJob.verdict { bucket := some "archive" } =
      .invalidFields ["title", "directories", "remove_older_than"] := by decide +kernel
  have hkept : ¬ faultyJob.VerdictIsLost { bucket := some "archive" } := by
    rintro ⟨-, -, -, hrelative, -⟩
    exact absurd hrelative (by decide)
  refine ⟨htexts, ?_⟩
  rw [(first_rule_that_applies_decides htexts { bucket := some "archive" }).1 hkept, hverdict]

/-- A job with nothing at fault but the directory of its script, which it takes from the
defaults. -/
def spooledJob : JobSpec where
  title := "db"
  directories := [.ofText "/srv"]
  target := some "ssh://host//backups"

/-- Defaults with a relative directory for the scripts, of a byte that no text has. -/
def brokenDefaults : Defaults where
  spoolDir := ⟨[0xFF]⟩

theorem verdict_on_spooledJob_is_lost :
    (∀ path ∈ spooledJob.paths, path.toText? ≠ none) ∧
    spooledJob.verdict brokenDefaults = .invalidFields ["script_path"] ∧
    (spooledJob.compile brokenDefaults).value = .error .unreportable ∧
    verdict? (spooledJob.compile brokenDefaults).value ≠
      some (spooledJob.verdict brokenDefaults) := by
  have htexts : ∀ path ∈ spooledJob.paths, path.toText? ≠ none := by
    simp [JobSpec.paths, spooledJob, toText?_ofText]
  have hpanic : (spooledJob.compile brokenDefaults).value = .error .unreportable := rfl
  exact ⟨htexts, by decide +kernel, hpanic, by simp [hpanic, verdict?]⟩

end BackupPlan
