import BackupPlan.Config.Check
import BackupPlan.Proofs.Acceptance

/-!
# The key of a destination shows only where it is assigned

A job is compiled twice, with two keys in place of every key that the job or the
defaults give.  Nothing tells the runs apart but the line of the script that
assigns the key: not the log, not a rejection, not a record that is written out.

* `exists_settled_withKey` — resolution hands the key on and does not look at it;
* `ResolvedJob.check_withKey`, `ResolvedJob.destination_withKey` — no decision
  depends on the key, only on whether there is one;
* `ResolvedJob.content_withKey` — the key stands quoted in one place of the script;
* `key_shows_only_in_its_assignment` — the two runs side by side.
-/

namespace BackupPlan

open Shell

/-! ### Records with another key -/

/-- The setting with another value in place of the one that it gives. -/
def Setting.replace {α : Type} (a : α) : Setting α → Setting α
  | unset => unset
  | disabled => disabled
  | value _ => value a

/-- The job with another key, if it gives one. -/
def JobSpec.withKey (job : JobSpec) (key : String) : JobSpec :=
  { job with destKey := job.destKey.replace ⟨key⟩ }

/-- The defaults with another key, if they give one. -/
def Defaults.withKey (defaults : Defaults) (key : String) : Defaults :=
  { defaults with destKey := defaults.destKey.map fun _ => ⟨key⟩ }

/-- The configuration with another key in place of every key in it. -/
def Config.withKey (config : Config) (key : String) : Config where
  defaults := config.defaults.withKey key
  jobs := config.jobs.map (·.withKey key)

/-- The settled job with another key, if it has one. -/
def ResolvedJob.withKey (job : ResolvedJob) (key : String) : ResolvedJob :=
  { job with destKey := job.destKey.map fun _ => ⟨key⟩ }

/-- A job compiled with one key in place of every key given. -/
def compileWithKey (job : JobSpec) (defaults : Defaults) (key : String) : Logged Outcome :=
  (job.withKey key).compile (defaults.withKey key)

/-- Settling a job hands the key on: with any key that is not empty the job
settles on the same fields beside the key. -/
theorem exists_settled_withKey (job : JobSpec) (defaults : Defaults) :
    ∃ settled : ResolvedJob, ∀ key, key ≠ "" →
      (job.withKey key).resolve (defaults.withKey key) = settled.withKey key := by
  -- An empty key counts as none, so the settled job keeps the key that is given.
  refine ⟨{ job.resolve defaults with destKey := job.destKey.resolve defaults.destKey }, ?_⟩
  intro key hkey
  have hgiven : (job.destKey.replace ⟨key⟩).resolve (defaults.destKey.map fun _ => ⟨key⟩) =
      (job.destKey.resolve defaults.destKey).map fun _ => (⟨key⟩ : Secret) := by
    cases job.destKey <;> rfl
  have hkept : ((job.destKey.resolve defaults.destKey).map fun _ => (⟨key⟩ : Secret)).filter
      (·.reveal ≠ "") = (job.destKey.resolve defaults.destKey).map fun _ => ⟨key⟩ := by
    cases job.destKey.resolve defaults.destKey <;> simp [hkey]
  simp only [JobSpec.resolve, JobSpec.withKey, Defaults.withKey, ResolvedJob.withKey, hgiven, hkept]
  rfl

/-! ### Records that are written out -/

/-- A job is written without its key. -/
theorem JobSpec.toJson?_withKey (job : JobSpec) (key : String) :
    (job.withKey key).toJson? = job.toJson? := by
  have hmember : settingMember "dest_key" Secret.toJson (job.destKey.replace ⟨key⟩) =
      settingMember "dest_key" Secret.toJson job.destKey := by
    cases job.destKey <;> rfl
  simp only [JobSpec.toJson?, JobSpec.withKey, hmember]

/-- The defaults are written without their key. -/
theorem Defaults.toJson?_withKey (defaults : Defaults) (key : String) :
    (defaults.withKey key).toJson? = defaults.toJson? := by
  have hmember : (defaults.destKey.map fun _ => (⟨key⟩ : Secret)).map Secret.toJson =
      defaults.destKey.map Secret.toJson := by
    cases defaults.destKey <;> rfl
  simp only [Defaults.toJson?, Defaults.withKey, hmember]

/-- The jobs of a configuration are written without their keys. -/
theorem Config.jobs_toJson?_withKey (config : Config) (key : String) :
    (config.withKey key).jobs.mapM JobSpec.toJson? = config.jobs.mapM JobSpec.toJson? := by
  simp only [Config.withKey, List.mapM_map, Function.comp_def, JobSpec.toJson?_withKey]

/-- A configuration is written without its keys. -/
theorem Config.toJson?_withKey (config : Config) (key : String) :
    (config.withKey key).toJson? = config.toJson? := by
  unfold Config.toJson?
  rw [Config.jobs_toJson?_withKey]
  simp only [Config.withKey, Defaults.toJson?_withKey]

/-- What is wrong with a configuration is told without its keys, the values at
fault included. -/
theorem Config.issues_withKey (config : Config) (key : String) :
    (config.withKey key).issues = config.issues := by
  have htitles : (config.withKey key).jobs.map (·.title) = config.jobs.map (·.title) := by
    simp [Config.withKey, JobSpec.withKey, Function.comp_def]
  have hdefaults : (config.withKey key).defaults.issues = config.defaults.issues := rfl
  unfold Config.issues
  rw [htitles, hdefaults, Config.jobs_toJson?_withKey]

namespace ResolvedJob

variable {job : ResolvedJob} {destination : Destination}

/-! ### Decisions -/

/-- The rules on the whole job ask only whether there is a key. -/
theorem structuralCause_withKey (job : ResolvedJob) (key : String) :
    (job.withKey key).structuralCause = job.structuralCause := by
  have hsome : (job.withKey key).destKey.isNone = job.destKey.isNone := by
    simp [withKey, Option.isNone_map]
  unfold structuralCause
  rw [hsome]
  rfl

/-- The verdict on a job does not depend on its key. -/
theorem check_withKey (job : ResolvedJob) (key : String) :
    (job.withKey key).check = job.check := by
  unfold check
  rw [structuralCause_withKey]
  rfl

/-- The destination of a job does not depend on its key. -/
theorem destination_withKey (job : ResolvedJob) (key : String) :
    (job.withKey key).destination = job.destination := rfl

/-- A job without a key has none to replace. -/
theorem withKey_of_destKey_eq_none (h : job.destKey = none) (key : String) :
    job.withKey key = job := by
  have hsame : (job.destKey.map fun _ => (⟨key⟩ : Secret)) = job.destKey := by
    rw [h, Option.map_none]
  rw [withKey, hsame]

/-! ### The script -/

/-- Lines with a piece in one of them are a text around that piece. -/
theorem exists_intercalate_around (separator lead : String) (before after : List String) :
    ∃ pre post, ∀ piece, separator.intercalate (before ++ (lead ++ piece) :: after) =
      pre ++ piece ++ post := by
  induction before with
  | nil =>
      cases after with
      | nil => exact ⟨lead, "", fun piece => by simp⟩
      | cons line rest =>
          refine ⟨lead, separator ++ separator.intercalate (line :: rest), fun piece => ?_⟩
          rw [List.nil_append, String.intercalate_cons_cons]
          simp only [String.append_assoc]
  | cons line rest ih =>
      obtain ⟨pre, post, hrest⟩ := ih
      refine ⟨line ++ separator ++ pre, post, fun piece => ?_⟩
      rw [List.cons_append, String.intercalate_cons_of_ne_nil (by simp), hrest]
      simp only [String.append_assoc]

/-- The records told on the way to a script do not depend on the key. -/
theorem log_compileTo_withKey (job : ResolvedJob) (destination : Destination) (key : String) :
    ((job.withKey key).compileTo destination).log = (job.compileTo destination).log := by
  have hrecords : credentialRecords (job.withKey key) destination =
      credentialRecords job destination := by
    simp only [credentialRecords, withKey, Option.isNone_map]
  simp only [compileTo, hrecords]
  rfl

/-- A place that reads no credentials is not told the key. -/
theorem compileTo_withKey_of_variables_eq_none
    (h : destination.kind.credentialVariables = none) (key : String) :
    ((job.withKey key).compileTo destination).value = (job.compileTo destination).value := by
  have hlines : environment (job.withKey key) destination = environment job destination := by
    simp [environment, credentials, h]
  simp only [compileTo, hlines]
  rfl

/-- Where a job has a key and its place reads one, the key is assigned on one
line, and no other line depends on it. -/
theorem exists_environment_around {idVariable keyVariable : String}
    (hvariables : destination.kind.credentialVariables = some (idVariable, keyVariable))
    (hkey : job.destKey ≠ none) :
    ∃ before after, ∀ key, environment (job.withKey key) destination =
      before ++ Command.ofArg (.assign keyVariable key) :: after := by
  obtain ⟨secret, hsecret⟩ := Option.ne_none_iff_exists'.mp hkey
  let login : List (String × String) := (job.destId.map (idVariable, ·)).toList
  refine ⟨login.map fun given => Command.ofArg (.assign given.1 given.2),
    [(Command.ofWord "export").addArgs
      ((login.map fun given => Arg.word given.1) ++ [.word keyVariable])], fun key => ?_⟩
  have hassigned : credentials (job.withKey key) destination.kind.credentialVariables =
      login ++ [(keyVariable, key)] := by
    simp [credentials, hvariables, withKey, hsecret, login]
  simp [environment, hassigned]

/-- **The key in the script.**  The script of a job is the same for all keys, or a
text around the quoted key; the former if the job has no key or its place
reads none. -/
theorem content_withKey (job : ResolvedJob) (destination : Destination) :
    (∀ key, ((job.withKey key).compileTo destination).value.script.content =
      (job.compileTo destination).value.script.content) ∨
    (job.destKey ≠ none ∧ destination.kind.credentialVariables ≠ none ∧
      ∃ pre post, ∀ key, ((job.withKey key).compileTo destination).value.script.content =
        some (pre ++ singleQuote key ++ post)) := by
  by_cases hkey : job.destKey = none
  · exact Or.inl fun key => by rw [withKey_of_destKey_eq_none hkey]
  rcases hvariables : destination.kind.credentialVariables with _ | ⟨idVariable, keyVariable⟩
  · exact Or.inl fun key => by rw [compileTo_withKey_of_variables_eq_none hvariables]
  · obtain ⟨before, after, hlines⟩ := exists_environment_around hvariables hkey
    obtain ⟨pre, post, htext⟩ := exists_intercalate_around "\n" (keyVariable ++ "=")
      (before.map Command.text) (after.map Command.text ++ [(commandChain job destination).text])
    refine Or.inr ⟨hkey, by simp, pre, post ++ "\n", fun key => ?_⟩
    have hchain : commandChain (job.withKey key) destination = commandChain job destination := rfl
    have hassignment : (Command.ofArg (.assign keyVariable key)).text =
        keyVariable ++ "=" ++ singleQuote key := by
      simp [Command.text, Command.ofArg, Arg.text]
    simp only [compileTo, Script.render, Script.written, hlines, hchain, List.map_append,
      List.map_cons, hassignment, List.append_assoc, List.cons_append, htext]
    simp only [String.append_assoc]

/-- **The ends of a compilation with any key**: one failure, or one compiled job,
for all keys; or a script for one destination. -/
theorem compile_withKey_cases (job : ResolvedJob) :
    (∃ failure, ∀ key, (job.withKey key).compile = ⟨.error failure, []⟩) ∨
    (∃ done log, ∀ key, (job.withKey key).compile = ⟨.ok done, log⟩) ∨
    (job.ensure = .present ∧ ∃ destination, job.destination = .ok destination ∧
      ∀ key, (job.withKey key).compile =
        ⟨.ok ((job.withKey key).compileTo destination).value,
          (job.compileTo destination).log⟩) := by
  rcases job.compile_cases with ⟨failure, hcheck, -⟩ | ⟨hcheck, habsent, -⟩ |
    ⟨hcheck, hpresent, rejection, hplace, -⟩ | ⟨hcheck, hpresent, destination, hplace, -⟩
  · exact Or.inl ⟨failure, fun key => by rw [compile, check_withKey, hcheck]⟩
  · refine Or.inr (Or.inl ⟨job.compileRemoval.value, job.compileRemoval.log, fun key => ?_⟩)
    have habsent : (job.withKey key).ensure = .absent := habsent
    rw [compile, check_withKey, hcheck, habsent]
    rfl
  · refine Or.inl ⟨.rejected rejection, fun key => ?_⟩
    have hpresent : (job.withKey key).ensure = .present := hpresent
    simp only [compile, check_withKey, hcheck, hpresent, destination_withKey, hplace]
  · refine Or.inr (Or.inr ⟨hpresent, destination, hplace, fun key => ?_⟩)
    have hpresent : (job.withKey key).ensure = .present := hpresent
    simp only [compile, check_withKey, hcheck, hpresent, destination_withKey, hplace,
      log_compileTo_withKey]

end ResolvedJob

/-! ### Two runs side by side -/

/-- Two compiled jobs agree in everything but the content of their scripts, and
there too if not for one place, which holds one key or the other. -/
structure CompiledJob.SameBesideKey (key other : String) (done twin : CompiledJob) : Prop where
  title : done.title = twin.title
  path : done.script.path = twin.script.path
  owner : done.script.owner = twin.script.owner
  mode : done.script.mode = twin.script.mode
  ensure : done.script.ensure = twin.script.ensure
  keyImport : done.keyImport = twin.keyImport
  content : done.script.content = twin.script.content ∨
    ∃ pre post, done.script.content = some (pre ++ singleQuote key ++ post) ∧
      twin.script.content = some (pre ++ singleQuote other ++ post)

/-- Two runs end alike: with one rejection, or with compiled jobs that agree in
everything but the key. -/
inductive Outcome.SameBesideKey (key other : String) : Outcome → Outcome → Prop
  | rejected (rejection : Rejection) :
      SameBesideKey key other (.error (.rejected rejection)) (.error (.rejected rejection))
  | compiled {done twin : CompiledJob} (h : done.SameBesideKey key other twin) :
      SameBesideKey key other (.ok done) (.ok twin)

namespace ResolvedJob

/-- Compiling with two keys ends alike unless nothing can be reported on the job. -/
theorem compile_sameBesideKey (job : ResolvedJob) (key other : String) :
    Outcome.SameBesideKey key other (job.withKey key).compile.value
      (job.withKey other).compile.value ∨
    ∀ k, (job.withKey k).compile.value = .error .unreportable := by
  rcases job.compile_withKey_cases with ⟨failure, hc⟩ | ⟨done, log, hc⟩ |
    ⟨-, destination, -, hc⟩
  · cases failure with
    | rejected rejection =>
        rw [hc, hc]
        exact Or.inl (.rejected rejection)
    | unreportable => exact Or.inr fun k => by rw [hc]
  · rw [hc, hc]
    exact Or.inl (.compiled ⟨rfl, rfl, rfl, rfl, rfl, rfl, Or.inl rfl⟩)
  · rw [hc, hc]
    refine Or.inl (.compiled ⟨rfl, rfl, rfl, rfl, rfl, rfl, ?_⟩)
    rcases job.content_withKey destination with hsame | ⟨-, -, pre, post, hcontent⟩
    · exact Or.inl ((hsame key).trans (hsame other).symm)
    · exact Or.inr ⟨pre, post, hcontent key, hcontent other⟩

/-- A job whose script is removed, one with a remote URL and one without a key
compile alike with all keys. -/
theorem compile_withKey_eq_of_keyless {job : ResolvedJob}
    (h : job.ensure = .absent ∨ job.target ≠ none ∨ job.destKey = none) (key other : String) :
    (job.withKey key).compile = (job.withKey other).compile := by
  rcases job.compile_withKey_cases with ⟨failure, hc⟩ | ⟨done, log, hc⟩ |
    ⟨hpresent, destination, hplace, hc⟩
  · rw [hc, hc]
  · rw [hc, hc]
  rcases h with habsent | htarget | hnone
  · rw [hpresent] at habsent
    cases habsent
  · obtain ⟨target, htarget⟩ := Option.ne_none_iff_exists'.mp htarget
    have hremote : destination.kind.credentialVariables = none := by
      simp only [ResolvedJob.destination, htarget, Except.ok.injEq] at hplace
      rw [← hplace]
      rfl
    rw [hc, hc, compileTo_withKey_of_variables_eq_none hremote,
      compileTo_withKey_of_variables_eq_none hremote]
  · rw [withKey_of_destKey_eq_none hnone, withKey_of_destKey_eq_none hnone]

end ResolvedJob

/-- **The key shows only in its assignment.**  A job is compiled with one key and
with another.  The records of both runs are the same, and so is everything that
is written out of the job, the defaults and a configuration, the issues of the
configuration included.  The runs end with one rejection or with compiled jobs
that agree in all but the quoted key, exactly if something can be reported on
the job; and they agree in all where the script is removed, goes to a remote
URL or has its key switched off. -/
theorem key_shows_only_in_its_assignment {key other : String} (hkey : key ≠ "")
    (hother : other ≠ "") (job : JobSpec) (defaults : Defaults) (config : Config) :
    (compileWithKey job defaults key).log = (compileWithKey job defaults other).log ∧
    (Outcome.SameBesideKey key other (compileWithKey job defaults key).value
        (compileWithKey job defaults other).value ↔
      ¬ ((job.withKey key).resolve (defaults.withKey key)).IsUnreportable) ∧
    (job.ensure = .absent ∨ nonEmpty job.target ≠ none ∨ job.destKey = .disabled →
      (compileWithKey job defaults key).value = (compileWithKey job defaults other).value) ∧
    (job.withKey key).toJson? = (job.withKey other).toJson? ∧
    (defaults.withKey key).toJson? = (defaults.withKey other).toJson? ∧
    (config.withKey key).toJson? = (config.withKey other).toJson? ∧
    (config.withKey key).issues = (config.withKey other).issues := by
  obtain ⟨settled, hsettled⟩ := exists_settled_withKey job defaults
  have hrun : ∀ k, k ≠ "" → compileWithKey job defaults k =
      ⟨(settled.withKey k).compile.value,
        job.resolutionRecords ++ (settled.withKey k).compile.log⟩ := by
    intro k hk
    rw [compileWithKey, JobSpec.compile, hsettled k hk]
    rfl
  have hlog : (settled.withKey key).compile.log = (settled.withKey other).compile.log := by
    rcases settled.compile_withKey_cases with ⟨failure, hc⟩ | ⟨done, log, hc⟩ |
      ⟨-, destination, -, hc⟩ <;> rw [hc, hc]
  rw [hrun key hkey, hrun other hother, hsettled key hkey]
  refine ⟨by rw [hlog], ?_, ?_, ?_, ?_, ?_, ?_⟩
  · rw [← ResolvedJob.compile_eq_unreportable_iff]
    constructor
    · intro hsame hpanic
      rw [hpanic] at hsame
      cases hsame
    · intro hreport
      rcases settled.compile_sameBesideKey key other with hsame | hnone
      · exact hsame
      · exact absurd (hnone key) hreport
  · intro hkeyless
    have hsettledKeyless : (settled.withKey key).ensure = .absent ∨
        (settled.withKey key).target ≠ none ∨ (settled.withKey key).destKey = none := by
      rw [← hsettled key hkey]
      rcases hkeyless with habsent | htarget | hdisabled
      · exact Or.inl habsent
      · exact Or.inr (Or.inl htarget)
      · refine Or.inr (Or.inr ?_)
        simp [JobSpec.resolve, JobSpec.withKey, hdisabled, Setting.replace, Setting.resolve]
    have hfield : settled.ensure = .absent ∨ settled.target ≠ none ∨ settled.destKey = none := by
      simpa [ResolvedJob.withKey] using hsettledKeyless
    rw [ResolvedJob.compile_withKey_eq_of_keyless hfield key other]
  · rw [JobSpec.toJson?_withKey, JobSpec.toJson?_withKey]
  · rw [Defaults.toJson?_withKey, Defaults.toJson?_withKey]
  · rw [Config.toJson?_withKey, Config.toJson?_withKey]
  · rw [Config.issues_withKey, Config.issues_withKey]

/-- A job with a key of its own and a bucket. -/
def keyedJob : JobSpec where
  title := "db"
  directories := [.ofText "/srv"]
  bucket := .value "archive"
  destKey := .value ⟨"secret"⟩
  hostIdentifier := some "web"

theorem key_of_keyedJob_shows_only_in_its_assignment :
    "one" ≠ "" ∧ "two" ≠ "" ∧
      Outcome.SameBesideKey "one" "two" (compileWithKey keyedJob {} "one").value
        (compileWithKey keyedJob {} "two").value := by
  have hshowable :
      ¬ ((keyedJob.withKey "one").resolve (Defaults.withKey {} "one")).IsUnreportable := by
    obtain ⟨done, hdone⟩ : ∃ done, (compileWithKey keyedJob {} "one").value = .ok done := ⟨_, rfl⟩
    rw [← ResolvedJob.compile_eq_unreportable_iff]
    intro hpanic
    cases hdone.symm.trans hpanic
  exact ⟨by decide, by decide,
    (key_shows_only_in_its_assignment (by decide) (by decide) keyedJob {} {}).2.1.mpr hshowable⟩

/-- Secrecy is not had from a run that has no result: a relative path that is no text takes the
run down. -/
theorem runs_of_unshowableJob_have_no_end :
    ¬ Outcome.SameBesideKey "one" "two" (compileWithKey unshowableJob {} "one").value
      (compileWithKey unshowableJob {} "two").value := by
  have hone : (compileWithKey unshowableJob {} "one").value = .error .unreportable := rfl
  rw [hone]
  intro hsame
  cases hsame

end BackupPlan
