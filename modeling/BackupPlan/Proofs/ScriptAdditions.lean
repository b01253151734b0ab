import BackupPlan.Proofs.ScriptReading

/-!
# What a fragment and an age add to a script

A job may bring a shell fragment that runs before its backup, and an age from which old
backups are removed after it.  The fragment is taken as it is, whatever it holds, and the
age has to be an interval.  Both stand on the last line of the script, in front of the
backup and behind it; the lines above them, the backup itself and all that a compiled job
has beside the text of its script stay as they are without them.

* `Script.content_render` — the text of a script: its lines, then its chain of commands;
* `text_commandChain` — the chain of a job: fragment, backup, removal;
* `ResolvedJob.compile_withAdditions` — the text of a script with additions;
* `fragment_and_age_only_add` — the runs side by side.
-/

namespace BackupPlan

open Shell

/-! ### The text of a script -/

/-- Commands as lines, each with its line break. -/
def Shell.linesText : List Command → String
  | [] => ""
  | command :: rest => command.text ++ "\n" ++ linesText rest

/-- Joining lines before a last one is ending each of them. -/
theorem intercalate_lines (lines : List Command) (last : String) :
    "\n".intercalate (lines.map Command.text ++ [last]) = linesText lines ++ last := by
  induction lines with
  | nil => simp [linesText]
  | cons command rest ih =>
      rw [List.map_cons, List.cons_append, String.intercalate_cons_of_ne_nil (by simp), ih,
        linesText]
      simp only [String.append_assoc]

/-- A script is its lines, and behind them its chain on a line of its own. -/
theorem Script.content_render (job : ResolvedJob) (lines : List Command) (chain : Chain) :
    (Script.render job lines chain).content = some (linesText lines ++ chain.text ++ "\n") := by
  rw [Script.render, Script.written, intercalate_lines]

/-- The last line of a script: a backup, with a fragment in front of it and a removal
behind it where there are any. -/
def lastLine (fragment : Option String) (backup : String) (removal : Option String) : String :=
  " && ".intercalate (fragment.toList ++ [backup] ++ removal.toList)

/-- The chain is the last line of the script: the fragment, the backup, the removal. -/
theorem text_commandChain (job : ResolvedJob) (destination : Destination) :
    (commandChain job destination).text =
      lastLine job.preCommand (backupCommand job destination).text
        (job.removeOlderThan.map fun age => (removalCommand age destination).text) := by
  have hfragment : ∀ fragment, (Command.ofWord fragment).text = fragment := by
    intro fragment
    simp [Command.ofWord, Command.text, Arg.text]
  rw [commandChain, Chain.text, lastLine]
  cases job.preCommand <;> cases job.removeOlderThan <;> simp [hfragment]

/-- A script is its environment, the line of its commands and a break. -/
theorem content_compileTo (job : ResolvedJob) (destination : Destination) :
    (job.compileTo destination).value.script.content =
      some (linesText (environment job destination) ++ (commandChain job destination).text ++
        "\n") :=
  Script.content_render job (environment job destination) (commandChain job destination)

/-- A compiled job with another text in its script. -/
def CompiledJob.withContent (done : CompiledJob) (content : String) : CompiledJob :=
  { done with script := { done.script with content := some content } }

/-! ### Settled jobs with additions -/

namespace ResolvedJob

variable {job : ResolvedJob}

/-- The settled job with another fragment and another age. -/
def withAdditions (job : ResolvedJob) (fragment age : Option String) : ResolvedJob :=
  { job with preCommand := fragment, removeOlderThan := age }

/-- The verdict on a job does not depend on its fragment. -/
theorem check_withFragment (fragment : Option String) :
    (job.withAdditions fragment job.removeOlderThan).check = job.check :=
  rfl

/-- An accepted job stays accepted with any fragment, and with an interval for an age. -/
theorem check_withAdditions (hpresent : job.ensure = .present) (hcheck : job.check = .ok ())
    (fragment : Option String) {age : Option String}
    (hage : ∀ text, age = some text → Check.isInterval text = true) :
    (job.withAdditions fragment age).check = .ok () := by
  have hpresent' : (job.withAdditions fragment age).ensure = .present := hpresent
  have hremoval : age.bind Check.interval = none := by
    cases age with
    | none => rfl
    | some text => exact Check.interval_eq_none_iff.mpr (hage text rfl)
  obtain ⟨hcause, hfields⟩ := (check_eq_ok_iff hpresent).mp hcheck
  obtain ⟨htitle, hdirectories, hidentity, hids, hfull, -, hpath, hserver⟩ :=
    fieldChecks_clear_iff.mp hfields
  exact (check_eq_ok_iff hpresent').mpr ⟨hcause, fieldChecks_clear_iff.mpr
    ⟨htitle, hdirectories, hidentity, hids, hfull, hremoval, hpath, hserver⟩⟩

/-- Beside the text of its script, a compiled job does not depend on fragment and age. -/
theorem value_compileTo_withAdditions (destination : Destination) (fragment age : Option String)
    {content : String}
    (h : ((job.withAdditions fragment age).compileTo destination).value.script.content =
      some content) :
    ((job.withAdditions fragment age).compileTo destination).value =
      (job.compileTo destination).value.withContent content := by
  rw [CompiledJob.withContent, ← h]
  rfl

/-- **The script of a job with additions**: the lines and the backup of the job without
them, with the fragment in front of the backup and the removal behind it. -/
theorem compile_withAdditions (hpresent : job.ensure = .present) (hcheck : job.check = .ok ())
    {destination : Destination} (hplace : job.destination = .ok destination)
    (fragment : Option String) {age : Option String}
    (hage : ∀ text, age = some text → Check.isInterval text = true) :
    (job.withAdditions fragment age).compile.value =
      .ok ((job.compileTo destination).value.withContent
        (linesText (environment job destination) ++
          lastLine fragment (backupCommand job destination).text
            (age.map fun text => (removalCommand text destination).text) ++ "\n")) := by
  have hpresent' : (job.withAdditions fragment age).ensure = .present := hpresent
  have hplace' : (job.withAdditions fragment age).destination = .ok destination := hplace
  have hcontent := content_compileTo (job.withAdditions fragment age) destination
  rw [text_commandChain] at hcontent
  rw [compile_eq_ok hpresent' (check_withAdditions hpresent hcheck fragment hage) hplace',
    value_compileTo_withAdditions destination fragment age hcontent]
  rfl

end ResolvedJob

/-! ### Runs side by side -/

/-- The job with another fragment that runs before the backup. -/
def JobSpec.withFragment (job : JobSpec) (fragment : Option String) : JobSpec :=
  { job with preCommand := fragment }

/-- The job with another age from which old backups are removed. -/
def JobSpec.withAge (job : JobSpec) (age : Option String) : JobSpec :=
  { job with removeOlderThan := age }

section

variable {job : JobSpec} {defaults : Defaults}

/-- Fragment and age reach the resolved job as they are, unless they are empty. -/
theorem resolve_withFragment_withAge (fragment age : Option String) :
    ((job.withFragment fragment).withAge age).resolve defaults =
      (job.resolve defaults).withAdditions (nonEmpty fragment) (nonEmpty age) :=
  rfl

/-- The script of a declared job with additions, told from the fragment and the age that it
settles on. -/
theorem compile_withFragment_withAge (hpresent : job.ensure = .present)
    (hcheck : (job.resolve defaults).check = .ok ()) {destination : Destination}
    (hplace : (job.resolve defaults).destination = .ok destination)
    {front back fragment age : Option String}
    (hfragment : nonEmpty front = fragment) (hage : nonEmpty back = age)
    (hinterval : ∀ text, age = some text → Check.isInterval text = true) :
    (((job.withFragment front).withAge back).compile defaults).value =
      .ok (((job.resolve defaults).compileTo destination).value.withContent
        (linesText (environment (job.resolve defaults) destination) ++
          lastLine fragment (backupCommand (job.resolve defaults) destination).text
            (age.map fun text => (removalCommand text destination).text) ++ "\n")) := by
  subst hfragment hage
  exact ResolvedJob.compile_withAdditions hpresent hcheck hplace (nonEmpty front) hinterval

/-- A job fails with any fragment as it fails without one. -/
theorem compile_withFragment_eq_error_iff (fragment : Option String) {failure : Failure} :
    ((job.withFragment fragment).compile defaults).value = .error failure ↔
      (job.compile defaults).value = .error failure := by
  have hsettled : (job.withFragment fragment).resolve defaults = _ :=
    resolve_withFragment_withAge fragment job.removeOlderThan
  have hcheck : ((job.withFragment fragment).resolve defaults).check =
      (job.resolve defaults).check := by
    rw [hsettled]
    exact ResolvedJob.check_withFragment (nonEmpty fragment)
  rw [JobSpec.compile, JobSpec.compile, ResolvedJob.compile_eq_error_iff,
    ResolvedJob.compile_eq_error_iff, hcheck]

/-- So it compiles with any fragment if it compiles without one. -/
theorem compile_withFragment_eq_ok_iff (fragment : Option String) :
    (∃ done, ((job.withFragment fragment).compile defaults).value = .ok done) ↔
      ∃ done, (job.compile defaults).value = .ok done := by
  have hok : ∀ outcome : Outcome,
      (∃ done, outcome = .ok done) ↔ ∀ failure, outcome ≠ .error failure := by
    intro outcome
    cases outcome <;> simp
  simp only [hok, ne_eq, compile_withFragment_eq_error_iff]

end

/-- The removal of an age reads as the command that removes what is older from the place. -/
theorem readScript_removalCommand {age : String} {place : BackupPlace} {destination : Destination}
    (hage : Check.isInterval age = true) (hplace : place.Describes destination) :
    readScript (removalCommand age destination).text =
      some [[{ argv := ResolvedJob.removalArgv place age }]] := by
  obtain ⟨hsound, hargv⟩ := ResolvedJob.removalCommand_reads hage hplace
  rw [readScript, readLines_command hsound, Option.map_some, List.map_singleton,
    List.map_singleton, hargv]

/-- **A fragment and an age only add to a script.**  Let a job whose script is to be written
compile without a fragment and without an age.  Its script is then the lines of its
environment and, on the last line, its backup.  With a fragment, with an interval for an
age, or with both, it compiles to the same but for this last line, where the fragment
stands in front of the backup, and behind it a removal that is told from the age and the
destination alone: a shell reads it as the one command that removes what is older than the
age from the place of the job.  And whatever a job is, no fragment changes whether it compiles, or
with which failure it does not. -/
theorem fragment_and_age_only_add (job : JobSpec) (defaults : Defaults) :
    (∀ bare, job.ensure = .present →
      nonEmpty job.preCommand = none → nonEmpty job.removeOlderThan = none →
      (job.compile defaults).value = .ok bare →
      ∃ (destination : Destination) (lines backup : String),
        (job.resolve defaults).destination = .ok destination ∧
        lines = linesText (environment (job.resolve defaults) destination) ∧
        backup = (backupCommand (job.resolve defaults) destination).text ∧
        bare.script.content = some (lines ++ backup ++ "\n") ∧
        ∀ fragment age removal, fragment ≠ "" → Check.isInterval age = true →
          removal = (removalCommand age destination).text →
          (∃ place, (job.resolve defaults).GoesTo place ∧
            readScript removal = some [[{ argv := ResolvedJob.removalArgv place age }]]) ∧
          ((job.withFragment (some fragment)).compile defaults).value =
            .ok (bare.withContent (lines ++ fragment ++ " && " ++ backup ++ "\n")) ∧
          ((job.withAge (some age)).compile defaults).value =
            .ok (bare.withContent (lines ++ backup ++ " && " ++ removal ++ "\n")) ∧
          (((job.withFragment (some fragment)).withAge (some age)).compile defaults).value =
            .ok (bare.withContent
              (lines ++ fragment ++ " && " ++ backup ++ " && " ++ removal ++ "\n"))) ∧
    ∀ fragment,
      ((∃ done, ((job.withFragment fragment).compile defaults).value = .ok done) ↔
        ∃ done, (job.compile defaults).value = .ok done) ∧
      ∀ failure, ((job.withFragment fragment).compile defaults).value = .error failure ↔
        (job.compile defaults).value = .error failure := by
  constructor
  · intro bare hpresent hfragment hage hbare
    have hsettled : (job.resolve defaults).ensure = .present := hpresent
    have hnoFragment : (job.resolve defaults).preCommand = none := hfragment
    have hnoAge : (job.resolve defaults).removeOlderThan = none := hage
    obtain ⟨hcheck, destination, hplace, rfl⟩ :=
      ResolvedJob.exists_destination_of_compile_eq_ok hsettled hbare
    refine ⟨destination, _, _, hplace, rfl, rfl, ?_, ?_⟩
    · rw [content_compileTo, text_commandChain, hnoFragment, hnoAge]
      simp [lastLine]
    · rintro fragment age removal hne hinterval rfl
      have hfront : nonEmpty (some fragment) = some fragment := by simp [nonEmpty, hne]
      have hback : nonEmpty (some age) = some age := by
        have hne : age ≠ "" := by
          rintro rfl
          exact absurd hinterval (by decide)
        simp [nonEmpty, hne]
      have hintervals : ∀ text, some age = some text → Check.isInterval text = true := by
        rintro text ⟨⟩
        exact hinterval
      have hnever : ∀ text, none = some text → Check.isInterval text = true := by simp
      obtain ⟨place, hgoes, hdescribes⟩ := ResolvedJob.exists_place_of_destination hplace
      refine ⟨⟨place, hgoes, readScript_removalCommand hinterval hdescribes⟩,
        (compile_withFragment_withAge hpresent hcheck hplace hfront hage hnever).trans ?_,
        (compile_withFragment_withAge hpresent hcheck hplace hfragment hback hintervals).trans ?_,
        (compile_withFragment_withAge hpresent hcheck hplace hfront hback hintervals).trans ?_⟩
      · simp [lastLine, String.append_assoc]
      · simp [lastLine, String.append_assoc]
      · simp [lastLine, String.append_assoc]
  · exact fun fragment =>
      ⟨compile_withFragment_eq_ok_iff fragment, fun _ => compile_withFragment_eq_error_iff fragment⟩

/-- A job without a fragment and without an age. -/
def unadornedJob : JobSpec where
  title := "db"
  directories := [.ofText "/srv"]
  bucket := .value "archive"
  destId := .value "me"
  hostIdentifier := some "web"

theorem fragment_and_age_only_add_to_unadornedJob :
    unadornedJob.ensure = .present ∧ nonEmpty unadornedJob.preCommand = none ∧
    nonEmpty unadornedJob.removeOlderThan = none ∧
    ∃ bare lines backup removal, (unadornedJob.compile {}).value = .ok bare ∧
      bare.script.content = some (lines ++ backup ++ "\n") ∧
      (((unadornedJob.withFragment (some "cd /srv || exit\n:")).withAge (some "1Y")).compile
          {}).value =
        .ok (bare.withContent
          (lines ++ "cd /srv || exit\n:" ++ " && " ++ backup ++ " && " ++ removal ++ "\n")) ∧
      readScript removal = some [[{ argv := ["duplicity", "remove-older-than", "1Y",
        "--no-encryption", "--force", "s3+http://archive/web/db/"] }]] ∧
      ∃ done, ((unadornedJob.withFragment (some "&& ' ;")).compile {}).value = .ok done := by
  obtain ⟨bare, hbare⟩ : ∃ bare, (unadornedJob.compile {}).value = .ok bare := ⟨_, rfl⟩
  obtain ⟨hadds, hsame⟩ := fragment_and_age_only_add unadornedJob {}
  obtain ⟨destination, lines, backup, -, -, -, hcontent, hadded⟩ := hadds bare rfl rfl rfl hbare
  obtain ⟨⟨place, hgoes, hremoval⟩, -, -, hboth⟩ := hadded "cd /srv || exit\n:" "1Y" _ (by decide) (by decide) rfl
  have hbucket : (unadornedJob.resolve {}).GoesTo (.s3Compatible "archive" "web" "db") :=
    .s3Compatible rfl rfl (by decide) rfl
  have hargv : ResolvedJob.removalArgv (.s3Compatible "archive" "web" "db") "1Y" =
      ["duplicity", "remove-older-than", "1Y", "--no-encryption", "--force",
        "s3+http://archive/web/db/"] := by decide
  rw [hgoes.unique hbucket, hargv] at hremoval
  exact ⟨rfl, rfl, rfl, bare, lines, backup, _, hbare, hcontent, hboth, hremoval,
    (hsame (some "&& ' ;")).1.mpr ⟨bare, hbare⟩⟩

end BackupPlan
