import BackupPlan.Proofs.Acceptance
import BackupPlan.Proofs.Shell.ReadBack

/-!
# What a shell makes of a script

Every text that an operator writes into a job ends up in one script, and the
shell has to find it there again, character for character.  The reference reader
of shell text is the judge: here it reads whole scripts.

The bare words of a script are safe only because of checks made elsewhere
(`plain_of_isInterval`, `plain_of_keyserver`); all other data is quoted.  What a
script is expected to run is said by `ResolvedJob.scriptLines`, from the settled
fields of the job and without any word on quoting.

* `exists_place_of_destination` — where a backup goes, told from the fields;
* `script_reads_back` — the script of an accepted job runs exactly that.
-/

namespace BackupPlan

open Shell

/-! ### Words that may stand bare -/

/-- Letters and digits stand for themselves. -/
theorem kind_of_isAlphanum {c : Char} (h : c.isAlphanum = true) : kind c = .plain := by
  have hne : ∀ d : Char, d.isAlphanum = false → c ≠ d := by
    rintro d hd rfl
    simp [hd] at h
  have hspecials : specials.all (!·.isAlphanum) = true := by decide
  have hmem : c ∉ specials := by
    intro hc
    have hspecial := List.all_eq_true.mp hspecials c hc
    simp [h] at hspecial
  simp [kind, hmem, hne '\'' rfl, hne '\\' rfl, hne '&' rfl, hne '\n' rfl, hne ' ' rfl,
    hne '\t' rfl]

/-- The units of an age are letters. -/
theorem isAlphanum_of_isUnit {c : Char} (h : Check.isUnit c = true) : c.isAlphanum = true := by
  simp only [Check.isUnit, Bool.or_eq_true, beq_iff_eq] at h
  rcases h with (((((rfl | rfl) | rfl) | rfl) | rfl) | rfl) | rfl <;> rfl

/-- Groups of digits and units hold nothing else. -/
theorem isAlphanum_of_isGroups {digits groups : Nat} {cs : List Char}
    (h : Check.isGroups digits groups cs = true) : ∀ c ∈ cs, c.isAlphanum = true := by
  fun_induction Check.isGroups digits groups cs with
  | case1 => simp
  | case2 digits groups c rest hdigit ih =>
      intro d hd
      rcases List.mem_cons.mp hd with rfl | hd
      · simp [Char.isAlphanum, hdigit]
      · exact ih h d hd
  | case3 digits groups c rest _ hunit ih =>
      intro d hd
      rcases List.mem_cons.mp hd with rfl | hd
      · exact isAlphanum_of_isUnit (by simp_all)
      · exact ih h d hd
  | case4 => simp at h

/-- An interval may stand bare. -/
theorem plain_of_isInterval {text : String} (h : Check.isInterval text = true) :
    text ≠ "" ∧ IsPlain text := by
  simp only [Check.isInterval, Bool.or_eq_true, beq_iff_eq] at h
  rcases h with rfl | h
  · exact ⟨by decide, by decide⟩
  · refine ⟨?_, fun c hc => kind_of_isAlphanum (isAlphanum_of_isGroups h c hc)⟩
    rintro rfl
    simp [Check.isGroups] at h

/-- The address of a key server may stand bare. -/
theorem plain_of_keyserver {address : String} (h : Check.keyserver address = none) :
    address ≠ "" ∧ IsPlain address := by
  obtain ⟨hne, hchars⟩ := Check.keyserver_eq_none_iff.mp h
  refine ⟨hne, fun c hc => ?_⟩
  have hc := hchars c hc
  simp only [Check.isServerChar, Bool.or_eq_true, beq_iff_eq] at hc
  rcases hc with (((hc | rfl) | rfl) | rfl) | rfl
  · exact kind_of_isAlphanum hc
  all_goals decide

/-! ### Where a backup goes -/

/-- A place that takes a backup, told from the settled fields of its job. -/
inductive BackupPlace where
  /-- A remote URL, reached with a key file if there is one. -/
  | remoteHost (url : String) (identity : Option UnixPath)
  /-- A bucket of the Cloud Files service. -/
  | cloudFiles (bucket : String)
  /-- A bucket addressed by machine and title. -/
  | s3Compatible (bucket host title : String)

namespace BackupPlace

/-- The address that the backup program is given. -/
def url : BackupPlace → String
  | remoteHost url _ => url
  | cloudFiles bucket => "cf+http://" ++ bucket
  | s3Compatible bucket host title => "s3+http://" ++ bucket ++ "/" ++ host ++ "/" ++ title ++ "/"

/-- The arguments that every command for the place carries. -/
def flags : BackupPlace → List String
  | remoteHost _ (some path) => ["--ssh-options", "-oIdentityFile=" ++ path.lossyText]
  | _ => []

/-- The variables for login name and key, if the place reads any. -/
def credentialVariables : BackupPlace → Option (String × String)
  | remoteHost _ _ => none
  | cloudFiles _ => some ("CLOUDFILES_USERNAME", "CLOUDFILES_APIKEY")
  | s3Compatible _ _ _ => some ("AWS_ACCESS_KEY_ID", "AWS_SECRET_ACCESS_KEY")

/-- A destination leads to the place. -/
structure Describes (place : BackupPlace) (destination : Destination) : Prop where
  url : destination.url = place.url
  flags : destination.extraFlags.map Arg.meaning = place.flags
  sound : ∀ arg ∈ destination.extraFlags, arg.IsSound
  credentialVariables : destination.kind.credentialVariables = place.credentialVariables

end BackupPlace

namespace ResolvedJob

variable {job : ResolvedJob}

/-- The place of a job: its remote URL if it has one, else its bucket, addressed
as its provider wants it. -/
inductive GoesTo (job : ResolvedJob) : BackupPlace → Prop
  | remoteHost {target : String} (htarget : job.target = some target) :
      GoesTo job (.remoteHost target job.sshIdentity)
  | cloudFiles {bucket : String} (htarget : job.target = none)
      (hbucket : job.bucket = some bucket) (hprovider : job.provider = some .cloudFiles) :
      GoesTo job (.cloudFiles bucket)
  | s3Compatible {bucket host : String} (htarget : job.target = none)
      (hbucket : job.bucket = some bucket) (hprovider : job.provider ≠ some .cloudFiles)
      (hhost : job.hostIdentifier = some host) :
      GoesTo job (.s3Compatible bucket host job.title)

/-- A job goes to one place only. -/
theorem GoesTo.unique {place other : BackupPlace} (h : job.GoesTo place)
    (hother : job.GoesTo other) : place = other := by
  cases h <;> cases hother <;> simp_all

/-- The flags of an identity are sound, whatever its path. -/
theorem sound_identityFlags (identity : Option UnixPath) :
    ∀ arg ∈ identityFlags identity, arg.IsSound := by
  cases identity with
  | none => simp [identityFlags]
  | some path =>
      intro arg harg
      simp only [identityFlags, List.mem_cons, List.not_mem_nil, or_false] at harg
      rcases harg with rfl | rfl
      · exact ⟨by decide, by decide⟩
      · exact (by decide : IsPlain "-oIdentityFile")

/-- The flags of an identity mean those of the place that has it. -/
theorem meaning_identityFlags (identity : Option UnixPath) (url : String) :
    (identityFlags identity).map Arg.meaning = (BackupPlace.remoteHost url identity).flags := by
  cases identity <;> rfl

/-- Every destination leads to the place of its job. -/
theorem exists_place_of_destination {destination : Destination}
    (h : job.destination = .ok destination) :
    ∃ place, job.GoesTo place ∧ place.Describes destination := by
  cases htarget : job.target with
  | some target =>
      simp only [ResolvedJob.destination, htarget, Except.ok.injEq] at h
      subst h
      exact ⟨_, .remoteHost htarget, rfl, meaning_identityFlags job.sshIdentity target,
        sound_identityFlags job.sshIdentity, rfl⟩
  | none =>
      cases hbucket : job.bucket with
      | none => simp [ResolvedJob.destination, htarget, hbucket] at h
      | some bucket =>
          by_cases hprovider : job.provider = some .cloudFiles
          · simp only [ResolvedJob.destination, htarget, hbucket, hprovider, Option.bind_some,
              ObjectStorage.ofProvider, Except.ok.injEq] at h
            subst h
            exact ⟨_, .cloudFiles htarget hbucket hprovider, rfl, rfl, by simp, rfl⟩
          · have hstorage : job.provider.bind ObjectStorage.ofProvider = none := by
              rcases hp : job.provider with _ | _ | _ <;> simp_all [ObjectStorage.ofProvider]
            cases hhost : job.hostIdentifier with
            | none => simp [ResolvedJob.destination, htarget, hbucket, hstorage, hhost] at h
            | some host =>
                simp only [ResolvedJob.destination, htarget, hbucket, hstorage, hhost,
                  Except.ok.injEq] at h
                subst h
                exact ⟨_, .s3Compatible htarget hbucket hprovider hhost, rfl, rfl, by simp, rfl⟩

/-! ### What a script is expected to run -/

/-- The credentials of a job, login name first, under the names of their variables. -/
def settledCredentials (job : ResolvedJob) (names : String × String) :
    List (String × String) :=
  job.destId.toList.map (names.1, ·) ++ job.destKey.toList.map (names.2, ·.reveal)

/-- The lines that set the credentials and hand them on: one assignment a line,
then one `export` of the assigned names.  A place without variables has none. -/
def environmentLines (job : ResolvedJob) (place : BackupPlace) : List (List Invocation) :=
  match place.credentialVariables with
  | none => []
  | some names =>
    let given := job.settledCredentials names
    given.map (fun credential => [{ assignments := [credential] }]) ++
      [[{ argv := "export" :: given.map Prod.fst }]]

/-- The command that makes the backup. -/
def backupArgv (job : ResolvedJob) (place : BackupPlace) : List String :=
  ["duplicity", "--full-if-older-than", job.fullIfOlderThan, "--s3-use-new-style"] ++
  (if job.pubkeyIds = [] then ["--no-encryption"]
    else ["--gpg-options", "--trust-model=always"] ++
      job.pubkeyIds.flatMap fun id => ["--encrypt-key", id]) ++
  job.directories.flatMap (fun dir => ["--include", dir.lossyText]) ++
  ["--exclude", "**"] ++ place.flags ++ ["/", place.url]

/-- The command that removes old backups. -/
def removalArgv (place : BackupPlace) (age : String) : List String :=
  ["duplicity", "remove-older-than", age, "--no-encryption", "--force"] ++ place.flags ++
  [place.url]

/-- All lines of the script of a job without a fragment of its own: the
credentials, and last the backup with the removal of old backups behind it. -/
def scriptLines (job : ResolvedJob) (place : BackupPlace) : List (List Invocation) :=
  job.environmentLines place ++
    [{ argv := job.backupArgv place } ::
      job.removeOlderThan.toList.map fun age => { argv := removalArgv place age }]

/-- The command that fetches the public keys of a job. -/
def fetchArgv (job : ResolvedJob) : List String :=
  ["gpg", "--keyserver", job.keyserver, "--recv-keys"] ++ job.pubkeyIds

/-- The command that looks for the public keys of a job. -/
def lookupArgv (job : ResolvedJob) : List String :=
  ["gpg", "--batch", "--list-keys"] ++ job.pubkeyIds

/-! ### The environment -/

/-- The name of a variable may stand bare, and is no empty word. -/
theorem plain_of_isVariableName {name : String} (h : isVariableName name.toList = true) :
    name ≠ "" ∧ IsPlain name := by
  have hunderscore : kind '_' = .plain := by decide
  refine ⟨by rintro rfl; simp [isVariableName] at h, ?_⟩
  unfold IsPlain
  cases hname : name.toList with
  | nil => simp [hname, isVariableName] at h
  | cons first rest =>
      simp only [hname, isVariableName, Bool.and_eq_true, Bool.or_eq_true, beq_iff_eq,
        List.all_eq_true] at h
      intro c hc
      rcases List.mem_cons.mp hc with rfl | hrest
      · rcases h.1 with halpha | rfl
        · exact kind_of_isAlphanum (by simp [Char.isAlphanum, halpha])
        · exact hunderscore
      · rcases h.2 c hrest with halnum | rfl
        · exact kind_of_isAlphanum halnum
        · exact hunderscore

/-- The variables of a place have proper names. -/
theorem isVariableName_of_variables {place : BackupPlace} {names : String × String}
    (h : place.credentialVariables = some names) :
    isVariableName names.1.toList = true ∧ isVariableName names.2.toList = true := by
  cases place with
  | remoteHost => cases h
  | cloudFiles =>
      cases h
      decide
  | s3Compatible =>
      cases h
      decide

/-- The credentials of a job are set in variables of the pair for its kind. -/
theorem isVariableName_of_mem_settledCredentials {names credential : String × String}
    (hnames : isVariableName names.1.toList = true ∧ isVariableName names.2.toList = true)
    (h : credential ∈ job.settledCredentials names) :
    isVariableName credential.1.toList = true := by
  simp only [settledCredentials, List.mem_append, List.mem_map] at h
  rcases h with ⟨value, -, rfl⟩ | ⟨value, -, rfl⟩
  · exact hnames.1
  · exact hnames.2

/-- A job that the rules on the whole job let pass has a credential if its place
reads any. -/
theorem settledCredentials_ne_nil {place : BackupPlace} {names : String × String}
    (hcause : job.structuralCause = none) (hplace : job.GoesTo place)
    (h : place.credentialVariables = some names) : job.settledCredentials names ≠ [] := by
  obtain ⟨-, ⟨htarget, -, -⟩ | ⟨-, -, hlogin, -⟩⟩ := structuralCause_eq_none_iff.mp hcause
  · cases hplace <;> simp_all [BackupPlace.credentialVariables]
  · intro hnil
    simp only [settledCredentials, List.append_eq_nil_iff, List.map_eq_nil_iff,
      Option.toList_eq_nil_iff] at hnil
    exact hlogin.elim (fun hid => hid hnil.1) (fun hkey => hkey hnil.2)

/-- The environment of a destination with variables: an assignment for each of
the settled credentials, then one `export` of their names. -/
theorem environment_eq_of_variables {destination : Destination} {names : String × String}
    (hvariables : destination.kind.credentialVariables = some names)
    (hne : job.settledCredentials names ≠ []) :
    environment job destination =
      (job.settledCredentials names).map
        (fun credential => Command.ofArg (.assign credential.1 credential.2)) ++
      [⟨.word "export" ::
        (job.settledCredentials names).map fun credential => .word credential.1⟩] := by
  have hcredentials : credentials job (some names) = job.settledCredentials names := by
    simp [credentials, settledCredentials, Option.toList_map]
  simp [environment, hvariables, hcredentials, hne, Command.ofWord, Command.addArgs]

/-- The environment of an accepted job holds sound commands only, and reads as its
credentials. -/
theorem environment_reads {place : BackupPlace} {destination : Destination}
    (hcause : job.structuralCause = none) (hplace : job.GoesTo place)
    (hdescribes : place.Describes destination) :
    (∀ command ∈ environment job destination, command.IsSound) ∧
      (environment job destination).map (fun command => [Invocation.ofWords command.reading]) =
        job.environmentLines place := by
  cases hvariables : place.credentialVariables with
  | none =>
      have hnil : environment job destination = [] := by
        simp [environment, hdescribes.credentialVariables, hvariables, credentials]
      simp [hnil, environmentLines, hvariables]
  | some names =>
      have hne := settledCredentials_ne_nil hcause hplace hvariables
      have hnames := isVariableName_of_variables hvariables
      have hname : ∀ credential ∈ job.settledCredentials names,
          isVariableName credential.1.toList = true :=
        fun _ h => isVariableName_of_mem_settledCredentials hnames h
      have hexport : assignment? (bareWord "export") = none := by decide
      rw [environment_eq_of_variables (hdescribes.credentialVariables.trans hvariables) hne]
      constructor
      · intro command hcommand
        rcases List.mem_append.mp hcommand with hassign | hlast
        · obtain ⟨credential, hmem, rfl⟩ := List.mem_map.mp hassign
          refine ⟨by simp [Command.ofArg], ?_⟩
          simpa [Command.ofArg, Arg.IsSound] using (plain_of_isVariableName (hname _ hmem)).2
        · rw [List.mem_singleton.mp hlast]
          refine ⟨by simp, ?_⟩
          intro arg harg
          rcases List.mem_cons.mp harg with rfl | hmem
          · exact ⟨by decide, by decide⟩
          · obtain ⟨credential, hcredential, rfl⟩ := List.mem_map.mp hmem
            exact plain_of_isVariableName (hname _ hcredential)
      · have hassigned : ∀ credential ∈ job.settledCredentials names,
            [Invocation.ofWords (Command.ofArg (.assign credential.1 credential.2)).reading] =
              [{ assignments := [credential] }] := by
          intro credential hmem
          rw [Invocation.ofWords_assign (hname _ hmem)]
        rw [environmentLines, hvariables, List.map_append, List.map_map]
        refine congrArg₂ _ (List.map_congr_left hassigned) ?_
        rw [List.map_singleton, Invocation.ofWords_program hexport]
        simp [Arg.meaning, Function.comp_def]

/-! ### The commands -/

/-- The flags of the keys are sound, whatever the ids. -/
theorem sound_encryptionFlags (ids : List String) :
    ∀ arg ∈ encryptionFlags ids, arg.IsSound := by
  intro arg harg
  unfold encryptionFlags at harg
  split at harg
  · rw [List.mem_singleton.mp harg]
    exact ⟨by decide, by decide⟩
  · rcases List.mem_append.mp harg with hoption | hkey
    · simp only [List.mem_cons, List.not_mem_nil, or_false] at hoption
      rcases hoption with rfl | rfl
      · exact ⟨by decide, by decide⟩
      · trivial
    · obtain ⟨id, -, hmem⟩ := List.mem_flatMap.mp hkey
      simp only [List.mem_cons, List.not_mem_nil, or_false] at hmem
      rcases hmem with rfl | rfl
      · exact ⟨by decide, by decide⟩
      · trivial

/-- The flags of the keys name each id, or switch encryption off if there is none. -/
theorem meaning_encryptionFlags (ids : List String) :
    (encryptionFlags ids).map Arg.meaning =
      if ids = [] then ["--no-encryption"]
      else ["--gpg-options", "--trust-model=always"] ++
        ids.flatMap fun id => ["--encrypt-key", id] := by
  unfold encryptionFlags
  split <;> simp [Arg.meaning, List.map_flatMap]

/-- The flags of the directories are sound, whatever the paths. -/
theorem sound_includeFlags (directories : List UnixPath) :
    ∀ arg ∈ includeFlags directories, arg.IsSound := by
  intro arg harg
  obtain ⟨dir, -, hmem⟩ := List.mem_flatMap.mp harg
  simp only [List.mem_cons, List.not_mem_nil, or_false] at hmem
  rcases hmem with rfl | rfl
  · exact ⟨by decide, by decide⟩
  · trivial

/-- The flags of the directories name each of them in order. -/
theorem meaning_includeFlags (directories : List UnixPath) :
    (includeFlags directories).map Arg.meaning =
      directories.flatMap fun dir => ["--include", dir.lossyText] := by
  simp [includeFlags, Arg.meaning, List.map_flatMap]

/-- The backup command is sound if its age is an interval, and runs the backup. -/
theorem backupCommand_reads {place : BackupPlace} {destination : Destination}
    (hage : Check.isInterval job.fullIfOlderThan = true) (hplace : place.Describes destination) :
    (backupCommand job destination).IsSound ∧
      Invocation.ofWords (backupCommand job destination).reading =
        { argv := job.backupArgv place } := by
  have hprogram : assignment? (bareWord "duplicity") = none := by decide
  have hcommand : backupCommand job destination =
      ⟨.word "duplicity" :: ([.word "--full-if-older-than", .word job.fullIfOlderThan,
        .word "--s3-use-new-style"] ++ (encryptionFlags job.pubkeyIds ++
        (includeFlags job.directories ++ ([.word "--exclude", .quoted "**"] ++
        (destination.extraFlags ++ [.word "/", .quoted destination.url])))))⟩ := by
    simp [backupCommand]
  constructor
  · refine ⟨by simp [hcommand], ?_⟩
    rw [hcommand]
    simp only [List.forall_mem_cons, List.forall_mem_append, Arg.IsSound]
    refine ⟨by decide, ⟨by decide, plain_of_isInterval hage, by decide, by simp⟩,
      sound_encryptionFlags _, sound_includeFlags _, ⟨by decide, trivial, by simp⟩,
      hplace.sound, by decide, trivial, by simp⟩
  · rw [hcommand, Invocation.ofWords_program hprogram]
    simp [backupArgv, meaning_encryptionFlags, meaning_includeFlags, hplace.flags, hplace.url,
      Arg.meaning]

/-- The removal of old backups is sound if its age is an interval. -/
theorem removalCommand_reads {age : String} {place : BackupPlace} {destination : Destination}
    (hage : Check.isInterval age = true) (hplace : place.Describes destination) :
    (removalCommand age destination).IsSound ∧
      Invocation.ofWords (removalCommand age destination).reading =
        { argv := removalArgv place age } := by
  have hprogram : assignment? (bareWord "duplicity") = none := by decide
  have hcommand : removalCommand age destination =
      ⟨.word "duplicity" :: ([.word "remove-older-than", .word age, .word "--no-encryption",
        .word "--force"] ++ (destination.extraFlags ++ [.quoted destination.url]))⟩ := by
    simp [removalCommand]
  constructor
  · refine ⟨by simp [hcommand], ?_⟩
    rw [hcommand]
    simp only [List.forall_mem_cons, List.forall_mem_append, Arg.IsSound]
    exact ⟨by decide, ⟨by decide, plain_of_isInterval hage, by decide, by decide, by simp⟩,
      hplace.sound, trivial, by simp⟩
  · rw [hcommand, Invocation.ofWords_program hprogram]
    simp [removalArgv, hplace.flags, hplace.url, Arg.meaning]

/-- A command of `gpg` with some bare words before the public keys. -/
theorem gpg_reads (options ids : List String)
    (h : ∀ option ∈ options, option ≠ "" ∧ IsPlain option) :
    readScript (Command.text ⟨.word "gpg" :: (options.map Arg.word ++ ids.map Arg.quoted)⟩) =
      some [[{ argv := "gpg" :: (options ++ ids) }]] := by
  have hprogram : assignment? (bareWord "gpg") = none := by decide
  have hsound : Command.IsSound ⟨.word "gpg" :: (options.map Arg.word ++ ids.map Arg.quoted)⟩ := by
    refine ⟨by simp, ?_⟩
    simp only [List.forall_mem_cons, List.forall_mem_append, List.forall_mem_map, Arg.IsSound]
    exact ⟨by decide, h, fun _ _ => trivial⟩
  rw [readScript, readLines_command hsound]
  simp [Invocation.ofWords_program hprogram, Arg.meaning, Function.comp_def]

/-- What the checks of its fields say about the ages of an accepted job. -/
theorem isInterval_of_check (hpresent : job.ensure = .present) (hcheck : job.check = .ok ()) :
    Check.isInterval job.fullIfOlderThan = true ∧
      ∀ age, job.removeOlderThan = some age → Check.isInterval age = true := by
  have hclear := fieldChecks_clear_iff.mp ((check_eq_ok_iff hpresent).mp hcheck).2
  obtain ⟨-, -, -, -, hfull, hremove, -, -⟩ := hclear
  refine ⟨Check.interval_eq_none_iff.mp hfull, ?_⟩
  intro age hage
  rw [hage, Option.bind_some] at hremove
  exact Check.interval_eq_none_iff.mp hremove

/-- The chain of an accepted job without a fragment of its own is sound, and runs
the backup and the removal of old backups. -/
theorem commandChain_reads {place : BackupPlace} {destination : Destination}
    (hpresent : job.ensure = .present) (hcheck : job.check = .ok ())
    (hfragment : job.preCommand = none) (hplace : place.Describes destination) :
    (commandChain job destination).IsSound ∧
      (commandChain job destination).reading.map Invocation.ofWords =
        { argv := job.backupArgv place } ::
          job.removeOlderThan.toList.map fun age => { argv := removalArgv place age } := by
  obtain ⟨hfull, hremove⟩ := isInterval_of_check hpresent hcheck
  obtain ⟨hbackup, hbackupArgv⟩ := backupCommand_reads hfull hplace
  cases hage : job.removeOlderThan with
  | none =>
      simp [commandChain, hfragment, hage, Chain.IsSound, Chain.reading, hbackup, hbackupArgv]
  | some age =>
      obtain ⟨hremoval, hremovalArgv⟩ := removalCommand_reads (hremove age hage) hplace
      simp [commandChain, hfragment, hage, Chain.IsSound, Chain.reading, hbackup, hbackupArgv,
        hremoval, hremovalArgv]

/-- The script that is rendered for an accepted job reads as the lines expected of it. -/
theorem render_reads {place : BackupPlace} {destination : Destination}
    (hpresent : job.ensure = .present) (hcheck : job.check = .ok ())
    (hfragment : job.preCommand = none) (hplace : job.GoesTo place)
    (hdescribes : place.Describes destination) :
    ∃ content,
      (Script.render job (environment job destination) (commandChain job destination)).content =
        some content ∧ readScript content = some (job.scriptLines place) := by
  have hcause := ((check_eq_ok_iff hpresent).mp hcheck).1
  obtain ⟨hlines, hlinesRead⟩ := environment_reads hcause hplace hdescribes
  obtain ⟨hchain, hchainRead⟩ := commandChain_reads hpresent hcheck hfragment hdescribes
  -- A line of the environment is a chain of one command, so the script is a list of chains.
  let chains : List Chain :=
    (environment job destination).map (fun command => ⟨[command]⟩) ++
      [commandChain job destination]
  have hsound : ∀ chain ∈ chains, chain.IsSound := by
    intro chain hmem
    rcases List.mem_append.mp hmem with hline | hlast
    · obtain ⟨command, hcommand, rfl⟩ := List.mem_map.mp hline
      exact ⟨by simp, by simpa using hlines command hcommand⟩
    · rw [List.mem_singleton.mp hlast]
      exact hchain
  have htexts : (environment job destination).map Command.text ++
      [(commandChain job destination).text] = chains.map Chain.text := by
    simp [chains, Chain.text, Function.comp_def]
  refine ⟨_, rfl, ?_⟩
  rw [htexts, readScript, readLines_chains (by simp [chains]) hsound, Option.map_some,
    Option.some.injEq, scriptLines, ← hlinesRead, ← hchainRead]
  simp [chains, Chain.reading, Function.comp_def]

/-- The import of the public keys of an accepted job names exactly these keys, in
both of its commands. -/
theorem keyImport_reads (hkeyserver : Check.keyserver job.keyserver = none) :
    match KeyImport.ofJob job with
    | none => job.pubkeyIds = []
    | some action =>
      job.pubkeyIds ≠ [] ∧ readScript action.command = some [[{ argv := job.fetchArgv }]] ∧
        readScript action.skipIf = some [[{ argv := job.lookupArgv }]] := by
  by_cases hids : job.pubkeyIds = []
  · simp [KeyImport.ofJob, hids]
  · have hfetch := gpg_reads ["--keyserver", job.keyserver, "--recv-keys"] job.pubkeyIds (by
        simp only [List.forall_mem_cons]
        exact ⟨by decide, plain_of_keyserver hkeyserver, by decide, by simp⟩)
    have hlookup := gpg_reads ["--batch", "--list-keys"] job.pubkeyIds (by
        simp only [List.forall_mem_cons]
        exact ⟨by decide, by decide, by simp⟩)
    simpa [KeyImport.ofJob, hids, fetchArgv, lookupArgv] using ⟨hfetch, hlookup⟩

end ResolvedJob

/-- **A shell finds in a script exactly what its job says.**  For every job whose
script is to be written and that has no shell fragment of its own, whatever
characters its texts hold: if it compiles, the script reads as the credentials
of its place and the commands of its backup, argument for argument, and the two
commands that import its public keys read as commands on exactly these keys.  The word
for a path among these arguments is the text that spells it. -/
theorem script_reads_back {job : JobSpec} {defaults : Defaults} {done : CompiledJob}
    (hpresent : job.ensure = .present)
    (hfragment : job.preCommand = none ∨ job.preCommand = some "")
    (hdone : (job.compile defaults).value = .ok done) :
    (∃ place content, (job.resolve defaults).GoesTo place ∧
      done.script.content = some content ∧
      readScript content = some ((job.resolve defaults).scriptLines place)) ∧
    (match done.keyImport with
    | none => (job.resolve defaults).pubkeyIds = []
    | some action =>
      (job.resolve defaults).pubkeyIds ≠ [] ∧
        readScript action.command = some [[{ argv := (job.resolve defaults).fetchArgv }]] ∧
        readScript action.skipIf = some [[{ argv := (job.resolve defaults).lookupArgv }]]) ∧
    ∀ path ∈ (job.resolve defaults).directories ++ (job.resolve defaults).sshIdentity.toList,
      ∀ text, path.toText? = some text → path.lossyText = text := by
  have hnone : (job.resolve defaults).preCommand = none := by
    rcases hfragment with h | h <;> simp [JobSpec.resolve, nonEmpty, h]
  have hpresent : (job.resolve defaults).ensure = .present := hpresent
  obtain ⟨hcheck, destination, hdestination, rfl⟩ :=
    ResolvedJob.exists_destination_of_compile_eq_ok hpresent hdone
  obtain ⟨place, hplace, hdescribes⟩ := ResolvedJob.exists_place_of_destination hdestination
  obtain ⟨content, hcontent, hread⟩ :=
    ResolvedJob.render_reads hpresent hcheck hnone hplace hdescribes
  have hclear := ResolvedJob.fieldChecks_clear_iff.mp
    ((ResolvedJob.check_eq_ok_iff hpresent).mp hcheck).2
  exact ⟨⟨place, content, hplace, hcontent, hread⟩,
    ResolvedJob.keyImport_reads hclear.2.2.2.2.2.2.2, fun _ _ _ => UnixPath.lossyText_of_toText?⟩

/-- A job whose texts try to break out of every place they are written to. -/
def hostileJob : JobSpec where
  title := "db"
  directories := [.ofText "/srv/it's; rm -rf /"]
  bucket := .value "$(reboot)"
  destId := .value "' && '"
  destKey := .value ⟨"\n`x`\\"⟩
  hostIdentifier := some "a b"
  pubkeyIds := ["15ABDA79"]
  removeOlderThan := some "1Y"

/-- The lines of its script, word for word. -/
def hostileLines : List (List Invocation) :=
  [[{ assignments := [("AWS_ACCESS_KEY_ID", "' && '")] }],
    [{ assignments := [("AWS_SECRET_ACCESS_KEY", "\n`x`\\")] }],
    [{ argv := ["export", "AWS_ACCESS_KEY_ID", "AWS_SECRET_ACCESS_KEY"] }],
    [{ argv := ["duplicity", "--full-if-older-than", "30D", "--s3-use-new-style",
        "--gpg-options", "--trust-model=always", "--encrypt-key", "15ABDA79",
        "--include", "/srv/it's; rm -rf /", "--exclude", "**", "/",
        "s3+http://$(reboot)/a b/db/"] },
      { argv := ["duplicity", "remove-older-than", "1Y", "--no-encryption", "--force",
        "s3+http://$(reboot)/a b/db/"] }]]

/-- A job that reaches its host with a key file of a hostile name. -/
def hostileRemoteJob : JobSpec where
  title := "db"
  directories := [.ofText "/srv"]
  target := some "ssh://host//`x`"
  sshIdentity := some (.ofText "/root/'key'\n")

theorem script_of_hostileJob_reads_back :
    (hostileJob.ensure = .present ∧
      (hostileJob.preCommand = none ∨ hostileJob.preCommand = some "") ∧
      ∃ done content action, (hostileJob.compile {}).value = .ok done ∧
        done.script.content = some content ∧ readScript content = some hostileLines ∧
        done.keyImport = some action ∧
        readScript action.command =
          some [[{ argv := ["gpg", "--keyserver", "subkeys.pgp.net", "--recv-keys",
            "15ABDA79"] }]] ∧
        readScript action.skipIf =
          some [[{ argv := ["gpg", "--batch", "--list-keys", "15ABDA79"] }]]) ∧
    hostileRemoteJob.ensure = .present ∧
      (hostileRemoteJob.preCommand = none ∨ hostileRemoteJob.preCommand = some "") ∧
      ∃ done content, (hostileRemoteJob.compile {}).value = .ok done ∧
        done.script.content = some content ∧
        readScript content = some [[{ argv := ["duplicity", "--full-if-older-than", "30D",
          "--s3-use-new-style", "--no-encryption", "--include", "/srv", "--exclude", "**",
          "--ssh-options", "-oIdentityFile=/root/'key'\n", "/", "ssh://host//`x`"] }]] := by
  constructor
  · obtain ⟨done, action, hdone, haction⟩ : ∃ done action,
        (hostileJob.compile {}).value = .ok done ∧ done.keyImport = some action := ⟨_, _, rfl, rfl⟩
    obtain ⟨⟨place, content, hplace, hcontent, hread⟩, hkeys, -⟩ :=
      script_reads_back rfl (Or.inl rfl) hdone
    rw [haction] at hkeys
    obtain ⟨-, hfetch, hlookup⟩ := hkeys
    have hbucket : (hostileJob.resolve {}).GoesTo (.s3Compatible "$(reboot)" "a b" "db") :=
      .s3Compatible rfl rfl (by decide) rfl
    have hlines : (hostileJob.resolve {}).scriptLines (.s3Compatible "$(reboot)" "a b" "db") =
        hostileLines := by decide +kernel
    rw [hplace.unique hbucket, hlines] at hread
    exact ⟨rfl, Or.inl rfl, done, content, action, hdone, hcontent, hread, haction, hfetch, hlookup⟩
  · obtain ⟨done, hdone⟩ : ∃ done, (hostileRemoteJob.compile {}).value = .ok done := ⟨_, rfl⟩
    obtain ⟨⟨place, content, hplace, hcontent, hread⟩, -⟩ :=
      script_reads_back rfl (Or.inl rfl) hdone
    have hremote : (hostileRemoteJob.resolve {}).GoesTo
        (.remoteHost "ssh://host//`x`" (some (.ofText "/root/'key'\n"))) := .remoteHost rfl
    rw [hplace.unique hremote] at hread
    refine ⟨rfl, Or.inl rfl, done, content, hdone, hcontent, hread.trans (congrArg some ?_)⟩
    decide +kernel

end BackupPlan
