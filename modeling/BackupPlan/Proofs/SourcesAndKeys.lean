import BackupPlan.Proofs.ScriptReading
import BackupPlan.Proofs.Verdict
import Mathlib.Data.List.Basic
import Mathlib.Logic.ExistsUnique

/-!
# Directories and public keys arrive whole

A job names directories and public keys, some of them perhaps twice.  Two equalities
meet here: directories are told apart by the steps of their paths, but written as they
are spelled; public keys are told apart and written by their texts.  Of each, the
commands name all, none twice, in the order of the job; and the three commands that
name public keys name the same.

* `KeepsFirst`, `keepsFirst_distinctBy` — a list without its repetitions;
* `valuesOf` — what stands behind an option of a command;
* `ResolvedJob.valuesOf_include`, `ResolvedJob.valuesOf_encryptKey` — the directories and
  the public keys of the backup command;
* `directories_and_keys_arrive_whole` — from the declaration to the commands.
-/

namespace BackupPlan

open Shell

/-! ### Lists without their repetitions -/

section

variable {α β : Type}

/-- One list holds what is left of another when of elements that are the same only the
first is kept. -/
structure KeepsFirst (same : α → α → Prop) (given kept : List α) : Prop where
  /-- What is kept stands in the list, in its order. -/
  sublist : List.Sublist kept given
  /-- No two kept elements are the same. -/
  distinct : kept.Pairwise (¬ same · ·)
  /-- Every element of the list is the same as exactly one that is kept. -/
  exactlyOne : ∀ x ∈ given, ∃! i : Nat, ∃ y, kept[i]? = some y ∧ same y x
  /-- What is kept stands, in order, at the places before which the same does not stand. -/
  first : ∃ places : List Nat, places.Pairwise (· < ·) ∧
    (∀ i, i ∈ places ↔ ∃ x, given[i]? = some x ∧ ∀ y ∈ given.take i, ¬ same y x) ∧
    places.map (given[·]?) = kept.map some

variable [DecidableEq β] (key : α → β)

/-- The elements of a list with a key that no element before them has, and that no
element of a list in front of them has either. -/
theorem filter_distinctBy_eq (before rest : List α) :
    (distinctBy key rest).filter (fun x => ∀ y ∈ before, key y ≠ key x) =
      ((rest.zipIdx before.length).filter fun place : α × Nat =>
        decide (∀ y ∈ (before ++ rest).take place.2, key y ≠ key place.1)).map Prod.fst := by
  induction rest generalizing before with
  | nil => rfl
  | cons x rest ih =>
      have hrest : ((distinctBy key rest).filter (key · ≠ key x)).filter
            (fun z => ∀ y ∈ before, key y ≠ key z) =
          (distinctBy key rest).filter fun z => ∀ y ∈ before ++ [x], key y ≠ key z := by
        rw [List.filter_filter]
        refine List.filter_congr fun z _ => ?_
        rw [← Bool.decide_and, decide_eq_decide, List.forall_mem_append, List.forall_mem_singleton]
        exact and_congr Iff.rfl ne_comm
      have hthen := ih (before ++ [x])
      rw [List.length_append, List.length_singleton, List.append_assoc,
        List.singleton_append] at hthen
      have htake : (before ++ x :: rest).take before.length = before := List.take_left' rfl
      rw [distinctBy, List.zipIdx_cons, List.filter_cons, List.filter_cons, hrest, hthen]
      simp only [htake]
      split <;> rfl

/-- **First occurrences.**  What is left of a list when of elements with one key only
the first is kept. -/
theorem keepsFirst_distinctBy (given : List α) :
    KeepsFirst (key · = key ·) given (distinctBy key given) where
  sublist := sublist_distinctBy key given
  distinct := pairwise_distinctBy key given
  exactlyOne x hx := by
    obtain ⟨y, hy, hkey⟩ := exists_mem_distinctBy key hx
    obtain ⟨i, hi⟩ := List.getElem?_of_mem hy
    refine ⟨i, ⟨y, hi, hkey⟩, ?_⟩
    rintro j ⟨z, hj, hkey'⟩
    -- Two places with one key would be two kept elements that are the same.
    have hapart := List.pairwise_iff_getElem.mp (pairwise_distinctBy key given)
    obtain ⟨hilt, rfl⟩ := List.getElem?_eq_some_iff.mp hi
    obtain ⟨hjlt, rfl⟩ := List.getElem?_eq_some_iff.mp hj
    rcases Nat.lt_trichotomy i j with hlt | heq | hlt
    · exact absurd (hkey.trans hkey'.symm) (hapart i j hilt hjlt hlt)
    · exact heq.symm
    · exact absurd (hkey'.trans hkey.symm) (hapart j i hjlt hilt hlt)
  first := by
    let isFirst (place : α × Nat) : Bool := decide (∀ y ∈ given.take place.2, key y ≠ key place.1)
    have hkept : distinctBy key given = (given.zipIdx.filter isFirst).map Prod.fst := by
      have hall := filter_distinctBy_eq key [] given
      simpa [isFirst] using hall
    refine ⟨(given.zipIdx.filter isFirst).map Prod.snd, ?_, fun i => ?_, ?_⟩
    · have hplaces : (given.zipIdx.map Prod.snd).Pairwise (· < ·) := by
        rw [List.zipIdx_map_snd]
        exact List.pairwise_lt_range'
      exact hplaces.sublist (List.filter_sublist.map Prod.snd)
    · simp [isFirst, List.mem_zipIdx_iff_getElem?]
    · rw [hkept, List.map_map, List.map_map]
      refine List.map_congr_left fun place hplace => ?_
      exact List.mem_zipIdx_iff_getElem?.mp (List.mem_filter.mp hplace).1

end

/-! ### Options of a command -/

/-- What stands behind each occurrence of an option. -/
def valuesOf (option : String) : List String → List String
  | word :: value :: rest =>
    if word = option then value :: valuesOf option rest else valuesOf option (value :: rest)
  | _ => []

section

variable {option : String} {words : List String}

/-- Words that are not the option give it nothing. -/
theorem valuesOf_append (h : option ∉ words) (rest : List String) :
    valuesOf option (words ++ rest) = valuesOf option rest := by
  induction words with
  | nil => rfl
  | cons word words ih =>
      rw [List.mem_cons, not_or] at h
      obtain ⟨hword, hwords⟩ := h
      rw [← ih hwords, List.cons_append]
      cases words ++ rest with
      | nil => rfl
      | cons value rest => rw [valuesOf, if_neg (Ne.symm hword)]

/-- Words without an option have no values for it. -/
theorem valuesOf_eq_nil (h : option ∉ words) : valuesOf option words = [] := by
  have hnone := valuesOf_append h []
  rwa [List.append_nil] at hnone

/-- An option in front of every value gives these values. -/
theorem valuesOf_flatMap (values rest : List String) :
    valuesOf option (values.flatMap (fun value => [option, value]) ++ rest) =
      values ++ valuesOf option rest := by
  induction values with
  | nil => rfl
  | cons value values ih =>
      rw [List.flatMap_cons, List.append_assoc, List.cons_append, List.cons_append,
        List.nil_append, valuesOf, if_pos rfl, ih, List.cons_append]

end

/-- The flags of the backup command that depend on directories and public keys. -/
def listFlags : List String :=
  ["--no-encryption", "--gpg-options", "--encrypt-key", "--include"]

namespace ResolvedJob

variable {job : ResolvedJob} {option : String}

/-- The flags that tell how a backup is encrypted. -/
def encryptionWords (ids : List String) : List String :=
  if ids = [] then ["--no-encryption"]
  else ["--gpg-options", "--trust-model=always"] ++ ids.flatMap fun id => ["--encrypt-key", id]

/-- The flags that name what is backed up. -/
def includeWords (directories : List UnixPath) : List String :=
  directories.flatMap fun dir => ["--include", dir.lossyText]

/-- The options of the backup command: all its words but the last, which is the address. -/
def backupOptions (job : ResolvedJob) (place : BackupPlace) : List String :=
  ["duplicity", "--full-if-older-than", job.fullIfOlderThan, "--s3-use-new-style"] ++
  (encryptionWords job.pubkeyIds ++
  (includeWords job.directories ++ (["--exclude", "**"] ++ place.flags ++ ["/"])))

/-- The words of a backup are its options and then its address. -/
theorem backupArgv_eq (job : ResolvedJob) (place : BackupPlace) :
    job.backupArgv place = job.backupOptions place ++ [place.url] := by
  simp [backupArgv, backupOptions, encryptionWords, includeWords]

/-! ### No other word is one of the flags -/

/-- The options that take a list all have a dash. -/
theorem dash_mem_of_mem_listFlags (h : option ∈ listFlags) : '-' ∈ option.toList := by
  simp only [listFlags, List.mem_cons, List.not_mem_nil, or_false] at h
  rcases h with rfl | rfl | rfl | rfl <;> decide

/-- An interval is none of the flags, for it holds letters and digits only. -/
theorem not_mem_listFlags_of_isInterval {age : String} (h : Check.isInterval age = true) :
    age ∉ listFlags := by
  intro hflag
  have hdash := dash_mem_of_mem_listFlags hflag
  simp only [Check.isInterval, Bool.or_eq_true, beq_iff_eq] at h
  rcases h with rfl | hgroups
  · exact absurd hdash (by decide)
  · exact absurd (isAlphanum_of_isGroups hgroups '-' hdash) (by decide)

/-- Nor is the id of a public key. -/
theorem not_mem_listFlags_of_isKeyId {id : String} (h : Check.isKeyId id = true) :
    id ∉ listFlags := by
  intro hflag
  have hdash := dash_mem_of_mem_listFlags hflag
  have hdigits := List.all_eq_true.mp (Bool.and_eq_true_iff.mp h).2
  exact absurd (hdigits '-' hdash) (by decide)

/-- Nor is an absolute path. -/
theorem not_mem_listFlags_of_isAbsolute {path : UnixPath} (htext : path.toText? ≠ none)
    (h : path.isAbsolute = true) : path.lossyText ∉ listFlags := by
  obtain ⟨s, hs⟩ := Option.ne_none_iff_exists'.mp htext
  obtain rfl := UnixPath.eq_ofText_of_toText? hs
  rw [UnixPath.lossyText_ofText]
  intro hflag
  simp only [listFlags, List.mem_cons, List.not_mem_nil, or_false] at hflag
  rcases hflag with rfl | rfl | rfl | rfl <;> exact absurd h (by decide)

/-- None of the words that come first is a flag. -/
theorem not_mem_front (hage : Check.isInterval job.fullIfOlderThan = true)
    (h : option ∈ listFlags) :
    option ∉ ["duplicity", "--full-if-older-than", job.fullIfOlderThan, "--s3-use-new-style"] := by
  have hfull : option ≠ job.fullIfOlderThan := by
    rintro rfl
    exact not_mem_listFlags_of_isInterval hage h
  simp only [List.mem_cons, List.not_mem_nil, or_false, not_or]
  simp only [listFlags, List.mem_cons, List.not_mem_nil, or_false] at h
  rcases h with rfl | rfl | rfl | rfl <;> exact ⟨by decide, by decide, hfull, by decide⟩

/-- None of the words that come last is a flag. -/
theorem not_mem_back (place : BackupPlace) (h : option ∈ listFlags) :
    option ∉ ["--exclude", "**"] ++ place.flags ++ ["/"] := by
  have hassign : ∀ value : String, option ≠ "-oIdentityFile=" ++ value := by
    rintro value rfl
    have hsecond : ("-oIdentityFile=" ++ value).toList[1]? = some 'o' := by
      simp [String.toList_append]
    simp only [listFlags, List.mem_cons, List.not_mem_nil, or_false] at h
    rcases h with h | h | h | h <;> rw [h] at hsecond <;> exact absurd hsecond (by decide)
  have hflags : option ∉ place.flags := by
    rcases place with ⟨url, _ | identity⟩ | bucket | ⟨bucket, host, title⟩
    · simp [BackupPlace.flags]
    · simp only [BackupPlace.flags, List.mem_cons, List.not_mem_nil, or_false, not_or]
      refine ⟨?_, hassign _⟩
      simp only [listFlags, List.mem_cons, List.not_mem_nil, or_false] at h
      rcases h with rfl | rfl | rfl | rfl <;> decide
    · simp [BackupPlace.flags]
    · simp [BackupPlace.flags]
  simp only [List.mem_append, List.mem_cons, List.not_mem_nil, or_false, not_or]
  simp only [listFlags, List.mem_cons, List.not_mem_nil, or_false] at h
  rcases h with rfl | rfl | rfl | rfl <;> exact ⟨⟨⟨by decide, by decide⟩, hflags⟩, by decide⟩

/-- Directories that are no option bring no option but their own. -/
theorem not_mem_includeWords {directories : List UnixPath}
    (hdirectories : ∀ dir ∈ directories, dir.lossyText ∉ listFlags) (h : option ∈ listFlags)
    (hne : option ≠ "--include") : option ∉ includeWords directories := by
  intro hmem
  obtain ⟨dir, hdir, hword⟩ := List.mem_flatMap.mp hmem
  simp only [List.mem_cons, List.not_mem_nil, or_false] at hword
  rcases hword with rfl | rfl
  · exact hne rfl
  · exact hdirectories dir hdir h

/-- Key ids that are no option bring no `--include`. -/
theorem include_not_mem_encryptionWords {ids : List String} (hids : ∀ id ∈ ids, id ∉ listFlags) :
    "--include" ∉ encryptionWords ids := by
  unfold encryptionWords
  split
  · decide
  · intro hmem
    rcases List.mem_append.mp hmem with hmem | hmem
    · exact absurd hmem (by decide)
    · obtain ⟨id, hid, hword⟩ := List.mem_flatMap.mp hmem
      simp only [List.mem_cons, List.not_mem_nil, or_false] at hword
      rcases hword with hword | rfl
      · exact absurd hword (by decide)
      · exact hids _ hid (by decide)

/-! ### What the backup command names -/

/-- What is known of the fields of a job whose backup command is made: its age is an
interval, and no path or id that it names is one of the flags. -/
structure NamesNoFlag (job : ResolvedJob) : Prop where
  age : Check.isInterval job.fullIfOlderThan = true
  directories : ∀ dir ∈ job.directories, dir.lossyText ∉ listFlags
  ids : ∀ id ∈ job.pubkeyIds, id ∉ listFlags

/-- A job that passes its checks, with texts for directories, names no directory and no key id
that reads as an option. -/
theorem namesNoFlag_of_check (hpresent : job.ensure = .present) (hcheck : job.check = .ok ())
    (htexts : ∀ dir ∈ job.directories, dir.toText? ≠ none) : job.NamesNoFlag := by
  have hclear := fieldChecks_clear_iff.mp ((check_eq_ok_iff hpresent).mp hcheck).2
  obtain ⟨-, hdirectories, -, hids, hage, -⟩ := hclear
  refine ⟨Check.interval_eq_none_iff.mp hage, fun dir hdir => ?_, fun id hid => ?_⟩
  · have habsolute := Check.allAbsolute_eq_none_iff.mp hdirectories dir hdir
    exact not_mem_listFlags_of_isAbsolute (htexts dir hdir) habsolute
  · rw [Check.keyIds, Option.map_eq_none_iff, List.find?_eq_none] at hids
    exact not_mem_listFlags_of_isKeyId (by simpa using hids id hid)

variable (h : job.NamesNoFlag) (place : BackupPlace)

include h

/-- **The directories of the backup command** are those of the job. -/
theorem valuesOf_include :
    valuesOf "--include" (job.backupOptions place) = job.directories.map UnixPath.lossyText := by
  have hwords : includeWords job.directories =
      (job.directories.map UnixPath.lossyText).flatMap fun dir => ["--include", dir] := by
    rw [includeWords, List.flatMap_map]
  rw [backupOptions, valuesOf_append (not_mem_front h.age (by decide)),
    valuesOf_append (include_not_mem_encryptionWords h.ids), hwords, valuesOf_flatMap,
    valuesOf_eq_nil (not_mem_back place (by decide)), List.append_nil]

/-- **The public keys of the backup command** are those of the job. -/
theorem valuesOf_encryptKey :
    valuesOf "--encrypt-key" (job.backupOptions place) = job.pubkeyIds := by
  have hrest : "--encrypt-key" ∉
      includeWords job.directories ++ (["--exclude", "**"] ++ place.flags ++ ["/"]) := by
    rw [List.mem_append, not_or]
    exact ⟨not_mem_includeWords h.directories (by decide) (by decide),
      not_mem_back place (by decide)⟩
  rw [backupOptions, valuesOf_append (not_mem_front h.age (by decide)), encryptionWords]
  by_cases hids : job.pubkeyIds = []
  · rw [if_pos hids, valuesOf_append (by decide), valuesOf_eq_nil hrest, hids]
  · rw [if_neg hids, List.append_assoc, valuesOf_append (by decide), valuesOf_flatMap,
      valuesOf_eq_nil hrest, List.append_nil]

/-- A flag of encryption stands in the backup command if it stands among those that tell
how the backup is encrypted. -/
theorem mem_backupOptions_iff {option : String} (hflag : option ∈ listFlags)
    (hne : option ≠ "--include") :
    option ∈ job.backupOptions place ↔ option ∈ encryptionWords job.pubkeyIds := by
  have hfront := not_mem_front h.age hflag
  have hdirectories := not_mem_includeWords h.directories hflag hne
  have hback := not_mem_back place hflag
  rw [backupOptions, List.mem_append, List.mem_append, List.mem_append]
  simp only [hfront, hdirectories, hback, false_or, or_false]

/-- **The flags of encryption** follow whether there are public keys. -/
theorem encryption_flags_iff :
    ("--gpg-options" ∈ job.backupOptions place ↔ job.pubkeyIds ≠ []) ∧
    ("--no-encryption" ∈ job.backupOptions place ↔ job.pubkeyIds = []) := by
  rw [mem_backupOptions_iff h place (by decide) (by decide),
    mem_backupOptions_iff h place (by decide) (by decide), encryptionWords]
  by_cases hids : job.pubkeyIds = []
  · simp [hids]
  · have hkeys : "--no-encryption" ∉ job.pubkeyIds.flatMap fun id => ["--encrypt-key", id] := by
      intro hmem
      obtain ⟨id, hid, hword⟩ := List.mem_flatMap.mp hmem
      simp only [List.mem_cons, List.not_mem_nil, or_false] at hword
      rcases hword with hword | rfl
      · exact absurd hword (by decide)
      · exact h.ids _ hid (by decide)
    simp [hids, hkeys]

end ResolvedJob

/-! ### From the declaration to the commands -/

/-- The script runs a command on its last line, behind the fragment that comes first if
there is one. -/
def Script.Runs (script : Script) (fragment : Option String) (command : String) : Prop :=
  ∃ lines rest : List String, script.content = some ("\n".intercalate
    (lines ++ [" && ".intercalate (fragment.toList ++ [command] ++ rest)]) ++ "\n")

/-- The script of a job runs its backup command, behind the fragment if there is one. -/
theorem ResolvedJob.runs_backupCommand (job : ResolvedJob) (destination : Destination) :
    (job.compileTo destination).value.script.Runs job.preCommand
      (backupCommand job destination).text := by
  refine ⟨(environment job destination).map Command.text,
    (job.removeOlderThan.map (removalCommand · destination)).toList.map Command.text, ?_⟩
  have hfragment : (job.preCommand.map Command.ofWord).toList.map Command.text =
      job.preCommand.toList := by
    cases job.preCommand <;> simp [Command.ofWord, Command.text, Arg.text]
  simp only [compileTo, Script.render, Script.written, Chain.text, commandChain, List.map_append,
    hfragment, List.map_singleton]

/-- **Directories and public keys arrive whole.**  A job whose script is to be written,
with directories that are texts, compiles to a script with a backup command and, where
it names public keys, two commands that import them.  The directories behind `--include`
are those of the job, spelled as there, the first of each that name one path, in order.
The public keys of the three commands are one list: those of the job, each once, in
order.  The backup is encrypted, and the keys are imported, exactly if there are any. -/
theorem directories_and_keys_arrive_whole {job : JobSpec} {defaults : Defaults}
    {done : CompiledJob} (hpresent : job.ensure = .present)
    (htexts : ∀ dir ∈ job.directories, dir.toText? ≠ none)
    (hdone : (job.compile defaults).value = .ok done) :
    ∃ (destination : Destination) (options : List String) (address : String) (ids : List String),
      (job.resolve defaults).destination = .ok destination ∧
      done.script.Runs (nonEmpty job.preCommand)
        (backupCommand (job.resolve defaults) destination).text ∧
      readScript (backupCommand (job.resolve defaults) destination).text =
        some [[{ argv := options ++ [address] }]] ∧
      KeepsFirst UnixPath.Same job.directories
        ((valuesOf "--include" options).map UnixPath.ofText) ∧
      KeepsFirst (· = ·) job.pubkeyIds ids ∧
      valuesOf "--encrypt-key" options = ids ∧
      ("--gpg-options" ∈ options ↔ job.pubkeyIds ≠ []) ∧
      ("--no-encryption" ∈ options ↔ job.pubkeyIds = []) ∧
      match done.keyImport with
      | none => job.pubkeyIds = []
      | some action =>
        job.pubkeyIds ≠ [] ∧
          readScript action.command =
            some [[{ argv := ["gpg", "--keyserver", defaults.keyserver, "--recv-keys"] ++ ids }]] ∧
          readScript action.skipIf =
            some [[{ argv := ["gpg", "--batch", "--list-keys"] ++ ids }]] := by
  have hsettled : (job.resolve defaults).ensure = .present := hpresent
  obtain ⟨hcheck, destination, hdestination, rfl⟩ :=
    ResolvedJob.exists_destination_of_compile_eq_ok hsettled hdone
  obtain ⟨place, -, hdescribes⟩ := ResolvedJob.exists_place_of_destination hdestination
  have hkept : ∀ dir ∈ (job.resolve defaults).directories, dir.toText? ≠ none :=
    fun dir hdir => htexts dir ((sublist_distinctBy _ _).mem hdir)
  have hnames := ResolvedJob.namesNoFlag_of_check hsettled hcheck hkept
  obtain ⟨hsound, hargv⟩ := ResolvedJob.backupCommand_reads hnames.age hdescribes
  have hreads : readScript (backupCommand (job.resolve defaults) destination).text =
      some [[{ argv := (job.resolve defaults).backupOptions place ++ [place.url] }]] := by
    rw [readScript, readLines_command hsound, ← ResolvedJob.backupArgv_eq]
    simp [hargv]
  have hspelled : ((job.resolve defaults).directories.map UnixPath.lossyText).map UnixPath.ofText =
      (job.resolve defaults).directories := by
    rw [List.map_map]
    refine (List.map_congr_left fun dir hdir => ?_).trans (List.map_id _)
    obtain ⟨s, hs⟩ := Option.ne_none_iff_exists'.mp (hkept dir hdir)
    obtain rfl := UnixPath.eq_ofText_of_toText? hs
    rw [Function.comp_apply, UnixPath.lossyText_ofText, id]
  have hnone : (job.resolve defaults).pubkeyIds = [] ↔ job.pubkeyIds = [] := distinctBy_eq_nil_iff
  obtain ⟨hencrypted, hplain⟩ := ResolvedJob.encryption_flags_iff hnames place
  refine ⟨destination, _, place.url, (job.resolve defaults).pubkeyIds, hdestination,
    ResolvedJob.runs_backupCommand _ destination, hreads, ?_,
    keepsFirst_distinctBy id job.pubkeyIds, ResolvedJob.valuesOf_encryptKey hnames place,
    hencrypted.trans hnone.not, hplain.trans hnone, ?_⟩
  · rw [ResolvedJob.valuesOf_include hnames, hspelled]
    exact keepsFirst_distinctBy UnixPath.components job.directories
  · have hclear := ResolvedJob.fieldChecks_clear_iff.mp
      ((ResolvedJob.check_eq_ok_iff hsettled).mp hcheck).2
    have himport := ResolvedJob.keyImport_reads hclear.2.2.2.2.2.2.2
    have hfield : ((job.resolve defaults).compileTo destination).value.keyImport =
        KeyImport.ofJob (job.resolve defaults) := rfl
    rw [hfield]
    cases hkeys : KeyImport.ofJob (job.resolve defaults) with
    | none =>
        rw [hkeys] at himport
        exact hnone.mp himport
    | some action =>
        rw [hkeys] at himport
        exact ⟨hnone.not.mp himport.1, himport.2⟩

/-- A job that names a directory in three spellings and two public keys three times. -/
def repetitiveJob : JobSpec where
  title := "etc"
  directories := [.ofText "/srv/", .ofText "/etc", .ofText "/srv/.", .ofText "//srv"]
  target := some "--include"
  pubkeyIds := ["15ABDA79", "DEADBEEF", "15ABDA79"]
  preCommand := some "mysqldump 'all"

theorem directories_and_keys_of_repetitiveJob_arrive_whole :
    repetitiveJob.ensure = .present ∧ (∀ dir ∈ repetitiveJob.directories, dir.toText? ≠ none) ∧
    ∃ done options address, (repetitiveJob.compile {}).value = .ok done ∧
      KeepsFirst UnixPath.Same repetitiveJob.directories
        ((valuesOf "--include" options).map UnixPath.ofText) ∧
      KeepsFirst (· = ·) repetitiveJob.pubkeyIds (valuesOf "--encrypt-key" options) ∧
      ∃ command, readScript command = some [[{ argv := options ++ [address] }]] := by
  have htexts : ∀ dir ∈ repetitiveJob.directories, dir.toText? ≠ none := by
    intro dir hdir
    simp only [repetitiveJob, List.mem_cons, List.not_mem_nil, or_false] at hdir
    rcases hdir with rfl | rfl | rfl | rfl <;> simp [UnixPath.toText?_ofText]
  obtain ⟨done, hdone⟩ : ∃ done, (repetitiveJob.compile {}).value = .ok done := ⟨_, rfl⟩
  obtain ⟨destination, options, address, ids, -, -, hreads, hdirectories, hids, hkeys, -⟩ :=
    directories_and_keys_arrive_whole rfl htexts hdone
  exact ⟨rfl, htexts, done, options, address, hdone, hdirectories, hkeys ▸ hids, _, hreads⟩

end BackupPlan
