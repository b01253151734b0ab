import BackupPlan.Proofs.FileNames
import BackupPlan.Proofs.PathSteps

/-!
# Scripts stay in their directory

A job without a script path of its own has its script in the directory of the
defaults, under a name made of the title.  A title of any content can be
declared, and joining alone would let it lead anywhere; but every job that
compiles, be its script written or removed, has passed the check of its title,
and what passes holds no slash.

* `slash_not_mem_of_isTitle` — a title that can name a file is a single segment;
* `segmentStep_scriptFileName` — and with its ending it is neither `.` nor `..`;
* `script_stays_in_spool_directory` — where the scripts of compiled jobs are.
-/

namespace BackupPlan

open UnixPath

/-- No accepted title has a slash. -/
theorem slash_not_mem_of_isTitle {title : String} (h : Check.isTitle title = true) :
    '/' ∉ title.toList := by
  intro hslash
  have hallowed := (Check.isTitle_iff.mp h).2.1.allowed '/' hslash
  exact hallowed.1 (by decide)

/-- The script name of an accepted title is one segment of a path. -/
theorem slash_not_mem_scriptFileName {title : String} (h : Check.isTitle title = true) :
    slash ∉ (ofText (scriptFileName title)).bytes := by
  refine slash_not_mem_bytes_ofText ?_
  rw [scriptFileName, String.toList_append, List.mem_append, not_or]
  exact ⟨slash_not_mem_of_isTitle h, by decide⟩

/-- The name of a script is a step of its own: it is longer than `..`. -/
theorem segmentStep_scriptFileName (title : String) :
    segmentStep (ofText (scriptFileName title)).bytes =
      some (.name (ofText (scriptFileName title)).bytes) := by
  have hending : (ofText ".sh").bytes.length = 3 := by decide
  have hlength : 3 ≤ (ofText (scriptFileName title)).bytes.length := by
    rw [scriptFileName, bytes_ofText_append, List.length_append, hending]
    omega
  generalize (ofText (scriptFileName title)).bytes = name at hlength
  have hlong : ∀ short : List UInt8, short.length ≤ 2 → name ≠ short := by
    intro short hshort heq
    rw [heq] at hlength
    omega
  rw [segmentStep, if_neg, if_neg (hlong _ (by decide))]
  exact not_or.mpr ⟨hlong _ (by decide), hlong _ (by decide)⟩

/-- The path leads to a file of the given name that lies right in the directory. -/
structure UnixPath.LiesIn (path directory : UnixPath) (file : String) : Prop where
  isAbsolute : path.isAbsolute = true
  /-- The directory above is the given one, step by step. -/
  parent : path.components.dropLast = directory.components
  /-- The last step is the name of the file. -/
  name : path.components.getLast? = some (.name (ofText file).bytes)

/-- A name of one step lies in the absolute directory behind which it is put. -/
theorem UnixPath.liesIn_join {directory : UnixPath} {file : String}
    (hdirectory : directory.isAbsolute = true) (hslash : slash ∉ (ofText file).bytes)
    (hstep : segmentStep (ofText file).bytes = some (.name (ofText file).bytes)) :
    (directory.join (ofText file)).LiesIn directory file := by
  have hsteps : (directory.join (ofText file)).components =
      directory.components ++ [.name (ofText file).bytes] :=
    components_join_name hdirectory hslash hstep
  refine ⟨?_, ?_, ?_⟩
  · rw [isAbsolute_join, hdirectory, Bool.true_or]
  · rw [hsteps, List.dropLast_concat]
  · rw [hsteps, List.getLast?_concat]

/-- **Scripts stay in the directory of the defaults.**  Where a job names no path
for its script and compiles, the script that is written or removed lies right in
that directory and is named by the title, of whatever characters the title is
and however the directory is spelled. -/
theorem script_stays_in_spool_directory {job : JobSpec} {defaults : Defaults} {done : CompiledJob}
    (hown : job.scriptPath = none) (h : (job.compile defaults).value = .ok done) :
    done.script.path.LiesIn defaults.spoolDir (scriptFileName job.title) := by
  have hpath : (job.resolve defaults).scriptPath =
      defaults.spoolDir.join (ofText (scriptFileName job.title)) := by
    rw [JobSpec.resolve, hown, Option.getD_none]
  obtain ⟨hcheck, hwhere⟩ := ResolvedJob.check_of_compile_eq_ok h
  obtain ⟨htitle, habsolute⟩ := ResolvedJob.title_and_path_of_check_eq_ok hcheck
  have hslash : slash ∉ (ofText (scriptFileName job.title)).bytes :=
    slash_not_mem_scriptFileName htitle
  -- The name alone is relative, so it is the directory that makes the path absolute.
  have hdirectory : defaults.spoolDir.isAbsolute = true := by
    rw [hpath, isAbsolute_join, isAbsolute_eq_false_of_not_mem hslash, Bool.or_false] at habsolute
    exact habsolute
  rw [hwhere, hpath]
  exact liesIn_join hdirectory hslash (segmentStep_scriptFileName job.title)

/-- A job whose script is to be removed, with a title of dots and an odd letter. -/
def dottedJob : JobSpec where
  title := "..é"
  ensure := .absent

/-- Defaults whose directory is spelled with more slashes than it needs. -/
def slashedDefaults : Defaults where
  spoolDir := .ofText "//var/./spool//"

theorem script_of_dottedJob_stays_in_spool_directory :
    dottedJob.scriptPath = none ∧
    ∃ done, (dottedJob.compile slashedDefaults).value = .ok done ∧
      done.script.path.LiesIn slashedDefaults.spoolDir "..é.sh" := by
  obtain ⟨done, hdone⟩ : ∃ done, (dottedJob.compile slashedDefaults).value = .ok done := ⟨_, rfl⟩
  exact ⟨rfl, done, hdone, script_stays_in_spool_directory rfl hdone⟩

end BackupPlan
