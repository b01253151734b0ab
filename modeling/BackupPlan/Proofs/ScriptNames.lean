import BackupPlan.Proofs.Collisions

/-!
# Names of scripts

With an ending a title names the script of its job.  The check of a title does not look
at that name: it holds the title itself to the limit of bytes.  So what is true of the
title is true of the name of the script, but for the bytes that the ending adds.

* `utf8ByteSize_scriptFileName`, `isUsable_scriptFileName_iff` — a title with its ending;
* `script_names_are_usable_up_to_252_bytes` — the names of the scripts of jobs.
-/

namespace BackupPlan

open UnixPath

/-- A script name has three bytes more than its title. -/
theorem utf8ByteSize_scriptFileName (title : String) :
    (scriptFileName title).utf8ByteSize = title.utf8ByteSize + 3 := by
  rw [scriptFileName, String.utf8ByteSize_append]
  rfl

/-- The ending brings in nothing that a name may not hold, only bytes. -/
theorem isUsable_scriptFileName_iff {title : String} (h : FileName.IsUsable title) :
    (∀ c ∈ (scriptFileName title).toList, FileName.IsAllowed c) ∧
    (∃ c ∈ (scriptFileName title).toList, c ≠ '.') ∧
    (FileName.IsUsable (scriptFileName title) ↔ title.utf8ByteSize ≤ 252) := by
  have hending : ".sh".toList.all (!FileName.isForbidden ·) = true := by decide
  have hallowed : ∀ c ∈ (scriptFileName title).toList, FileName.IsAllowed c := by
    intro c hc
    rw [scriptFileName, String.toList_append, List.mem_append] at hc
    rcases hc with hc | hc
    · exact h.allowed c hc
    · refine FileName.isForbidden_eq_false_iff.mp ?_
      simpa using List.all_eq_true.mp hending c hc
  have hletter : 's' ∈ (scriptFileName title).toList := by
    rw [scriptFileName, String.toList_append]
    exact List.mem_append_right _ (by decide)
  have hother : ∃ c ∈ (scriptFileName title).toList, c ≠ '.' := ⟨'s', hletter, by decide⟩
  refine ⟨hallowed, hother, ?_⟩
  have hbytes := utf8ByteSize_scriptFileName title
  constructor
  · intro husable
    have := husable.fits
    omega
  · intro hshort
    exact ⟨hallowed, fun _ => hother, by omega⟩

/-- **The name of a script is as good as the title, but for the bytes of its ending.**  For a
title that passes its check it holds only characters that the name of a file may hold, is
not made of full stops, and is safe exactly if the title leaves room for the ending.  A job
that is accepted has such a title, and it is this name of a file that the job is compiled
to if it has no script path of its own, be its script written or removed. -/
theorem script_names_are_usable_up_to_252_bytes (title : String) :
    (Check.title title = none →
      (∀ c ∈ (scriptFileName title).toList, FileName.IsAllowed c) ∧
      (∃ c ∈ (scriptFileName title).toList, c ≠ '.') ∧
      (FileName.isSafe (scriptFileName title) = true ↔ title.utf8ByteSize ≤ 252)) ∧
    ∀ (job : JobSpec) (defaults : Defaults) (done : CompiledJob), job.title = title →
      job.scriptPath = none → (job.compile defaults).value = .ok done →
      Check.title title = none ∧
      done.script.path.components.getLast? = some (.name (ofText (scriptFileName title)).bytes) := by
  constructor
  · intro htitle
    rw [Check.title_eq_none_iff, Check.isTitle_iff] at htitle
    rw [FileName.isSafe_iff]
    exact isUsable_scriptFileName_iff htitle.2.1
  · intro job defaults done htitle hown hdone
    subst htitle
    refine ⟨?_, getLast?_components_of_compile_eq_ok hdone hown⟩
    rw [Check.title_eq_none_iff]
    exact isTitle_of_compile_eq_ok hdone

/-- A title of 252 bytes in half as many letters. -/
def longestTitle : String :=
  String.ofList (List.replicate 126 'é')

theorem script_names_of_longestTitle_and_dottedJob_are_usable :
    Check.title longestTitle = none ∧ FileName.isSafe (scriptFileName longestTitle) = true ∧
    dottedJob.scriptPath = none ∧
    ∃ done, (dottedJob.compile slashedDefaults).value = .ok done ∧
      done.script.path.components.getLast? = some (.name (ofText "..é.sh").bytes) ∧
      FileName.isSafe "..é.sh" = true := by
  have htitle : Check.title longestTitle = none :=
    Check.title_eq_none_iff.mpr
      (Check.isTitle_replicate (by decide) (by decide) (by decide) (by decide) (by decide))
  have hbytes : longestTitle.utf8ByteSize = 126 * 'é'.utf8Size :=
    FileName.utf8ByteSize_replicate 126 'é'
  have hletter : 'é'.utf8Size = 2 := by decide
  have hsafe :=
    ((script_names_are_usable_up_to_252_bytes longestTitle).1 htitle).2.2.mpr (by omega)
  obtain ⟨done, hdone⟩ : ∃ done, (dottedJob.compile slashedDefaults).value = .ok done := ⟨_, rfl⟩
  obtain ⟨hnames, hcompiles⟩ := script_names_are_usable_up_to_252_bytes dottedJob.title
  obtain ⟨hdotted, hlast⟩ := hcompiles dottedJob slashedDefaults done rfl rfl hdone
  exact ⟨htitle, hsafe, rfl, done, hdone, hlast, (hnames hdotted).2.2.mpr (by decide)⟩

/-- A title that leaves no room for the ending of a script. -/
def overlongTitle : String :=
  String.ofList (List.replicate 253 'a')

theorem script_name_of_overlongTitle_is_not_safe :
    ¬ (Check.title overlongTitle = none →
      FileName.isSafe (scriptFileName overlongTitle) = true) := by
  have htitle : Check.title overlongTitle = none :=
    Check.title_eq_none_iff.mpr
      (Check.isTitle_replicate (by decide) (by decide) (by decide) (by decide) (by decide))
  have hbytes : overlongTitle.utf8ByteSize = 253 * 'a'.utf8Size :=
    FileName.utf8ByteSize_replicate 253 'a'
  have hletter : 'a'.utf8Size = 1 := by decide
  intro hsafe
  have hfits := (FileName.isSafe_iff.mp (hsafe htitle)).fits
  rw [utf8ByteSize_scriptFileName] at hfits
  omega

end BackupPlan
