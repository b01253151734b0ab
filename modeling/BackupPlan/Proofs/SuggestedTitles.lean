import BackupPlan.Proofs.FileNames

/-!
# Suggested titles

Where a title is refused, a name made of it is suggested in its place: the characters
that no file name may hold are dropped, a name of full stops is dropped whole, the rest
is cut to the limit of bytes, and blanks are replaced.  The cut comes behind the test for
full stops, so it can leave what that test is for.

* `FileName.all_dots_fitting_iff`, `FileName.all_dots_sanitize_iff` — when nothing but full
  stops is left of a name that is cut;
* `Check.isTitle_suggestedTitle_iff` — in every other way a suggestion is a title;
* `suggested_titles_pass_unless_cut_to_dots` — which suggestions pass the check of titles.
-/

namespace BackupPlan

namespace FileName

/-! ### Names that are cut -/

/-- What fits is the beginning of the name. -/
theorem isPrefix_fitting (room : Nat) (name : List Char) : fitting room name <+: name := by
  induction name generalizing room with
  | nil => exact List.prefix_rfl
  | cons c rest ih =>
      rw [fitting]
      split
      · exact List.cons_prefix_cons.mpr ⟨rfl, ih _⟩
      · exact List.nil_prefix

/-- What fits takes no more bytes than there is room for. -/
theorem byteLength_fitting_le (room : Nat) (name : List Char) :
    byteLength (fitting room name) ≤ room := by
  induction name generalizing room with
  | nil => exact Nat.zero_le _
  | cons c rest ih =>
      rw [fitting]
      split
      · have := ih (room - c.utf8Size)
        rw [byteLength]
        omega
      · exact Nat.zero_le _

/-- Nothing but full stops fits exactly if the first other character does not fit
behind those that stand before it. -/
theorem all_dots_fitting_iff {room dots : Nat} {c : Char} {rest : List Char} (hc : c ≠ '.') :
    (∀ x ∈ fitting room (List.replicate dots '.' ++ c :: rest), x = '.') ↔
      room < dots + c.utf8Size := by
  have hdot : ('.').utf8Size = 1 := by decide
  induction dots generalizing room with
  | zero =>
      rw [List.replicate_zero, List.nil_append, fitting]
      split <;> simp [hc] <;> omega
  | succ dots ih =>
      rw [List.replicate_succ, List.cons_append, fitting, hdot]
      split
      · rw [List.forall_mem_cons]
        constructor
        · rintro ⟨-, hrest⟩
          have := ih.mp hrest
          omega
        · intro hlong
          exact ⟨rfl, ih.mpr (by omega)⟩
      · have := c.utf8Size_pos
        simp
        omega

/-- A name with a character besides full stops begins with the full stops before the
first such character. -/
theorem exists_dots_before {name : List Char} (h : ∃ c ∈ name, c ≠ '.') :
    ∃ dots c rest, name = List.replicate dots '.' ++ c :: rest ∧ c ≠ '.' := by
  induction name with
  | nil => simp at h
  | cons x name ih =>
      by_cases hx : x = '.'
      · have hlater : ∃ c ∈ name, c ≠ '.' := by simpa [hx] using h
        obtain ⟨dots, c, rest, hname, hc⟩ := ih hlater
        exact ⟨dots + 1, c, rest, by rw [hx, hname]; rfl, hc⟩
      · exact ⟨0, x, name, rfl, hx⟩

/-- The characters of a name that the name of a file may hold. -/
def allowedPart (name : String) : List Char :=
  name.toList.filter fun c => !isForbidden c

/-- The cut leaves nothing but full stops of a name that holds more: so many stand
before the first other of its allowed characters that this one no longer fits. -/
def IsCutToDots (name : String) : Prop :=
  ∃ dots c rest, allowedPart name = List.replicate dots '.' ++ c :: rest ∧ c ≠ '.' ∧
    255 < dots + c.utf8Size

/-- What is not made of full stops is cut to what fits, and anything else is dropped. -/
theorem sanitize_eq (name : String) :
    sanitize name =
      if isOnlyDots (allowedPart name) then ""
      else String.ofList (fitting 255 (allowedPart name)) :=
  rfl

/-- A name that is not sanitized away is cut from its allowed characters, one of which is no
dot. -/
theorem toList_sanitize_of_ne_empty {name : String} (h : sanitize name ≠ "") :
    (∃ c ∈ allowedPart name, c ≠ '.') ∧
      (sanitize name).toList = fitting 255 (allowedPart name) := by
  rw [sanitize_eq] at h ⊢
  split at h
  · exact absurd rfl h
  · next hdots =>
    rw [if_neg hdots, String.toList_ofList]
    refine ⟨?_, rfl⟩
    by_contra hall
    push Not at hall
    cases hempty : allowedPart name with
    | nil =>
        rw [hempty] at h
        exact h rfl
    | cons c rest =>
        refine hdots (isOnlyDots_iff.mpr ⟨?_, hall⟩)
        rw [hempty]
        exact List.cons_ne_nil c rest

/-- Nothing but full stops is left of a name exactly if it is cut to them. -/
theorem all_dots_sanitize_iff {name : String} (h : sanitize name ≠ "") :
    (∀ c ∈ (sanitize name).toList, c = '.') ↔ IsCutToDots name := by
  obtain ⟨hother, hcut⟩ := toList_sanitize_of_ne_empty h
  rw [hcut]
  constructor
  · intro hall
    obtain ⟨dots, c, rest, hname, hc⟩ := exists_dots_before hother
    rw [hname, all_dots_fitting_iff hc] at hall
    exact ⟨dots, c, rest, hname, hc, hall⟩
  · rintro ⟨dots, c, rest, hname, hc, hlong⟩
    rw [hname]
    exact (all_dots_fitting_iff hc).mpr hlong

/-- Some are left. -/
theorem IsCutToDots.sanitize_ne_empty {name : String} (h : IsCutToDots name) :
    sanitize name ≠ "" := by
  obtain ⟨dots, c, rest, hname, hc, hlong⟩ := h
  have hsize := c.utf8Size_le_four
  obtain ⟨more, rfl⟩ : ∃ more, dots = more + 1 := ⟨dots - 1, by omega⟩
  have hother : isOnlyDots (allowedPart name) = false := by
    rw [← Bool.not_eq_true, isOnlyDots_iff, hname]
    simp [hc]
  have hfits : ('.').utf8Size ≤ 255 := by decide
  rw [sanitize_eq, hother, hname, List.replicate_succ, List.cons_append, fitting, if_pos hfits]
  simp

/-- Every character that is left may stand in the name of a file. -/
theorem isAllowed_of_mem_sanitize {name : String} {c : Char} (h : c ∈ (sanitize name).toList) :
    IsAllowed c := by
  have hne : sanitize name ≠ "" := by
    rintro hempty
    rw [hempty] at h
    cases h
  rw [(toList_sanitize_of_ne_empty hne).2] at h
  have hmem : c ∈ allowedPart name := (isPrefix_fitting _ _).subset h
  rw [allowedPart, List.mem_filter, Bool.not_eq_true'] at hmem
  exact isForbidden_eq_false_iff.mp hmem.2

/-- A sanitized name has at most 255 bytes. -/
theorem byteLength_sanitize_le (name : String) : byteLength (sanitize name).toList ≤ 255 := by
  by_cases hne : sanitize name = ""
  · rw [hne]
    exact Nat.zero_le _
  · rw [(toList_sanitize_of_ne_empty hne).2]
    exact byteLength_fitting_le _ _

end FileName

namespace Check

open FileName

/-! ### Suggestions -/

/-- What stands in a suggestion for a character. -/
def unblanked (c : Char) : Char :=
  if Text.isBlank c then '_' else c

/-- The suggestion is the sanitized name with its blanks replaced. -/
theorem toList_suggestedTitle (name : String) :
    (suggestedTitle name).toList = (sanitize name).toList.map unblanked :=
  String.toList_ofList

/-- There is no suggestion exactly where sanitizing leaves nothing. -/
theorem suggestedTitle_eq_empty_iff {name : String} :
    suggestedTitle name = "" ↔ sanitize name = "" := by
  rw [← String.toList_eq_nil_iff, toList_suggestedTitle, List.map_eq_nil_iff,
    String.toList_eq_nil_iff]

/-- No blank is left after replacing. -/
theorem isBlank_unblanked (c : Char) : Text.isBlank (unblanked c) = false := by
  unfold unblanked
  split
  · decide
  · simp_all

/-- Replacing blanks makes no dot and takes none away. -/
theorem unblanked_eq_dot_iff {c : Char} : unblanked c = '.' ↔ c = '.' := by
  unfold unblanked
  split
  · next hblank =>
    constructor
    · intro h
      exact absurd h (by decide)
    · rintro rfl
      exact absurd hblank (by decide)
  · rfl

/-- Replacing blanks keeps a character allowed. -/
theorem isAllowed_unblanked {c : Char} (h : IsAllowed c) : IsAllowed (unblanked c) := by
  unfold unblanked
  split
  · exact isForbidden_eq_false_iff.mp (by decide)
  · exact h

/-- Replacing blanks makes no name longer. -/
theorem byteLength_map_unblanked_le (chars : List Char) :
    byteLength (chars.map unblanked) ≤ byteLength chars := by
  induction chars with
  | nil => exact Nat.le_refl _
  | cons c rest ih =>
      have hsize : (unblanked c).utf8Size ≤ c.utf8Size := by
        unfold unblanked
        split
        · exact c.utf8Size_pos
        · exact Nat.le_refl _
      rw [List.map_cons, byteLength, byteLength]
      omega

/-- A suggestion passes the check of titles, but for a cut that leaves only full stops. -/
theorem isTitle_suggestedTitle_iff {name : String} (h : suggestedTitle name ≠ "") :
    isTitle (suggestedTitle name) = true ↔ ¬ IsCutToDots name := by
  have hsanitize : sanitize name ≠ "" := fun hempty => h (suggestedTitle_eq_empty_iff.mpr hempty)
  rw [← all_dots_sanitize_iff hsanitize, isTitle_iff]
  constructor
  · rintro ⟨-, husable, -⟩ hall
    obtain ⟨c, hc, hother⟩ := husable.notDots h
    rw [toList_suggestedTitle] at hc
    obtain ⟨d, hd, rfl⟩ := List.mem_map.mp hc
    exact hother (unblanked_eq_dot_iff.mpr (hall d hd))
  · intro hother
    refine ⟨h, ⟨?_, ?_, ?_⟩, ?_⟩
    · rw [toList_suggestedTitle]
      intro c hc
      obtain ⟨d, hd, rfl⟩ := List.mem_map.mp hc
      exact isAllowed_unblanked (isAllowed_of_mem_sanitize hd)
    · intro _
      push Not at hother
      obtain ⟨d, hd, hdot⟩ := hother
      rw [toList_suggestedTitle]
      exact ⟨unblanked d, List.mem_map_of_mem hd, fun heq => hdot (unblanked_eq_dot_iff.mp heq)⟩
    · rw [← byteLength_toList, toList_suggestedTitle]
      exact Nat.le_trans (byteLength_map_unblanked_le _) (byteLength_sanitize_le name)
    · rw [toList_suggestedTitle]
      intro c hc
      obtain ⟨d, -, rfl⟩ := List.mem_map.mp hc
      exact isBlank_unblanked d

end Check

/-- A name that is cut down to dots is still suggested. -/
theorem FileName.IsCutToDots.suggestedTitle_ne_empty {name : String}
    (h : FileName.IsCutToDots name) : Check.suggestedTitle name ≠ "" := by
  intro hempty
  exact h.sanitize_ne_empty (Check.suggestedTitle_eq_empty_iff.mp hempty)

/-- **A suggested title works unless it was cut to full stops.**  What is suggested in place
of a title that is refused is, if it is not empty, refused itself exactly if the limit of
bytes cuts the title behind the full stops with which it begins. -/
theorem suggested_titles_pass_unless_cut_to_dots {name : String} (hne : name ≠ "")
    {issue : Issue} (hrefused : Check.title name = some issue) :
    issue.message = some ("title " ++ Text.quoted name ++ " is not a valid file name, try " ++
      Text.quoted (Check.suggestedTitle name)) ∧
    ((Check.suggestedTitle name ≠ "" → Check.title (Check.suggestedTitle name) = none) ↔
      ¬ FileName.IsCutToDots name) := by
  refine ⟨?_, ?_, ?_⟩
  · simp only [Check.title, hne, if_false] at hrefused
    split at hrefused
    · cases hrefused
    · cases hrefused
      rfl
  · intro hpasses hcut
    have hsuggests := hcut.suggestedTitle_ne_empty
    have htitle := Check.title_eq_none_iff.mp (hpasses hsuggests)
    exact (Check.isTitle_suggestedTitle_iff hsuggests).mp htitle hcut
  · intro hwhole hsuggests
    rw [Check.title_eq_none_iff, Check.isTitle_suggestedTitle_iff hsuggests]
    exact hwhole

theorem suggestion_for_blank_title_passes :
    "db: täglich" ≠ "" ∧ (∃ issue, Check.title "db: täglich" = some issue) ∧
      Check.title "db_täglich" = none := by
  obtain ⟨issue, hrefused⟩ : ∃ issue, Check.title "db: täglich" = some issue := ⟨_, rfl⟩
  have hne : "db: täglich" ≠ "" := by decide
  have hsuggested : Check.suggestedTitle "db: täglich" = "db_täglich" := by decide
  have hwhole : ¬ FileName.IsCutToDots "db: täglich" := by
    rintro ⟨dots, c, rest, hname, -, hlong⟩
    have hlength : (FileName.allowedPart "db: täglich").length = 10 := by decide
    have hsize := c.utf8Size_le_four
    rw [hname] at hlength
    simp only [List.length_append, List.length_replicate, List.length_cons] at hlength
    omega
  have hpasses := (suggested_titles_pass_unless_cut_to_dots hne hrefused).2.mpr hwhole
  rw [hsuggested] at hpasses
  exact ⟨hne, ⟨issue, hrefused⟩, hpasses (by decide)⟩

/-- A title of which only full stops fit. -/
def trailingTitle : String :=
  String.ofList (List.replicate 255 '.') ++ "a"

theorem suggestion_for_trailingTitle_is_refused :
    ¬ (trailingTitle ≠ "" → Check.title trailingTitle ≠ none →
      Check.suggestedTitle trailingTitle ≠ "" →
      Check.title (Check.suggestedTitle trailingTitle) = none) := by
  have hchars : trailingTitle.toList = List.replicate 255 '.' ++ 'a' :: [] := by
    unfold trailingTitle
    rw [String.toList_append, String.toList_ofList]
    rfl
  have hpart : FileName.allowedPart trailingTitle = List.replicate 255 '.' ++ 'a' :: [] := by
    rw [FileName.allowedPart, hchars, List.filter_eq_self]
    intro c hc
    rcases List.mem_append.mp hc with hc | hc
    · rw [List.eq_of_mem_replicate hc]
      decide
    · rw [List.mem_singleton.mp hc]
      decide
  have hcut : FileName.IsCutToDots trailingTitle :=
    ⟨255, 'a', [], hpart, by decide, by decide⟩
  have hbytes : trailingTitle.utf8ByteSize = 255 * '.'.utf8Size + "a".utf8ByteSize := by
    unfold trailingTitle
    rw [String.utf8ByteSize_append, FileName.utf8ByteSize_replicate]
  have hdot : '.'.utf8Size = 1 := by decide
  have hletter : "a".utf8ByteSize = 1 := by decide
  have hne : trailingTitle ≠ "" := by
    intro hempty
    rw [hempty, String.utf8ByteSize_empty] at hbytes
    omega
  have hrefused : Check.title trailingTitle ≠ none := by
    rw [Ne, Check.title_eq_none_iff, Check.isTitle_iff]
    rintro ⟨-, husable, -⟩
    have := husable.fits
    omega
  have hsuggests := hcut.suggestedTitle_ne_empty
  intro hclaim
  have hpasses := hclaim hne hrefused hsuggests
  rw [Check.title_eq_none_iff, Check.isTitle_suggestedTitle_iff hsuggests] at hpasses
  exact hpasses hcut

end BackupPlan
