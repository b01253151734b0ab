import BackupPlan.Proofs.Acceptance

/-!
# Names that files can have

A name that a file can have is free of some characters, not made of full stops, and of at
most 255 bytes; a title is such a name, and not empty, and without blanks.

* `FileName.IsUsable`, `FileName.isSafe_iff` — names that files can have;
* `Check.isTitle_iff`, `Check.isTitle_replicate` — titles.
-/

namespace BackupPlan

namespace FileName

/-! ### Usable names -/

/-- A character that the name of a file may hold. -/
def IsAllowed (c : Char) : Prop :=
  c ∉ "/?<>\\:*|\"".toList ∧ 0x20 ≤ c.toNat ∧ ¬ (0x80 ≤ c.toNat ∧ c.toNat ≤ 0x9F)

/-- A name that a file can have. -/
structure IsUsable (name : String) : Prop where
  allowed : ∀ c ∈ name.toList, IsAllowed c
  /-- The name is not made of full stops only. -/
  notDots : name ≠ "" → ∃ c ∈ name.toList, c ≠ '.'
  fits : name.utf8ByteSize ≤ 255

/-- What the filter lets through is the allowed characters. -/
theorem isForbidden_eq_false_iff {c : Char} : isForbidden c = false ↔ IsAllowed c := by
  have hreserved : "/?<>\\:*|\"".toList = ['/', '?', '<', '>', '\\', ':', '*', '|', '"'] := by
    decide
  have hreserves : isReserved c = false ↔ c ∉ "/?<>\\:*|\"".toList := by
    simp [isReserved, hreserved, and_assoc]
  have hcontrols : isControl c = false ↔
      0x20 ≤ c.toNat ∧ ¬ (0x80 ≤ c.toNat ∧ c.toNat ≤ 0x9F) := by
    simp [isControl]
  rw [isForbidden, Bool.or_eq_false_iff, hreserves, hcontrols, IsAllowed]

/-- The length counted over the characters is the length of the text in bytes. -/
theorem byteLength_toList (name : String) : byteLength name.toList = name.utf8ByteSize := by
  have hlist : ∀ chars : List Char, byteLength chars = (String.ofList chars).utf8ByteSize := by
    intro chars
    induction chars with
    | nil => rfl
    | cons c rest ih =>
        rw [byteLength, ih, ← List.singleton_append, String.ofList_append,
          String.utf8ByteSize_append, ← String.singleton_eq_ofList, String.utf8ByteSize_singleton]
  rw [hlist, String.ofList_toList]

/-- A character repeated `n` times takes `n` times its bytes. -/
theorem utf8ByteSize_replicate (n : Nat) (c : Char) :
    (String.ofList (List.replicate n c)).utf8ByteSize = n * c.utf8Size := by
  rw [← byteLength_toList, String.toList_ofList]
  induction n with
  | zero => rw [Nat.zero_mul, List.replicate_zero, byteLength]
  | succ n ih => rw [List.replicate_succ, byteLength, ih, Nat.succ_mul, Nat.add_comm]

/-- The filter for dots takes the nonempty names without another character. -/
theorem isOnlyDots_iff {name : List Char} :
    isOnlyDots name = true ↔ name ≠ [] ∧ ∀ c ∈ name, c = '.' := by
  simp [isOnlyDots]

/-- The check that a name survives sanitizing unchanged is the rule for usable names. -/
theorem isSafe_iff {name : String} : isSafe name = true ↔ IsUsable name := by
  have hallowed : name.toList.any isForbidden = false ↔ ∀ c ∈ name.toList, IsAllowed c := by
    simp [List.any_eq_false, ← isForbidden_eq_false_iff]
  have hdots : isOnlyDots name.toList = false ↔ (name ≠ "" → ∃ c ∈ name.toList, c ≠ '.') := by
    rw [← Bool.not_eq_true, isOnlyDots_iff]
    simp
  rw [isSafe, byteLength_toList, Bool.and_eq_true, Bool.and_eq_true, Bool.not_eq_true',
    Bool.not_eq_true', hallowed, hdots, decide_eq_true_eq]
  constructor
  · rintro ⟨⟨hallowed, hdots⟩, hfits⟩
    exact ⟨hallowed, hdots, hfits⟩
  · rintro ⟨hallowed, hdots, hfits⟩
    exact ⟨⟨hallowed, hdots⟩, hfits⟩

end FileName

namespace Check

open FileName

/-! ### Titles -/

/-- What the check of titles lets pass. -/
theorem isTitle_iff {name : String} :
    isTitle name = true ↔
      name ≠ "" ∧ IsUsable name ∧ ∀ c ∈ name.toList, Text.isBlank c = false := by
  have hblank : name.toList.any Text.isBlank = false ↔
      ∀ c ∈ name.toList, Text.isBlank c = false := by
    simp [List.any_eq_false]
  rw [isTitle, Bool.and_eq_true, Bool.and_eq_true, Bool.not_eq_true', isSafe_iff, hblank,
    decide_eq_true_eq, and_assoc]

/-- One character over and over is a title, as long as it fits. -/
theorem isTitle_replicate {n : Nat} {c : Char} (hpos : 0 < n) (hfits : n * c.utf8Size ≤ 255)
    (hallowed : isForbidden c = false) (hdot : c ≠ '.') (hblank : Text.isBlank c = false) :
    isTitle (String.ofList (List.replicate n c)) = true := by
  have hmem : ∀ d ∈ (String.ofList (List.replicate n c)).toList, d = c := by
    intro d hd
    rw [String.toList_ofList] at hd
    exact List.eq_of_mem_replicate hd
  have hhead : c ∈ (String.ofList (List.replicate n c)).toList := by
    rw [String.toList_ofList]
    exact List.mem_replicate.mpr ⟨by omega, rfl⟩
  refine isTitle_iff.mpr ⟨?_, ⟨?_, fun _ => ⟨c, hhead, hdot⟩, ?_⟩, ?_⟩
  · intro hempty
    rw [hempty] at hhead
    cases hhead
  · intro d hd
    rw [hmem d hd]
    exact isForbidden_eq_false_iff.mp hallowed
  · rw [utf8ByteSize_replicate]
    exact hfits
  · intro d hd
    rw [hmem d hd]
    exact hblank

end Check

end BackupPlan
