import BackupPlan.Proofs.Acceptance
import Mathlib.Computability.Language

/-!
# The language of intervals

An interval stands bare in a script that runs as root, so the check of intervals
has to accept a language that can be written down, and nothing else.  The reader
behind the check goes through a text once and counts two things: the digits of the
open number, and the groups that were closed before.  What may follow depends on
whether these counts are zero, and is again a language (`completions`); these languages
are right-linear: a digit opens a number, and only a unit behind a number closes a group.

* `nil_mem_completions_iff`, `cons_mem_completions_iff` — where a text may end, and how
  it may go on;
* `isGroups_iff_mem_completions` — the reader accepts what may follow in its state;
* `isGroups_append`, `standsInGroup_of_mem_groups` — the state that a part of a text leaves
  behind, and where a character may stand;
* `interval_is_now_or_groups` — what the check accepts.
-/

namespace BackupPlan.Interval

open scoped Computability

/-- The digits of the numbers. -/
def digits : List Char := "0123456789".toList

/-- The units, from seconds to years; upper and lower case differ. -/
def units : List Char := "smhDWMY".toList

/-- The words of one letter. -/
def letters (alphabet : List Char) : Language Char :=
  {word | ∃ c ∈ alphabet, word = [c]}

/-- A number and its unit. -/
def group : Language Char :=
  letters digits * (letters digits)∗ * letters units

/-- One or more groups. -/
def groups : Language Char :=
  group * group∗

/-! ### Letters -/

/-- The alphabet of the digits is `Char.isDigit`. -/
theorem mem_digits_iff {c : Char} : c ∈ digits ↔ c.isDigit = true := by
  constructor
  · intro h
    have hall : digits.all Char.isDigit = true := by decide
    exact List.all_eq_true.mp hall c h
  · intro h
    have hcodes : ∀ code < 58, 48 ≤ code → Char.ofNat code ∈ digits := by decide
    simp only [Char.isDigit, Bool.and_eq_true, decide_eq_true_eq, ge_iff_le,
      UInt32.le_iff_toNat_le] at h
    have hleast : '0'.val.toNat = 48 := rfl
    have hgreatest : '9'.val.toNat = 57 := rfl
    have hcode : c.toNat = c.val.toNat := rfl
    rw [← Char.ofNat_toNat c]
    exact hcodes c.toNat (by omega) (by omega)

/-- The alphabet of the units is the check's own list of them. -/
theorem mem_units_iff {c : Char} : c ∈ units ↔ Check.isUnit c = true := by
  have hunits : units = ['s', 'm', 'h', 'D', 'W', 'M', 'Y'] := by decide
  simp [hunits, Check.isUnit, or_assoc]

/-- No character is a digit and a unit at once. -/
theorem isUnit_eq_false_of_isDigit {c : Char} (h : c.isDigit = true) :
    Check.isUnit c = false := by
  have hall : digits.all (!Check.isUnit ·) = true := by decide
  simpa using List.all_eq_true.mp hall c (mem_digits_iff.mpr h)

/-- A word that begins with a letter is not empty. -/
theorem nil_notMem_letters_mul {alphabet : List Char} {l : Language Char} :
    [] ∉ letters alphabet * l := by
  rw [Language.mem_mul]
  rintro ⟨word, ⟨c, -, rfl⟩, rest, -, h⟩
  cases h

/-- A word is in the language that begins with one letter exactly if its first character is such
a letter and the rest is in the rest. -/
theorem cons_mem_letters_mul {alphabet : List Char} {l : Language Char} {c : Char}
    {rest : List Char} : c :: rest ∈ letters alphabet * l ↔ c ∈ alphabet ∧ rest ∈ l := by
  rw [Language.mem_mul]
  constructor
  · rintro ⟨word, ⟨d, hd, rfl⟩, tail, htail, h⟩
    obtain ⟨rfl, rfl⟩ := List.cons.inj h
    exact ⟨hd, htail⟩
  · rintro ⟨hc, hrest⟩
    exact ⟨[c], ⟨c, hc, rfl⟩, rest, hrest, rfl⟩

/-! ### What may follow -/

/-- What may follow behind a part of a text, told whether a number is open there and
whether a group was closed before. -/
def completions : Bool → Bool → Language Char
  | true, _ => (letters digits)∗ * (letters units * group∗)
  | false, true => group∗
  | false, false => groups

/-- An open number goes on, or its unit closes the group. -/
theorem completions_open (closed : Bool) :
    completions true closed =
      letters units * completions false true + letters digits * completions true true := by
  simp only [completions]
  conv_lhs => rw [← Language.one_add_self_mul_kstar_eq_kstar (letters digits)]
  rw [add_mul, one_mul, mul_assoc]

/-- At the beginning a digit opens the first number. -/
theorem completions_fresh :
    completions false false = letters digits * completions true true := by
  simp only [completions, groups, group, mul_assoc]

/-- Behind a group the text may end. -/
theorem completions_closed :
    completions false true = 1 + letters digits * completions true true := by
  rw [← completions_fresh]
  exact (Language.one_add_self_mul_kstar_eq_kstar group).symm

/-- The scan may stop exactly where no group is open and one has been closed. -/
theorem nil_mem_completions_iff {opened closed : Bool} :
    [] ∈ completions opened closed ↔ opened = false ∧ closed = true := by
  cases opened with
  | true =>
      rw [completions_open, Language.mem_add]
      simp [nil_notMem_letters_mul]
  | false =>
      cases closed with
      | true =>
          rw [completions_closed, Language.mem_add]
          simp
      | false =>
          rw [completions_fresh]
          simp [nil_notMem_letters_mul]

/-- One character is taken: a digit opens a group or stays in it, a unit closes an open one, and
nothing else goes on. -/
theorem cons_mem_completions_iff {opened closed : Bool} {c : Char} {rest : List Char} :
    c :: rest ∈ completions opened closed ↔
      (c ∈ digits ∧ rest ∈ completions true closed) ∨
      (opened = true ∧ c ∈ units ∧ rest ∈ completions false true) := by
  have hopen : completions true closed = completions true true := rfl
  rw [hopen]
  cases opened with
  | true =>
      rw [completions_open, Language.mem_add, cons_mem_letters_mul, cons_mem_letters_mul]
      simp [or_comm]
  | false =>
      cases closed with
      | true =>
          rw [completions_closed, Language.mem_add, cons_mem_letters_mul]
          simp
      | false =>
          rw [completions_fresh, cons_mem_letters_mul]
          simp

/-! ### The reader -/

/-- **The reader accepts what may follow behind its counts**: of the digits and of the
groups it only matters whether there are any. -/
theorem isGroups_iff_mem_completions {opened closed : Nat} {text : List Char} :
    Check.isGroups opened closed text = true ↔ text ∈ completions (0 < opened) (0 < closed) := by
  induction text generalizing opened closed with
  | nil =>
      rw [nil_mem_completions_iff]
      simp [Check.isGroups]
  | cons c rest ih =>
      rw [cons_mem_completions_iff, mem_digits_iff, mem_units_iff, Check.isGroups]
      by_cases hdigit : c.isDigit = true
      · have hunit := isUnit_eq_false_of_isDigit hdigit
        simp [hdigit, hunit, ih]
      · cases hunit : decide (0 < opened) && Check.isUnit c <;> simp_all

/-- Whether a number is open behind a part of a text: whether the part ends in a digit. -/
def openBehind (opened : Bool) (front : List Char) : Bool :=
  (front.getLast?.map Char.isDigit).getD opened

/-- An accepted text is accepted from every place on, in the state that its front leaves. -/
theorem isGroups_append {opened closed : Nat} {front rest : List Char}
    (h : Check.isGroups opened closed (front ++ rest) = true) :
    ∃ opened' closed', decide (0 < opened') = openBehind (0 < opened) front ∧
      Check.isGroups opened' closed' rest = true := by
  induction front generalizing opened closed with
  | nil => exact ⟨opened, closed, rfl, h⟩
  | cons c front ih =>
      rw [List.cons_append, Check.isGroups] at h
      have hbehind : openBehind (0 < opened) (c :: front) = openBehind c.isDigit front := by
        cases front <;> simp [openBehind, List.getLast?_cons]
      rw [hbehind]
      by_cases hdigit : c.isDigit = true
      · rw [if_pos hdigit] at h
        obtain ⟨opened', closed', hopened, hrest⟩ := ih h
        exact ⟨opened', closed', by simpa [hdigit] using hopened, hrest⟩
      · rw [if_neg hdigit] at h
        split at h
        · obtain ⟨opened', closed', hopened, hrest⟩ := ih h
          exact ⟨opened', closed', by simpa [hdigit] using hopened, hrest⟩
        · cases h

/-- A character stands where groups have it: a digit that something follows, or a unit
right behind a digit. -/
def StandsInGroup (front : List Char) (c : Char) (back : List Char) : Prop :=
  (c ∈ digits ∧ back ≠ []) ∨ (c ∈ units ∧ ∃ d ∈ digits, front.getLast? = some d)

/-- In groups every character does. -/
theorem standsInGroup_of_mem_groups {front back : List Char} {c : Char}
    (h : front ++ c :: back ∈ groups) : StandsInGroup front c back := by
  have hreads : Check.isGroups 0 0 (front ++ c :: back) = true :=
    isGroups_iff_mem_completions.mpr h
  obtain ⟨opened, closed, hopened, hrest⟩ := isGroups_append hreads
  rcases cons_mem_completions_iff.mp (isGroups_iff_mem_completions.mp hrest) with
    ⟨hdigit, hback⟩ | ⟨hopen, hunit, -⟩
  · refine Or.inl ⟨hdigit, ?_⟩
    rintro rfl
    exact absurd (nil_mem_completions_iff.mp hback).1 (by decide)
  · refine Or.inr ⟨hunit, ?_⟩
    cases hlast : front.getLast? with
    | none => simp [hopened, openBehind, hlast] at hopen
    | some d =>
        rw [hopened, openBehind, hlast] at hopen
        exact ⟨d, mem_digits_iff.mpr hopen, rfl⟩

/-- **An interval is `now`, or one or more groups of a number and a unit**, however many
groups there are and however long the numbers.  So nothing else is accepted that has, at
whatever place, a character besides the ASCII digits and the units, a unit without a
number right before it, or a number without a unit at the end. -/
theorem interval_is_now_or_groups (text : String) :
    (Check.interval text = none ↔ text = "now" ∨ text.toList ∈ groups) ∧
    ∀ front c back, text.toList = front ++ c :: back → ¬ StandsInGroup front c back →
      text ≠ "now" → Check.interval text ≠ none := by
  have haccepts : Check.interval text = none ↔ text = "now" ∨ text.toList ∈ groups := by
    rw [Check.interval_eq_none_iff, Check.isInterval, Bool.or_eq_true, beq_iff_eq,
      isGroups_iff_mem_completions]
    rfl
  refine ⟨haccepts, ?_⟩
  intro front c back hplace hfault hnow haccepted
  have hgroups : text.toList ∈ groups := (haccepts.mp haccepted).resolve_left hnow
  rw [hplace] at hgroups
  exact hfault (standsInGroup_of_mem_groups hgroups)

theorem interval_with_foreign_digit_is_refused :
    "1h٣m".toList = ['1', 'h'] ++ '٣' :: ['m'] ∧ ¬ StandsInGroup ['1', 'h'] '٣' ['m'] ∧
      "1h٣m" ≠ "now" ∧ Check.interval "1h٣m" ≠ none := by
  have hplace : "1h٣m".toList = ['1', 'h'] ++ '٣' :: ['m'] := by decide
  have hfault : ¬ StandsInGroup ['1', 'h'] '٣' ['m'] := by
    rintro (⟨hdigit, -⟩ | ⟨hunit, -⟩)
    · exact absurd hdigit (by decide)
    · exact absurd hunit (by decide)
  have hnow : "1h٣m" ≠ "now" := by decide
  exact ⟨hplace, hfault, hnow, (interval_is_now_or_groups "1h٣m").2 _ _ _ hplace hfault hnow⟩

end BackupPlan.Interval
