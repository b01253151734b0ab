import BackupPlan.Json.Draft
import BackupPlan.Json.Printer

/-!
# Printed values read back

A value that is printed over several lines is read as itself again, whatever its texts
hold and wherever it stands in a longer text.  The reader looks at one character at a
time and counts its steps, so the statements are about what it makes of a printed value
in front of any other text, with four steps for every character that is left.

Numbers are left out: their numerals are written and read through floats.

* `Draft.textRest_escapedChar`, `Draft.textRest_escaped` — a character, and a whole text;
* `Draft.item_prettyItems`, `Draft.member_prettyMembers` — the entries of a list or of an
  object up to its end, if each of them reads back;
* `Draft.value_prettyAt` — so every value does, in front of any text;
* `parse?_pretty` — and a value that is no deeper than a text may be is all that is read.
-/

namespace BackupPlan.Json

/-! ### Values without numbers -/

/-- A value without numbers, of at most so many levels of lists and objects. -/
inductive IsNumberlessWithin : Nat → Json → Prop
  | null (levels : Nat) : IsNumberlessWithin levels null
  | bool (levels : Nat) (b : Bool) : IsNumberlessWithin levels (bool b)
  | text (levels : Nat) (s : String) : IsNumberlessWithin levels (text s)
  | list {levels : Nat} {items : List Json}
      (h : ∀ item ∈ items, IsNumberlessWithin levels item) :
      IsNumberlessWithin (levels + 1) (list items)
  | object {levels : Nat} {members : List (String × Json)}
      (h : ∀ member ∈ members, IsNumberlessWithin levels member.2) :
      IsNumberlessWithin (levels + 1) (object members)

/-! ### Printed entries -/

/-- A line break and the indentation behind it. -/
def margin (level : Nat) : List Char :=
  '\n' :: List.replicate (2 * level) ' '

/-- The characters of entries that stand one a line, parted by commas. -/
def entryChars (level : Nat) : List String → List Char
  | [] => []
  | [entry] => entry.toList
  | entry :: rest => entry.toList ++ ',' :: margin level ++ entryChars level rest

/-- A printed list or object without entries is the bare brackets. -/
theorem block_nil (level : Nat) (opening closing : String) :
    block level opening closing [] = opening ++ closing :=
  rfl

/-- Otherwise its entries stand on lines of their own. -/
theorem toList_block (level : Nat) (opening closing : String) {entries : List String}
    (hne : entries ≠ []) :
    (block level opening closing entries).toList =
      opening.toList ++ margin (level + 1) ++ entryChars (level + 1) entries ++ margin level ++
        closing.toList := by
  have hentries : ∀ entries : List String,
      (("," ++ ("\n" ++ String.ofList (List.replicate (2 * (level + 1)) ' '))).intercalate
        entries).toList = entryChars (level + 1) entries := by
    intro entries
    induction entries with
    | nil => rfl
    | cons entry rest ih =>
        cases rest with
        | nil => simp [entryChars]
        | cons next rest =>
            rw [String.intercalate_cons_of_ne_nil (by simp), String.toList_append, ih]
            simp [entryChars, margin]
  have hsome : entries.isEmpty = false := by simpa using hne
  simp only [block, hsome, Bool.false_eq_true, if_false, String.toList_append, hentries]
  simp [margin]

/-! ### Printed values -/

/-- Null is printed as its word. -/
theorem toList_prettyAt_null (level : Nat) :
    (prettyAt level .null).toList = ['n', 'u', 'l', 'l'] := by
  simp [prettyAt]

/-- True is printed as its word. -/
theorem toList_prettyAt_true (level : Nat) :
    (prettyAt level (.bool true)).toList = ['t', 'r', 'u', 'e'] := by
  simp [prettyAt]

/-- False is printed as its word. -/
theorem toList_prettyAt_false (level : Nat) :
    (prettyAt level (.bool false)).toList = ['f', 'a', 'l', 's', 'e'] := by
  simp [prettyAt]

/-- A text is printed as its escaped characters between quotes. -/
theorem toList_prettyAt_text (level : Nat) (s : String) :
    (prettyAt level (.text s)).toList = '"' :: (s.toList.flatMap escapedChar ++ ['"']) := by
  simp [prettyAt, written]

/-- A list is printed between brackets, its items on lines of their own, one level deeper. -/
theorem toList_prettyAt_list (level : Nat) (items : List Json) :
    (prettyAt level (.list items)).toList = '[' ::
      (if items.isEmpty then [] else margin (level + 1) ++
        entryChars (level + 1) (prettyItems (level + 1) items) ++ margin level) ++ [']'] := by
  cases items with
  | nil => simp [prettyAt, prettyItems, block_nil]
  | cons item rest => simp [prettyAt, prettyItems, toList_block]

/-- An object is printed between braces, its members on lines of their own, one level deeper. -/
theorem toList_prettyAt_object (level : Nat) (members : List (String × Json)) :
    (prettyAt level (.object members)).toList = '\x7b' ::
      (if members.isEmpty then [] else margin (level + 1) ++
        entryChars (level + 1) (prettyMembers (level + 1) members) ++ margin level) ++ ['\x7d'] := by
  cases members with
  | nil => simp [prettyAt, prettyMembers, block_nil]
  | cons member rest => simp [prettyAt, prettyMembers, toList_block]

namespace Draft

/-! ### Escapes and texts -/

/-- Four digits are read, whatever follows them. -/
theorem fourDigits_append {digits : List Char} {a b c d : Nat}
    (h : digits.map hexValue = [some a, some b, some c, some d]) (rest : List Char) :
    fourDigits (digits ++ rest) = .ok (((a * 16 + b) * 16 + c) * 16 + d, rest) := by
  obtain ⟨w, x, y, z, rfl⟩ : ∃ w x y z, digits = [w, x, y, z] := by
    have hlength := congrArg List.length h
    simp only [List.length_map, List.length_cons, List.length_nil] at hlength
    match digits, hlength with
    | [w, x, y, z], _ => exact ⟨w, x, y, z, rfl⟩
  simp only [List.map_cons, List.map_nil, List.cons.injEq, and_true] at h
  obtain ⟨hw, hx, hy, hz⟩ := h
  simp [fourDigits, hw, hx, hy, hz]

/-- The escape of a control character stands for it. -/
theorem codeEscape_escapeDigits {n : Nat} (h : n < 0x20) (rest : List Char) :
    codeEscape (escapeDigits n ++ rest) = .ok (Char.ofNat n, rest) := by
  have hdigits : ∀ n < 0x20, (escapeDigits n).map hexValue =
      [some 0, some 0, some (n / 16), some (n % 16)] := by
    decide
  have hvalue : ((0 * 16 + 0) * 16 + n / 16) * 16 + n % 16 = n := by omega
  rw [codeEscape, fourDigits_append (hdigits n h), hvalue]
  have hlow : ¬ 0xDC00 ≤ n := by omega
  have hhigh : n < 0xD800 := by omega
  simp [bind, Except.bind, pure, Except.pure, hlow, hhigh]

/-- Every character is written. -/
theorem length_escapedChar_pos (c : Char) : 0 < (escapedChar c).length := by
  unfold escapedChar
  split
  case h_8 => split <;> simp
  all_goals exact Nat.zero_lt_succ _

/-- A character is read from its form inside a text. -/
theorem textRest_escapedChar (c : Char) (fuel : Nat) (done rest : List Char) :
    textRest (fuel + 1) done (escapedChar c ++ rest) = textRest fuel (c :: done) rest := by
  unfold escapedChar
  split
  case h_8 _ hquote hbackslash _ _ _ _ _ =>
    split
    · next hcontrol =>
      have hcode : Char.ofNat c.toNat = c := Char.ofNat_toNat c
      simp [textRest, escape, codeEscape_escapeDigits hcontrol, hcode, bind, Except.bind]
    · next hshown =>
      rw [List.singleton_append, textRest, if_neg hquote, if_neg hbackslash, if_neg hshown]
  all_goals rfl

/-- A written text is read up to its closing quote. -/
theorem textRest_escaped (cs : List Char) {fuel : Nat} (hfuel : cs.length < fuel)
    (done rest : List Char) :
    textRest fuel done (cs.flatMap escapedChar ++ '"' :: rest) =
      .ok (String.ofList (done.reverse ++ cs), rest) := by
  induction cs generalizing fuel done with
  | nil =>
      obtain ⟨fuel, rfl⟩ := Nat.exists_eq_succ_of_ne_zero (Nat.ne_of_gt hfuel)
      simp [textRest]
  | cons c cs ih =>
      obtain ⟨fuel, rfl⟩ := Nat.exists_eq_succ_of_ne_zero (Nat.ne_of_gt (Nat.zero_lt_of_lt hfuel))
      rw [List.flatMap_cons, List.append_assoc, textRest_escapedChar,
        ih (Nat.lt_of_succ_lt_succ hfuel)]
      simp

/-! ### Blanks -/

/-- The blanks in front of anything else are passed over. -/
theorem skipBlanks_margin (level : Nat) {c : Char} (hc : isBlank c = false) (rest : List Char) :
    skipBlanks (margin level ++ c :: rest) = c :: rest := by
  have hblanks : ∀ n, (List.replicate n ' ' ++ c :: rest).dropWhile isBlank = c :: rest := by
    intro n
    induction n with
    | zero => simp [hc]
    | succ n ih =>
        rw [List.replicate_succ, List.cons_append, List.dropWhile_cons_of_pos rfl, ih]
  rw [skipBlanks, margin, List.cons_append, List.dropWhile_cons_of_pos rfl, hblanks]

/-- A character that is no blank is not passed over. -/
theorem skipBlanks_cons {c : Char} (hc : isBlank c = false) (rest : List Char) :
    skipBlanks (c :: rest) = c :: rest := by
  rw [skipBlanks, List.dropWhile_cons_of_neg (by simp [hc])]

/-- A printed value begins with a character that is no blank and closes nothing. -/
theorem exists_head_prettyAt {levels : Nat} {json : Json} (h : json.IsNumberlessWithin levels)
    (level : Nat) :
    ∃ c cs, (prettyAt level json).toList = c :: cs ∧ isBlank c = false ∧ c ≠ ']' := by
  cases h with
  | null => exact ⟨'n', _, toList_prettyAt_null level, rfl, by decide⟩
  | bool _ b =>
      cases b with
      | true => exact ⟨'t', _, toList_prettyAt_true level, rfl, by decide⟩
      | false => exact ⟨'f', _, toList_prettyAt_false level, rfl, by decide⟩
  | text _ s => exact ⟨'"', _, toList_prettyAt_text level s, rfl, by decide⟩
  | list => exact ⟨'[', _, toList_prettyAt_list level _, rfl, by decide⟩
  | object => exact ⟨'\x7b', _, toList_prettyAt_object level _, rfl, by decide⟩

/-- So do the printed items of a list. -/
theorem exists_head_prettyItems {levels : Nat} {first : Json} (h : first.IsNumberlessWithin levels)
    (level : Nat) (more : List Json) (rest : List Char) :
    ∃ c tail, entryChars level (prettyItems level (first :: more)) ++ rest = c :: tail ∧
      isBlank c = false ∧ c ≠ ']' := by
  obtain ⟨c, cs, hhead, hblank, hclose⟩ := exists_head_prettyAt h level
  obtain ⟨tail, htail⟩ : ∃ tail, entryChars level (prettyItems level (first :: more)) ++ rest =
      c :: tail := by
    cases more <;> simp [prettyItems, entryChars, hhead]
  exact ⟨c, tail, htail, hblank, hclose⟩

/-- The printed members of an object begin with the quote of a name. -/
theorem exists_head_prettyMembers (level : Nat) (first : String × Json)
    (more : List (String × Json)) (rest : List Char) :
    ∃ tail, entryChars level (prettyMembers level (first :: more)) ++ rest = '"' :: tail := by
  cases more <;> simp [prettyMembers, entryChars, written]

/-- A written text is read as it. -/
theorem value_text (cs : List Char) (fuel levels : Nat) (rest : List Char) :
    value (fuel + 1) levels ('"' :: (cs.flatMap escapedChar ++ '"' :: rest)) =
      (text (String.ofList cs), some rest) := by
  have hlength : cs.length < (cs.flatMap escapedChar ++ '"' :: rest).length + 1 := by
    have hone : cs.length ≤ (cs.flatMap escapedChar).length := by
      induction cs with
      | nil => exact Nat.le_refl 0
      | cons c cs ih =>
          rw [List.flatMap_cons, List.length_append, List.length_cons]
          have := length_escapedChar_pos c
          omega
    rw [List.length_append]
    omega
  rw [value, skipBlanks_cons rfl]
  simp only [textRest_escaped cs hlength, List.reverse_nil, List.nil_append]

/-- An opening bracket leads to the items of a list. -/
theorem value_openList (fuel levels : Nat) (cs : List Char) :
    value (fuel + 1) (levels + 1) ('[' :: cs) =
      (list (items fuel levels true cs).1 (items fuel levels true cs).2.1,
        (items fuel levels true cs).2.2) := by
  rw [value, skipBlanks_cons rfl]
  rfl

/-- An opening brace leads to the members of an object. -/
theorem value_openObject (fuel levels : Nat) (cs : List Char) :
    value (fuel + 1) (levels + 1) ('\x7b' :: cs) =
      (object (members fuel levels true cs).1 (members fuel levels true cs).2.1,
        (members fuel levels true cs).2.2) := by
  rw [value, skipBlanks_cons rfl]
  rfl

/-- A closing bracket behind blanks ends a list. -/
theorem items_close (fuel levels : Nat) (isFirst : Bool) {cs rest : List Char}
    (h : skipBlanks cs = ']' :: rest) :
    items (fuel + 1) levels isFirst cs = ([], none, some rest) := by
  rw [items, h]
  rfl

/-- The first item stands on a line of its own. -/
theorem items_first (fuel levels level : Nat) {c : Char} (hblank : isBlank c = false)
    (hclose : c ≠ ']') (rest : List Char) :
    items (fuel + 1) levels true (margin level ++ c :: rest) = item fuel levels (c :: rest) := by
  rw [items, skipBlanks_margin level hblank]
  simp

/-- Any other stands on a line of its own behind a comma. -/
theorem items_next (fuel levels level : Nat) {c : Char} (hblank : isBlank c = false)
    (hclose : c ≠ ']') (rest : List Char) :
    items (fuel + 1) levels false (',' :: margin level ++ c :: rest) =
      item fuel levels (c :: rest) := by
  rw [items, List.cons_append, skipBlanks_cons rfl]
  simp [skipBlanks_margin level hblank, hclose]

/-- Blanks in front of a value do not matter. -/
theorem value_margin (fuel levels level : Nat) {c : Char} (hc : isBlank c = false)
    (rest : List Char) :
    value fuel levels (margin level ++ c :: rest) = value fuel levels (c :: rest) := by
  cases fuel with
  | zero => rw [value, value]
  | succ fuel => rw [value, value, skipBlanks_margin level hc, skipBlanks_cons hc]

theorem value_space (fuel levels : Nat) (cs : List Char) :
    value fuel levels (' ' :: cs) = value fuel levels cs := by
  cases fuel with
  | zero => rw [value, value]
  | succ fuel =>
      have hspace : skipBlanks (' ' :: cs) = skipBlanks cs := List.dropWhile_cons_of_pos rfl
      rw [value, value, hspace]

/-- A closing brace behind blanks ends an object. -/
theorem members_close (fuel levels : Nat) (isFirst : Bool) {cs rest : List Char}
    (h : skipBlanks cs = '\x7d' :: rest) :
    members (fuel + 1) levels isFirst cs = ([], none, some rest) := by
  rw [members, h]
  rfl

/-- The name of the first member stands on a line of its own. -/
theorem members_first (fuel levels level : Nat) (rest : List Char) :
    members (fuel + 1) levels true (margin level ++ '"' :: rest) =
      member fuel levels ('"' :: rest) := by
  rw [members, skipBlanks_margin level rfl]
  rfl

/-- That of any other stands on a line of its own behind a comma. -/
theorem members_next (fuel levels level : Nat) (rest : List Char) :
    members (fuel + 1) levels false (',' :: margin level ++ '"' :: rest) =
      member fuel levels ('"' :: rest) := by
  have hmember : member fuel levels (margin level ++ '"' :: rest) =
      member fuel levels ('"' :: rest) := by
    cases fuel with
    | zero => rw [member, member]
    | succ fuel => rw [member, member, value_margin fuel levels level rfl]
  rw [members, List.cons_append, skipBlanks_cons rfl]
  exact hmember

/-- A member is its name and its value, and those behind it. -/
theorem member_eq {fuel levels : Nat} {name : String} {draft : Draft} {cs rest : List Char}
    (h : value (fuel + 1) levels cs = (draft, some rest)) :
    member (fuel + 2) levels ('"' :: (name.toList.flatMap escapedChar ++ '"' :: ':' :: ' ' :: cs)) =
      ((text name, draft) :: (members (fuel + 1) levels false rest).1,
        (members (fuel + 1) levels false rest).2.1,
        (members (fuel + 1) levels false rest).2.2) := by
  rw [member, value_text, String.ofList_toList]
  simp only [skipBlanks_cons (c := ':') rfl, value_space, h]

/-! ### Values -/

/-- A printed value is read in front of any text, within so many levels. -/
def ReadsBack (levels : Nat) (json : Json) : Prop :=
  ∀ (level fuel : Nat) (rest : List Char),
    4 * ((prettyAt level json).toList ++ rest).length + 2 ≤ fuel →
    ∃ draft, draft.toJson? = some json ∧
      value fuel levels ((prettyAt level json).toList ++ rest) = (draft, some rest)

/-- The items of a list are read up to its end, if each of them is read. -/
theorem item_prettyItems {levels : Nat} {first : Json} {more : List Json}
    (hprints : ∀ json ∈ first :: more, json.IsNumberlessWithin levels)
    (hreads : ∀ json ∈ first :: more, ReadsBack levels json) (level outer fuel : Nat)
    (rest : List Char)
    (hfuel : 4 * (entryChars level (prettyItems level (first :: more)) ++
      (margin outer ++ ']' :: rest)).length + 3 ≤ fuel) :
    ∃ drafts, itemsToJson? drafts = some (first :: more) ∧
      item fuel levels (entryChars level (prettyItems level (first :: more)) ++
        (margin outer ++ ']' :: rest)) = (drafts, none, some rest) := by
  obtain ⟨fuel, rfl⟩ : ∃ n, fuel = n + 2 := ⟨fuel - 2, by omega⟩
  induction more generalizing first fuel with
  | nil =>
      have hchars : entryChars level (prettyItems level [first]) = (prettyAt level first).toList := by
        simp [prettyItems, entryChars]
      rw [hchars] at hfuel ⊢
      obtain ⟨draft, hdraft, hvalue⟩ := hreads first List.mem_cons_self level (fuel + 1)
        (margin outer ++ ']' :: rest) (by omega)
      refine ⟨[draft], by simp [itemsToJson?, hdraft], ?_⟩
      rw [item, hvalue]
      simp only [items_close fuel levels false (skipBlanks_margin outer rfl rest)]
  | cons next more ih =>
      have hchars : entryChars level (prettyItems level (first :: next :: more)) ++
            (margin outer ++ ']' :: rest) =
          (prettyAt level first).toList ++ (',' :: margin level ++
            (entryChars level (prettyItems level (next :: more)) ++
              (margin outer ++ ']' :: rest))) := by
        simp [prettyItems, entryChars]
      obtain ⟨c, tail, htail, hblank, hclose⟩ := exists_head_prettyItems
        (hprints next (by simp)) level more (margin outer ++ ']' :: rest)
      rw [hchars] at hfuel ⊢
      obtain ⟨draft, hdraft, hvalue⟩ := hreads first List.mem_cons_self level (fuel + 1)
        (',' :: margin level ++ (entryChars level (prettyItems level (next :: more)) ++
          (margin outer ++ ']' :: rest))) (by omega)
      simp only [List.length_append, List.length_cons, margin, List.length_replicate] at hfuel
      obtain ⟨fuel, rfl⟩ : ∃ n, fuel = n + 2 := ⟨fuel - 2, by omega⟩
      obtain ⟨drafts, hdrafts, hitems⟩ := ih (List.forall_mem_cons.mp hprints).2
        (List.forall_mem_cons.mp hreads).2 fuel (by
          simp only [List.length_append, List.length_cons, margin, List.length_replicate]
          omega)
      refine ⟨draft :: drafts, by simp [itemsToJson?, hdraft, hdrafts], ?_⟩
      rw [item, hvalue, htail]
      rw [htail] at hitems
      simp only [items_next _ _ _ hblank hclose, hitems]

/-- The characters of a printed member: its name, a colon, a blank, and its value. -/
def memberChars (level : Nat) (member : String × Json) (rest : List Char) : List Char :=
  '"' :: (member.1.toList.flatMap escapedChar ++
    '"' :: ':' :: ' ' :: ((prettyAt level member.2).toList ++ rest))

/-- The members of an object are read up to its end, if the value of each of them is. -/
theorem member_prettyMembers {levels : Nat} {first : String × Json} {more : List (String × Json)}
    (hreads : ∀ member ∈ first :: more, ReadsBack levels member.2) (level outer fuel : Nat)
    (rest : List Char)
    (hfuel : 4 * (entryChars level (prettyMembers level (first :: more)) ++
      (margin outer ++ '\x7d' :: rest)).length + 3 ≤ fuel) :
    ∃ drafts, membersToJson? drafts = some (first :: more) ∧
      member fuel levels (entryChars level (prettyMembers level (first :: more)) ++
        (margin outer ++ '\x7d' :: rest)) = (drafts, none, some rest) := by
  obtain ⟨fuel, rfl⟩ : ∃ n, fuel = n + 2 := ⟨fuel - 2, by omega⟩
  induction more generalizing first fuel with
  | nil =>
      have hchars : entryChars level (prettyMembers level [first]) ++
          (margin outer ++ '\x7d' :: rest) =
            memberChars level first (margin outer ++ '\x7d' :: rest) := by
        simp [prettyMembers, entryChars, memberChars, written]
      rw [hchars, memberChars] at hfuel ⊢
      simp only [List.length_append, List.length_cons] at hfuel
      obtain ⟨draft, hdraft, hvalue⟩ := hreads first List.mem_cons_self level (fuel + 1)
        (margin outer ++ '\x7d' :: rest) (by
          simp only [List.length_append, List.length_cons]
          omega)
      refine ⟨[(text first.1, draft)], by simp [membersToJson?, hdraft], ?_⟩
      rw [member_eq hvalue, members_close fuel levels false (skipBlanks_margin outer rfl rest)]
  | cons next more ih =>
      have hchars : entryChars level (prettyMembers level (first :: next :: more)) ++
            (margin outer ++ '\x7d' :: rest) =
          memberChars level first (',' :: margin level ++
            (entryChars level (prettyMembers level (next :: more)) ++
              (margin outer ++ '\x7d' :: rest))) := by
        simp [prettyMembers, entryChars, memberChars, written]
      obtain ⟨tail, htail⟩ :=
        exists_head_prettyMembers level next more (margin outer ++ '\x7d' :: rest)
      rw [hchars, memberChars] at hfuel ⊢
      simp only [List.length_append, List.length_cons, margin, List.length_replicate] at hfuel
      obtain ⟨draft, hdraft, hvalue⟩ := hreads first List.mem_cons_self level (fuel + 1)
        (',' :: margin level ++ (entryChars level (prettyMembers level (next :: more)) ++
          (margin outer ++ '\x7d' :: rest))) (by
            simp only [List.length_append, List.length_cons, margin, List.length_replicate]
            omega)
      obtain ⟨fuel, rfl⟩ : ∃ n, fuel = n + 2 := ⟨fuel - 2, by omega⟩
      obtain ⟨drafts, hdrafts, hmembers⟩ := ih (List.forall_mem_cons.mp hreads).2 fuel (by
          simp only [List.length_append, List.length_cons, margin, List.length_replicate]
          omega)
      refine ⟨(text first.1, draft) :: drafts, by simp [membersToJson?, hdraft, hdrafts], ?_⟩
      rw [member_eq hvalue, htail]
      rw [htail] at hmembers
      simp only [members_next, hmembers]

/-- **A printed value is read in front of any text.** -/
theorem value_prettyAt {levels : Nat} {json : Json} (h : json.IsNumberlessWithin levels) :
    ReadsBack levels json := by
  induction h with
  | null levels =>
      intro level fuel rest hfuel
      obtain ⟨fuel, rfl⟩ : ∃ n, fuel = n + 1 := ⟨fuel - 1, by omega⟩
      refine ⟨null, by rw [toJson?], ?_⟩
      rw [toList_prettyAt_null, value]
      rfl
  | bool levels b =>
      intro level fuel rest hfuel
      obtain ⟨fuel, rfl⟩ : ∃ n, fuel = n + 1 := ⟨fuel - 1, by omega⟩
      refine ⟨bool b, by rw [toJson?], ?_⟩
      cases b with
      | true =>
          rw [toList_prettyAt_true, value]
          rfl
      | false =>
          rw [toList_prettyAt_false, value]
          rfl
  | text levels s =>
      intro level fuel rest hfuel
      obtain ⟨fuel, rfl⟩ : ∃ n, fuel = n + 1 := ⟨fuel - 1, by omega⟩
      refine ⟨text s, by rw [toJson?], ?_⟩
      rw [toList_prettyAt_text, List.cons_append, List.append_assoc, List.singleton_append,
        value_text, String.ofList_toList]
  | @list levels items hitems ih =>
      intro level fuel rest hfuel
      rw [toList_prettyAt_list] at hfuel ⊢
      cases items with
      | nil =>
          obtain ⟨fuel, rfl⟩ : ∃ n, fuel = n + 2 := ⟨fuel - 2, by omega⟩
          refine ⟨list [] none, by simp [toJson?, itemsToJson?], ?_⟩
          have hclose := items_close fuel levels true (skipBlanks_cons (c := ']') rfl rest)
          exact (value_openList (fuel + 1) levels (']' :: rest)).trans (by rw [hclose])
      | cons first more =>
          obtain ⟨c, tail, htail, hblank, hclose⟩ := exists_head_prettyItems
            (hitems first List.mem_cons_self) (level + 1) more (margin level ++ ']' :: rest)
          simp only [List.isEmpty_cons, Bool.false_eq_true, if_false, List.append_assoc,
            List.cons_append, List.nil_append, List.length_cons] at hfuel ⊢
          obtain ⟨fuel, rfl⟩ : ∃ n, fuel = n + 2 := ⟨fuel - 2, by omega⟩
          obtain ⟨drafts, hdrafts, hitem⟩ := item_prettyItems hitems ih (level + 1) level
            fuel rest (by
              rw [List.length_append] at hfuel
              simp only [margin, List.length_cons] at hfuel ⊢
              omega)
          refine ⟨list drafts none, by simp [toJson?, hdrafts], ?_⟩
          rw [value_openList, htail, items_first _ _ _ hblank hclose, ← htail, hitem]
  | @object levels members hmembers ih =>
      intro level fuel rest hfuel
      rw [toList_prettyAt_object] at hfuel ⊢
      cases members with
      | nil =>
          obtain ⟨fuel, rfl⟩ : ∃ n, fuel = n + 2 := ⟨fuel - 2, by omega⟩
          refine ⟨object [] none, by simp [toJson?, membersToJson?], ?_⟩
          have hclose := members_close fuel levels true (skipBlanks_cons (c := '\x7d') rfl rest)
          exact (value_openObject (fuel + 1) levels ('\x7d' :: rest)).trans (by rw [hclose])
      | cons first more =>
          obtain ⟨tail, htail⟩ :=
            exists_head_prettyMembers (level + 1) first more (margin level ++ '\x7d' :: rest)
          simp only [List.isEmpty_cons, Bool.false_eq_true, if_false, List.append_assoc,
            List.cons_append, List.nil_append, List.length_cons] at hfuel ⊢
          obtain ⟨fuel, rfl⟩ : ∃ n, fuel = n + 2 := ⟨fuel - 2, by omega⟩
          obtain ⟨drafts, hdrafts, hmember⟩ := member_prettyMembers ih (level + 1) level
            fuel rest (by
              rw [List.length_append] at hfuel
              simp only [margin, List.length_cons] at hfuel ⊢
              omega)
          refine ⟨object drafts none, by simp [toJson?, hdrafts], ?_⟩
          rw [value_openObject, htail, members_first, ← htail, hmember]

end Draft

/-- **A printed value reads back** as itself, if it holds no numbers and is no deeper than
a text may be. -/
theorem parse?_pretty {json : Json} (h : json.IsNumberlessWithin Draft.maxDepth) :
    parse? json.pretty = some json := by
  obtain ⟨draft, hdraft, hvalue⟩ := Draft.value_prettyAt h 0
    (4 * json.pretty.toList.length + 4) [] (by simp [pretty])
  rw [List.append_nil] at hvalue
  have hprinted : json.pretty.toList = (prettyAt 0 json).toList := rfl
  simp only [parse?, Draft.ofText, hprinted] at hvalue ⊢
  rw [hvalue]
  exact hdraft

end BackupPlan.Json
