import BackupPlan.UnixPath.Basic

/-!
# The steps of joined paths

The bytes of a path are cut at its slashes, and in UTF-8 the byte of the slash
stands for nothing but a slash.  So a name without slashes is a single segment,
and behind a directory a relative path adds its own steps to those of the
directory, however the directory ends.

* `UnixPath.slash_not_mem_bytes_ofText` — a text without slashes has no byte of one;
* `UnixPath.isAbsolute_join`, `UnixPath.exists_join_eq_ofText`,
  `UnixPath.toText?_ne_none_of_join` — when a joined path is absolute, and when it is a text;
* `UnixPath.components_join` — the steps of a joined path;
* `UnixPath.getLast?_components_join_name` — the last of them, behind any directory.
-/

namespace BackupPlan.UnixPath

variable {base p : UnixPath}

/-- A path is its bytes. -/
theorem eq_of_bytes_eq {p q : UnixPath} (h : p.bytes = q.bytes) : p = q := by
  cases p
  cases q
  exact congrArg UnixPath.mk h

/-! ### Texts as bytes -/

/-- The bytes of a path made of a text are the encodings of its characters. -/
theorem bytes_ofText (s : String) : (ofText s).bytes = s.toList.flatMap String.utf8EncodeChar := by
  rw [ofText, ← String.utf8Encode_toList, List.utf8Encode, List.toList_data_toByteArray]

/-- A path made of two texts has the bytes of both, one after the other. -/
theorem bytes_ofText_append (s t : String) :
    (ofText (s ++ t)).bytes = (ofText s).bytes ++ (ofText t).bytes := by
  simp only [bytes_ofText, String.toList_append, List.flatMap_append]

/-- Every byte of a character beyond ASCII has its highest bit set. -/
theorem slash_not_mem_utf8EncodeChar {c : Char} (h : c ≠ '/') :
    slash ∉ String.utf8EncodeChar c := by
  have hcode : c.val.toNat ≠ 47 := by
    intro hcode
    exact h (Char.ext (UInt32.toNat_inj.mp hcode))
  have hbyte : ∀ n, slash = UInt8.ofNat n → n % 256 = 47 := by
    intro n hn
    have := congrArg UInt8.toNat hn
    simpa [slash] using this.symm
  intro hmem
  simp only [String.utf8EncodeChar] at hmem
  split at hmem
  · have := hbyte _ (List.mem_singleton.mp hmem)
    omega
  · split at hmem
    · simp only [List.mem_cons, List.not_mem_nil, or_false] at hmem
      rcases hmem with hmem | hmem <;> have := hbyte _ hmem <;> omega
    · split at hmem
      · simp only [List.mem_cons, List.not_mem_nil, or_false] at hmem
        rcases hmem with hmem | hmem | hmem <;> have := hbyte _ hmem <;> omega
      · simp only [List.mem_cons, List.not_mem_nil, or_false] at hmem
        rcases hmem with hmem | hmem | hmem | hmem <;> have := hbyte _ hmem <;> omega

/-- A text without a slash has no byte that is one, since the encoding of another character has
only other bytes. -/
theorem slash_not_mem_bytes_ofText {s : String} (h : '/' ∉ s.toList) :
    slash ∉ (ofText s).bytes := by
  rw [bytes_ofText, List.mem_flatMap]
  rintro ⟨c, hc, hmem⟩
  have hne : c ≠ '/' := fun hslash => h (hslash ▸ hc)
  exact slash_not_mem_utf8EncodeChar hne hmem

/-- What stands in front of the byte of a slash in a text is a text. -/
theorem exists_flatMap_eq_of_append_slash {cs : List Char} {front back : List UInt8}
    (h : cs.flatMap String.utf8EncodeChar = front ++ slash :: back) :
    ∃ before : List Char, front = before.flatMap String.utf8EncodeChar := by
  induction cs generalizing front with
  | nil => simp at h
  | cons c cs ih =>
      rw [List.flatMap_cons] at h
      rcases List.append_eq_append_iff.mp h with ⟨more, rfl, hmore⟩ | ⟨more, hcode, hmore⟩
      · obtain ⟨before, rfl⟩ := ih hmore
        exact ⟨c :: before, List.flatMap_cons.symm⟩
      · cases more with
        | nil => exact ⟨[c], by rw [List.flatMap_singleton, hcode, List.append_nil]⟩
        | cons b more =>
            -- The slash is a byte of the character, which is the slash then.
            obtain ⟨rfl, -⟩ := List.cons.inj hmore
            have hmem : slash ∈ String.utf8EncodeChar c := by simp [hcode]
            obtain rfl : c = '/' :=
              Decidable.byContradiction fun hne => slash_not_mem_utf8EncodeChar hne hmem
            have hbyte : String.utf8EncodeChar '/' = [slash] := by decide
            rw [hbyte] at hcode
            cases front with
            | nil => exact ⟨[], rfl⟩
            | cons b front => simp at hcode

/-! ### Absolute paths -/

/-- A path is absolute exactly if its first byte is a slash. -/
theorem isAbsolute_iff : p.isAbsolute = true ↔ ∃ rest, p.bytes = slash :: rest := by
  rw [isAbsolute, beq_iff_eq, List.head?_eq_some_iff]

/-- A path without a slash is relative. -/
theorem isAbsolute_eq_false_of_not_mem (h : slash ∉ p.bytes) : p.isAbsolute = false := by
  refine Bool.eq_false_iff.mpr fun hp => ?_
  obtain ⟨rest, hrest⟩ := isAbsolute_iff.mp hp
  exact h (hrest ▸ List.mem_cons_self)

/-- The components of an absolute path are the root and the steps of its segments. -/
theorem components_eq_of_isAbsolute (h : p.isAbsolute = true) :
    p.components = .root :: p.segments.filterMap segmentStep := by
  simp [components, h]

/-- Only an absolute path starts with the root. -/
theorem isAbsolute_iff_head?_components :
    p.isAbsolute = true ↔ p.components.head? = some .root := by
  constructor
  · intro h
    rw [components_eq_of_isAbsolute h]
    rfl
  · intro h
    by_cases hp : p.isAbsolute = true
    · exact hp
    have hroot : Component.root ∉ p.segments.filterMap segmentStep := by
      intro hmem
      obtain ⟨segment, -, hstep⟩ := List.mem_filterMap.mp hmem
      unfold segmentStep at hstep
      split at hstep
      · cases hstep
      · split at hstep <;> cases hstep
    rw [components, if_neg hp] at h
    split at h
    · cases h
    · exact (hroot (List.mem_of_mem_head? h)).elim

/-! ### Joined paths -/

/-- The three ways in which a path is put behind a directory. -/
theorem join_cases (base p : UnixPath) :
    (p.isAbsolute = true ∧ base.join p = p) ∨
    (p.isAbsolute = false ∧ base.bytes = [] ∧ base.join p = p) ∨
    (p.isAbsolute = false ∧ ∃ front tail, base.bytes = front ++ tail ∧
      (tail = [] ∧ front ≠ [] ∨ tail = [slash]) ∧
      (base.join p).bytes = front ++ slash :: p.bytes) := by
  by_cases hp : p.isAbsolute = true
  · exact Or.inl ⟨hp, if_pos hp⟩
  refine Or.inr ?_
  have hp : p.isAbsolute = false := by simpa using hp
  by_cases hempty : base.bytes = []
  · exact Or.inl ⟨hp, hempty, by simp [join, hp, hempty]⟩
  refine Or.inr ⟨hp, ?_⟩
  by_cases hslash : base.bytes.getLast? = some slash
  · obtain ⟨front, hfront⟩ := List.getLast?_eq_some_iff.mp hslash
    exact ⟨front, [slash], hfront, Or.inr rfl, by simp [join, hp, hfront]⟩
  · refine ⟨base.bytes, [], by simp, Or.inl ⟨rfl, hempty⟩, ?_⟩
    simp [join, hp, hempty, hslash]

/-- A joined path is absolute if one of its parts is. -/
theorem isAbsolute_join (base p : UnixPath) :
    (base.join p).isAbsolute = (base.isAbsolute || p.isAbsolute) := by
  rcases join_cases base p with ⟨hp, hjoin⟩ | ⟨hp, hempty, hjoin⟩ |
    ⟨hp, front, tail, hbase, htail, hjoin⟩
  · rw [hjoin, hp, Bool.or_true]
  · simp [hjoin, isAbsolute, hempty]
  · rw [hp, Bool.or_false]
    rcases htail with ⟨rfl, hne⟩ | rfl
    · obtain ⟨b, front, rfl⟩ := List.exists_cons_of_ne_nil hne
      simp [isAbsolute, hjoin, hbase]
    · cases front <;> simp [isAbsolute, hjoin, hbase]

/-- Texts join to a text. -/
theorem exists_join_eq_ofText (s t : String) :
    ∃ joined, (ofText s).join (ofText t) = ofText joined := by
  rcases join_cases (ofText s) (ofText t) with ⟨-, hjoin⟩ | ⟨-, -, hjoin⟩ |
    ⟨-, front, tail, hbytes, htail, hjoin⟩
  · exact ⟨t, hjoin⟩
  · exact ⟨t, hjoin⟩
  · rcases htail with ⟨rfl, -⟩ | rfl
    · have hslash : (ofText "/").bytes = [slash] := by decide
      rw [List.append_nil] at hbytes
      refine ⟨s ++ ("/" ++ t), eq_of_bytes_eq ?_⟩
      rw [hjoin, bytes_ofText_append, bytes_ofText_append, hslash, hbytes, List.singleton_append]
    · refine ⟨s ++ t, eq_of_bytes_eq ?_⟩
      rw [hjoin, bytes_ofText_append, hbytes, List.append_assoc, List.singleton_append]

/-- A directory behind which a relative path makes a text is a text. -/
theorem toText?_ne_none_of_join (hp : p.isAbsolute = false) (h : (base.join p).toText? ≠ none) :
    base.toText? ≠ none := by
  have htext : ∀ cs : List Char, base.bytes = cs.flatMap String.utf8EncodeChar →
      base.toText? ≠ none := by
    intro cs hbytes
    have hbase : base = ofText (String.ofList cs) :=
      eq_of_bytes_eq (by rw [hbytes, bytes_ofText, String.toList_ofList])
    rw [hbase, toText?_ofText]
    exact Option.some_ne_none _
  obtain ⟨joined, hjoined⟩ := Option.ne_none_iff_exists'.mp h
  rcases join_cases base p with ⟨habsolute, -⟩ | ⟨-, hempty, -⟩ |
    ⟨-, front, tail, hbase, htail, hjoin⟩
  · rw [hp] at habsolute
    cases habsolute
  · exact htext [] hempty
  · have hbytes : joined.toList.flatMap String.utf8EncodeChar = front ++ slash :: p.bytes := by
      rw [← hjoin, eq_ofText_of_toText? hjoined, bytes_ofText]
    obtain ⟨before, rfl⟩ := exists_flatMap_eq_of_append_slash hbytes
    rcases htail with ⟨rfl, -⟩ | rfl
    · exact htext before (by rw [hbase, List.append_nil])
    · have hslash : ['/'].flatMap String.utf8EncodeChar = [slash] := by decide
      exact htext (before ++ ['/']) (by rw [List.flatMap_append, hslash, hbase])

/-- **The steps of a joined path** are those of the directory and then those of the
path, also where the directory ends in a slash. -/
theorem components_join (hbase : base.isAbsolute = true) (hp : p.isAbsolute = false) :
    (base.join p).components = base.components ++ p.segments.filterMap segmentStep := by
  have habsolute : (base.join p).isAbsolute = true := by rw [isAbsolute_join, hbase, Bool.true_or]
  rw [components_eq_of_isAbsolute habsolute, components_eq_of_isAbsolute hbase, List.cons_append]
  congr 1
  rcases join_cases base p with ⟨hp', -⟩ | ⟨-, hempty, -⟩ |
    ⟨-, front, tail, hbytes, htail, hjoin⟩
  · rw [hp] at hp'
    cases hp'
  · obtain ⟨rest, hrest⟩ := isAbsolute_iff.mp hbase
    rw [hempty] at hrest
    cases hrest
  · have hjoined : (base.join p).segments = front.splitOn slash ++ p.segments := by
      rw [segments, hjoin, List.splitOn_append_cons_self, segments]
    rw [hjoined, List.filterMap_append]
    congr 1
    rcases htail with ⟨rfl, -⟩ | rfl
    · rw [segments, hbytes, List.append_nil]
    · -- The slash at the end cuts off an empty segment, which is no step.
      rw [segments, hbytes, List.splitOn_append_cons_self, List.filterMap_append]
      simp [segmentStep]

/-- Behind any directory, also a relative one, a name is the last step. -/
theorem getLast?_components_join_name {name : List UInt8} (hslash : slash ∉ name)
    (hstep : segmentStep name = some (.name name)) :
    (base.join ⟨name⟩).components.getLast? = some (.name name) := by
  have hname : (⟨name⟩ : UnixPath).segments = [name] := List.splitOn_eq_singleton hslash
  have hlast : ∃ front, (base.join ⟨name⟩).segments = front ++ [name] := by
    rcases join_cases base ⟨name⟩ with ⟨habsolute, -⟩ | ⟨-, -, hjoin⟩ |
      ⟨-, front, tail, -, -, hjoin⟩
    · rw [isAbsolute_eq_false_of_not_mem hslash] at habsolute
      cases habsolute
    · exact ⟨[], by rw [hjoin, hname, List.nil_append]⟩
    · refine ⟨front.splitOn slash, ?_⟩
      rw [segments, hjoin, List.splitOn_append_cons_self, ← hname, segments]
  obtain ⟨front, hfront⟩ := hlast
  simp [components, hfront, hstep]

/-- Behind a directory a name is one step. -/
theorem components_join_name {name : List UInt8} (hbase : base.isAbsolute = true)
    (hslash : slash ∉ name) (hstep : segmentStep name = some (.name name)) :
    (base.join ⟨name⟩).components = base.components ++ [.name name] := by
  rw [components_join hbase (isAbsolute_eq_false_of_not_mem hslash), segments,
    List.splitOn_eq_singleton hslash]
  simp [hstep]

end BackupPlan.UnixPath
