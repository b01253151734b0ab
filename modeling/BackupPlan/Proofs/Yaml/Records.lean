import BackupPlan.Proofs.Yaml.ScanSteps

/-!
# The tokens of printed records

A record is printed member by member, each behind its name, and a record in it below the name,
indented further.  The scan cuts the print into the tokens of the record again.
-/

namespace BackupPlan.Yaml

/-- A name that stands bare in front of its colon and is short enough for a key. -/
def IsName (name : String) : Prop :=
  Style.ofText name = .plain ∧ name.toList.length ≤ 1024

instance (name : String) : Decidable (IsName name) :=
  inferInstanceAs (Decidable (_ ∧ _))

/-- A text, or a record of such values under names, of at most so many levels of records. -/
inductive IsRecordTree : Nat → Json → Prop
  | text (levels : Nat) (s : String) : IsRecordTree levels (.text s)
  | record {levels : Nat} {members : List (String × Json)} (hne : members ≠ [])
      (hnames : ∀ member ∈ members, IsName member.1)
      (hvalues : ∀ member ∈ members, IsRecordTree levels member.2) :
      IsRecordTree (levels + 1) (.object members)

/-! ### The print of a record -/

/-- What is printed behind the colon of a member, with the end of its line. -/
def valueChars (indent : Nat) : Json → List Char
  | .object (member :: members) => '\n' :: (List.replicate (indent + 2) ' ' ++
      (freshLine (written (indent + 2) (.object (member :: members)))).toList)
  | value => ' ' :: (freshLine (written indent value)).toList

/-- The print of the members of a record, each on lines of its own. -/
def memberChars (indent : Nat) : List (String × Json) → List Char
  | [] => []
  | (name, value) :: rest =>
    name.toList ++ ':' :: (valueChars indent value ++
      (if rest = [] then [] else List.replicate indent ' ' ++ memberChars indent rest))

/-- Entries are stacked line by line. -/
theorem stacked_cons_cons (indent : Nat) (entry e : String) (entries : List String) :
    stacked indent (entry :: e :: entries) =
      freshLine entry ++ margin indent ++ stacked indent (e :: entries) := rfl

/-- Stacked entries are not empty where the first one is not. -/
theorem toList_stacked_ne_nil (indent : Nat) {entry : String} (entries : List String)
    (h : entry.toList ≠ []) : (stacked indent (entry :: entries)).toList ≠ [] := by
  cases entries with
  | nil => exact h
  | cons e entries =>
      rw [stacked_cons_cons, String.toList_append, String.toList_append, toList_freshLine]
      simp [h]

/-- Stacked entries end their lines one by one. -/
theorem toList_freshLine_stacked (indent : Nat) (entry : String) {e : String}
    (entries : List String) (h : e.toList ≠ []) :
    (freshLine (stacked indent (entry :: e :: entries))).toList =
      (freshLine entry).toList ++ (List.replicate indent ' ' ++
        (freshLine (stacked indent (e :: entries))).toList) := by
  have hne := toList_stacked_ne_nil indent entries h
  rw [toList_freshLine (stacked indent (entry :: e :: entries)), stacked_cons_cons,
    String.toList_append, closing_append hne, toList_freshLine (stacked indent (e :: entries))]
  simp [margin]

section

variable {indent levels : Nat} {name : String} {value : Json} {member : String × Json}
  {members rest : List (String × Json)}

/-- The entry of a text stands on the line of its name. -/
theorem writtenMembers_text (s : String) :
    writtenMembers indent ((name, .text s) :: rest) =
      (writtenText (indent + 2) name ++ ":" ++ (" " ++ written indent (.text s))) ::
        writtenMembers indent rest := by
  rw [writtenMembers]
  · rintro item items ⟨⟩
  · rintro member members ⟨⟩

/-- The entry of a record goes on below its name. -/
theorem writtenMembers_object :
    writtenMembers indent ((name, .object (member :: members)) :: rest) =
      (writtenText (indent + 2) name ++ ":" ++ ("\n" ++ margin (indent + 2) ++
        written (indent + 2) (.object (member :: members)))) :: writtenMembers indent rest := by
  rw [writtenMembers]

/-- An entry is written for each member, and it is not empty. -/
theorem exists_writtenMembers (hvalue : IsRecordTree levels value) :
    ∃ entry, writtenMembers indent ((name, value) :: rest) = entry :: writtenMembers indent rest ∧
      entry.toList ≠ [] := by
  cases hvalue with
  | text _ s => exact ⟨_, writtenMembers_text s, by simp⟩
  | record hne hnames hvalues =>
      obtain ⟨member, members, rfl⟩ := List.exists_cons_of_ne_nil hne
      exact ⟨_, writtenMembers_object, by simp⟩

/-- A record is written as its stacked entries. -/
theorem written_object : written indent (.object (member :: members)) =
    stacked indent (writtenMembers indent (member :: members)) := by
  rw [written]
  exact List.cons_ne_nil member members

/-- A record with a member is not written as nothing. -/
theorem toList_written_object_ne_nil (hvalue : IsRecordTree levels member.2) :
    (written indent (.object (member :: members))).toList ≠ [] := by
  obtain ⟨entry, hentry, hne⟩ := @exists_writtenMembers indent _ member.1 member.2 members hvalue
  rw [written_object, hentry]
  exact toList_stacked_ne_nil indent _ hne

/-- The entry of a member, with the end of its line, is its name, the colon and what is printed
behind it. -/
theorem exists_entry (hname : IsName name) (hvalue : IsRecordTree levels value) :
    ∃ entry, writtenMembers indent ((name, value) :: rest) = entry :: writtenMembers indent rest ∧
      (freshLine entry).toList = name.toList ++ ':' :: valueChars indent value := by
  have hwritten : writtenText (indent + 2) name = name := by simp [writtenText, hname.1]
  have hends : isBreak ':' = false ∧ isBreak ' ' = false := by decide
  cases hvalue with
  | text _ s =>
      refine ⟨_, writtenMembers_text s, ?_⟩
      have hchars :
          (writtenText (indent + 2) name ++ ":" ++ (" " ++ written indent (.text s))).toList =
            name.toList ++ ':' :: ' ' :: (written indent (.text s)).toList := by
        simp [hwritten]
      rw [toList_freshLine, hchars, closing_append (List.cons_ne_nil _ _), closing_cons hends.1,
        closing_cons hends.2, List.append_assoc, List.cons_append, List.cons_append,
        ← toList_freshLine]
      rfl
  | record hne hnames hvalues =>
      obtain ⟨member, members, rfl⟩ := List.exists_cons_of_ne_nil hne
      refine ⟨_, writtenMembers_object, ?_⟩
      have hrecord := @toList_written_object_ne_nil (indent + 2) _ member members
        (hvalues member List.mem_cons_self)
      have hchars : (writtenText (indent + 2) name ++ ":" ++ ("\n" ++ margin (indent + 2) ++
          written (indent + 2) (.object (member :: members)))).toList =
          (name.toList ++ ':' :: '\n' :: List.replicate (indent + 2) ' ') ++
            (written (indent + 2) (.object (member :: members))).toList := by
        simp [hwritten, margin]
      rw [toList_freshLine, hchars, closing_append hrecord, List.append_assoc, ← toList_freshLine]
      simp [valueChars]

/-- **A record is printed member by member.** -/
theorem toList_freshLine_object (hne : members ≠ [])
    (hnames : ∀ member ∈ members, IsName member.1)
    (hvalues : ∀ member ∈ members, IsRecordTree levels member.2) :
    (freshLine (written indent (.object members))).toList = memberChars indent members := by
  induction members with
  | nil => exact absurd rfl hne
  | cons member members ih =>
      obtain ⟨name, value⟩ := member
      rw [List.forall_mem_cons] at hnames hvalues
      obtain ⟨entry, hentry, hchars⟩ := @exists_entry indent _ name value members hnames.1 hvalues.1
      rw [written_object, hentry, memberChars]
      cases members with
      | nil => simp [writtenMembers, stacked, hchars]
      | cons member members =>
          obtain ⟨entry', hentry', hne'⟩ :=
            @exists_writtenMembers indent _ member.1 member.2 members
              (hvalues.2 member List.mem_cons_self)
          have hrest := ih (List.cons_ne_nil _ _) hnames.2 hvalues.2
          rw [written_object, hentry'] at hrest
          rw [hentry', toList_freshLine_stacked indent entry _ hne', hchars, hrest]
          simp

end

/-! ### The tokens of a record -/

mutual

/-- The tokens of a text or a record. -/
def tokensOf : Json → List Token
  | .text s => [.scalar (Style.ofText s == .plain) s]
  | .object members => .blockMappingStart :: (tokensOfMembers members ++ [.blockEnd])
  | _ => []

/-- The tokens of the members of a record. -/
def tokensOfMembers : List (String × Json) → List Token
  | [] => []
  | (name, value) :: rest =>
    .key :: .scalar true name :: .value :: (tokensOf value ++ tokensOfMembers rest)

end

namespace Scan

variable {levels : Nat} {members : List (String × Json)}

/-- Behind a colon, the print of a value is read as its tokens, up to the next line that is not
indented more than the record around. -/
def ReadsBack (value : Json) : Prop :=
  ∀ {n margin : Nat} {tail : List Char} {head : Head} {tokens : List Token} {indents : List Int},
    margin ≤ n → BeginsToken tail → n < head.column →
    head.rest = valueChars n value ++ (List.replicate margin ' ' ++ tail) →
    ∃ h', h'.rest = tail ∧ h'.column = margin ∧
      Leads (behindColon tokens n indents head)
        (before ((tokensOf value).reverse ++ tokens) n indents h')

/-- A text is read back. -/
theorem readsBack_text (s : String) : ReadsBack (.text s) := by
  intro n margin tail head tokens indents hmargin htail hcolumn hrest
  rw [valueChars, written, toList_freshLine] at hrest
  · obtain ⟨h', hrest', hcolumn', hleads⟩ := leads_text s hmargin htail hcolumn hrest
    exact ⟨h', hrest', hcolumn', by simpa [tokensOf] using hleads⟩
  · rintro member members ⟨⟩

/-- What is printed behind a colon begins with a gap. -/
theorem isGap_valueChars {value : Json} (h : IsRecordTree levels value) (n : Nat)
    (rest : List Char) : Head.isGap (valueChars n value ++ rest).head? = true := by
  cases h with
  | text s => rfl
  | record hne hnames hvalues =>
      obtain ⟨member, members, rfl⟩ := List.exists_cons_of_ne_nil hne
      rfl

/-- **The members of a record are read one by one.** -/
theorem leads_members {n margin : Nat} {tail : List Char} (hn : n ≠ 0) (hmargin : margin ≤ n)
    (htail : BeginsToken tail) (hne : members ≠ []) (hnames : ∀ member ∈ members, IsName member.1)
    (htrees : ∀ member ∈ members, IsRecordTree levels member.2)
    (hvalues : ∀ member ∈ members, ReadsBack member.2) {tokens : List Token} {indent : Int}
    {indents : List Int} {head : Head} (hcolumn : head.column = n) (hindent : indent ≤ n)
    (hrest : head.rest = memberChars n members ++ (List.replicate margin ' ' ++ tail)) :
    ∃ h', h'.rest = tail ∧ h'.column = margin ∧
      Leads (before tokens indent indents head)
        (before ((tokensOfMembers members).reverse ++
            (if indent < n then .blockMappingStart :: tokens else tokens))
          n (if indent < n then indent :: indents else indents) h') := by
  -- Only the first key may open the table; in front of the others it is open.
  induction members generalizing tokens indent indents head with
  | nil => exact absurd rfl hne
  | cons member members ih =>
      obtain ⟨name, value⟩ := member
      rw [List.forall_mem_cons] at hnames htrees hvalues
      have hplain := Style.isPlain_of_ofText hnames.1.1
      subst hcolumn
      rw [memberChars, List.append_assoc, List.cons_append, List.append_assoc] at hrest
      obtain ⟨h₁, hrest₁, hcolumn₁, hkey⟩ := @leads_key tokens indent indents head name _ hplain
        hnames.1.2 (isGap_valueChars htrees.1 _ _) hn hindent hrest
      cases members with
      | nil =>
          obtain ⟨h₂, hrest₂, hcolumn₂, hvalue⟩ := @hvalues.1 head.column margin tail h₁
            _ _ hmargin htail hcolumn₁ (by simpa using hrest₁)
          refine ⟨h₂, hrest₂, hcolumn₂, hkey.trans ?_⟩
          simpa [tokensOfMembers] using hvalue
      | cons member members =>
          have hnext := Style.isPlain_of_ofText (hnames.2 member List.mem_cons_self).1
          have hbegins : BeginsToken (memberChars head.column (member :: members) ++
              (List.replicate margin ' ' ++ tail)) := by
            rw [memberChars, List.append_assoc]
            exact hnext.beginsToken _
          obtain ⟨h₂, hrest₂, hcolumn₂, hvalue⟩ := @hvalues.1 head.column head.column _ h₁ _ _
            (Nat.le_refl _) hbegins hcolumn₁ (by simpa using hrest₁)
          obtain ⟨h₃, hrest₃, hcolumn₃, hmembers⟩ := ih (List.cons_ne_nil _ _) hnames.2 htrees.2
            hvalues.2 hcolumn₂ (Int.le_refl _) hrest₂
          refine ⟨h₃, hrest₃, hcolumn₃, (hkey.trans hvalue).trans ?_⟩
          rw [if_neg (Int.lt_irrefl _), if_neg (Int.lt_irrefl _)] at hmembers
          simpa [tokensOfMembers] using hmembers

/-- A record is read, and closed in front of a line that is indented less. -/
theorem leads_record {n margin : Nat} {tail : List Char} (hmargin : margin < n)
    (htail : BeginsToken tail) (hne : members ≠ []) (hnames : ∀ member ∈ members, IsName member.1)
    (htrees : ∀ member ∈ members, IsRecordTree levels member.2)
    (hvalues : ∀ member ∈ members, ReadsBack member.2) {tokens : List Token} {indent : Int}
    {indents : List Int} {head : Head} (hcolumn : head.column = n) (hindent : indent < n)
    (hrest : head.rest = memberChars n members ++ (List.replicate margin ' ' ++ tail)) :
    ∃ h', h'.rest = tail ∧ h'.column = margin ∧
      Leads (before tokens indent indents head)
        (before ((tokensOf (.object members)).reverse ++ tokens) indent indents h') := by
  obtain ⟨h', hrest', hcolumn', hleads⟩ := @leads_members _ members n margin tail (by omega)
    (Nat.le_of_lt hmargin) htail hne hnames htrees hvalues tokens indent indents head hcolumn
    (Int.le_of_lt hindent) hrest
  rw [if_pos hindent, if_pos hindent] at hleads
  refine ⟨h', hrest', hcolumn', hleads.trans ?_⟩
  have hclose := @leads_blockEnd ((tokensOfMembers members).reverse ++ .blockMappingStart :: tokens)
    n indents h' indent (hrest' ▸ htail) (by omega)
  simpa [tokensOf] using hclose

/-- **Every value of this kind is read back.** -/
theorem readsBack {value : Json} (h : IsRecordTree levels value) : ReadsBack value := by
  induction h with
  | text _ s => exact readsBack_text s
  | @record levels members hne hnames htrees hvalues =>
      intro n margin tail head tokens indents hmargin htail hcolumn hrest
      obtain ⟨member, members, rfl⟩ := List.exists_cons_of_ne_nil hne
      have hfirst := Style.isPlain_of_ofText (hnames member List.mem_cons_self).1
      rw [valueChars, toList_freshLine_object hne hnames htrees] at hrest
      have hline : head.rest = nextLine (n + 2) (memberChars (n + 2) (member :: members) ++
          (List.replicate margin ' ' ++ tail)) := by
        simpa [nextLine] using hrest
      have hbegins : BeginsToken (memberChars (n + 2) (member :: members) ++
          (List.replicate margin ' ' ++ tail)) := by
        rw [memberChars, List.append_assoc]
        exact hfirst.beginsToken _
      obtain ⟨h₁, hrest₁, hcolumn₁, hbelow⟩ :=
        @leads_nextLine tokens n indents head (n + 2) _ hline hbegins
      obtain ⟨h₂, hrest₂, hcolumn₂, hrecord⟩ :=
        @leads_record _ (member :: members) (n + 2) margin tail (by omega) htail hne hnames htrees
          hvalues tokens n indents h₁ hcolumn₁ (by omega) hrest₁
      exact ⟨h₂, hrest₂, hcolumn₂, hbelow.trans hrecord⟩

end Scan

/-! ### The tokens of a document -/

/-- A record of at most so many levels. -/
def IsRecord (levels : Nat) (value : Json) : Prop :=
  IsRecordTree levels value ∧ ∃ members, value = .object members

/-- The print of records, each behind its dash. -/
def recordChars (records : List Json) : List Char :=
  records.flatMap fun record => '-' :: ' ' :: (freshLine (written 2 record)).toList

/-- The tokens of records, each behind its dash. -/
def tokensOfRecords (records : List Json) : List Token :=
  records.flatMap fun record => .blockEntry :: tokensOf record

namespace Scan

/-- **Records are read one by one.** -/
theorem leads_records {levels : Nat} {records : List Json} (hne : records ≠ [])
    (hrecords : ∀ record ∈ records, IsRecord levels record) {tokens : List Token} {indent : Int}
    {indents : List Int} {head : Head} (hcolumn : head.column = 0) (hindent : indent ≤ 0)
    (hrest : head.rest = recordChars records) :
    ∃ h', h'.rest = [] ∧ h'.column = 0 ∧
      Leads (before tokens indent indents head)
        (before ((tokensOfRecords records).reverse ++
            (if indent < 0 then .blockSequenceStart :: tokens else tokens))
          0 (if indent < 0 then indent :: indents else indents) h') := by
  induction records generalizing tokens indent indents head with
  | nil => exact absurd rfl hne
  | cons record records ih =>
      rw [List.forall_mem_cons] at hrecords
      obtain ⟨⟨htree, members, rfl⟩, hrecords⟩ := hrecords
      cases htree with
      | record hmembers hnames htrees =>
          obtain ⟨member, members, rfl⟩ := List.exists_cons_of_ne_nil hmembers
          have hvalues : ∀ m ∈ member :: members, ReadsBack m.2 :=
            fun m hm => readsBack (htrees m hm)
          rw [recordChars, List.flatMap_cons, ← recordChars, List.cons_append, List.cons_append,
            toList_freshLine_object hmembers hnames htrees] at hrest
          have hbegins :
              BeginsToken (memberChars 2 (member :: members) ++ recordChars records) := by
            rw [memberChars, List.append_assoc]
            exact (Style.isPlain_of_ofText (hnames member List.mem_cons_self).1).beginsToken _
          have htail : BeginsToken (recordChars records) := by
            cases records with
            | nil => rintro c ⟨⟩
            | cons record records =>
                rintro c ⟨⟩
                decide
          obtain ⟨h₁, hrest₁, hcolumn₁, hentry⟩ := @leads_entry tokens indent indents head _
            (by omega) hrest hbegins
          rw [hcolumn] at hcolumn₁ hentry
          obtain ⟨h₂, hrest₂, hcolumn₂, hrecord⟩ := @leads_record _ (member :: members) 2 0 _
            (by decide) htail hmembers hnames htrees hvalues _ 0 _ h₁ hcolumn₁ (by decide) hrest₁
          have hfirst := hentry.trans hrecord
          cases records with
          | nil =>
              refine ⟨h₂, hrest₂, hcolumn₂, ?_⟩
              simpa [tokensOfRecords] using hfirst
          | cons record records =>
              obtain ⟨h₃, hrest₃, hcolumn₃, hothers⟩ := ih (List.cons_ne_nil _ _) hrecords hcolumn₂
                (Int.le_refl 0) hrest₂
              refine ⟨h₃, hrest₃, hcolumn₃, hfirst.trans ?_⟩
              simpa [tokensOfRecords] using hothers

end Scan

/-- The item of a record stands behind its dash. -/
theorem writtenItems_object {indent : Nat} {members : List (String × Json)} {rest : List Json} :
    writtenItems indent (.object members :: rest) =
      ("- " ++ written (indent + 2) (.object members)) :: writtenItems indent rest := by
  rw [writtenItems]

/-- The item of a record, with the end of its line, is the record behind a dash. -/
theorem toList_freshLine_item {levels : Nat} {members : List (String × Json)}
    (h : IsRecordTree levels (.object members)) :
    (freshLine ("- " ++ written 2 (.object members))).toList =
      '-' :: ' ' :: (freshLine (written 2 (.object members))).toList := by
  cases h with
  | record hne hnames htrees =>
      obtain ⟨member, members, rfl⟩ := List.exists_cons_of_ne_nil hne
      have hrecord := @toList_written_object_ne_nil 2 _ member members
        (htrees member List.mem_cons_self)
      rw [toList_freshLine, toList_freshLine, String.toList_append, closing_append hrecord]
      rfl

/-- **A list of records is printed record by record.** -/
theorem toList_document {levels : Nat} {records : List Json} (hne : records ≠ [])
    (hrecords : ∀ record ∈ records, IsRecord levels record) :
    (document (.list records)).toList = recordChars records := by
  rw [document, written]
  · induction records with
    | nil => exact absurd rfl hne
    | cons record records ih =>
        rw [List.forall_mem_cons] at hrecords
        obtain ⟨⟨htree, members, rfl⟩, hrecords⟩ := hrecords
        rw [recordChars, List.flatMap_cons, ← recordChars, ← toList_freshLine_item htree,
          writtenItems_object]
        cases records with
        | nil => simp [writtenItems, stacked, recordChars]
        | cons record records =>
            have hrest := ih (List.cons_ne_nil _ _) hrecords
            obtain ⟨⟨-, members', rfl⟩, -⟩ := List.forall_mem_cons.mp hrecords
            rw [writtenItems_object] at hrest ⊢
            rw [toList_freshLine_stacked 0 _ _ (by simp), hrest]
            rfl
  · exact hne

/-- **The tokens of a printed list of records** are those of its records. -/
theorem Token.scan_document {levels : Nat} {records : List Json} (hne : records ≠ [])
    (hrecords : ∀ record ∈ records, IsRecord levels record) :
    Token.scan (document (.list records)).toList =
      some (.blockSequenceStart :: (tokensOfRecords records ++ [.blockEnd])) := by
  obtain ⟨last, hrest, hcolumn, n, hlength, hrun⟩ :=
    @Scan.leads_records _ records hne hrecords [] (-1) [] { rest := (document (.list records)).toList } rfl (by decide) (toList_document hne hrecords)
  have hend := @Scan.run_end ((tokensOfRecords records).reverse ++ [.blockSequenceStart]) last
    ((document (.list records)).toList.length - n) hrest hcolumn
  have hfuel : (document (.list records)).toList.length + 1 =
      (document (.list records)).toList.length - n + 1 + n := by
    have : n ≤ (document (.list records)).toList.length := Nat.le_of_add_right_le hlength
    omega
  rw [Token.scan, hfuel]
  refine (hrun _).trans (hend.trans ?_)
  simp

end BackupPlan.Yaml
