import BackupPlan.Json.Datum
import BackupPlan.Proofs.Yaml.ShownTexts
import BackupPlan.Yaml.Datum

/-!
# Printed records read back

A list of records of texts, printed as a document, is read as that list: the tokens of the
print make its nodes, and the nodes stand for the values that were printed.

* `Build.node_tokensOf` — the tokens of a value make the node of that value;
* `Cursor.openNode_nodeOf` — that node is read as the value;
* `read_document` — **the document of a list of records reads back as the list**.
-/

namespace BackupPlan.Yaml

/-! ### Nodes of values -/

mutual

/-- The node of a text or a record. -/
def nodeOf : Json → Node
  | .text s => .scalar none (Style.ofText s == .plain) s
  | .object members => .mapping none (nodesOfMembers members)
  | _ => Node.empty

/-- The nodes of the members of a record. -/
def nodesOfMembers : List (String × Json) → List (Node × Node)
  | [] => []
  | (name, value) :: rest => (.scalar none true name, nodeOf value) :: nodesOfMembers rest

end

namespace Build

/-- The tokens are left as they are where none of them is a name or a tag. -/
theorem properties_eq {b : Build} (hname : ∀ name, b.next ≠ some (.anchor name))
    (htag : ∀ handle suffix, b.next ≠ some (.tag handle suffix)) : b.properties = some ({}, b) := by
  have hread : b.readName {} = ({}, b) := by
    rw [readName]
    split
    · rename_i name hnext
      exact absurd hnext (hname name)
    · rfl
  have hreadTag : b.readTag {} = some ({}, b) := by
    rw [readTag]
    split
    · rename_i handle suffix hnext
      exact absurd hnext (htag handle suffix)
    · rfl
  simp [properties, hread, hreadTag]

variable {b : Build} {fuel : Nat} {inBlock afterKey : Bool} {rest : List Token}

/-- The token of a text is its node. -/
theorem node_scalar {isPlain : Bool} {text : String} :
    node inBlock afterKey (fuel + 1) { b with tokens := .scalar isPlain text :: rest } =
      some (.scalar none isPlain text, { b with tokens := rest }) := by
  have hproperties := @properties_eq { b with tokens := .scalar isPlain text :: rest }
    (by simp [next]) (by simp [next])
  rw [node]
  simp [next, hproperties, keep, skip]

/-- The tokens of a table make its node. -/
theorem node_blockMapping {members : List (Node × Node)} {b' : Build}
    (h : blockMembers fuel { b with tokens := rest } = some (members, b')) :
    node true afterKey (fuel + 1) { b with tokens := .blockMappingStart :: rest } =
      some (.mapping none members, b') := by
  have hproperties := @properties_eq { b with tokens := .blockMappingStart :: rest }
    (by simp [next]) (by simp [next])
  rw [node]
  simp [next, hproperties, keep, skip, h]

/-- The tokens of a list make its node. -/
theorem node_blockSequence {items : List Node} {b' : Build}
    (h : blockItems fuel { b with tokens := rest } = some (items, b')) :
    node true afterKey (fuel + 1) { b with tokens := .blockSequenceStart :: rest } =
      some (.sequence none items, b') := by
  have hproperties := @properties_eq { b with tokens := .blockSequenceStart :: rest }
    (by simp [next]) (by simp [next])
  rw [node]
  simp [next, hproperties, keep, skip, h]

/-- The tokens of a value make its node. -/
def MakesNode (value : Json) : Prop :=
  ∀ {b : Build} {fuel : Nat} {afterKey : Bool} {rest : List Token},
    (tokensOf value).length ≤ fuel →
      node true afterKey fuel { b with tokens := tokensOf value ++ rest } =
        some (nodeOf value, { b with tokens := rest })

/-- The tokens of a value begin with none that stands where a value is left out. -/
theorem exists_tokensOf {levels : Nat} {value : Json} (h : IsRecordTree levels value) :
    ∃ token more, tokensOf value = token :: more ∧
      ([.key, .value, .blockEnd] : List Token).contains token = false ∧
      ([.blockEntry, .blockEnd] : List Token).contains token = false := by
  cases h with
  | text _ s => exact ⟨_, [], rfl, rfl, rfl⟩
  | record hne hnames htrees => exact ⟨.blockMappingStart, _, rfl, rfl, rfl⟩

/-- **The tokens of members make their nodes.** -/
theorem blockMembers_tokensOf {levels : Nat} {members : List (String × Json)}
    (htrees : ∀ member ∈ members, IsRecordTree levels member.2)
    (hvalues : ∀ member ∈ members, MakesNode member.2)
    (hfuel : (tokensOfMembers members).length + 1 ≤ fuel) :
    blockMembers fuel { b with tokens := tokensOfMembers members ++ .blockEnd :: rest } =
      some (nodesOfMembers members, { b with tokens := rest }) := by
  induction members generalizing fuel with
  | nil =>
      obtain ⟨fuel, rfl⟩ : ∃ k, fuel = k + 1 := ⟨fuel - 1, by omega⟩
      rw [blockMembers]
      rfl
  | cons member members ih =>
      obtain ⟨name, value⟩ := member
      rw [List.forall_mem_cons] at htrees hvalues
      simp only [tokensOfMembers, List.length_cons, List.length_append] at hfuel
      obtain ⟨fuel, rfl⟩ : ∃ k, fuel = k + 2 := ⟨fuel - 2, by omega⟩
      obtain ⟨token, more, htoken, hvalue, -⟩ := exists_tokensOf htrees.1
      have hrest := @ih (fuel + 1) htrees.2 hvalues.2 (by omega)
      obtain ⟨hmakes, -⟩ : MakesNode value ∧ _ := hvalues
      have hnode := @hmakes b (fuel + 1) true
        (tokensOfMembers members ++ .blockEnd :: rest) (by omega)
      rw [htoken, List.cons_append] at hnode
      have hname : ([.key, .value, .blockEnd] : List Token).contains (.scalar true name) = false :=
        rfl
      have hcolon : ([.value] : List Token).contains .value = true := rfl
      rw [blockMembers]
      simp only [tokensOfMembers, htoken, List.cons_append, List.append_assoc, next,
        List.head?_cons, skip, List.drop_succ_cons, List.drop_zero, sees, Option.map_some,
        Option.getD_some, hname, hcolon, hvalue, Bool.false_eq_true, if_false, if_true, node_scalar,
        Option.bind_eq_bind, Option.bind_some, hnode, hrest, nodesOfMembers]
      rfl

/-- **The tokens of a record of texts make its node.** -/
theorem node_tokensOf {levels : Nat} {value : Json} (h : IsRecordTree levels value) :
    MakesNode value := by
  induction h with
  | text _ s =>
      intro b fuel afterKey rest hfuel
      obtain ⟨fuel, rfl⟩ : ∃ k, fuel = k + 1 := ⟨fuel - 1, by simp [tokensOf] at hfuel; omega⟩
      exact node_scalar
  | @record levels members hne hnames htrees hvalues =>
      intro b fuel afterKey rest hfuel
      simp only [tokensOf, List.length_cons, List.length_append, List.length_nil] at hfuel
      obtain ⟨fuel, rfl⟩ : ∃ k, fuel = k + 1 := ⟨fuel - 1, by omega⟩
      have hmembers := @blockMembers_tokensOf b fuel rest levels members htrees hvalues (by omega)
      simpa [tokensOf, nodeOf] using node_blockMapping hmembers

/-- The tokens of records make their nodes. -/
theorem blockItems_tokensOfRecords {levels : Nat} {records : List Json}
    (hrecords : ∀ record ∈ records, IsRecord levels record)
    (hfuel : (tokensOfRecords records).length + 1 ≤ fuel) :
    blockItems fuel { b with tokens := tokensOfRecords records ++ .blockEnd :: rest } =
      some (records.map nodeOf, { b with tokens := rest }) := by
  induction records generalizing fuel with
  | nil =>
      obtain ⟨fuel, rfl⟩ : ∃ k, fuel = k + 1 := ⟨fuel - 1, by omega⟩
      rw [blockItems]
      rfl
  | cons record records ih =>
      rw [List.forall_mem_cons] at hrecords
      rw [tokensOfRecords, List.flatMap_cons, ← tokensOfRecords, List.cons_append,
        List.length_cons, List.length_append] at hfuel
      obtain ⟨fuel, rfl⟩ : ∃ k, fuel = k + 2 := ⟨fuel - 2, by omega⟩
      obtain ⟨token, more, htoken, -, hvalue⟩ := exists_tokensOf hrecords.1.1
      have hrest := @ih (fuel + 1) hrecords.2 (by omega)
      have hnode := @node_tokensOf _ _ hrecords.1.1 b (fuel + 1) false
        (tokensOfRecords records ++ .blockEnd :: rest) (by omega)
      rw [htoken, List.cons_append] at hnode
      have htokens : tokensOfRecords (record :: records) =
          .blockEntry :: token :: (more ++ tokensOfRecords records) := by
        rw [tokensOfRecords, List.flatMap_cons, ← tokensOfRecords, htoken]
        rfl
      rw [blockItems]
      simp only [htokens, List.cons_append, List.append_assoc, next, List.head?_cons, skip,
        List.drop_succ_cons, List.drop_zero, sees, Option.map_some, Option.getD_some, hvalue,
        Bool.false_eq_true, if_false, Option.bind_eq_bind, Option.bind_some, hnode, hrest]
      rfl

/-- **The tokens of a list of records make its document.** -/
theorem document_tokensOfRecords {levels : Nat} {records : List Json}
    (hrecords : ∀ record ∈ records, IsRecord levels record) :
    document { tokens := .blockSequenceStart :: (tokensOfRecords records ++ [.blockEnd]) } =
      some ⟨.sequence none (records.map nodeOf), []⟩ := by
  have hitems := @blockItems_tokensOfRecords { tokens := [] }
    (4 * (tokensOfRecords records ++ [Token.blockEnd]).length + 7) [] levels records hrecords
    (by simp; omega)
  have hnode := @node_blockSequence _ _ false _ _ _ hitems
  have hfuel : 4 * (.blockSequenceStart :: (tokensOfRecords records ++ [.blockEnd])).length + 4 =
      4 * (tokensOfRecords records ++ [Token.blockEnd]).length + 7 + 1 := by
    rw [List.length_cons]
    omega
  rw [document]
  simp only [hfuel, List.isEmpty_cons, startsExplicitly, next, List.head?_cons, Bool.false_eq_true,
    if_false, hnode, Option.bind_eq_bind, Option.bind_some]
  rfl

end Build

/-! ### Values of nodes -/

namespace Scalar

/-- A text that begins with no digit, sign or point begins like no number. -/
structure BeginsNoNumber (cs : List Char) : Prop where
  ne_nil : cs ≠ []
  head : ∀ c, cs.head? = some c → c.isDigit = false ∧ c ≠ '-' ∧ c ≠ '.' ∧ c ≠ '+'

variable {cs : List Char}

/-- It has no sign. -/
theorem unsigned_eq (h : BeginsNoNumber cs) : unsigned cs = (false, cs) := by
  rw [unsigned]
  · rintro rest rfl
    exact (h.head '+' rfl).2.2.2 rfl
  · rintro rest rfl
    exact (h.head '-' rfl).2.1 rfl

/-- It has no zero in front. -/
theorem hasLeadingZero_eq (h : BeginsNoNumber cs) : hasLeadingZero cs = false := by
  rw [hasLeadingZero, unsigned_eq h]
  split
  · rename_i rest hcs
    have hzero := (h.head '0' (by rw [show cs = '0' :: rest from hcs]; rfl)).1
    cases hzero
  · rfl

/-- It is no decimal number. -/
theorem digits?_ten (h : BeginsNoNumber cs) : digits? 10 cs = none := by
  obtain ⟨c, more, rfl⟩ := List.exists_cons_of_ne_nil h.ne_nil
  have hdigit := (h.head c rfl).1
  have hnone : digit? 10 c = none := by
    simp only [digit?, hdigit, Bool.false_eq_true, if_false]
    rw [if_neg]
    split
    · omega
    · split <;> omega
  simp [digits?, hnone]

/-- It is no integer. -/
theorem integer?_eq (h : BeginsNoNumber cs) : integer? cs = none := by
  have hzero : ∀ rest, cs ≠ '0' :: rest := by
    rintro rest rfl
    cases (h.head '0' rfl).1
  simp only [integer?, unsigned_eq h, hasLeadingZero_eq h, Bool.false_eq_true, if_false,
    digits?_ten h]
  split
  · exact absurd rfl (hzero _)
  · exact absurd rfl (hzero _)
  · exact absurd rfl (hzero _)
  · rfl

/-- It is no number with a point or an exponent. -/
theorem decimal?_eq (h : BeginsNoNumber cs) : decimal? cs = none := by
  have hwhole : cs.takeWhile Char.isDigit = [] ∧ cs.dropWhile Char.isDigit = cs := by
    obtain ⟨c, more, rfl⟩ := List.exists_cons_of_ne_nil h.ne_nil
    simp [(h.head c rfl).1]
  have hpoint : ∀ rest, cs ≠ '.' :: rest := by
    rintro rest rfl
    exact (h.head '.' rfl).2.2.1 rfl
  have hdigits : digits? 10 [] = none := rfl
  simp [decimal?, unsigned_eq h, hwhole, hdigits]

/-- It is no number at all. -/
theorem real?_eq {text : String} (h : BeginsNoNumber text.toList) : real? text = none := by
  have hplus : ∀ rest, text.toList ≠ '+' :: rest := by
    intro rest hcs
    exact (h.head '+' (by rw [hcs]; rfl)).2.2.2 rfl
  have hsign : ¬ text.toList.head? = some '+' := fun hc => (h.head '+' hc).2.2.2 rfl
  have hwords : ∀ word ∈ [".inf", ".Inf", ".INF", "-.inf", "-.Inf", "-.INF", ".nan", ".NaN",
      ".NAN"], text ≠ word := by
    rintro word hword rfl
    have hfirst : ∀ w ∈ [".inf", ".Inf", ".INF", "-.inf", "-.Inf", "-.INF", ".nan", ".NaN",
        ".NAN"], w.toList.head? = some '.' ∨ w.toList.head? = some '-' := by decide
    rcases hfirst text hword with hc | hc
    · exact (h.head '.' hc).2.2.1 rfl
    · exact (h.head '-' hc).2.1 rfl
  simp only [List.forall_mem_cons] at hwords
  simp [real?, hsign, hwords, decimal?_eq h]

end Scalar

/-- A bare text stands for itself: it is none of the words for other values, and it begins like
no number. -/
theorem Scalar.resolve_plain {text : String} (h : Style.IsPlain text) :
    Scalar.resolve text = .text text := by
  obtain ⟨c, more, hcs⟩ := List.exists_cons_of_ne_nil h.ne_nil
  have hnumber : BeginsNoNumber text.toList := by
    refine ⟨h.ne_nil, ?_⟩
    rw [hcs]
    rintro d ⟨⟩
    exact (h.begins hcs).sign
  have hwords := h.unambiguous
  simp only [Style.isAmbiguous, Bool.or_eq_false_iff, beq_eq_false_iff_ne] at hwords
  obtain ⟨⟨⟨⟨htrue, hfalse⟩, hnull⟩, htilde⟩, -⟩ := hwords
  have hempty : text.toList.isEmpty = false := by simp [hcs]
  have hisNull : isNull text = false := by
    simp only [isNull, Bool.or_eq_false_iff, beq_eq_false_iff_ne]
    refine ⟨⟨⟨?_, ?_⟩, ?_⟩, ?_⟩ <;> rintro rfl
    · exact hnull (by decide)
    · exact hnull (by decide)
    · exact hnull (by decide)
    · exact htilde (by decide)
  have htruth : truth? text = none := by
    have hno : ∀ word ∈ ["true", "True", "TRUE", "false", "False", "FALSE"], text ≠ word := by
      intro word hword
      simp only [List.mem_cons, List.not_mem_nil, or_false] at hword
      rintro rfl
      rcases hword with rfl | rfl | rfl | rfl | rfl | rfl
      · exact htrue (by decide)
      · exact htrue (by decide)
      · exact htrue (by decide)
      · exact hfalse (by decide)
      · exact hfalse (by decide)
      · exact hfalse (by decide)
    simp only [List.forall_mem_cons] at hno
    simp [truth?, hno]
  simp [resolve, hempty, hisNull, htruth, integer?_eq hnumber, hasLeadingZero_eq hnumber,
    real?_eq hnumber]

namespace Cursor

open Reading

variable {document : Document} {wide : Bool} {place : Place} {depth : Nat}

/-- The node of a text is read as the text. -/
theorem openNode_text {isPlain : Bool} {text : String}
    (h : isPlain = true → Style.ofText text = .plain) :
    openNode document wide depth place (.scalar none isPlain text) = .ok (.text text) := by
  have htagged : Scalar.tagged none isPlain text = .ok (.text text) := by
    cases isPlain with
    | false => rfl
    | true =>
        rw [Scalar.tagged, if_pos rfl, Scalar.resolve_plain (Style.isPlain_of_ofText (h rfl))]
  rw [openNode.eq_def]
  simp [Document.resolve, openScalar, choiceTag, htagged, Except.mapError]

/-- The node of a value is read as the value, at any place. -/
def ReadsAs (document : Document) (wide : Bool) (depth : Nat) (value : Json) : Prop :=
  ∀ place, openNode document wide depth place (nodeOf value) = .ok value.toOpen

/-- The nodes of members are read one by one. -/
theorem mapM_nodesOfMembers {members : List (String × Json)}
    (hnames : ∀ member ∈ members, IsName member.1)
    (hvalues : ∀ member ∈ members, ReadsAs document wide depth member.2) :
    (nodesOfMembers members).mapM (fun (key, value) => do
      let name ← openNode document wide depth place key
      let value ← openNode document wide depth (place ++ [stepOf key]) value
      pure (name, value)) = .ok (Json.toOpenMembers members) := by
  induction members with
  | nil => rfl
  | cons member members ih =>
      obtain ⟨name, value⟩ := member
      rw [List.forall_mem_cons] at hnames hvalues
      obtain ⟨hvalue, hvalues⟩ : ReadsAs document wide depth value ∧ _ := hvalues
      rw [nodesOfMembers, List.mapM_cons, ih hnames.2 hvalues, Json.toOpenMembers]
      simp [openNode_text fun _ => hnames.1.1, hvalue _]
      rfl

/-- **The node of a record of texts is read as the record.** -/
theorem openNode_nodeOf {levels : Nat} {value : Json} (h : IsRecordTree levels value)
    (hdepth : levels ≤ depth) : ReadsAs document wide depth value := by
  induction h generalizing depth with
  | text _ s =>
      intro place
      rw [nodeOf, Json.toOpen]
      exact openNode_text fun hplain => by simpa using hplain
  | @record levels members hne hnames htrees hvalues =>
      intro place
      obtain ⟨depth, rfl⟩ : ∃ k, depth = k + 1 := ⟨depth - 1, by omega⟩
      have hmembers := @mapM_nodesOfMembers document wide place depth members hnames
        fun member hmember => hvalues member hmember (by omega)
      rw [nodeOf, Json.toOpen, openNode.eq_def]
      simp only [Document.resolve, choiceTag, Option.map_none, Option.bind_none, Option.isSome_none,
        Bool.false_eq_true, if_false, hmembers]
      rfl

/-- The nodes of records are read one by one. -/
theorem mapM_zipIdx_nodes {levels : Nat} {records : List Json}
    (hrecords : ∀ record ∈ records, IsRecord levels record) (hdepth : levels ≤ depth)
    (first : Nat) :
    ((records.map nodeOf).zipIdx first).mapM (fun (item, i) =>
      openNode document wide depth (place ++ [Step.index i]) item) =
        .ok (Json.toOpenItems records) := by
  induction records generalizing first with
  | nil => rfl
  | cons record records ih =>
      rw [List.forall_mem_cons] at hrecords
      have hfirst : ReadsAs document wide depth record := openNode_nodeOf hrecords.1.1 hdepth
      rw [List.map_cons, List.zipIdx_cons, List.mapM_cons, ih hrecords.2, Json.toOpenItems]
      simp [hfirst _]
      rfl

end Cursor

/-- The document of no records at all is a pair of brackets. -/
theorem read_document_nil (wide : Bool) :
    read (Cursor.toOpen wide) (document (.list [])).toByteArray.data.toList =
      .ok (Json.list []).toOpen := by
  have hprinted : document (.list []) = "[]\n" := by
    rw [document, written]
    decide
  have hdocument : Document.ofBytes? "[]\n".toByteArray.data.toList =
      some ⟨.sequence none [], []⟩ := by
    have hbytes := @Source.chars?_toByteArray "[]\n" '[' [']', '\n'] 0x5B rfl (by decide)
      (by decide) (List.all_eq_true.mp (by decide))
    have htokens : Token.scan "[]\n".toList = some [.flowSequenceStart, .flowSequenceEnd] := by
      decide
    simp only [Document.ofBytes?, hbytes, htokens, Option.bind_eq_bind, Option.bind_some]
    rfl
  simp only [read, hprinted, hdocument, Cursor.toOpen, Json.toOpen]
  rw [Cursor.openNode.eq_def]
  rfl

/-- **The document of a list of records reads back as the list.** -/
theorem read_document {records : List Json} (hrecords : ∀ record ∈ records, IsRecord 127 record)
    (wide : Bool) :
    read (Cursor.toOpen wide) (document (.list records)).toByteArray.data.toList =
      .ok (Json.list records).toOpen := by
  cases hrecords' : records with
  | nil => exact read_document_nil wide
  | cons record others =>
      rw [← hrecords']
      have hne : records ≠ [] := by simp [hrecords']
      have hchars := toList_document hne hrecords
      have hdash : ∃ rest, (document (.list records)).toList = '-' :: rest := by
        rw [hchars, hrecords']
        exact ⟨_, rfl⟩
      obtain ⟨rest, hdash⟩ := hdash
      have hbytes := Source.chars?_toByteArray hdash (b := 0x2D) (by decide) (by decide)
        (hchars ▸ isShown_recordChars hrecords)
      have hdocument : Document.ofBytes? (document (.list records)).toByteArray.data.toList =
          some ⟨.sequence none (records.map nodeOf), []⟩ := by
        simp only [Document.ofBytes?, hbytes, Token.scan_document hne hrecords,
          Option.bind_eq_bind, Option.bind_some]
        exact Build.document_tokensOfRecords hrecords
      simp only [read, hdocument, Cursor.toOpen, Json.toOpen]
      rw [Cursor.openNode.eq_def]
      simp only [Document.resolve, Cursor.choiceTag, Option.map_none, Option.bind_none,
        Option.isSome_none, Bool.false_eq_true, if_false]
      rw [Cursor.mapM_zipIdx_nodes hrecords (Nat.le_refl 127) 0]
      rfl

end BackupPlan.Yaml
