import BackupPlan.Job.Source
import BackupPlan.Proofs.Reading.Drafts
import BackupPlan.Proofs.Reading.Records
import BackupPlan.Proofs.RecordRoundTrip
import Mathlib.Logic.Relation

/-!
# Spellings of a job

One job may be spelled by many JSON objects.  Their members stand in any order and go by
first or second names, a provider has two words, a list of one item may be the item, and
what may be left out may be `null` instead.  An object is no job if it has a member that
goes by no field, or two that go by one.

* `JobField.canonicalName`, `JobField.fieldOf_eq_ok_iff` — the names of a field;
* `Respelled` — one change of spelling;
* `JobSpec.assemble_eq_ok_iff` — a job is put together of what is given and what is supplied;
* `Respelled.holds` — no change of spelling changes what an object holds;
* `spelling_of_a_job_does_not_matter` — JSON values and JSON texts.
-/

namespace BackupPlan

open Reading Reading.Schema

/-! ### Names -/

namespace JobField

/-- The second names of fields, each with the first name of its field. -/
def aliases : List (String × String) :=
  [ ("directory", "directories"), ("cloud", "cloud_provider"), ("pubkey_id", "pubkey_ids"),
    ("ssh_id", "ssh_identity"), ("spoolfile", "script_path") ]

/-- The first name of the field that goes by a name; any other name stays itself. -/
def canonicalName (name : String) : String :=
  (aliases.lookup name).getD name

/-- The names by which fields go. -/
def knownNames : List String :=
  order.map name ++ aliases.map Prod.fst

/-- A name is that of a field exactly if the table of names and aliases says so. -/
theorem fieldOf_eq_ok_iff_mem {given : String} {f : JobField} :
    JobSpec.schema.fieldOf given = .ok f ↔ (given, f) ∈ names :=
  Schema.fieldOf_eq_ok_iff (by decide)

/-- A field goes by every name of which its first name is the first. -/
theorem fieldOf_eq_ok_iff {given : String} {f : JobField} :
    JobSpec.schema.fieldOf given = .ok f ↔ canonicalName given = f.name := by
  -- The table of names is closed, so each direction is a check of its entries.
  refine fieldOf_eq_ok_iff_mem.trans ⟨fun hmem => ?_, fun hname => ?_⟩
  · have hall : ∀ known ∈ names, canonicalName known.1 = known.2.name := by decide
    exact hall (given, f) hmem
  · cases halias : aliases.lookup given with
    | none =>
        obtain rfl : given = f.name := by rwa [canonicalName, halias] at hname
        cases f <;> decide
    | some first =>
        obtain rfl : first = f.name := by rwa [canonicalName, halias] at hname
        have hnodup : (aliases.map Prod.fst).Nodup := by decide
        have hmem : (given, f.name) ∈ aliases := (lookup_eq_some_iff hnodup).mp halias
        have hall : ∀ known ∈ aliases, ∀ g ∈ order, known.2 = g.name → (known.1, g) ∈ names := by
          decide
        exact hall (given, f.name) hmem f (mem_order f) rfl

/-- Different fields have different names. -/
theorem name_injective : Function.Injective name := by
  intro f g hfg
  have hf : JobSpec.schema.fieldOf f.name = .ok f := JobSpec.lawful_writing.fieldOf_name f
  have hg : JobSpec.schema.fieldOf g.name = .ok g := JobSpec.lawful_writing.fieldOf_name g
  rw [hfg, hg] at hf
  exact (Except.ok.inj hf).symm

/-- Fields go by known names only. -/
theorem mem_knownNames_of_fieldOf {given : String} {f : JobField}
    (h : JobSpec.schema.fieldOf given = .ok f) : given ∈ knownNames := by
  have hall : ∀ known ∈ names, known.1 ∈ knownNames := by decide
  exact hall (given, f) (fieldOf_eq_ok_iff_mem.mp h)

/-! ### Values -/

/-- Two ways to write one value of a field. -/
inductive SameValue : JobField → Json → Json → Prop
  | cloudFiles : SameValue provider (.text "cf") (.text "cloudfiles")
  | cloudFilesAlone :
    SameValue provider (.object [("cf", .null)]) (.object [("cloudfiles", .null)])
  | oneDirectory (path : String) : SameValue directories (.list [.text path]) (.text path)
  | oneKey (id : String) : SameValue pubkeyIds (.list [.text id]) (.text id)

/-- Whether a field may be `null`, as if it were left out. -/
def isNullable : JobField → Bool
  | bucket | destId | destKey | provider | target | sshIdentity | removeOlderThan | preCommand
  | hostIdentifier | scriptPath => true
  | title | ensure | directories | pubkeyIds | fullIfOlderThan => false

/-- Values that mean the same for a field are read alike. -/
theorem SameValue.read_eq {f : JobField} {value other : Json} (h : f.SameValue value other) :
    f.read value = f.read other := by
  cases h <;> rfl

/-- Values that mean the same for a field have nothing in them to sort. -/
theorem SameValue.sorted_eq {f : JobField} {value other : Json} (h : f.SameValue value other) :
    value.sorted = value ∧ other.sorted = other := by
  cases h <;> exact ⟨rfl, rfl⟩

/-- A field that may be null has a default, and null is read as that default. -/
theorem exists_default_of_isNullable {f : JobField} (h : f.isNullable = true) :
    ∃ v, f.default? = some v ∧ f.read Json.null = .ok v := by
  cases f with
  | title | ensure | directories | pubkeyIds | fullIfOlderThan => cases h
  | _ => exact ⟨_, rfl, rfl⟩

/-- What a text says of a field, where it is JSON, is what the value says that it spells. -/
theorem toOption_read (f : JobField) {draft : Json.Draft} {json : Json}
    (h : draft.toJson? = some json) : (f.read draft).toOption = (f.read json).toOption := by
  cases f with
  | title | fullIfOlderThan => exact Json.Draft.toOption_text h
  | ensure => exact Json.Draft.toOption_choice _ h
  | directories | pubkeyIds => exact Json.Draft.toOption_oneOrMany _ h
  | bucket | destId | destKey | provider => exact Json.Draft.toOption_setting _ h
  | target | removeOlderThan | preCommand | hostIdentifier =>
      exact Json.Draft.toOption_optional (Json.Draft.toOption_text h) h
  | sshIdentity | scriptPath =>
      exact Json.Draft.toOption_optional (Json.Draft.toOption_path h) h

end JobField

/-! ### Jobs -/

/-- A job is put together exactly if every field has its value, given or supplied. -/
theorem JobSpec.assemble_eq_ok_iff {job : JobSpec} {get : (f : JobField) → Option f.Value} :
    JobSpec.assemble get = .ok job ↔ ∀ f, (get f).or f.default? = some (f.get job) := by
  refine ⟨fun h f => ?_, JobSpec.assemble_eq_ok⟩
  have hjoin : ∀ {α : Type} (given : Option (Option α)),
      given.or (some none) = some given.join := by
    intro α given
    cases given <;> rfl
  cases htitle : get .title with
  | none =>
      rw [JobSpec.assemble, htitle] at h
      cases h
  | some title =>
      rw [JobSpec.assemble, htitle] at h
      obtain rfl := Except.ok.inj h
      cases f with
      | title => rw [htitle]; rfl
      | ensure | directories | bucket | destId | destKey | provider | pubkeyIds
      | fullIfOlderThan => exact Option.or_some
      | _ => exact hjoin _

/-- Assembling a job fills in the default of any field that is left out. -/
theorem JobSpec.supplies_assemble : Supplies JobSpec.writing.default? JobSpec.assemble := by
  intro get given job hsame
  constructor
  · intro h
    exact JobSpec.assemble_eq_ok fun f =>
      (hsame f).symm.trans (JobSpec.assemble_eq_ok_iff.mp h f)
  · intro h
    exact JobSpec.assemble_eq_ok fun f => (hsame f).trans (JobSpec.assemble_eq_ok_iff.mp h f)

/-! ### Changes of spelling -/

/-- One change of the spelling of an object: its members are put into another order, or
something is done to its first member. -/
inductive Respelled : List (String × Json) → List (String × Json) → Prop
  /-- The members stand in another order. -/
  | reordered {members others : List (String × Json)} (h : members.Perm others) :
    Respelled members others
  /-- A member goes by the other name of its field. -/
  | renamed {name other : String} (value : Json) (rest : List (String × Json))
    (h : JobField.canonicalName name = JobField.canonicalName other) :
    Respelled ((name, value) :: rest) ((other, value) :: rest)
  /-- A value is written the other way. -/
  | rewritten {f : JobField} {name : String} {value other : Json} (rest : List (String × Json))
    (hname : JobField.canonicalName name = f.name)
    (h : f.SameValue value other ∨ f.SameValue other value) :
    Respelled ((name, value) :: rest) ((name, other) :: rest)
  /-- A field that is `null` is left out. -/
  | dropped {f : JobField} {name : String} (rest : List (String × Json))
    (hname : JobField.canonicalName name = f.name) (h : f.isNullable = true) :
    Respelled ((name, .null) :: rest) rest
  /-- A field that is left out is `null`. -/
  | added {f : JobField} {name : String} {rest : List (String × Json)}
    (hname : JobField.canonicalName name = f.name) (h : f.isNullable = true)
    (hnew : ∀ member ∈ rest, JobField.canonicalName member.1 ≠ f.name) :
    Respelled rest ((name, .null) :: rest)

section

variable {read : JobSpec.schema.Reader Json} {job : JobSpec} {members others : List (String × Json)}

/-- Another first member holds the same if it reads to the same entry. -/
theorem holds_cons_of_readsTo {member other : String × Json} {rest : List (String × Json)}
    (hsame : ∀ entry, ReadsTo read member entry → ReadsTo read other entry)
    (h : Holds read JobSpec.assemble (member :: rest) job) :
    Holds read JobSpec.assemble (other :: rest) job :=
  h.of_forall₂ (.cons hsame (List.forall₂_same.mpr fun _ _ _ hentry => hentry))

/-- Two names with one canonical name name the same field. -/
theorem fieldOf_congr {name other : String}
    (h : JobField.canonicalName name = JobField.canonicalName other) {f : JobField}
    (hname : JobSpec.schema.fieldOf name = .ok f) : JobSpec.schema.fieldOf other = .ok f := by
  rw [JobField.fieldOf_eq_ok_iff] at hname ⊢
  rw [← h, hname]

/-- **One change of spelling** leaves what the members hold as it is, whether or not the
objects in their values are sorted before they are read. -/
theorem Respelled.holds (hread : ∀ (f : JobField) (json : Json), json.sorted = json →
      read f json = f.read json) (hrespelled : Respelled members others)
    (h : Holds read JobSpec.assemble members job) : Holds read JobSpec.assemble others job := by
  cases hrespelled with
  | reordered hperm => exact h.perm hperm
  | renamed value rest hname =>
      refine holds_cons_of_readsTo (fun entry hentry => ?_) h
      exact ⟨fieldOf_congr hname hentry.1, hentry.2⟩
  | @rewritten f name value other rest hname hvalue =>
      refine holds_cons_of_readsTo (fun entry hentry => ?_) h
      obtain ⟨g, v⟩ := entry
      obtain ⟨hfield, hv⟩ := hentry
      -- Other fields may tell the two values apart, but the member goes by this one.
      obtain rfl : g = f := JobField.name_injective
        ((JobField.fieldOf_eq_ok_iff.mp hfield).symm.trans hname)
      have hsame : read g value = read g other := by
        rcases hvalue with hvalue | hvalue
        · rw [hread g value hvalue.sorted_eq.1, hread g other hvalue.sorted_eq.2, hvalue.read_eq]
        · rw [hread g value hvalue.sorted_eq.2, hread g other hvalue.sorted_eq.1, hvalue.read_eq]
      exact ⟨hfield, hsame.symm.trans hv⟩
  | dropped rest hname hnull =>
      obtain ⟨v, hdefault, hv⟩ := JobField.exists_default_of_isNullable hnull
      exact h.of_cons JobSpec.supplies_assemble hdefault
        ⟨JobField.fieldOf_eq_ok_iff.mpr hname, (hread _ _ rfl).trans hv⟩
  | added hname hnull hnew =>
      obtain ⟨v, hdefault, hv⟩ := JobField.exists_default_of_isNullable hnull
      refine h.cons JobSpec.supplies_assemble hdefault
        ⟨JobField.fieldOf_eq_ok_iff.mpr hname, (hread _ _ rfl).trans hv⟩ ?_
      intro member hmember hfield
      exact hnew member hmember (JobField.fieldOf_eq_ok_iff.mp hfield)

/-- What an object holds goes by known names only. -/
theorem mem_knownNames_of_holds (h : Holds read JobSpec.assemble members job) :
    ∀ member ∈ members, member.1 ∈ JobField.knownNames := by
  intro member hmember
  obtain ⟨f, hf⟩ := h.exists_fieldOf member hmember
  exact JobField.mem_knownNames_of_fieldOf hf

/-- It gives no field twice, be it under two names. -/
theorem nodup_canonicalNames_of_holds (h : Holds read JobSpec.assemble members job) :
    (members.map fun member => JobField.canonicalName member.1).Nodup := by
  have hfields := List.pairwise_map.mp h.nodup_fieldOf
  refine List.pairwise_map.mpr (hfields.imp_of_mem fun {member other} hmember _ hne hsame => ?_)
  obtain ⟨f, hf⟩ := h.exists_fieldOf member hmember
  exact hne (hf.trans (fieldOf_congr hsame hf).symm)

end

/-- Sources of one kind in which the spelling of a job does not matter.  A source may spell
an object of members, and a job may be read from it. -/
structure SpellingFree {α : Type} (Spells : α → List (String × Json) → Prop)
    (read : α → Read JobSpec) : Prop where
  /-- However the object of a job is respelled, its members go by different names, and
  whatever spells them is read as the same job. -/
  respelled : ∀ source members others job, Spells source members → read source = .ok job →
    Relation.ReflTransGen Respelled members others →
      (others.map Prod.fst).Nodup ∧ ∀ other, Spells other others → read other = .ok job
  /-- An object with a member of an unknown name is no job. -/
  unknown : ∀ source members, Spells source members →
    (∃ member ∈ members, member.1 ∉ JobField.knownNames) → ∃ fault, read source = .error fault
  /-- Nor is an object that gives a field twice. -/
  twice : ∀ source members, Spells source members →
    ¬ (members.map fun member => JobField.canonicalName member.1).Nodup →
      ∃ fault, read source = .error fault

/-- Spelling does not matter where the source of an object is read as what its members
hold. -/
theorem spellingFree_of_holds {α : Type} {Spells : α → List (String × Json) → Prop}
    {readSource : α → Read JobSpec} (read : JobSpec.schema.Reader Json)
    (hread : ∀ (f : JobField) (json : Json), json.sorted = json → read f json = f.read json)
    (hholds : ∀ source members job, Spells source members →
      (readSource source = .ok job ↔ Holds read JobSpec.assemble members job)) :
    SpellingFree Spells readSource where
  respelled source members others job hsource hjob hrespelled := by
    -- What the members hold is the invariant of the changes.
    have hothers : Holds read JobSpec.assemble others job := by
      induction hrespelled with
      | refl => exact (hholds source members job hsource).mp hjob
      | tail _ hstep ih => exact hstep.holds hread ih
    have hnames : ((others.map Prod.fst).map JobField.canonicalName).Nodup := by
      rw [List.map_map]
      exact nodup_canonicalNames_of_holds hothers
    exact ⟨hnames.of_map, fun other hother => (hholds other others job hother).mpr hothers⟩
  unknown source members hsource := by
    rintro ⟨member, hmember, hunknown⟩
    cases hjob : readSource source with
    | error fault => exact ⟨fault, rfl⟩
    | ok job =>
        have hmembers := (hholds source members job hsource).mp hjob
        exact absurd (mem_knownNames_of_holds hmembers member hmember) hunknown
  twice source members hsource htwice := by
    cases hjob : readSource source with
    | error fault => exact ⟨fault, rfl⟩
    | ok job =>
        have hmembers := (hholds source members job hsource).mp hjob
        exact absurd (nodup_canonicalNames_of_holds hmembers) htwice

/-- A JSON value spells an object whose members go by different names. -/
def Json.ValueSpells (json : Json) (members : List (String × Json)) : Prop :=
  json = .object members ∧ (members.map Prod.fst).Nodup

/-- A JSON text spells an object with its members as they are written. -/
def Json.TextSpells (source : String) (members : List (String × Json)) : Prop :=
  Json.parse? source = some (.object members)

/-- **Spelling.**  A job is the same however its object is spelled, as a value or as a text.
Its members may be reordered, go by the other names of their fields, be written the other
way, and be dropped or added where they are `null`, all that any number of times.  An object
with an unknown name or with a field given twice is rejected. -/
theorem spelling_of_a_job_does_not_matter :
    SpellingFree Json.ValueSpells JobSpec.ofJson ∧ SpellingFree Json.TextSpells JobSpec.ofText := by
  constructor
  · refine spellingFree_of_holds (fun f json => JobField.read f json.sorted) ?_ ?_
    · intro f json hsorted
      rw [hsorted]
    · rintro _ members job ⟨rfl, hnames⟩
      exact read_sorted_eq_ok_iff hnames
  · refine spellingFree_of_holds JobField.read (fun _ _ _ => rfl) ?_
    intro source members job hsource
    exact Schema.readText_eq_ok_iff (fun f draft json h => JobField.toOption_read f h) hsource

/-- A job in second names, with a directory alone and a bucket that is left out. -/
def terseMembers : List (String × Json) :=
  [("directory", .text "/srv"), ("cloud", .text "cf"), ("bucket", .null), ("title", .text "db")]

/-- The same job in first names, with a list of directories and without the bucket. -/
def plainMembers : List (String × Json) :=
  [("title", .text "db"), ("directories", .list [.text "/srv"]),
    ("cloud_provider", .text "cloudfiles"), ("ssh_identity", .null)]

/-- The first object as a text. -/
def terseText : String :=
  "\x7b\"directory\": \"/srv\", \"cloud\": \"cf\", \"bucket\": null, \"title\": \"db\"\x7d"

/-- The second object as a text. -/
def plainText : String :=
  "\x7b\"title\": \"db\",\n \"directories\": [\"/srv\"],\n \"cloud_provider\": \"cloudfiles\",\n" ++
    " \"ssh_identity\": null\x7d"

/-- The members are respelled one after another, each of them moved to the end. -/
theorem plainMembers_of_terseMembers :
    Relation.ReflTransGen Respelled terseMembers plainMembers := by
  have hturn : ∀ (member : String × Json) (rest : List (String × Json)),
      Respelled (member :: rest) (rest ++ [member]) :=
    fun member rest => .reordered (List.perm_append_singleton member rest).symm
  have hdirectories :
      JobField.canonicalName "directory" = JobField.canonicalName "directories" := by decide
  have hprovider : JobField.canonicalName "cloud" = JobField.canonicalName "cloud_provider" := by
    decide
  refine .head (.renamed (.text "/srv") _ hdirectories) ?_
  refine .head (.rewritten _ rfl (Or.inr (.oneDirectory "/srv"))) ?_
  refine .head (hturn _ _) ?_
  refine .head (.renamed (.text "cf") _ hprovider) ?_
  refine .head (.rewritten _ rfl (Or.inl .cloudFiles)) ?_
  refine .head (hturn _ _) ?_
  refine .head (@Respelled.dropped .bucket "bucket" _ rfl rfl) ?_
  refine .head (@Respelled.added .sshIdentity "ssh_identity" _ rfl rfl (by decide)) ?_
  exact .single (hturn _ _)

theorem spelling_of_terseText_does_not_matter :
    ∃ job, JobSpec.ofText terseText = .ok job ∧ JobSpec.ofText plainText = .ok job := by
  have hterse : Json.TextSpells terseText terseMembers := by cbv
  have hplain : Json.TextSpells plainText plainMembers := by cbv
  have hjob : JobSpec.ofText terseText =
      .ok { title := "db", directories := [.ofText "/srv"], provider := .value .cloudFiles } :=
    toOption_eq_some_iff.mp (by decide +kernel)
  obtain ⟨-, hsame⟩ := spelling_of_a_job_does_not_matter.2.respelled _ _ _ _ hterse hjob
    plainMembers_of_terseMembers
  exact ⟨_, hjob, hsame plainText hplain⟩

end BackupPlan
