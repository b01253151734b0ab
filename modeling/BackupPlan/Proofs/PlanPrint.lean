import BackupPlan.Proofs.Elementwise
import BackupPlan.Proofs.Json.ReadBack
import BackupPlan.Proofs.Yaml.ReadBack
import BackupPlan.Run

/-!
# Printed plans read back

A plan is a list with one record for each job, and in the record stand texts and records of
texts.  In both formats that can be asked for it reads back as the same list.

* `CompiledJob.isRecord_of_toJson?` — what is printed of a job;
* `Yaml.IsRecordTree.isNumberlessWithin` — the JSON reader takes what the YAML reader takes;
* `print_plan` — a printed plan, in either format.
-/

namespace BackupPlan

open Yaml (IsName IsRecord IsRecordTree)

/-! ### What is printed of a job -/

/-- The names under which something is printed can stand bare. -/
theorem isName_of_mem_printed : ∀ name ∈ ["title", "script", "key_import", "path", "owner",
    "mode", "ensure", "content", "name", "command", "unless"], IsName name := by
  decide

/-- What is printed of a script is a record of texts. -/
theorem Script.isRecordTree_of_toJson? {script : Script} {json : Json}
    (h : script.toJson? = some json) (levels : Nat) : IsRecordTree (levels + 1) json := by
  obtain ⟨path, hpath, rfl⟩ := Option.map_eq_some_iff.mp h
  obtain ⟨text, -, rfl⟩ := Option.map_eq_some_iff.mp hpath
  have hnames := isName_of_mem_printed
  simp only [List.forall_mem_cons] at hnames
  cases script.content with
  | none => exact .record (by simp) (by simp [hnames]) (by simp [IsRecordTree.text])
  | some content => exact .record (by simp) (by simp [hnames]) (by simp [IsRecordTree.text])

/-- What is printed of a key import is a record of texts. -/
theorem KeyImport.isRecordTree_toJson (action : KeyImport) (levels : Nat) :
    IsRecordTree (levels + 1) action.toJson := by
  have hnames := isName_of_mem_printed
  simp only [List.forall_mem_cons] at hnames
  exact .record (by simp) (by simp [hnames]) (by simp [IsRecordTree.text])

/-- What is printed of a job is a record of its title, its script and the import of its
keys. -/
theorem CompiledJob.isRecord_of_toJson? {done : CompiledJob} {json : Json}
    (h : done.toJson? = some json) (levels : Nat) : IsRecord (levels + 2) json := by
  obtain ⟨script, hscript, rfl⟩ := Option.map_eq_some_iff.mp h
  have hnames := isName_of_mem_printed
  simp only [List.forall_mem_cons] at hnames
  have hscript := Script.isRecordTree_of_toJson? hscript levels
  refine ⟨?_, _, rfl⟩
  cases done.keyImport with
  | none =>
      exact .record (by simp) (by simp [hnames]) (by simp [IsRecordTree.text, hscript])
  | some action =>
      have himport := action.isRecordTree_toJson levels
      exact .record (by simp) (by simp [hnames]) (by simp [IsRecordTree.text, hscript, himport])

/-- A record of texts holds no numbers. -/
theorem Yaml.IsRecordTree.isNumberlessWithin {levels : Nat} {value : Json}
    (h : IsRecordTree levels value) : value.IsNumberlessWithin levels := by
  induction h with
  | text levels s => exact .text levels s
  | record _ _ _ hvalues => exact .object hvalues

/-! ### The plan -/

/-- **A plan is printed in the format that is asked for**, as a document of YAML or as JSON over
several lines, and it reads back as the plan. -/
theorem print_plan {jobs : List CompiledJob} {items : List Json}
    (hitems : jobs.mapM CompiledJob.toJson? = some items) (format : PlanFormat) :
    (format = .yaml → format.print (.list items) = Yaml.document (.list items) ∧
      ∀ wide, Yaml.read (Yaml.Cursor.toOpen wide)
        (format.print (.list items)).toByteArray.data.toList = .ok (Json.list items).toOpen) ∧
    (format = .json → format.print (.list items) = (Json.list items).pretty ∧
      Json.parse? (format.print (.list items)) = some (.list items)) := by
  have hrecords : ∀ item ∈ items, ∀ levels, IsRecord (levels + 2) item := by
    intro item hitem
    obtain ⟨done, -, hdone⟩ := exists_of_mem_mapM hitems hitem
    exact CompiledJob.isRecord_of_toJson? hdone
  constructor
  · rintro rfl
    exact ⟨rfl, Yaml.read_document fun item hitem => hrecords item hitem 125⟩
  · rintro rfl
    refine ⟨rfl, Json.parse?_pretty (.list fun item hitem => ?_)⟩
    exact (hrecords item hitem 124).1.isNumberlessWithin

end BackupPlan
