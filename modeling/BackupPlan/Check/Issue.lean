import BackupPlan.Json.Basic

/-!
# Issues of fields

A check of a record reports, field by field, what is wrong.  A field that is a
record itself carries the issues of its own fields.
-/

namespace BackupPlan

/-- One thing that is wrong with a field. -/
structure Issue where
  /-- A fixed name for the kind of issue. -/
  code : String
  /-- What is wrong, in words. -/
  message : Option String
  /-- Further data on the issue, such as the value at fault. -/
  params : List (String × Json) := []

/-- What is wrong with one field. -/
inductive FieldIssues where
  /-- The field has issues of its own. -/
  | own (issues : List Issue)
  /-- The field is a record, and these of its fields have issues. -/
  | nested (fields : List (String × FieldIssues))

/-- What is wrong with a record: the fields that have issues.  Which fields they are is
all that is meant; the order in which they stand, here that of the checks, only fixes one
order for the lines of the message. -/
abbrev Issues := List (String × FieldIssues)

/-- An issue in words. -/
def Issue.text (issue : Issue) : String :=
  issue.message.getD ("Validation error: " ++ issue.code ++ " [\x7b\x7d]")

mutual

/-- One line for every field with issues of its own, below a path of fields. -/
def FieldIssues.lines (path : String) : FieldIssues → List String
  | .own issues => [path ++ ": " ++ ", ".intercalate (issues.map Issue.text)]
  | .nested fields => Issues.linesUnder (path ++ ".") fields

/-- The lines of the fields of a record whose path has been written. -/
def Issues.linesUnder (lead : String) : List (String × FieldIssues) → List String
  | [] => []
  | (field, issues) :: rest => issues.lines (lead ++ field) ++ Issues.linesUnder lead rest

end

/-- The issues of a record in words, one line a field. -/
def Issues.message (issues : Issues) : String :=
  "\n".intercalate (Issues.linesUnder "" issues)

/-- A check of one field: what it finds, and the value it looks at, which is
none if the value has no JSON form. -/
structure FieldCheck where
  /-- The name of the field. -/
  field : String
  /-- The issue that the check finds. -/
  finding : Option Issue
  /-- The value of the field. -/
  value : Option Json

/-- A value that has no JSON form, because a path in it is no text. -/
inductive Unwritable where
  /-- The only case. -/
  | mk
  deriving DecidableEq

/-- The issues that checks find, each with the value at fault.  A value at fault
that has no JSON form cannot be reported. -/
def Issues.collect : List FieldCheck → Except Unwritable Issues
  | [] => .ok []
  | ⟨_, none, _⟩ :: rest => collect rest
  | ⟨_, some _, none⟩ :: _ => .error .mk
  | ⟨field, some issue, some value⟩ :: rest => do
    let issues ← collect rest
    pure ((field, .own [{ issue with params := issue.params ++ [("value", value)] }]) :: issues)

end BackupPlan
