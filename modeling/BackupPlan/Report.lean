import BackupPlan.Reading.Problem
import BackupPlan.Rejection
import BackupPlan.Yaml.Basic

/-!
# Reports of errors

A report is a tree: single errors, reports below a heading, and lists of
reports.  In words, what stands below a heading is indented, and the reports of
a list are parted by empty lines.
-/

namespace BackupPlan

/-- A report of what went wrong. -/
inductive Report where
  /-- A file cannot be opened: the kind of error and its text. -/
  | file (kind text : String)
  /-- The bytes of a document cannot be had. -/
  | unavailable (text : String)
  /-- A document does not hold what it should. -/
  | document (fault : Reading.Fault)
  /-- A value cannot be written. -/
  | unwritable (text : String)
  /-- A record breaks the rules for its fields. -/
  | issues (issues : Issues)
  /-- A job is rejected. -/
  | job (rejection : Rejection)
  /-- A report below a heading. -/
  | under (heading : String) (inner : Report)
  /-- Several reports. -/
  | several (reports : List Report)

namespace Report

/-- Indents every line that is not empty by two blanks; told whether a line
begins.  A carriage return before a line feed is a part of the line break, and
only the line feed is kept. -/
def indentFrom : Bool → List Char → List Char
  | _, [] => []
  | _, '\r' :: '\n' :: rest => '\n' :: indentFrom true rest
  | _, '\n' :: rest => '\n' :: indentFrom true rest
  | true, c :: rest => ' ' :: ' ' :: c :: indentFrom false rest
  | false, c :: rest => c :: indentFrom false rest

/-- A text with every line that is not empty indented by two blanks. -/
def indent (text : String) : String :=
  String.ofList (indentFrom true text.toList)

mutual

/-- A report in words. -/
def text : Report → String
  | file _ shown => shown
  | unavailable shown => shown
  | document fault => fault.message Yaml.wording
  | unwritable shown => shown
  | issues found => found.message
  | job rejection => rejection.message
  | under heading inner => heading ++ ":\n" ++ indent inner.text
  | several reports => "\n\n".intercalate (texts reports)

/-- Each of several reports in words. -/
def texts : List Report → List String
  | [] => []
  | report :: rest => report.text :: texts rest

end

mutual

/-- The reports that are no lists, reached through lists only, from left to
right. -/
def leaves : Report → List Report
  | several reports => leavesOf reports
  | report => [report]

/-- The leaves of each of several reports. -/
def leavesOf : List Report → List Report
  | [] => []
  | report :: rest => report.leaves ++ leavesOf rest

end

/-- Success if there are no reports, else a list of their leaves. -/
def gather (reports : List Report) : Except Report Unit :=
  if reports.isEmpty then .ok () else .error (several (leavesOf reports))

end Report

end BackupPlan
