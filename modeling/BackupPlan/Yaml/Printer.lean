import BackupPlan.Json.Basic
import BackupPlan.Yaml.Basic

/-!
# Writing YAML

A value is written in block style.  A text stands bare where it is read back as
the same text, else between single quotes; a text of several lines is written
line by line behind a bar; and a text with characters that cannot stand in a
document is written with escapes between double quotes.
-/

namespace BackupPlan.Yaml

/-- The characters that a document shows as they are. -/
def isShown (c : Char) : Bool :=
  let n := c.toNat
  c == '\n' || (0x20 ≤ n && n ≤ 0x7E) || (0xA0 ≤ n && n != 0xFEFF && n != 0xFFFE && n != 0xFFFF)

/-- Whether a text has a character of one kind right before one of another. -/
def hasPair (first second : Char → Bool) (cs : List Char) : Bool :=
  (cs.zip (cs.drop 1)).any fun (a, b) => first a && second b

/-- Whether a text begins or ends with a character of a kind. -/
def hasAtEnd (kind : Char → Bool) (cs : List Char) : Bool :=
  (cs.head?.map kind).getD false || (cs.getLast?.map kind).getD false

/-- The ways to write a text. -/
inductive Style where
  /-- Bare. -/
  | plain
  /-- Between single quotes. -/
  | singleQuoted
  /-- Between double quotes, with escapes. -/
  | doubleQuoted
  /-- Line by line behind a bar. -/
  | literal
  deriving DecidableEq

namespace Style

/-- The words that some readers take for truth values. -/
def truthWords : List String :=
  ["y", "Y", "yes", "Yes", "YES", "n", "N", "no", "No", "NO", "true", "True", "TRUE", "false",
    "False", "FALSE", "on", "On", "ON", "off", "Off", "OFF"]

/-- Whether a bare text might be read as something else than a text. -/
def isAmbiguous (text : String) : Bool :=
  let lower := String.ofList (text.toList.map Char.toLower)
  lower == "true" || lower == "false" || lower == "null" || lower == "~" ||
    match text.toList with
    | [] => true
    | c :: _ => c.isDigit || c == '-' || c == '.' || c == '+'

/-- The characters with which no bare text begins. -/
def isIndicator (c : Char) : Bool :=
  "#,[]\x7b\x7d&*!|>'\"%@`".toList.contains c

/-- Whether a text has characters that would give it another meaning if it stood
bare. -/
def hasIndicators (cs : List Char) : Bool :=
  let isGap (c : Char) : Bool := isBlank c || isBreak c || c == '\x00'
  let isBeforeGap (c : Char) : Bool := hasPair (· == c) isGap (cs ++ ['\x00'])
  (match cs with
    | [] => false
    | c :: rest => isIndicator c || (c == '?' && (rest.head?.map isGap).getD true)) ||
  isBeforeGap ':' || hasPair isGap (· == '#') cs

/-- Whether a text can stand neither bare nor between single quotes nor behind a
bar. -/
def needsEscapes (cs : List Char) : Bool :=
  cs.any (fun c => !isShown c) || hasPair (· == ' ') isBreak cs

/-- The way to write a text. -/
def ofText (text : String) : Style :=
  let cs := text.toList
  if truthWords.contains text then singleQuoted
  else if cs.contains '\n' then
    if needsEscapes cs || cs.getLast? = some ' ' then doubleQuoted else literal
  else
    let quoted := if needsEscapes cs || hasPair isBreak (· == ' ') cs then doubleQuoted
      else singleQuoted
    if isAmbiguous text || hasAtEnd (fun c => c == ' ' || isBreak c) cs || cs.any isBreak ||
      hasIndicators cs then quoted
    else if needsEscapes cs then doubleQuoted
    else plain

end Style

/-- So many blanks. -/
def margin (n : Nat) : String :=
  String.ofList (List.replicate n ' ')

/-- Begins a new line, unless a line has just ended. -/
def freshLine (text : String) : String :=
  if (text.toList.getLast?.map isBreak).getD false then text else text.push '\n'

/-- The lines of a text at an indentation.  A line that is not empty is indented;
told whether a line begins. -/
def indented (indent : Nat) : Bool → List Char → List Char
  | _, [] => []
  | atStart, c :: rest =>
    if isBreak c then c :: indented indent true rest
    else if atStart then List.replicate indent ' ' ++ c :: indented indent false rest
    else c :: indented indent false rest

/-- A text between single quotes; a quote in it is written twice. -/
def singleQuoted (indent : Nat) (cs : List Char) : String :=
  let doubled := cs.flatMap fun c => if c == '\'' then ['\'', '\''] else [c]
  "'" ++ String.ofList (indented indent false doubled) ++
    (if (cs.getLast?.map isBreak).getD false then margin indent else "") ++ "'"

/-- Upper case hexadecimal digits, filled up with zeros. -/
def hexDigits (width n : Nat) : List Char :=
  let digits := (Nat.toDigits 16 n).map Char.toUpper
  List.replicate (width - digits.length) '0' ++ digits

/-- How a character stands between double quotes. -/
def escaped (c : Char) : List Char :=
  let named (letter : Char) : List Char := ['\\', letter]
  match c with
  | '"' => named '"'
  | '\\' => named '\\'
  | '\x00' => named '0'
  | '\x07' => named 'a'
  | '\x08' => named 'b'
  | '\t' => named 't'
  | '\n' => named 'n'
  | '\x0b' => named 'v'
  | '\x0c' => named 'f'
  | '\r' => named 'r'
  | '\x1b' => named 'e'
  | '\u0085' => named 'N'
  | '\u2028' => named 'L'
  | '\u2029' => named 'P'
  | c =>
    if isShown c then [c]
    else if c.toNat ≤ 0xFF then named 'x' ++ hexDigits 2 c.toNat
    else if c.toNat ≤ 0xFFFF then named 'u' ++ hexDigits 4 c.toNat
    else named 'U' ++ hexDigits 8 c.toNat

/-- A text between double quotes. -/
def doubleQuoted (cs : List Char) : String :=
  "\"" ++ String.ofList (cs.flatMap escaped) ++ "\""

/-- What stands behind the bar: the indentation if the text does not show it, and
what becomes of the line breaks at the end. -/
def literalHints (cs : List Char) : String :=
  let startsBlank := (cs.head?.map fun c => c == ' ' || isBreak c).getD false
  let ending := match cs.reverse with
    | [] => "-"
    | c :: rest =>
      if !isBreak c then "-"
      else if (rest.head?.map isBreak).getD true then "+"
      else ""
  (if startsBlank then "2" else "") ++ ending

/-- A text as it is written in a place of some indentation. -/
def writtenText (indent : Nat) (text : String) : String :=
  let cs := text.toList
  match Style.ofText text with
  | .plain => text
  | .singleQuoted => singleQuoted indent cs
  | .doubleQuoted => doubleQuoted cs
  | .literal => "|" ++ literalHints cs ++ "\n" ++ String.ofList (indented indent true cs)

/-- Entries on lines of their own, of which the first continues a line. -/
def stacked (indent : Nat) : List String → String
  | [] => ""
  | [entry] => entry
  | entry :: rest => freshLine entry ++ margin indent ++ stacked indent rest

mutual

/-- A value that begins a line at some indentation, or continues one. -/
def written (indent : Nat) : Json → String
  | .null => "null"
  | .bool b => if b then "true" else "false"
  | .integer n => toString n
  | .real x => Number.scientific x
  | .text s => writtenText (indent + 2) s
  | .list [] => "[]"
  | .list items => stacked indent (writtenItems indent items)
  | .object [] => "\x7b\x7d"
  | .object members => stacked indent (writtenMembers indent members)

/-- The items of a list, each behind its dash. -/
def writtenItems (indent : Nat) : List Json → List String
  | [] => []
  | item :: rest =>
    ("- " ++ (match item with
      | .list _ | .object _ => written (indent + 2) item
      | _ => written indent item)) :: writtenItems indent rest

/-- The members of a table, each behind its name. -/
def writtenMembers (indent : Nat) : List (String × Json) → List String
  | [] => []
  | (name, value) :: rest =>
    (writtenText (indent + 2) name ++ ":" ++ (match value with
      | .list (item :: items) =>
        "\n" ++ margin indent ++ written indent (.list (item :: items))
      | .object (member :: members) =>
        "\n" ++ margin (indent + 2) ++ written (indent + 2) (.object (member :: members))
      | value => " " ++ written indent value)) :: writtenMembers indent rest

end

/-- A value as a document. -/
def document (value : Json) : String :=
  freshLine (written 0 value)

end BackupPlan.Yaml
