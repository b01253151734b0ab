import BackupPlan.Json.Basic
import BackupPlan.Json.Numeral

/-!
# JSON texts, read as far as they go

A JSON text is read into a `Draft`: the value that it spells, up to the first
character at which it stops being JSON.  Whoever reads a typed value from a draft
meets what is wrong with the values in front of that character first.
-/

namespace BackupPlan.Json

open Reading

/-- A value of a JSON text, as far as it goes. -/
inductive Draft where
  /-- The value `null`. -/
  | null
  /-- A truth value. -/
  | bool (b : Bool)
  /-- An integer that fits into 64 bits. -/
  | integer (n : Int)
  /-- Any other number. -/
  | real (x : Float)
  /-- A text. -/
  | text (s : String)
  /-- A list, and why it does not end if it does not. -/
  | list (items : List Draft) (ending : Option Stop)
  /-- An object, and why it does not end if it does not. -/
  | object (members : List (Draft × Draft)) (ending : Option Stop)
  /-- No value: why not, and what is said where a word or an object is expected. -/
  | broken (stop choiceStop : Stop)
  deriving Inhabited

namespace Draft

/-- The blanks of JSON. -/
def isBlank (c : Char) : Bool :=
  c == ' ' || c == '\n' || c == '\t' || c == '\r'

/-- What follows the blanks. -/
def skipBlanks (cs : List Char) : List Char :=
  cs.dropWhile isBlank

/-- The value of a hexadecimal digit. -/
def hexValue (c : Char) : Option Nat :=
  if c.isDigit then some (c.toNat - '0'.toNat)
  else if 'a' ≤ c && c ≤ 'f' then some (c.toNat - 'a'.toNat + 10)
  else if 'A' ≤ c && c ≤ 'F' then some (c.toNat - 'A'.toNat + 10)
  else none

/-- Reads the four digits of an escape.  The digits are four bytes; fewer end
the text too early, whatever they are. -/
def fourDigits (cs : List Char) : Except Stop (Nat × List Char) :=
  match cs with
  | a :: b :: c :: d :: rest =>
    match hexValue a, hexValue b, hexValue c, hexValue d with
    | some a, some b, some c, some d => .ok (((a * 16 + b) * 16 + c) * 16 + d, rest)
    | _, _, _, _ => .error .malformed
  | cs => .error (if (String.ofList cs).utf8ByteSize < 4 then .truncated else .malformed)

/-- Reads what follows the `u` of an escape: one character, or two surrogates
that are one character together. -/
def codeEscape (cs : List Char) : Except Stop (Char × List Char) := do
  let (n, rest) ← fourDigits cs
  if 0xDC00 ≤ n && n ≤ 0xDFFF then throw .malformed
  if n < 0xD800 || 0xDBFF < n then return (Char.ofNat n, rest)
  match rest with
  | [] | ['\\'] => throw .truncated
  | '\\' :: 'u' :: rest =>
    let (low, rest) ← fourDigits rest
    if low < 0xDC00 || 0xDFFF < low then throw .malformed
    return (Char.ofNat (0x10000 + (n - 0xD800) * 0x400 + (low - 0xDC00)), rest)
  | _ => throw .malformed

/-- Reads what follows the backslash of an escape. -/
def escape : List Char → Except Stop (Char × List Char)
  | [] => .error .truncated
  | '"' :: rest => .ok ('"', rest)
  | '\\' :: rest => .ok ('\\', rest)
  | '/' :: rest => .ok ('/', rest)
  | 'b' :: rest => .ok ('\x08', rest)
  | 'f' :: rest => .ok ('\x0c', rest)
  | 'n' :: rest => .ok ('\n', rest)
  | 'r' :: rest => .ok ('\r', rest)
  | 't' :: rest => .ok ('\t', rest)
  | 'u' :: rest => codeEscape rest
  | _ => .error .malformed

/-- Reads the characters of a text up to its closing quote, behind those that
are read already, in reverse. -/
def textRest : Nat → List Char → List Char → Except Stop (String × List Char)
  | 0, _, _ => .error .truncated
  | _ + 1, _, [] => .error .truncated
  | fuel + 1, done, c :: rest =>
    if c = '"' then .ok (String.ofList done.reverse, rest)
    else if c = '\\' then do
      let (c, rest) ← escape rest
      textRest fuel (c :: done) rest
    else if c.toNat < 0x20 then .error .malformed
    else textRest fuel (c :: done) rest

/-- Reads the letters that must follow the first letter of a word. -/
def letters : List Char → List Char → Except Stop (List Char)
  | [], rest => .ok rest
  | _ :: _, [] => .error .truncated
  | expected :: more, c :: rest => if c = expected then letters more rest else .error .malformed

/-- The draft of a word after its first letter. -/
def word (value : Draft) (expected rest : List Char) : Draft × Option (List Char) :=
  match letters expected rest with
  | .ok rest => (value, some rest)
  | .error stop => (broken stop .malformed, none)

/-- The draft of a numeral. -/
def numeral (cs : List Char) : Draft × Option (List Char) :=
  match Numeral.read cs with
  | .ok (.integer n, rest) => (integer n, some rest)
  | .ok (.real x, rest) => (real x, some rest)
  | .error stop => (broken stop .malformed, none)

/-- The draft of nothing that any value begins with. -/
def malformed : Draft :=
  broken .malformed .malformed

/-- The draft of a value that the text ends before. -/
def missing : Draft :=
  broken .truncated .truncated

mutual

/-- Reads a value within so many levels of nesting; answers with what follows it
unless the text stops being JSON within it. -/
def value : Nat → Nat → List Char → Draft × Option (List Char)
  | 0, _, _ => (missing, none)
  | fuel + 1, depth, cs =>
    match skipBlanks cs with
    | [] => (missing, none)
    | 'n' :: rest => word null ['u', 'l', 'l'] rest
    | 't' :: rest => word (bool true) ['r', 'u', 'e'] rest
    | 'f' :: rest => word (bool false) ['a', 'l', 's', 'e'] rest
    | '"' :: rest =>
      match textRest (rest.length + 1) [] rest with
      | .ok (s, rest) => (text s, some rest)
      | .error stop => (broken stop stop, none)
    | '[' :: rest =>
      match depth with
      | 0 => (malformed, none)
      | depth + 1 =>
        let (items, ending, rest) := items fuel depth true rest
        (list items ending, rest)
    | '\x7b' :: rest =>
      match depth with
      | 0 => (malformed, none)
      | depth + 1 =>
        let (members, ending, rest) := members fuel depth true rest
        (object members ending, rest)
    | c :: rest => if c = '-' || c.isDigit then numeral (c :: rest) else (malformed, none)

/-- Reads the items of a list up to its end. -/
def items : Nat → Nat → Bool → List Char → List Draft × Option Stop × Option (List Char)
  | 0, _, _, _ => ([], some .truncated, none)
  | fuel + 1, depth, isFirst, cs =>
    match skipBlanks cs with
    | [] => ([], some .truncated, none)
    | ']' :: rest => ([], none, some rest)
    | c :: rest =>
      if isFirst then item fuel depth (c :: rest)
      else if c = ',' then
        match skipBlanks rest with
        | ']' :: _ => ([malformed], some .malformed, none)
        | rest => item fuel depth rest
      else ([], some .malformed, none)

/-- Reads an item of a list and those behind it. -/
def item : Nat → Nat → List Char → List Draft × Option Stop × Option (List Char)
  | 0, _, _ => ([], some .truncated, none)
  | fuel + 1, depth, cs =>
    match value fuel depth cs with
    | (draft, none) => ([draft], some .malformed, none)
    | (draft, some rest) =>
      let (more, ending, rest) := items fuel depth false rest
      (draft :: more, ending, rest)

/-- Reads the members of an object up to its end. -/
def members : Nat → Nat → Bool → List Char →
    List (Draft × Draft) × Option Stop × Option (List Char)
  | 0, _, _, _ => ([], some .truncated, none)
  | fuel + 1, depth, isFirst, cs =>
    match skipBlanks cs with
    | [] => ([], some .truncated, none)
    | '\x7d' :: rest => ([], none, some rest)
    | c :: rest =>
      if isFirst then member fuel depth (c :: rest)
      else if c = ',' then member fuel depth rest
      else ([], some .malformed, none)

/-- Reads a member of an object and those behind it. -/
def member : Nat → Nat → List Char → List (Draft × Draft) × Option Stop × Option (List Char)
  | 0, _, _ => ([], some .truncated, none)
  | fuel + 1, depth, cs =>
    match value fuel depth cs with
    | (key, none) => ([(key, malformed)], some .malformed, none)
    | (key, some rest) =>
      match skipBlanks rest with
      | [] => ([(key, missing)], some .truncated, none)
      | ':' :: rest =>
        match value fuel depth rest with
        | (draft, none) => ([(key, draft)], some .malformed, none)
        | (draft, some rest) =>
          let (more, ending, rest) := members fuel depth false rest
          ((key, draft) :: more, ending, rest)
      | _ => ([(key, malformed)], some .malformed, none)

end

/-- How many levels of lists and objects a text may have. -/
def maxDepth : Nat := 127

/-- Reads a text as a value, and whether nothing but blanks follows. -/
def ofText (source : String) : Draft × Read Unit :=
  let cs := source.toList
  match value (4 * cs.length + 4) maxDepth cs with
  | (draft, none) => (draft, .ok ())
  | (draft, some rest) =>
    (draft, if (skipBlanks rest).isEmpty then .ok () else fail (.unreadable .malformed))

mutual

/-- The value that a draft spells, if it is complete. -/
def toJson? : Draft → Option Json
  | null => some .null
  | bool b => some (.bool b)
  | integer n => some (.integer n)
  | real x => some (.real x)
  | text s => some (.text s)
  | list items none => (itemsToJson? items).map .list
  | object members none => (membersToJson? members).map .object
  | _ => none

/-- The values of the items of a list, if they are complete. -/
def itemsToJson? : List Draft → Option (List Json)
  | [] => some []
  | item :: rest => do
    let value ← toJson? item
    let values ← itemsToJson? rest
    pure (value :: values)

/-- The members of an object, if they are complete. -/
def membersToJson? : List (Draft × Draft) → Option (List (String × Json))
  | [] => some []
  | (text name, item) :: rest => do
    let value ← toJson? item
    let values ← membersToJson? rest
    pure ((name, value) :: values)
  | _ => none

end

end Draft

/-- The value that a JSON text spells. -/
def parse? (source : String) : Option Json :=
  match Draft.ofText source with
  | (draft, .ok ()) => draft.toJson?
  | _ => none

end BackupPlan.Json
