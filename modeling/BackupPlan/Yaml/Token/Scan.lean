import BackupPlan.Yaml.Token.Scalar

/-!
# Cutting a YAML document into tokens

Whether a text is a key shows only at the colon behind it, so the scan remembers
where a key may have begun, and puts the token for a key there when the colon
comes.  Indentation opens and closes lists and tables.
-/

namespace BackupPlan.Yaml

/-- A place where a key may have begun. -/
structure PendingKey where
  /-- Whether nothing but a key can stand there. -/
  isRequired : Bool
  /-- How many tokens stand before it. -/
  tokens : Nat
  /-- Where it is. -/
  head : Head

/-- The state of a scan. -/
structure Scan where
  /-- Where the scan stands. -/
  head : Head
  /-- The tokens so far, the last one first. -/
  tokens : List Token := []
  /-- How many tokens there are. -/
  count : Nat := 0
  /-- The indentation of the structure around; none is -1. -/
  indent : Int := -1
  /-- The indentations of the structures around that one. -/
  indents : List Int := []
  /-- Whether a key may begin here. -/
  mayBeginKey : Bool := true
  /-- Where a key may have begun within the innermost brackets. -/
  pending : Option PendingKey := none
  /-- The same for every pair of brackets around those. -/
  outer : List (Option PendingKey) := []

namespace Scan

/-- Whether the scan is between brackets or braces. -/
def inFlow (s : Scan) : Bool :=
  !s.outer.isEmpty

/-- Adds a token. -/
def put (s : Scan) (token : Token) : Scan :=
  { s with tokens := token :: s.tokens, count := s.count + 1 }

/-- Adds a token behind so many others. -/
def insert (s : Scan) (before : Nat) (token : Token) : Scan :=
  let later := s.count - before
  { s with
    tokens := s.tokens.take later ++ token :: s.tokens.drop later
    count := s.count + 1 }

/-- Adds a token for the next so many characters. -/
def putSkip (s : Scan) (token : Token) (n : Nat) : Scan :=
  { s.put token with head := s.head.skip n }

/-- Closes the structures that are indented more than a column. -/
def closeTo (column : Int) : Nat → Scan → Scan
  | 0, s => s
  | fuel + 1, s =>
    if s.indent ≤ column then s
    else
      let s := s.put .blockEnd
      closeTo column fuel { s with indent := s.indents.headD (-1), indents := s.indents.drop 1 }

/-- Closes the structures that are indented more than a column, outside of
brackets. -/
def unroll (s : Scan) (column : Int) : Scan :=
  if s.inFlow then s else closeTo column (s.indents.length + 1) s

/-- Opens a structure at a column that is indented more than the one around,
outside of brackets; its token stands behind so many others. -/
def roll (s : Scan) (column : Nat) (before : Nat) (token : Token) : Scan :=
  if s.inFlow || (column : Int) ≤ s.indent then s
  else { s.insert before token with indent := column, indents := s.indent :: s.indents }

/-- Whether a place is too far back for a key: on another line, or more than 1024
characters away. -/
def isStale (s : Scan) (key : PendingKey) : Bool :=
  key.head.line < s.head.line || key.head.index + 1024 < s.head.index

/-- Gives up a place for a key, unless nothing else can stand there. -/
def giveUp : Option PendingKey → Option (Option PendingKey)
  | some key => if key.isRequired then none else some none
  | none => some none

/-- Gives up the places that are too far back. -/
def dropStale (s : Scan) : Option Scan := do
  let keep (key : Option PendingKey) : Option (Option PendingKey) :=
    if (key.map s.isStale).getD false then giveUp key else some key
  let pending ← keep s.pending
  let outer ← s.outer.mapM keep
  pure { s with pending, outer }

/-- Gives up the place for a key within the innermost brackets. -/
def noKey (s : Scan) : Option Scan :=
  (giveUp s.pending).map fun pending => { s with pending }

/-- Remembers the place as one where a key may begin, if one may. -/
def rememberKey (s : Scan) : Option Scan :=
  if s.mayBeginKey then
    (giveUp s.pending).map fun _ =>
      let isRequired := !s.inFlow && s.indent == s.head.column
      { s with pending := some ⟨isRequired, s.count, s.head⟩ }
  else some s

/-- Moves on to the next token, over blanks, comments and empty lines. -/
def toNext : Nat → Scan → Scan
  | 0, s => s
  | fuel + 1, s =>
    let h := s.head
    let h := if h.column == 0 && h.sees '\uFEFF' then h.skip 1 else h
    let h := h.skipWhile fun c => c == ' ' || (c == '\t' && (s.inFlow || !s.mayBeginKey))
    let h := if h.sees '#' then h.skipWhile fun c => !isBreak c else h
    if h.next.isSome && Head.isLineEnd h.next then
      toNext fuel { s with head := h.readBreak.2, mayBeginKey := s.mayBeginKey || !s.inFlow }
    else { s with head := h }

/-- Reads the number of a version. -/
def versionNumber (h : Head) : Option (Nat × Head) :=
  let (digits, h) := h.span Char.isDigit
  if digits.isEmpty || 9 < digits.length then none
  else some (digits.foldl (fun n c => n * 10 + (c.toNat - '0'.toNat)) 0, h)

/-- Reads the handle of a tag: exclamation marks around a name; in a tag the last
one may be missing, then it is no handle. -/
def tagHandle (isDirective : Bool) (h : Head) : Option (List Char × Head) :=
  if h.sees '!' then
    let (name, h) := (h.skip 1).span isNameChar
    if h.sees '!' then some ('!' :: name ++ ['!'], h.skip 1)
    else if isDirective && !name.isEmpty then none
    else some ('!' :: name, h)
  else none

/-- The characters of tags besides those of names. -/
def isTagChar (inAngles : Bool) (c : Char) : Bool :=
  isNameChar c || ";/?:@&=+$.!~*'()".toList.contains c ||
    (inAngles && (c == ',' || c == '[' || c == ']'))

/-- Reads escaped bytes of a tag, each a percent sign and two hexadecimal digits. -/
def escapedBytes : Nat → Head → Option (List UInt8 × Head)
  | 0, h => some ([], h)
  | fuel + 1, h =>
    if h.sees '%' then do
      let high ← (h.ahead 1).bind Quoted.hexValue
      let low ← (h.ahead 2).bind Quoted.hexValue
      let (bytes, h) ← escapedBytes fuel (h.skip 3)
      pure (UInt8.ofNat (high * 16 + low) :: bytes, h)
    else some ([], h)

/-- Reads the text of a tag behind the part that is read already. -/
def tagText (inAngles : Bool) : Nat → List Char → Head → Option (List Char × Head)
  | 0, done, h => some (done, h)
  | fuel + 1, done, h =>
    if h.sees '%' then do
      let (bytes, h) ← escapedBytes (h.rest.length + 1) h
      let text ← String.fromUTF8? ⟨bytes.toArray⟩
      tagText inAngles fuel (done ++ text.toList) h
    else
      let (part, h) := h.span (isTagChar inAngles)
      if part.isEmpty then some (done, h) else tagText inAngles fuel (done ++ part) h

/-- Reads a directive: the version of the language, or the meaning of a handle. -/
def directive (h : Head) : Option (Token × Head) := do
  let (name, h) := (h.skip 1).span isNameChar
  if !Head.isGap h.next then none
  let h := h.skipWhile isBlank
  if name == "YAML".toList then
    let (major, h) ← versionNumber h
    if !h.sees '.' then none
    let (minor, h) ← versionNumber (h.skip 1)
    let h ← h.finishLine
    pure (.version major minor, h)
  else if name == "TAG".toList then
    let (handle, h) ← tagHandle true h
    if !(h.next.map isBlank).getD false then none
    let (meaning, h) ← tagText true (h.rest.length + 1) [] (h.skipWhile isBlank)
    if meaning.isEmpty || !Head.isGap h.next then none
    let h ← h.finishLine
    pure (.tagHandle (String.ofList handle) (String.ofList meaning), h)
  else none

/-- Reads the name of an anchor or an alias. -/
def anchorName (h : Head) : Option (String × Head) :=
  let (name, h) := (h.skip 1).span isNameChar
  let isEnd := Head.isGap h.next ||
    (h.next.map fun c => "?:,]\x7d%@`".toList.contains c).getD false
  if name.isEmpty || !isEnd then none else some (String.ofList name, h)

/-- Reads a tag. -/
def tag (inFlow : Bool) (h : Head) : Option (Token × Head) := do
  let (handle, suffix, h) ← if h.ahead 1 == some '<' then do
      let (text, h) ← tagText true (h.rest.length + 1) [] (h.skip 2)
      if text.isEmpty || !h.sees '>' then none
      pure ("", text, h.skip 1)
    else do
      let (handle, h) ← tagHandle false h
      let isHandle := 1 < handle.length && handle.getLast? == some '!'
      let start := if isHandle then [] else handle.drop 1
      let (text, h) ← tagText false (h.rest.length + 1) start h
      if isHandle then
        if text.isEmpty then none
        pure (String.ofList handle, text, h)
      else if text.isEmpty then pure ("", ['!'], h)
      else pure ("!", text, h)
  if Head.isGap h.next || (inFlow && h.sees ',') then
    pure (.tag handle (String.ofList suffix), h)
  else none

/-- Reads a directive or the mark of a document, which end every structure. -/
def putTop (s : Scan) (read : Head → Option (Token × Head)) : Option Scan := do
  let s ← (s.unroll (-1)).noKey
  let (token, head) ← read s.head
  pure { s.put token with head, mayBeginKey := false }

/-- Reads a token that may be a key. -/
def putNode (s : Scan) (read : Head → Option (Token × Head)) : Option Scan := do
  let s ← s.rememberKey
  let (token, head) ← read s.head
  pure { s.put token with head, mayBeginKey := false }

/-- Reads an opening bracket or brace. -/
def openFlow (s : Scan) (token : Token) : Option Scan := do
  let s ← s.rememberKey
  pure { s.putSkip token 1 with
    pending := none, outer := s.pending :: s.outer, mayBeginKey := true }

/-- Reads a closing bracket or brace. -/
def closeFlow (s : Scan) (token : Token) : Option Scan := do
  let s ← s.noKey
  let s := { s.putSkip token 1 with mayBeginKey := false }
  pure (match s.outer with
    | [] => s
    | pending :: outer => { s with pending, outer })

/-- Opens a structure for a token that needs one, where a key may begin. -/
def openBlock (s : Scan) (token : Token) : Option Scan :=
  if s.inFlow then some s
  else if s.mayBeginKey then some (s.roll s.head.column s.count token)
  else none

/-- Reads a dash. -/
def entry (s : Scan) : Option Scan := do
  let s ← s.openBlock .blockSequenceStart
  let s ← s.noKey
  pure { s.putSkip .blockEntry 1 with mayBeginKey := true }

/-- Reads a question mark before a key. -/
def explicitKey (s : Scan) : Option Scan := do
  let s ← s.openBlock .blockMappingStart
  let s ← s.noKey
  pure { s.putSkip .key 1 with mayBeginKey := !s.inFlow }

/-- Reads a colon before a value. -/
def keyValue (s : Scan) : Option Scan :=
  match s.pending with
  | some key =>
    let s := (s.insert key.tokens .key).roll key.head.column key.tokens .blockMappingStart
    some { s.putSkip .value 1 with pending := none, mayBeginKey := false }
  | none => do
    let s ← s.openBlock .blockMappingStart
    pure { s.putSkip .value 1 with mayBeginKey := !s.inFlow }

/-- Reads an indented text. -/
def blockText (s : Scan) (isFolded : Bool) : Option Scan := do
  let s ← s.noKey
  let (text, head) ← Block.read isFolded s.indent (s.head.skip 1)
  pure { s.put (.scalar false (String.ofList text)) with head, mayBeginKey := true }

/-- Reads a bare text. -/
def plainText (s : Scan) : Option Scan := do
  let s ← s.rememberKey
  let h := s.head
  let (text, isLineStart, head) ←
    Plain.read s.inFlow (s.indent + 1).toNat (h.rest.length + 1) [] {} h
  pure { s.put (.scalar true (String.ofList text)) with head, mayBeginKey := isLineStart }

/-- Reads a quoted text. -/
def quotedText (quote : Char) (h : Head) : Option (Token × Head) := do
  let (text, h) ← Quoted.read quote (h.rest.length + 1) [] (h.skip 1)
  pure (.scalar false (String.ofList text), h)

/-- Whether a bare text begins with a character, given the one behind it. -/
def beginsPlain (inFlow : Bool) (c : Char) (after : Option Char) : Bool :=
  let isGap := Head.isGap after
  if c == '-' then !(after.map isBlank).getD false
  else if c == '?' || c == ':' then !inFlow && !isGap
  else !isBlank c && !",[]\x7b\x7d#&*!|>'\"%@`".toList.contains c

/-- Reads the token that begins with a character. -/
def token (s : Scan) (c : Char) : Option Scan :=
  let h := s.head
  let after := h.ahead 1
  let isGap := Head.isGap after
  if h.column == 0 && c == '%' then s.putTop directive
  else if h.atDocumentMark then
    s.putTop fun h => some (if c == '-' then .documentStart else .documentEnd, h.skip 3)
  else if c == '[' then s.openFlow .flowSequenceStart
  else if c == '\x7b' then s.openFlow .flowMappingStart
  else if c == ']' then s.closeFlow .flowSequenceEnd
  else if c == '\x7d' then s.closeFlow .flowMappingEnd
  else if c == ',' then do
    let s ← s.noKey
    pure { s.putSkip .flowEntry 1 with mayBeginKey := true }
  else if c == '-' && isGap then s.entry
  else if c == '?' && (s.inFlow || isGap) then s.explicitKey
  else if c == ':' && (s.inFlow || isGap) then s.keyValue
  else if c == '*' then s.putNode fun h => (anchorName h).map fun (name, h) => (.alias name, h)
  else if c == '&' then s.putNode fun h => (anchorName h).map fun (name, h) => (.anchor name, h)
  else if c == '!' then s.putNode (tag s.inFlow)
  else if c == '|' && !s.inFlow then s.blockText false
  else if c == '>' && !s.inFlow then s.blockText true
  else if c == '\'' || c == '"' then s.putNode (quotedText c)
  else if beginsPlain s.inFlow c after then s.plainText
  else none

/-- Reads tokens up to the end of the document. -/
def run : Nat → Scan → Option (List Token)
  | 0, _ => none
  | fuel + 1, s => do
    let s ← (toNext (s.head.rest.length + 1) s).dropStale
    let s := s.unroll s.head.column
    match s.head.next with
    | none =>
      let s ← (s.unroll (-1)).noKey
      pure s.tokens.reverse
    | some c => run fuel (← s.token c)

end Scan

/-- The tokens of a document. -/
def Token.scan (source : List Char) : Option (List Token) :=
  Scan.run (source.length + 1) { head := { rest := source } }

end BackupPlan.Yaml
