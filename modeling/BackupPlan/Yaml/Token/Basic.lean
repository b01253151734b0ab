import BackupPlan.Yaml.Basic

/-!
# Tokens of YAML and the head that reads them

A document is first cut into tokens.  The head stands before the next character
and knows its line and column.
-/

namespace BackupPlan.Yaml

/-- A token of a document. -/
inductive Token where
  /-- The version that a document asks for. -/
  | version (major minor : Nat)
  /-- What a handle stands for at the beginning of tags. -/
  | tagHandle (handle meaning : String)
  /-- Three dashes. -/
  | documentStart
  /-- Three full stops. -/
  | documentEnd
  /-- A list begins, by its indentation. -/
  | blockSequenceStart
  /-- A table begins, by its indentation. -/
  | blockMappingStart
  /-- A list or table ends, by its indentation. -/
  | blockEnd
  /-- An opening bracket. -/
  | flowSequenceStart
  /-- A closing bracket. -/
  | flowSequenceEnd
  /-- An opening brace. -/
  | flowMappingStart
  /-- A closing brace. -/
  | flowMappingEnd
  /-- A dash. -/
  | blockEntry
  /-- A comma. -/
  | flowEntry
  /-- What follows is a key. -/
  | key
  /-- What follows is the value of a key. -/
  | value
  /-- A name that stands for an earlier node. -/
  | alias (name : String)
  /-- A name for the node that follows. -/
  | anchor (name : String)
  /-- The tag of the node that follows. -/
  | tag (handle suffix : String)
  /-- A text; whether it stands bare. -/
  | scalar (isPlain : Bool) (text : String)
  deriving DecidableEq

/-- The head that reads a document. -/
structure Head where
  /-- What is not read yet. -/
  rest : List Char
  /-- How many characters are read. -/
  index : Nat := 0
  /-- How many lines are read. -/
  line : Nat := 0
  /-- How many characters of the line are read. -/
  column : Nat := 0

namespace Head

/-- The next character. -/
def next (h : Head) : Option Char :=
  h.rest.head?

/-- The character behind so many others. -/
def ahead (h : Head) (n : Nat) : Option Char :=
  h.rest[n]?

/-- Whether the next character is the one given. -/
def sees (h : Head) (c : Char) : Bool :=
  h.next == some c

/-- Moves on by so many characters of one line. -/
def skip (h : Head) (n : Nat) : Head :=
  { h with rest := h.rest.drop n, index := h.index + n, column := h.column + n }

/-- Reads the characters of a kind. -/
def span (h : Head) (kind : Char → Bool) : List Char × Head :=
  let taken := h.rest.takeWhile kind
  (taken, h.skip taken.length)

/-- Moves on behind the characters of a kind. -/
def skipWhile (h : Head) (kind : Char → Bool) : Head :=
  (h.span kind).2

/-- Moves on to the next line. -/
def newLine (h : Head) (n : Nat) : Head :=
  { rest := h.rest.drop n, index := h.index + n, line := h.line + 1, column := 0 }

/-- Reads a line break, if there is one: the break as it counts in a text. -/
def readBreak (h : Head) : List Char × Head :=
  match h.rest with
  | '\r' :: '\n' :: _ => (['\n'], h.newLine 2)
  | c :: _ =>
    if c == '\u2028' || c == '\u2029' then ([c], h.newLine 1)
    else if isBreak c then (['\n'], h.newLine 1)
    else ([], h)
  | [] => ([], h)

/-- Whether a character, or the end of the document, parts words. -/
def isGap : Option Char → Bool
  | none => true
  | some c => isBlank c || isBreak c

/-- Whether a character ends a line, or the document ends. -/
def isLineEnd : Option Char → Bool
  | none => true
  | some c => isBreak c

/-- Whether the head stands before a line that parts documents. -/
def atDocumentMark (h : Head) : Bool :=
  h.column == 0 && isGap (h.ahead 3) &&
    (h.rest.take 3 == ['-', '-', '-'] || h.rest.take 3 == ['.', '.', '.'])

/-- Moves on behind blanks, a comment and the end of the line; nothing else may
stand there. -/
def finishLine (h : Head) : Option Head :=
  let h := h.skipWhile isBlank
  let h := if h.sees '#' then h.skipWhile fun c => !isBreak c else h
  if isLineEnd h.next then some h.readBreak.2 else none

end Head

/-- The characters of names: letters and digits of ASCII, dash and underscore. -/
def isNameChar (c : Char) : Bool :=
  c.isAlphanum || c == '-' || c == '_'

end BackupPlan.Yaml
