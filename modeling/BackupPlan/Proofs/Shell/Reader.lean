import BackupPlan.Shell.Command

/-!
# A reader of shell text

What a shell makes of a text, for the part of its language that scripts are
written in: blanks part words, a line feed ends a line, `&&` parts the commands
of a line, everything between single quotes is literal, and outside of them a
backslash takes the meaning from the next character.  Any other character with
a meaning of its own is an error, so that a text is read only if a shell finds
nothing in it but plain commands.

The reader is a machine that takes one character at a time.  It knows nothing
about how `Arg.text` quotes.

* `readLines` — the words of a text, command by command and line by line;
* `readScript` — the same with the variables that each command sets.
-/

namespace BackupPlan.Shell

/-- What a character means outside quotes. -/
inductive CharKind where
  /-- A single quote. -/
  | quote
  /-- A backslash. -/
  | escape
  /-- One half of the operator `&&`. -/
  | ampersand
  /-- The end of a line. -/
  | newline
  /-- A gap between words. -/
  | blank
  /-- A character whose meaning no script may use. -/
  | special
  /-- A character that stands for itself. -/
  | plain
  deriving DecidableEq

/-- The characters with a meaning that no script may use: operators, expansions,
patterns, comments, groups, history and jobs. -/
def specials : List Char :=
  [';', '|', '$', '`', '"', '<', '>', '(', ')', '*', '?', '[', ']', '#', '~', '!', '\x7b', '\x7d',
    '^', '%']

/-- What a character means outside quotes. -/
def kind (c : Char) : CharKind :=
  if c = '\'' then .quote
  else if c = '\\' then .escape
  else if c = '&' then .ampersand
  else if c = '\n' then .newline
  else if c = ' ' ∨ c = '\t' then .blank
  else if c ∈ specials then .special
  else .plain

/-- A character of a word that has been read. -/
structure WordChar where
  /-- The character. -/
  char : Char
  /-- Whether it stood between quotes or behind a backslash. -/
  literal : Bool
  deriving DecidableEq

/-- A word that has been read; it may be empty. -/
abbrev Word := List WordChar

/-- The characters of a text, all of them bare. -/
def bareWord (text : String) : Word :=
  text.toList.map (⟨·, false⟩)

/-- The characters of a text, all of them literal. -/
def literalWord (text : String) : Word :=
  text.toList.map (⟨·, true⟩)

/-- The text that a word stands for. -/
def wordText (word : Word) : String :=
  String.ofList (word.map WordChar.char)

/-- What the reader is in the middle of. -/
inductive Mode where
  /-- Nothing: the next character has its usual meaning. -/
  | bare
  /-- A pair of single quotes. -/
  | quoted
  /-- A backslash and the character behind it. -/
  | escaped
  /-- The operator `&&`. -/
  | ampersand
  deriving DecidableEq

/-- The state of the reader. -/
structure Reader where
  /-- What it is in the middle of. -/
  mode : Mode := .bare
  /-- The word that it has begun, if any. -/
  word : Option Word := none
  /-- The words before it in the same command. -/
  words : List Word := []
  /-- The commands before that in the same line. -/
  commands : List (List Word) := []
  /-- The lines before that. -/
  lines : List (List (List Word)) := []

namespace Reader

/-- Lengthens the word that has been begun, or begins one. -/
def extend (r : Reader) (word : Word) : Reader :=
  { r with word := some (r.word.getD [] ++ word) }

/-- Ends the word that has been begun, if any. -/
def endWord (r : Reader) : Reader :=
  { r with word := none, words := r.words ++ r.word.toList }

/-- Ends a command, which must have a word. -/
def endCommand (r : Reader) : Option Reader :=
  let r := r.endWord
  if r.words = [] then none
  else some { r with words := [], commands := r.commands ++ [r.words] }

/-- Ends a line; a line without any word is passed over. -/
def endLine (r : Reader) : Option Reader :=
  let r := r.endWord
  if r.words = [] ∧ r.commands = [] then some r
  else r.endCommand.map fun r => { r with commands := [], lines := r.lines ++ [r.commands] }

/-- Takes one character. -/
def step (r : Reader) (c : Char) : Option Reader :=
  match r.mode with
  | .quoted => some (if c = '\'' then { r with mode := .bare } else r.extend [⟨c, true⟩])
  | .escaped => some { r.extend [⟨c, true⟩] with mode := .bare }
  | .ampersand =>
    if c = '&' then r.endCommand.map fun r => { r with mode := .bare } else none
  | .bare =>
    match kind c with
    | .quote => some { r.extend [] with mode := .quoted }
    | .escape => some { r.extend [] with mode := .escaped }
    | .ampersand => some { r with mode := .ampersand }
    | .newline => r.endLine
    | .blank => some r.endWord
    | .special => none
    | .plain => some (r.extend [⟨c, false⟩])

/-- Takes characters one after another. -/
def run (r : Reader) : List Char → Option Reader
  | [] => some r
  | c :: rest => (r.step c).bind fun r => run r rest

/-- The lines that have been read at the end of a text, where nothing may be
left open but a line. -/
def finish (r : Reader) : Option (List (List (List Word))) :=
  if r.mode = .bare then r.endLine.map Reader.lines else none

end Reader

/-- The words of a text: its lines, their commands, the words of each. -/
def readLines (text : String) : Option (List (List (List Word))) :=
  (Reader.run {} text.toList).bind Reader.finish

/-- A simple command as a shell runs it. -/
structure Invocation where
  /-- The variables that it sets, in order. -/
  assignments : List (String × String) := []
  /-- The program and its arguments; none if the command only sets variables. -/
  argv : List String := []
  deriving DecidableEq

/-- Cuts a word at its first bare equals sign, if all before it is bare. -/
def cutAssignment : Word → Option (List Char × Word)
  | [] => none
  | c :: rest =>
    if c.literal then none
    else if c.char = '=' then some ([], rest)
    else (cutAssignment rest).map fun (name, value) => (c.char :: name, value)

/-- Whether a variable may have a name. -/
def isVariableName : List Char → Bool
  | [] => false
  | c :: rest => (c.isAlpha || c == '_') && rest.all fun c => c.isAlphanum || c == '_'

/-- The variable that a word sets, if it is an assignment. -/
def assignment? (word : Word) : Option (String × String) :=
  match cutAssignment word with
  | some (name, value) =>
    if isVariableName name then some (String.ofList name, wordText value) else none
  | none => none

/-- The assignments at the beginning of a command, and the words after them. -/
def Invocation.ofWords : List Word → Invocation
  | [] => {}
  | word :: rest =>
    match assignment? word with
    | some a => { ofWords rest with assignments := a :: (ofWords rest).assignments }
    | none => { argv := (word :: rest).map wordText }

/-- What a shell runs, line by line; each command of a line runs only if the one
before it succeeds. -/
def readScript (text : String) : Option (List (List Invocation)) :=
  (readLines text).map fun lines => lines.map fun line => line.map Invocation.ofWords

end BackupPlan.Shell
