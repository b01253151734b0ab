/-!
# Shell commands

A command is a list of arguments of three kinds.  Quoting happens in
`Arg.text` and nowhere else: data is always put between single quotes, fixed
flags and checked values stand bare.
-/

namespace BackupPlan.Shell

/-- How one character stands between single quotes: a quote closes them, stands
escaped, and opens them again. -/
def quotedChar (c : Char) : List Char :=
  if c = '\'' then ['\'', '\\', '\'', '\''] else [c]

/-- A text between single quotes. -/
def singleQuote (text : String) : String :=
  String.ofList ('\'' :: text.toList.flatMap quotedChar ++ ['\''])

/-- An argument of a command. -/
inductive Arg where
  /-- A word that stands as it is. -/
  | word (text : String)
  /-- A text between single quotes. -/
  | quoted (text : String)
  /-- A name, an equals sign, and a text between single quotes. -/
  | assign (name value : String)
  deriving DecidableEq

/-- An argument as it is written. -/
def Arg.text : Arg → String
  | word text => text
  | quoted text => singleQuote text
  | assign name value => name ++ "=" ++ singleQuote value

/-- A simple command. -/
structure Command where
  /-- The arguments, the program first. -/
  args : List Arg := []
  deriving DecidableEq

namespace Command

/-- A command of one bare word: a program, or a whole shell fragment. -/
def ofWord (text : String) : Command :=
  ⟨[.word text]⟩

/-- A command of one argument. -/
def ofArg (arg : Arg) : Command :=
  ⟨[arg]⟩

/-- Adds an argument. -/
def arg (command : Command) (arg : Arg) : Command :=
  ⟨command.args ++ [arg]⟩

/-- Adds arguments. -/
def addArgs (command : Command) (args : List Arg) : Command :=
  ⟨command.args ++ args⟩

/-- A command as it is written: its arguments with single blanks between them. -/
def text (command : Command) : String :=
  " ".intercalate (command.args.map Arg.text)

end Command

/-- Commands of which each runs only if the one before it succeeded. -/
structure Chain where
  /-- The commands, in order. -/
  commands : List Command := []
  deriving DecidableEq

/-- A chain as it is written. -/
def Chain.text (chain : Chain) : String :=
  " && ".intercalate (chain.commands.map Command.text)

end BackupPlan.Shell
