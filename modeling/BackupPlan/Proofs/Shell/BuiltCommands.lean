import BackupPlan.Proofs.Shell.ReadBack

/-!
# Commands built step by step

A command is built from arguments, one or several at a time, and what is written has
nothing left of these steps but the arguments in their order.  A shell reads them back
as the words that they stand for: a quoted text as exactly its characters, wherever it
stands and also if it has none, and a bare word as itself.

* `Reader.run_singleQuote_of_bare` — a quoted text is read to its end and no further;
* `Command.args_take`, `Command.args_build` — what one step adds, and what all of them do;
* `readCommand_text` — a command of sound arguments is read as their words;
* `quoting_is_undone_by_the_shell` — both, and that a text has one reading.
-/

namespace BackupPlan.Shell

/-! ### Quoted texts -/

namespace Reader

/-- Outside quotes, whatever has been read before, a quoted text lengthens the word by
exactly its characters, and what follows is read from there. -/
theorem run_singleQuote_of_bare {reader : Reader} (h : reader.mode = .bare) (text : String)
    (rest : List Char) :
    reader.run ((singleQuote text).toList ++ rest) =
      (reader.extend (literalWord text)).run rest := by
  obtain ⟨mode, word, words, commands, lines⟩ := reader
  cases h
  exact run_singleQuote words commands lines word text rest

/-- At the end of a quoted text the reader is outside quotes again. -/
theorem run_singleQuote_eq_some {reader : Reader} (h : reader.mode = .bare) (text : String) :
    reader.run (singleQuote text).toList = some (reader.extend (literalWord text)) := by
  have hrun := run_singleQuote_of_bare h text []
  rwa [List.append_nil, run] at hrun

end Reader

/-! ### Steps -/

namespace Command

/-- A step in the building of a command. -/
inductive Step where
  /-- One argument more. -/
  | one (arg : Arg)
  /-- Several arguments more, or none. -/
  | several (args : List Arg)

/-- The arguments that a step brings. -/
def Step.brought : Step → List Arg
  | one arg => [arg]
  | several args => args

/-- A command after one more step. -/
def take (command : Command) : Step → Command
  | .one arg => command.arg arg
  | .several args => command.addArgs args

/-- A command after more steps. -/
def build (command : Command) (steps : List Step) : Command :=
  steps.foldl take command

/-- A step puts what it brings behind what is there. -/
theorem args_take (command : Command) (step : Step) :
    (command.take step).args = command.args ++ step.brought := by
  cases step <;> rfl

/-- **The arguments of a built command** are those that the steps brought, in order. -/
theorem args_build (command : Command) (steps : List Step) :
    (command.build steps).args = command.args ++ steps.flatMap Step.brought := by
  induction steps generalizing command with
  | nil => rw [build, List.foldl_nil, List.flatMap_nil, List.append_nil]
  | cons step steps ih =>
      have hrest := ih (command.take step)
      rw [args_take, List.append_assoc] at hrest
      rw [List.flatMap_cons, ← hrest]
      rfl

end Command

/-! ### Readings -/

/-- The words of a text that is a single command, or nothing at all. -/
def readCommand (text : String) : Option (List Word) :=
  match readLines text with
  | some [] => some []
  | some [[words]] => some words
  | _ => none

/-- **A command of sound arguments reads back** as their words; one without arguments
reads back as no words. -/
theorem readCommand_text {command : Command} (h : ∀ arg ∈ command.args, arg.IsSound) :
    readCommand command.text = some command.reading := by
  by_cases hargs : command.args = []
  · rw [Command.text, Command.reading, hargs]
    rfl
  · rw [readCommand, readLines_command ⟨hargs, h⟩]

/-- A text is read in one way. -/
theorem reading_eq_of_text_eq {command other : Command}
    (hcommand : ∀ arg ∈ command.args, arg.IsSound) (hother : ∀ arg ∈ other.args, arg.IsSound)
    (h : command.text = other.text) : command.reading = other.reading := by
  have hread := readCommand_text hcommand
  rw [h, readCommand_text hother] at hread
  exact (Option.some.inj hread).symm

/-- What the words of a command say is what its arguments hand to the program. -/
theorem map_wordText_reading (command : Command) :
    command.reading.map wordText = command.args.map Arg.meaning := by
  rw [Command.reading, List.map_map]
  exact List.map_congr_left fun arg _ => wordText_reading arg

/-- **Quoting is undone by the shell.**  A reader that comes upon a quoted text outside
quotes takes exactly its characters, all of them literally, is outside quotes again at
its end, and goes on with what follows.  So a command that is built in any steps from
sound arguments reads back as the words that these stand for, in order and none left
out; and commands with the same text have the same words. -/
theorem quoting_is_undone_by_the_shell :
    (∀ (reader : Reader) (text : String), reader.mode = .bare →
      ∃ after, reader.run (singleQuote text).toList = some after ∧
        after = { reader with word := some (reader.word.getD [] ++ literalWord text) } ∧
        after.mode = .bare ∧ wordText (literalWord text) = text ∧
        ∀ rest, reader.run ((singleQuote text).toList ++ rest) = after.run rest) ∧
    (∀ (start : Command) (steps : List Command.Step),
      (∀ arg ∈ start.args ++ steps.flatMap Command.Step.brought, arg.IsSound) →
      ∃ words, readCommand (start.build steps).text = some words ∧
        words = (start.args ++ steps.flatMap Command.Step.brought).map Arg.reading ∧
        words.map wordText =
          (start.args ++ steps.flatMap Command.Step.brought).map Arg.meaning) ∧
    ∀ command other : Command, (∀ arg ∈ command.args, arg.IsSound) →
      (∀ arg ∈ other.args, arg.IsSound) → command.text = other.text →
      command.reading = other.reading ∧
        command.args.map Arg.meaning = other.args.map Arg.meaning := by
  refine ⟨?_, ?_, ?_⟩
  · intro reader text hmode
    exact ⟨reader.extend (literalWord text), Reader.run_singleQuote_eq_some hmode text, rfl, hmode,
      wordText_reading (.quoted text), Reader.run_singleQuote_of_bare hmode text⟩
  · intro start steps hsound
    rw [← Command.args_build] at hsound ⊢
    exact ⟨_, readCommand_text hsound, rfl, map_wordText_reading _⟩
  · intro command other hcommand hother htext
    have hreading := reading_eq_of_text_eq hcommand hother htext
    refine ⟨hreading, ?_⟩
    rw [← map_wordText_reading, hreading, map_wordText_reading]

/-- Steps that bring an empty argument, nothing, and a value that begins with a quote and
ends in a backslash and a quote. -/
def quotingSteps : List Command.Step :=
  [.one (.quoted ""), .several [], .several [.assign "KEY" "'a\\'", .word "--force"]]

/-- The same arguments, all at once. -/
def quotingCommand : Command :=
  ⟨[.word "duplicity", .quoted "", .assign "KEY" "'a\\'", .word "--force"]⟩

/-- A reader in the middle of a word. -/
def midWordReader : Reader :=
  { word := some (bareWord "KEY="), words := [bareWord "duplicity", []] }

theorem quoting_of_quotingSteps_is_undone :
    midWordReader.mode = .bare ∧ singleQuote "'a\\'" = "''\\''a\\'\\'''" ∧
    (∃ after, midWordReader.run (singleQuote "'a\\'").toList = some after ∧
      after.word = some (bareWord "KEY=" ++ literalWord "'a\\'") ∧ after.mode = .bare ∧
      midWordReader.run ((singleQuote "'a\\'").toList ++ [' ']) = after.run [' ']) ∧
    (∀ arg ∈ (Command.ofWord "duplicity").args ++ quotingSteps.flatMap Command.Step.brought,
      arg.IsSound) ∧
    (∃ words, readCommand ((Command.ofWord "duplicity").build quotingSteps).text = some words ∧
      words.map wordText = ["duplicity", "", "KEY='a\\'", "--force"]) ∧
    (∀ arg ∈ quotingCommand.args, arg.IsSound) ∧
    ((Command.ofWord "duplicity").build quotingSteps).text = quotingCommand.text ∧
    ((Command.ofWord "duplicity").build quotingSteps).reading = quotingCommand.reading := by
  have hword : ∀ text, text ≠ "" → IsPlain text → (Arg.word text).IsSound :=
    fun _ hne hplain => ⟨hne, hplain⟩
  have hcommand : ∀ arg ∈ quotingCommand.args, arg.IsSound := by
    have hname : IsPlain "KEY" := by decide
    simp only [quotingCommand, List.forall_mem_cons]
    exact ⟨hword _ (by decide) (by decide), trivial, hname, hword _ (by decide) (by decide),
      by simp⟩
  have hbuilt : (Command.ofWord "duplicity").build quotingSteps = quotingCommand := rfl
  have hsteps : ∀ arg ∈ (Command.ofWord "duplicity").args ++
      quotingSteps.flatMap Command.Step.brought, arg.IsSound := hcommand
  have htext : ((Command.ofWord "duplicity").build quotingSteps).text = quotingCommand.text := by
    rw [hbuilt]
  obtain ⟨hread, hbuild, hone⟩ := quoting_is_undone_by_the_shell
  obtain ⟨after, hrun, hafter, hmode, -, hrest⟩ := hread midWordReader "'a\\'" rfl
  obtain ⟨words, hwords, -, hmeaning⟩ := hbuild (.ofWord "duplicity") quotingSteps hsteps
  have hbegun : after.word = some (bareWord "KEY=" ++ literalWord "'a\\'") := by
    rw [hafter]
    rfl
  refine ⟨rfl, by decide +kernel, ⟨after, hrun, hbegun, hmode, hrest [' ']⟩, hsteps,
    ⟨words, hwords, ?_⟩, hcommand, htext, (hone _ quotingCommand hcommand hcommand htext).1⟩
  rw [hmeaning]
  decide +kernel

end BackupPlan.Shell
