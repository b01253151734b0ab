import BackupPlan.Proofs.Shell.Reader

/-!
# Rendered commands read back

What `Arg.text`, `Command.text` and `Chain.text` write, the reader reads back:
an argument as the word it stands for, a command as its arguments, a chain as
its commands.  Quoted data may hold any character.  A bare word must not be
empty and must keep to plain characters, which is what `Arg.IsSound` asks for.

* `Reader.run_singleQuote` — quoting is undone in any context;
* `Reader.run_command`, `Reader.run_chain` — arguments and commands stay apart;
* `readLines_chains` — a text of chains, one a line, reads back as those chains.
-/

namespace BackupPlan.Shell

/-- Every character of a text stands for itself outside quotes. -/
def IsPlain (text : String) : Prop :=
  ∀ c ∈ text.toList, kind c = .plain

instance (text : String) : Decidable (IsPlain text) :=
  List.decidableBAll (kind · = .plain) text.toList

/-- The word that an argument stands for. -/
def Arg.reading : Arg → Word
  | word text => bareWord text
  | quoted text => literalWord text
  | assign name value => bareWord (name ++ "=") ++ literalWord value

/-- The text that an argument hands to a program. -/
def Arg.meaning : Arg → String
  | word text => text
  | quoted text => text
  | assign name value => name ++ "=" ++ value

/-- What is bare in an argument can stand bare. -/
def Arg.IsSound : Arg → Prop
  | word text => text ≠ "" ∧ IsPlain text
  | quoted _ => True
  | assign name _ => IsPlain name

/-- A command has a word, and its arguments are sound. -/
def Command.IsSound (command : Command) : Prop :=
  command.args ≠ [] ∧ ∀ arg ∈ command.args, arg.IsSound

/-- A chain has a command, and its commands are sound. -/
def Chain.IsSound (chain : Chain) : Prop :=
  chain.commands ≠ [] ∧ ∀ command ∈ chain.commands, command.IsSound

/-- The words of a command. -/
def Command.reading (command : Command) : List Word :=
  command.args.map Arg.reading

/-- The commands of a chain, each as its words. -/
def Chain.reading (chain : Chain) : List (List Word) :=
  chain.commands.map Command.reading

/-- The text of the word of an argument is its meaning. -/
@[simp] theorem wordText_reading (arg : Arg) : wordText arg.reading = arg.meaning := by
  cases arg <;>
    simp [Arg.reading, Arg.meaning, wordText, bareWord, literalWord, Function.comp_def,
      String.append_assoc]

/-- Plain texts are plain together. -/
theorem IsPlain.append {s t : String} (hs : IsPlain s) (ht : IsPlain t) : IsPlain (s ++ t) := by
  intro c hc
  rcases List.mem_append.mp (by simpa using hc) with h | h
  · exact hs c h
  · exact ht c h

namespace Reader

variable (words : List Word) (commands : List (List Word)) (lines : List (List (List Word)))

/-! ### Words -/

/-- Plain characters lengthen a word as they are. -/
theorem run_plain (word : Option Word) {c : Char} {cs : List Char}
    (h : ∀ d ∈ c :: cs, kind d = .plain) (rest : List Char) :
    run ⟨.bare, word, words, commands, lines⟩ (c :: cs ++ rest) =
      run ⟨.bare, some (word.getD [] ++ (c :: cs).map (⟨·, false⟩)), words, commands, lines⟩
        rest := by
  induction cs generalizing c word with
  | nil =>
      have hc : kind c = .plain := h c List.mem_cons_self
      simp [run, step, extend, hc]
  | cons d cs ih =>
      have hc : kind c = .plain := h c List.mem_cons_self
      have htail := ih (some (word.getD [] ++ [⟨c, false⟩]))
        (fun e he => h e (List.mem_cons_of_mem c he))
      simpa [run, step, extend, hc] using htail

/-- A bare text that is not empty reads as its characters. -/
theorem run_bareWord (word : Option Word) {text : String} (hne : text ≠ "")
    (hplain : IsPlain text) (rest : List Char) :
    run ⟨.bare, word, words, commands, lines⟩ (text.toList ++ rest) =
      run ⟨.bare, some (word.getD [] ++ bareWord text), words, commands, lines⟩ rest := by
  unfold IsPlain at hplain
  unfold bareWord
  cases htext : text.toList with
  | nil => exact absurd (String.toList_eq_nil_iff.mp htext) hne
  | cons c cs => exact run_plain words commands lines word (htext ▸ hplain) rest

/-- Between quotes the reader takes every character literally.  A quote of the
text is written as four characters, which leave the reader where it was but for
one more literal quote. -/
theorem run_quotedChars (word : Word) (cs rest : List Char) :
    run ⟨.quoted, some word, words, commands, lines⟩ (cs.flatMap quotedChar ++ '\'' :: rest) =
      run ⟨.bare, some (word ++ cs.map (⟨·, true⟩)), words, commands, lines⟩ rest := by
  induction cs generalizing word with
  | nil => simp [run, step]
  | cons c cs ih =>
      have htail := ih (word ++ [⟨c, true⟩])
      by_cases hc : c = '\''
      · -- The quote closes, stands escaped and opens again, so the reader leaves and returns.
        subst hc
        have hquote : kind '\'' = .quote := by decide
        have hescape : kind '\\' = .escape := by decide
        simpa [quotedChar, run, step, extend, hquote, hescape] using htail
      · simpa [quotedChar, run, step, extend, hc] using htail

/-- **Quoting is undone in any context**: from outside quotes, the reader takes a
quoted text as exactly its characters and is outside quotes again. -/
theorem run_singleQuote (word : Option Word) (text : String) (rest : List Char) :
    run ⟨.bare, word, words, commands, lines⟩ ((singleQuote text).toList ++ rest) =
      run ⟨.bare, some (word.getD [] ++ literalWord text), words, commands, lines⟩ rest := by
  have hquote : kind '\'' = .quote := by decide
  have hinner := run_quotedChars words commands lines (word.getD []) text.toList rest
  simpa [singleQuote, literalWord, run, step, extend, hquote] using hinner

/-- A sound argument reads as the word it stands for. -/
theorem run_arg {arg : Arg} (h : arg.IsSound) (rest : List Char) :
    run ⟨.bare, none, words, commands, lines⟩ (arg.text.toList ++ rest) =
      run ⟨.bare, some arg.reading, words, commands, lines⟩ rest := by
  cases arg with
  | word text =>
      simpa [Arg.text, Arg.reading] using run_bareWord words commands lines none h.1 h.2 rest
  | quoted text =>
      simpa [Arg.text, Arg.reading] using run_singleQuote words commands lines none text rest
  | assign name value =>
      have hplain : IsPlain (name ++ "=") :=
        IsPlain.append h (by decide)
      have hname := run_bareWord words commands lines none (by simp) hplain
        ((singleQuote value).toList ++ rest)
      have hvalue := run_singleQuote words commands lines (some (bareWord (name ++ "="))) value rest
      simpa [Arg.text, Arg.reading] using hname.trans (by simpa using hvalue)

/-! ### Commands and lines -/

/-- A gap ends a word. -/
theorem run_gap (word : Word) (rest : List Char) :
    run ⟨.bare, some word, words, commands, lines⟩ (' ' :: rest) =
      run ⟨.bare, none, words ++ [word], commands, lines⟩ rest := by
  have hblank : kind ' ' = .blank := by decide
  simp [run, step, endWord, hblank]

/-- The words of a command are read one after another; the last one is still open
when the command ends. -/
theorem run_args {arg : Arg} {args : List Arg} (h : ∀ a ∈ arg :: args, a.IsSound)
    (rest : List Char) :
    ∃ before last, before ++ [last] = words ++ (arg :: args).map Arg.reading ∧
      run ⟨.bare, none, words, commands, lines⟩
        ((" ".intercalate ((arg :: args).map Arg.text)).toList ++ rest) =
      run ⟨.bare, some last, before, commands, lines⟩ rest := by
  induction args generalizing arg words with
  | nil =>
      refine ⟨words, arg.reading, rfl, ?_⟩
      simpa using run_arg words commands lines (h arg List.mem_cons_self) rest
  | cons next args ih =>
      let texts := " ".intercalate ((next :: args).map Arg.text)
      obtain ⟨before, last, hwords, hrun⟩ := ih (words ++ [arg.reading])
        (fun a ha => h a (List.mem_cons_of_mem arg ha))
      refine ⟨before, last, by simpa using hwords, ?_⟩
      have hfirst := run_arg words commands lines (h arg List.mem_cons_self)
        (' ' :: (texts.toList ++ rest))
      have hgap := run_gap words commands lines arg.reading (texts.toList ++ rest)
      simpa [texts] using hfirst.trans (hgap.trans hrun)

/-- The operator between two commands ends the first of them. -/
theorem run_andThen (before : List Word) (last : Word) (rest : List Char) :
    run ⟨.bare, some last, before, commands, lines⟩ (" && ".toList ++ rest) =
      run ⟨.bare, none, [], commands ++ [before ++ [last]], lines⟩ rest := by
  have hblank : kind ' ' = .blank := by decide
  have hand : kind '&' = .ampersand := by decide
  simp [run, step, endWord, endCommand, hblank, hand]

/-- A line feed ends a command and its line. -/
theorem run_newline (before : List Word) (last : Word) (rest : List Char) :
    run ⟨.bare, some last, before, commands, lines⟩ ('\n' :: rest) =
      run ⟨.bare, none, [], [], lines ++ [commands ++ [before ++ [last]]]⟩ rest := by
  have hnewline : kind '\n' = .newline := by decide
  simp [run, step, endWord, endCommand, endLine, hnewline]

/-- A sound command reads as its words. -/
theorem run_command {command : Command} (h : command.IsSound) (rest : List Char) :
    ∃ before last, before ++ [last] = command.reading ∧
      run ⟨.bare, none, [], commands, lines⟩ (command.text.toList ++ rest) =
        run ⟨.bare, some last, before, commands, lines⟩ rest := by
  obtain ⟨args⟩ := command
  cases args with
  | nil => exact absurd rfl h.1
  | cons arg args =>
      simpa [Command.reading, Command.text] using run_args [] commands lines h.2 rest

/-- The commands of a chain are read one after another; the last one is still open
when the chain ends. -/
theorem run_commands {command : Command} {rest : List Command}
    (h : ∀ c ∈ command :: rest, c.IsSound) (tail : List Char) :
    ∃ done before last,
      done ++ [before ++ [last]] = commands ++ (command :: rest).map Command.reading ∧
      run ⟨.bare, none, [], commands, lines⟩
        ((" && ".intercalate ((command :: rest).map Command.text)).toList ++ tail) =
      run ⟨.bare, some last, before, done, lines⟩ tail := by
  induction rest generalizing command commands with
  | nil =>
      obtain ⟨before, last, hwords, hrun⟩ :=
        run_command commands lines (h command List.mem_cons_self) tail
      exact ⟨commands, before, last, by simp [hwords], by simpa using hrun⟩
  | cons next rest ih =>
      let texts := " && ".intercalate ((next :: rest).map Command.text)
      obtain ⟨before, last, hwords, hfirst⟩ := run_command commands lines
        (h command List.mem_cons_self) (" && ".toList ++ (texts.toList ++ tail))
      obtain ⟨done, before', last', hcommands, hrun⟩ := ih (commands ++ [command.reading])
        (fun c hc => h c (List.mem_cons_of_mem command hc))
      refine ⟨done, before', last', by simpa using hcommands, ?_⟩
      have hand := run_andThen commands lines before last (texts.toList ++ tail)
      rw [hwords] at hand
      simpa [texts] using hfirst.trans (hand.trans hrun)

/-- A sound chain on a line of its own reads as its commands. -/
theorem run_line {chain : Chain} (h : chain.IsSound) (rest : List Char) :
    run ⟨.bare, none, [], [], lines⟩ (chain.text.toList ++ '\n' :: rest) =
      run ⟨.bare, none, [], [], lines ++ [chain.reading]⟩ rest := by
  obtain ⟨cs⟩ := chain
  cases cs with
  | nil => exact absurd rfl h.1
  | cons command cs =>
      obtain ⟨done, before, last, hcommands, hrun⟩ := run_commands [] lines h.2 ('\n' :: rest)
      have hline : done ++ [before ++ [last]] = Chain.reading ⟨command :: cs⟩ := by
        simpa [Chain.reading] using hcommands
      rw [Chain.text, hrun, run_newline, hline]

/-- Sound chains, one a line, read as themselves. -/
theorem run_lines {chains : List Chain} (h : ∀ chain ∈ chains, chain.IsSound) :
    run ⟨.bare, none, [], [], lines⟩ (chains.flatMap fun chain => chain.text.toList ++ ['\n']) =
      some ⟨.bare, none, [], [], lines ++ chains.map Chain.reading⟩ := by
  induction chains generalizing lines with
  | nil => simp [run]
  | cons chain chains ih =>
      have hrest := ih (lines ++ [chain.reading])
        (fun c hc => h c (List.mem_cons_of_mem chain hc))
      simpa [run_line lines (h chain List.mem_cons_self)] using hrest

end Reader

/-! ### Texts -/

/-- Lines with line feeds between them and one at the end. -/
theorem toList_intercalate_newline {first : String} {rest : List String} :
    ("\n".intercalate (first :: rest) ++ "\n").toList =
      (first :: rest).flatMap fun line => line.toList ++ ['\n'] := by
  induction rest generalizing first with
  | nil => simp
  | cons next rest ih =>
      have htail := @ih next
      simp only [String.toList_append] at htail ⊢
      rw [String.intercalate_cons_cons]
      simp [List.flatMap_cons, ← htail]

/-- **A text of sound chains, one a line, reads back as those chains.** -/
theorem readLines_chains {chains : List Chain} (hne : chains ≠ [])
    (h : ∀ chain ∈ chains, chain.IsSound) :
    readLines ("\n".intercalate (chains.map Chain.text) ++ "\n") =
      some (chains.map Chain.reading) := by
  have htext : ("\n".intercalate (chains.map Chain.text) ++ "\n").toList =
      chains.flatMap fun chain => chain.text.toList ++ ['\n'] := by
    cases chains with
    | nil => exact absurd rfl hne
    | cons chain chains =>
        rw [List.map_cons, toList_intercalate_newline, ← List.map_cons, List.flatMap_map]
  have hrun := Reader.run_lines [] h
  rw [readLines, htext, hrun]
  simp [Reader.finish, Reader.endLine, Reader.endWord]

/-- A sound command alone reads back as one line of one command. -/
theorem readLines_command {command : Command} (h : command.IsSound) :
    readLines command.text = some [[command.reading]] := by
  obtain ⟨before, last, hwords, hrun⟩ := Reader.run_command [] [] h []
  have hread : Reader.run {} command.text.toList =
      Reader.run ⟨.bare, some last, before, [], []⟩ [] := by
    simpa using hrun
  rw [readLines, hread, ← hwords]
  simp [Reader.run, Reader.finish, Reader.endLine, Reader.endCommand, Reader.endWord]

/-! ### Commands as a shell runs them -/

/-- A name without an equals sign is cut off at the first one. -/
theorem cutAssignment_bareWord {name : List Char} (h : '=' ∉ name) (value : Word) :
    cutAssignment (name.map (⟨·, false⟩) ++ ⟨'=', false⟩ :: value) = some (name, value) := by
  induction name with
  | nil => simp [cutAssignment]
  | cons c name ih =>
      have hc : c ≠ '=' := fun heq => h (heq ▸ List.mem_cons_self)
      have htail := ih (fun hmem => h (List.mem_cons_of_mem c hmem))
      simp [cutAssignment, hc, htail]

/-- No variable name has an equals sign. -/
theorem equals_not_mem_variableName {name : List Char} (h : isVariableName name = true) :
    '=' ∉ name := by
  intro hmem
  cases name with
  | nil => cases hmem
  | cons c rest =>
      simp only [isVariableName, Bool.and_eq_true, List.all_eq_true] at h
      rcases List.mem_cons.mp hmem with rfl | hrest
      · exact absurd h.1 (by decide)
      · exact absurd (h.2 '=' hrest) (by decide)

/-- A command of one assignment sets one variable and runs nothing. -/
theorem Invocation.ofWords_assign {name : String} (h : isVariableName name.toList = true)
    (value : String) :
    Invocation.ofWords (Command.ofArg (.assign name value)).reading =
      { assignments := [(name, value)] } := by
  have hword : assignment? (Arg.assign name value).reading = some (name, value) := by
    have hcut := cutAssignment_bareWord (equals_not_mem_variableName h) (literalWord value)
    have hvalue : wordText (literalWord value) = value := wordText_reading (.quoted value)
    simp only [Arg.reading, bareWord, String.toList_append, List.map_append, List.append_assoc]
    simp [assignment?, hcut, h, hvalue]
  simp [Command.ofArg, Command.reading, Invocation.ofWords, hword]

/-- A command that begins with its program hands each argument to it. -/
theorem Invocation.ofWords_program {program : String} {args : List Arg}
    (h : assignment? (bareWord program) = none) :
    Invocation.ofWords (Command.reading ⟨.word program :: args⟩) =
      { argv := program :: args.map Arg.meaning } := by
  have hfirst : (Arg.word program).reading = bareWord program := rfl
  have hprogram : wordText (bareWord program) = program := wordText_reading (.word program)
  simp [Command.reading, Invocation.ofWords, hfirst, h, hprogram]

end BackupPlan.Shell
