import BackupPlan.Proofs.Yaml.BareTexts
import BackupPlan.Proofs.Yaml.IndentedTexts
import BackupPlan.Proofs.Yaml.QuotedTexts

/-!
# Steps of a scan

Between two tokens of a printed document a scan stands at the beginning of a line, or behind
the colon or the dash in it.  A step reads the next token; what a step leaves open is settled
when the next token is due, so two states count as one where the scan goes on alike.
-/

namespace BackupPlan.Yaml.Scan

/-! ### States -/

/-- The scan where a key may begin. -/
def before (tokens : List Token) (indent : Int) (indents : List Int) (head : Head) : Scan :=
  { head, tokens, count := tokens.length, indent, indents }

/-- The scan behind the colon of a key. -/
def behindColon (tokens : List Token) (indent : Int) (indents : List Int) (head : Head) : Scan :=
  { before tokens indent indents head with mayBeginKey := false }

/-- The scan where the next token is due: in front of it, with the structures closed that do
not reach so far. -/
def ready (s : Scan) : Option Scan :=
  (toNext (s.head.rest.length + 1) s).dropStale.map fun s => s.unroll s.head.column

/-- A scan makes itself ready, and reads a token or ends. -/
theorem run_succ (fuel : Nat) (s : Scan) :
    run (fuel + 1) s = s.ready.bind fun s =>
      match s.head.next with
      | none => (s.unroll (-1)).noKey.map (·.tokens.reverse)
      | some c => (s.token c).bind (run fuel) := by
  rw [run, ready]
  cases (toNext (s.head.rest.length + 1) s).dropStale with
  | none => rfl
  | some s =>
      simp only [Option.map_some, Option.bind_some, Option.bind_eq_bind]
      cases (s.unroll s.head.column).head.next with
      | none => cases ((s.unroll s.head.column).unroll (-1)).noKey <;> rfl
      | some c => rfl

/-- One scan goes on as another that has read no less. -/
def Leads (s s' : Scan) : Prop :=
  ∃ n, n + s'.head.rest.length ≤ s.head.rest.length ∧
    ∀ fuel, run (fuel + 1 + n) s = run (fuel + 1) s'

namespace Leads

variable {s s' s'' : Scan}

/-- Steps follow one another. -/
theorem trans (h : Leads s s') (h' : Leads s' s'') : Leads s s'' := by
  obtain ⟨n, hn, hrun⟩ := h
  obtain ⟨n', hn', hrun'⟩ := h'
  refine ⟨n + n', by omega, fun fuel => ?_⟩
  have hfuel : fuel + 1 + (n + n') = fuel + n' + 1 + n := by omega
  have hfuel' : fuel + n' + 1 = fuel + 1 + n' := by omega
  rw [hfuel, hrun, hfuel', hrun']

/-- Scans that get ready alike go on alike. -/
theorem of_ready (h : s.ready = s'.ready) (hlength : s'.head.rest.length ≤ s.head.rest.length) :
    Leads s s' :=
  ⟨0, by omega, fun fuel => by rw [Nat.add_zero, run_succ, run_succ, h]⟩

/-- A token is read. -/
theorem of_token {c : Char} (hready : s.ready = some s') (hnext : s'.head.next = some c)
    (htoken : s'.token c = some s'')
    (hlength : s''.head.rest.length < s.head.rest.length) : Leads s s'' := by
  refine ⟨1, by omega, fun fuel => ?_⟩
  rw [run_succ, hready, Option.bind_some, hnext]
  simp [htoken]

end Leads

/-! ### The way to the next token -/

/-- The way goes over spaces to a token. -/
theorem toNext_spaces {fuel n : Nat} {s : Scan} {line : List Char}
    (hrest : s.head.rest = List.replicate n ' ' ++ line) (hline : BeginsToken line) :
    toNext (fuel + 1) s = { s with head := s.head.skip n } := by
  have hmark : s.head.sees '\uFEFF' = false := by
    rw [Head.sees, Head.next, hrest]
    cases n with
    | zero =>
        rw [beq_eq_false_iff_ne]
        intro hc
        exact (hline _ hc).2.2.2 rfl
    | succ n => rfl
  have htaken : s.head.rest.takeWhile
      (fun c => c == ' ' || (c == '\t' && (s.inFlow || !s.mayBeginKey))) =
        List.replicate n ' ' := by
    rw [hrest, List.takeWhile_append_of_pos (by simp [List.mem_replicate])]
    cases line with
    | nil => simp
    | cons c line =>
        have hblank := (hline c rfl).1
        simp only [isBlank, Bool.or_eq_false_iff] at hblank
        simp [hblank.1, hblank.2]
  have hnext : (s.head.skip n).next = line.head? := by simp [Head.next, hrest]
  have hhash : (s.head.skip n).sees '#' = false := by
    rw [Head.sees, hnext, beq_eq_false_iff_ne]
    intro hc
    exact (hline _ hc).2.2.1 rfl
  have hend : (line.head?.isSome && Head.isLineEnd line.head?) = false := by
    cases hc : line.head? with
    | none => rfl
    | some c => exact (hline c hc).2.1
  simp only [toNext, hmark, Bool.and_false, Bool.false_eq_true, if_false, Head.skipWhile, Head.span,
    htaken, List.length_replicate, hhash, hnext, hend]

/-- The way goes over the end of a line and an indentation to a token. -/
theorem toNext_nextLine {n : Nat} {s : Scan} {line : List Char} (houter : s.outer = [])
    (hrest : s.head.rest = nextLine n line) (hline : BeginsToken line) :
    ∃ h', h'.rest = line ∧ h'.column = n ∧
      toNext (s.head.rest.length + 1) s = { s with head := h', mayBeginKey := true } := by
  have hnext : s.head.next = some '\n' := by rw [Head.next, hrest]; rfl
  have htaken : s.head.rest.takeWhile
      (fun c => c == ' ' || (c == '\t' && (s.inFlow || !s.mayBeginKey))) = [] := by
    simp [hrest, nextLine]
  have hbreak : s.head.readBreak = (['\n'], s.head.newLine 1) :=
    Head.readBreak_of_isShown hrest rfl rfl
  have hspaces : (s.head.newLine 1).rest = List.replicate n ' ' ++ line := by
    simp [hrest, nextLine]
  obtain ⟨fuel, hfuel⟩ : ∃ k, s.head.rest.length = k + 1 := ⟨_, by rw [hrest]; rfl⟩
  refine ⟨(s.head.newLine 1).skip n, by rw [Head.rest_skip, hspaces]; simp, by simp, ?_⟩
  have hmark : s.head.sees '\uFEFF' = false := by rw [Head.sees, hnext]; rfl
  have hhash : s.head.sees '#' = false := by rw [Head.sees, hnext]; rfl
  have hskip : s.head.skip 0 = s.head := rfl
  have hend : (s.head.next.isSome && Head.isLineEnd s.head.next) = true := by rw [hnext]; rfl
  have hflow : (s.mayBeginKey || !s.inFlow) = true := by simp [inFlow, houter]
  rw [hfuel, toNext]
  simp only [hmark, Bool.and_false, Bool.false_eq_true, if_false, Head.skipWhile, Head.span,
    htaken, List.length_nil, hskip, hhash, hend, if_true, hbreak, hflow]
  rw [toNext_spaces hspaces hline]

/-! ### Getting ready -/

variable {tokens : List Token} {indent : Int} {indents : List Int} {head : Head}

/-- Nothing is closed for a token that is indented as far as the structure around. -/
theorem unroll_of_le {s : Scan} {column : Int} (h : s.indent ≤ column) : s.unroll column = s := by
  rw [unroll, closeTo, if_pos h]
  split <;> rfl

/-- For a token that is indented less, the structure around is closed. -/
theorem unroll_before {column : Int} {outer : Int} (h : column < indent) :
    (before tokens indent (outer :: indents) head).unroll column =
      (before (.blockEnd :: tokens) outer indents head).unroll column := by
  have hclose : ¬ indent ≤ column := by omega
  have hflow : ∀ s : Scan, s.outer = [] → s.inFlow = false := fun s hs => by simp [inFlow, hs]
  rw [unroll, unroll, hflow _ rfl, hflow _ rfl]
  simp [closeTo, before, hclose, put]

/-- Where no key is pending, none is given up. -/
theorem dropStale_eq {s : Scan} (hpending : s.pending = none) (houter : s.outer = []) :
    s.dropStale = some s := by
  cases s
  subst hpending houter
  rfl

/-- A scan without a pending key gets ready on the way to the next token. -/
theorem ready_eq {s s' : Scan} (h : toNext (s.head.rest.length + 1) s = s')
    (hpending : s'.pending = none) (houter : s'.outer = []) :
    s.ready = some (s'.unroll s'.head.column) := by
  rw [ready, h, dropStale_eq hpending houter]
  rfl

/-- A scan that stands in front of a token, keeps its key and has nothing to close is ready. -/
theorem ready_self {s : Scan} (hnext : toNext (s.head.rest.length + 1) s = s)
    (hkeep : s.dropStale = some s) (hreach : s.indent ≤ s.head.column) : s.ready = some s := by
  rw [ready, hnext, hkeep, Option.map_some, unroll_of_le hreach]

/-- In front of a token, a scan has only structures to close. -/
theorem ready_before (hline : BeginsToken head.rest) :
    (before tokens indent indents head).ready =
      some ((before tokens indent indents head).unroll head.column) :=
  ready_eq (@toNext_spaces _ 0 (before tokens indent indents head) head.rest rfl hline) rfl rfl

/-- Behind a colon and a space, a scan stands in front of the value. -/
theorem ready_behindColon {line : List Char} (hrest : head.rest = ' ' :: line)
    (hline : BeginsToken line) (hindent : indent ≤ head.column) :
    (behindColon tokens indent indents head).ready =
      some (behindColon tokens indent indents (head.skip 1)) := by
  have hnext := @toNext_spaces head.rest.length 1 (behindColon tokens indent indents head) line
    hrest hline
  rw [ready_eq hnext rfl rfl]
  exact congrArg some (unroll_of_le (by simp [behindColon, before]; omega))

/-- Behind a colon at the end of its line, a scan goes on with the next line. -/
theorem leads_nextLine {n : Nat} {line : List Char} (hrest : head.rest = nextLine n line)
    (hline : BeginsToken line) :
    ∃ h', h'.rest = line ∧ h'.column = n ∧
      Leads (behindColon tokens indent indents head) (before tokens indent indents h') := by
  obtain ⟨h', hrest', hcolumn, hnext⟩ :=
    @toNext_nextLine n (behindColon tokens indent indents head) line rfl hrest hline
  refine ⟨h', hrest', hcolumn, .of_ready ?_ ?_⟩
  · rw [ready_eq hnext rfl rfl, ready_before (hrest' ▸ hline)]
    rfl
  · show h'.rest.length ≤ head.rest.length
    simp only [hrest', hrest, nextLine, List.length_cons, List.length_append]
    omega

/-- Behind a dash and a space, a scan stands in front of the item. -/
theorem leads_space {line : List Char} (hrest : head.rest = ' ' :: line)
    (hline : BeginsToken line) :
    Leads (before tokens indent indents head) (before tokens indent indents (head.skip 1)) := by
  have hnext := @toNext_spaces head.rest.length 1 (before tokens indent indents head) line hrest
    hline
  have hrest' : (head.skip 1).rest = line := by simp [hrest]
  refine .of_ready ?_ (by simp [before])
  rw [ready_eq hnext rfl rfl, ready_before (hrest' ▸ hline)]
  rfl

/-- A structure that the next token is not indented enough for is closed. -/
theorem leads_blockEnd {outer : Int} (hline : BeginsToken head.rest) (h : head.column < indent) :
    Leads (before tokens indent (outer :: indents) head)
      (before (.blockEnd :: tokens) outer indents head) := by
  refine .of_ready ?_ (Nat.le_refl _)
  rw [ready_before hline, ready_before hline, unroll_before h]

/-! ### Texts -/

/-- A text that is written bare begins like one. -/
theorem token_eq_plainText {s : Scan} {text : String} {c : Char} {rest : List Char}
    (h : Style.IsPlain text) (houter : s.outer = []) (hcolumn : s.head.column ≠ 0)
    (hrest : s.head.rest = text.toList ++ rest) (hc : s.head.next = some c) :
    s.token c = s.plainText := by
  obtain ⟨c', more, hcs⟩ := List.exists_cons_of_ne_nil h.ne_nil
  obtain rfl : c = c' := by
    rw [Head.next, hrest, hcs] at hc
    exact (Option.some.inj hc).symm
  have hbegins := h.begins hcs
  have hflow : s.inFlow = false := by simp [inFlow, houter]
  have hmark : c = '?' ∨ c = ':' → Head.isGap (s.head.ahead 1) = false := by
    intro hmark
    obtain ⟨d, hd, hgap⟩ := hbegins.mark hmark
    have hahead : s.head.ahead 1 = some d := by
      rw [Head.ahead, hrest, hcs, List.cons_append, List.getElem?_cons_succ,
        ← List.head?_eq_getElem?, List.head?_append, hd]
      rfl
    rw [hahead, hgap]
  have hindicators : "#,[]\x7b\x7d&*!|>'\"%@`".toList =
      ['#', ',', '[', ']', '\x7b', '\x7d', '&', '*', '!', '|', '>', '\'', '"', '%', '@', '`'] := rfl
  have hother := hbegins.isIndicator
  rw [Style.isIndicator, hindicators] at hother
  simp only [List.contains_cons, List.contains_nil, Bool.or_eq_false_iff] at hother
  obtain ⟨hhash, hcomma, hopen, hclose, hbrace, hbraces, hand, hstar, hbang, hbar, hangle, hquote,
    hquotes, hpercent, hat, htick, -⟩ := hother
  have hdash : (c == '-') = false := beq_eq_false_iff_ne.mpr hbegins.sign.2.1
  have hmarks : (c == '?' && Head.isGap (s.head.ahead 1)) = false ∧
      (c == ':' && Head.isGap (s.head.ahead 1)) = false := by
    simp only [Bool.and_eq_false_imp, beq_iff_eq]
    exact ⟨fun h => hmark (.inl h), fun h => hmark (.inr h)⟩
  have hplain : beginsPlain false c (s.head.ahead 1) = true := by
    have hplainIndicators : ",[]\x7b\x7d#&*!|>'\"%@`".toList =
        [',', '[', ']', '\x7b', '\x7d', '#', '&', '*', '!', '|', '>', '\'', '"', '%', '@', '`'] :=
      rfl
    have hblank : isBlank c = false := (Bool.or_eq_false_iff.mp hbegins.isGap).1
    simp only [beginsPlain, hdash, hplainIndicators, List.contains_cons, List.contains_nil, hhash,
      hopen, hclose, hbrace, hbraces, hcomma, hand, hstar, hbang, hbar, hangle, hquote, hquotes,
      hpercent, hat, htick, hblank]
    by_cases h : c = '?' ∨ c = ':'
    · simp [h, hmark h]
    · simp [h]
  simp only [token, hflow, Head.atDocumentMark_eq_false hcolumn, hopen, hclose, hbrace, hbraces,
    hcomma, hand, hstar, hbang, hbar, hangle, hquote, hquotes, hpercent, hdash, hplain,
    Bool.and_false, Bool.false_and, Bool.false_or, Bool.or_false, Bool.false_eq_true, if_false,
    if_true, hmarks]

/-- A bare text that is no key adds its token. -/
theorem plainText_behindColon {cs : List Char} {begins : Bool} {h' : Head}
    (hread : Plain.read false (indent + 1).toNat (head.rest.length + 1) [] {} head =
      some (cs, begins, h')) :
    (behindColon tokens indent indents head).plainText =
      some { before (.scalar true (String.ofList cs) :: tokens) indent indents h' with
        mayBeginKey := begins } := by
  simp [plainText, behindColon, before, rememberKey, inFlow, hread, put]

variable {text : String} {n margin : Nat} {tail : List Char}

/-- A bare text behind a colon is read, up to the line below. -/
theorem leads_plain (hstyle : Style.ofText text = .plain) (hmargin : margin ≤ n)
    (htail : BeginsToken tail) (hcolumn : n < head.column)
    (hrest : head.rest = ' ' :: (text.toList ++ nextLine margin tail)) :
    ∃ h', h'.rest = tail ∧ h'.column = margin ∧
      Leads (behindColon tokens n indents head)
        (before (.scalar true text :: tokens) n indents h') := by
  have hplain := Style.isPlain_of_ofText hstyle
  obtain ⟨c, more, hcs⟩ := List.exists_cons_of_ne_nil hplain.ne_nil
  have hready := @ready_behindColon tokens n indents head _ hrest (hplain.beginsToken _) (by omega)
  have hrest' : (head.skip 1).rest = text.toList ++ nextLine margin tail := by simp [hrest]
  have hnext : (head.skip 1).next = some c := by rw [Head.next, hrest', hcs]; rfl
  have hends : Plain.EndsWord (nextLine margin tail) := .inl rfl
  have hcolumn' : (head.skip 1).column = head.column + 1 := rfl
  obtain ⟨left, hread⟩ := @Plain.read_plain text hplain (n + 1) _ hends (head.skip 1) hrest'
    (by omega) (by omega)
  obtain ⟨h', hline, hmargin', hbehind⟩ := @Plain.behindWord_nextLine (n + 1) left margin
    text.toList tail ((head.skip 1).skip text.toList.length)
    (by rw [Head.rest_skip, hrest', List.drop_left]) htail (by omega)
  refine ⟨h', hline, hmargin', .of_token hready hnext ?_ ?_⟩
  · have hbegin := @token_eq_plainText (behindColon tokens n indents (head.skip 1)) text c _ hplain
      rfl (Nat.succ_ne_zero _) hrest' hnext
    have hindent : ((n : Int) + 1).toNat = n + 1 := by omega
    rw [hbehind, ← hindent] at hread
    rw [hbegin, plainText_behindColon hread, String.ofList_toList]
    rfl
  · have hlength := congrArg List.length hrest
    simp [nextLine] at hlength
    show h'.rest.length < head.rest.length
    rw [hline, hlength]
    omega

/-- A quote begins a quoted text. -/
theorem token_quote {s : Scan} {quote : Char} (hquote : quote = '\'' ∨ quote = '"')
    (hcolumn : s.head.column ≠ 0) : s.token quote = s.putNode (quotedText quote) := by
  rcases hquote with rfl | rfl <;> simp [token, Head.atDocumentMark_eq_false hcolumn]

/-- A bar begins a text of several lines. -/
theorem token_bar {s : Scan} (houter : s.outer = []) (hcolumn : s.head.column ≠ 0) :
    s.token '|' = s.blockText false := by
  simp [token, Head.atDocumentMark_eq_false hcolumn, inFlow, houter]

/-- A quoted text behind a colon is read, up to the line below. -/
theorem leads_quoted {quote : Char} (hquote : quote = '\'' ∨ quote = '"')
    (htail : BeginsToken tail) (hindent : indent ≤ head.column) {written body : List Char}
    (hwritten : written = quote :: (body ++ [quote]))
    (hrest : head.rest = ' ' :: (written ++ closing written ++ (List.replicate margin ' ' ++ tail)))
    (hread : ∀ {rest : List Char}, rest.head? ≠ some quote → ∀ {h : Head},
      h.rest = written ++ rest →
        ∃ h', h'.rest = rest ∧ quotedText quote h = some (.scalar false text, h')) :
    ∃ h', h'.rest = tail ∧ h'.column = margin ∧
      Leads (behindColon tokens indent indents head)
        (before (.scalar false text :: tokens) indent indents h') := by
  have hplain : isBreak quote = false ∧ quote ≠ '\n' ∧
      (isBlank quote = false ∧ isBreak quote = false ∧ quote ≠ '#' ∧ quote ≠ '\uFEFF') := by
    rcases hquote with rfl | rfl <;> decide
  have hclosing : closing written = ['\n'] := by
    refine @closing_of_getLast? _ quote ?_ hplain.1
    rw [hwritten, List.getLast?_cons, List.getLast?_concat]
    rfl
  have hline : head.rest = ' ' :: (written ++ nextLine margin tail) := by
    simp [hrest, hclosing, nextLine]
  have hbegins : BeginsToken (written ++ nextLine margin tail) := by
    rw [hwritten]
    rintro c ⟨⟩
    exact hplain.2.2
  have hready := @ready_behindColon tokens indent indents head _ hline hbegins hindent
  have hnext : (head.skip 1).next = some quote := by
    rw [Head.next, Head.rest_skip, hline, hwritten]
    rfl
  obtain ⟨closed, hclosed, htoken⟩ := @hread (nextLine margin tail)
    (fun h => hplain.2.1 (Option.some.inj h).symm) (head.skip 1) (by simp [hline])
  obtain ⟨h', hrest', hcolumn', hleads⟩ :=
    @leads_nextLine (.scalar false text :: tokens) indent indents closed margin tail hclosed htail
  refine ⟨h', hrest', hcolumn', .trans (.of_token hready hnext ?_ ?_) hleads⟩
  · rw [token_quote hquote (Nat.succ_ne_zero _), putNode]
    simp [behindColon, before, rememberKey, htoken, put]
  · show closed.rest.length < head.rest.length
    rw [hline, hclosed]
    simp only [List.length_cons, List.length_append]
    omega

/-- A text of several lines behind a colon is read, up to the line below. -/
theorem leads_literal (hstyle : Style.ofText text = .literal) (hmargin : margin ≤ n)
    (htail : BeginsToken tail) (hcolumn : n ≤ head.column)
    (hrest : head.rest = ' ' :: '|' :: ((literalHints text.toList).toList ++ '\n' ::
      (indented (n + 2) true text.toList ++ closing text.toList ++
        (List.replicate margin ' ' ++ tail)))) :
    ∃ h', h'.rest = tail ∧ h'.column = margin ∧
      Leads (behindColon tokens n indents head)
        (before (.scalar false text :: tokens) n indents h') := by
  have hline : BeginsToken ('|' :: ((literalHints text.toList).toList ++ '\n' ::
      (indented (n + 2) true text.toList ++ closing text.toList ++
        (List.replicate margin ' ' ++ tail)))) := by
    rintro c ⟨⟩
    decide
  have hready := @ready_behindColon tokens n indents head _ hrest hline (by omega)
  have hnext : (head.skip 1).next = some '|' := by simp [Head.next, hrest]
  obtain ⟨h', hrest', hcolumn', hread⟩ := @Block.read_literal text hstyle n margin tail
    ((head.skip 1).skip 1) hmargin htail (by simp [hrest])
  refine ⟨h', hrest', hcolumn', .of_token hready hnext ?_ ?_⟩
  · rw [token_bar rfl (Nat.succ_ne_zero _), blockText]
    simp [behindColon, before, noKey, giveUp, hread, put]
  · show h'.rest.length < head.rest.length
    rw [hrest, hrest']
    simp
    omega

/-- **A text behind a colon is read back**, up to the line below. -/
theorem leads_text (text : String) (hmargin : margin ≤ n) (htail : BeginsToken tail)
    (hcolumn : n < head.column)
    (hrest : head.rest = ' ' :: ((writtenText (n + 2) text).toList ++
      closing (writtenText (n + 2) text).toList ++ (List.replicate margin ' ' ++ tail))) :
    ∃ h', h'.rest = tail ∧ h'.column = margin ∧
      Leads (behindColon tokens n indents head)
        (before (.scalar (Style.ofText text == .plain) text :: tokens) n indents h') := by
  cases hstyle : Style.ofText text with
  | plain =>
      have hplain := Style.isPlain_of_ofText hstyle
      have hclosing : closing text.toList = ['\n'] := by
        obtain ⟨c, hc⟩ := Option.ne_none_iff_exists'.mp
          (mt List.getLast?_eq_none_iff.mp hplain.ne_nil)
        exact closing_of_getLast? hc (hplain.unbroken c (List.mem_of_getLast? hc))
      simp only [writtenText, hstyle, hclosing] at hrest
      exact leads_plain hstyle hmargin htail hcolumn (by simp [hrest, nextLine])
  | singleQuoted =>
      simp only [writtenText, hstyle] at hrest
      exact leads_quoted (.inl rfl) htail (by omega) (Quoted.toList_singleQuoted _ _) hrest
        (quotedText_singleQuoted hstyle (Nat.succ_pos _))
  | doubleQuoted =>
      simp only [writtenText, hstyle] at hrest
      exact leads_quoted (.inr rfl) htail (by omega) (Quoted.toList_doubleQuoted 1 _) hrest
        (quotedText_doubleQuoted text)
  | literal =>
      have hlines : indented (n + 2) true text.toList ≠ [] := by
        intro hnil
        have hlast := @getLast?_indented (n + 2) true text.toList
        rw [hnil, List.getLast?_nil] at hlast
        exact (Style.shown_of_literal hstyle).1 (List.getLast?_eq_none_iff.mp hlast.symm)
      have hclosing : closing (indented (n + 2) true text.toList) = closing text.toList := by
        rw [closing, closing, getLast?_indented]
      simp only [writtenText, hstyle, String.toList_append, String.toList_ofList,
        closing_append hlines, hclosing] at hrest
      exact leads_literal hstyle hmargin htail (by omega) (by simp [hrest])

/-! ### Keys -/

/-- The scan behind a text that may turn out to be a key, with the place where it began. -/
def behindKey (tokens : List Token) (indent : Int) (indents : List Int) (start head : Head)
    (name : String) : Scan :=
  { before (.scalar true name :: tokens) indent indents head with
    mayBeginKey := false
    pending := some ⟨indent == start.column, tokens.length, start⟩ }

/-- A bare text where a key may begin is remembered as one. -/
theorem plainText_before {cs : List Char} {h' : Head}
    (hread : Plain.read false (indent + 1).toNat (head.rest.length + 1) [] {} head =
      some (cs, false, h')) :
    (before tokens indent indents head).plainText =
      some (behindKey tokens indent indents head h' (String.ofList cs)) := by
  simp [plainText, behindKey, before, rememberKey, giveUp, inFlow, hread, put]

/-- A key that is not too long is still remembered behind it. -/
theorem ready_behindKey {name : String} {after : List Char} {length : Nat}
    (hindent : indent ≤ head.column) (hshort : length ≤ 1024)
    (hrest : (head.skip length).rest = ':' :: after) :
    (behindKey tokens indent indents head (head.skip length) name).ready =
      some (behindKey tokens indent indents head (head.skip length) name) := by
  have hline : BeginsToken (head.skip length).rest := by
    rw [hrest]
    rintro c ⟨⟩
    decide
  have hnext : toNext ((head.skip length).rest.length + 1)
      (behindKey tokens indent indents head (head.skip length) name) =
        behindKey tokens indent indents head (head.skip length) name :=
    @toNext_spaces _ 0 (behindKey tokens indent indents head (head.skip length) name) _ rfl hline
  have hfresh : ¬ head.index + 1024 < head.index + length := by omega
  have hkeep : (behindKey tokens indent indents head (head.skip length) name).dropStale =
      some (behindKey tokens indent indents head (head.skip length) name) := by
    simp [dropStale, behindKey, before, isStale, hfresh]
  have hreach : indent ≤ ((head.skip length).column : Int) := by
    rw [Head.column_skip]
    omega
  exact ready_self hnext hkeep hreach

/-- A colon behind a key and in front of a gap makes the key one. -/
theorem token_colon {s : Scan} (hcolumn : s.head.column ≠ 0)
    (hgap : Head.isGap (s.head.ahead 1) = true) : s.token ':' = s.keyValue := by
  simp [token, Head.atDocumentMark_eq_false hcolumn, hgap]

/-- The colon puts the token of the key in front of it, and opens a table if the key is indented
more than the structure around. -/
theorem keyValue_behindKey {start : Head} {name : String} (hindent : indent ≤ start.column) :
    (behindKey tokens indent indents start head name).keyValue =
      some (behindColon (.value :: .scalar true name :: .key ::
          (if indent < start.column then .blockMappingStart :: tokens else tokens))
        start.column (if indent < start.column then indent :: indents else indents)
        (head.skip 1)) := by
  by_cases hlt : indent < start.column
  · have hnot : ¬ (start.column : Int) ≤ indent := by omega
    have hlater : tokens.length + 1 + 1 - tokens.length = 2 := by omega
    simp [keyValue, behindKey, behindColon, before, insert, roll, inFlow, putSkip, put, hlt, hnot,
      hlater]
  · have heq : indent = start.column := by omega
    simp [keyValue, behindKey, behindColon, before, insert, roll, inFlow, putSkip, put, heq]

/-- **A key is read**, with the colon behind it. -/
theorem leads_key {name : String} {after : List Char} (hplain : Style.IsPlain name)
    (hshort : name.toList.length ≤ 1024) (hafter : Head.isGap after.head? = true)
    (hcolumn : head.column ≠ 0) (hindent : indent ≤ head.column)
    (hrest : head.rest = name.toList ++ ':' :: after) :
    ∃ h', h'.rest = after ∧ head.column < h'.column ∧
      Leads (before tokens indent indents head)
        (behindColon (.value :: .scalar true name :: .key ::
            (if indent < head.column then .blockMappingStart :: tokens else tokens))
          head.column (if indent < head.column then indent :: indents else indents) h') := by
  obtain ⟨c, more, hcs⟩ := List.exists_cons_of_ne_nil hplain.ne_nil
  have hready := @ready_before tokens indent indents head (hrest ▸ hplain.beginsToken _)
  rw [unroll_of_le hindent] at hready
  have hnext : head.next = some c := by rw [Head.next, hrest, hcs]; rfl
  have hends : Plain.EndsWord (':' :: after) := .inr ⟨after, rfl, hafter⟩
  have hreach : (indent + 1).toNat ≤ head.column + 1 := by omega
  obtain ⟨left, hread⟩ := Plain.read_plain hplain hends hrest hcolumn hreach
  have hcolon : (head.skip name.toList.length).rest = ':' :: after := by
    rw [Head.rest_skip, hrest, List.drop_left]
  rw [Plain.behindWord_colon hcolon] at hread
  have hlength : 0 < name.toList.length := List.length_pos_of_ne_nil hplain.ne_nil
  have hahead : (head.skip name.toList.length).ahead 1 = after.head? := by
    rw [Head.ahead, hcolon, List.getElem?_cons_succ, List.head?_eq_getElem?]
  refine ⟨(head.skip name.toList.length).skip 1, by rw [Head.rest_skip, hcolon]; rfl,
    by simp only [Head.column_skip]; omega, ?_⟩
  have hname : Leads (before tokens indent indents head)
      (behindKey tokens indent indents head (head.skip name.toList.length) name) := by
    refine .of_token hready hnext ?_ ?_
    · have hbegin := @token_eq_plainText (before tokens indent indents head) name c _ hplain rfl
        hcolumn hrest hnext
      rw [hbegin, plainText_before hread, String.ofList_toList]
    · show (head.skip name.toList.length).rest.length < head.rest.length
      rw [hcolon, hrest, List.length_append]
      omega
  have hsees : (head.skip name.toList.length).next = some ':' := by rw [Head.next, hcolon]; rfl
  refine hname.trans (.of_token (ready_behindKey hindent hshort hcolon) hsees ?_ ?_)
  · rw [token_colon (by simp only [behindKey, before, Head.column_skip]; omega)
      (hahead ▸ hafter), keyValue_behindKey hindent]
  · show ((head.skip name.toList.length).skip 1).rest.length <
      (head.skip name.toList.length).rest.length
    rw [Head.rest_skip _ 1, hcolon]
    simp

/-! ### Items -/

/-- A dash opens a list if it is indented more than the structure around. -/
theorem entry_before (hindent : indent ≤ head.column) :
    (before tokens indent indents head).entry =
      some (before (.blockEntry ::
          (if indent < head.column then .blockSequenceStart :: tokens else tokens))
        head.column (if indent < head.column then indent :: indents else indents)
        (head.skip 1)) := by
  by_cases hlt : indent < head.column
  · have hnot : ¬ (head.column : Int) ≤ indent := by omega
    simp [entry, openBlock, before, insert, roll, inFlow, noKey, giveUp, putSkip, put, hlt, hnot]
  · have heq : indent = head.column := by omega
    simp [entry, openBlock, before, roll, inFlow, noKey, giveUp, putSkip, put, heq]

/-- **A dash is read**, with the space behind it. -/
theorem leads_entry {line : List Char} (hindent : indent ≤ head.column)
    (hrest : head.rest = '-' :: ' ' :: line) (hline : BeginsToken line) :
    ∃ h', h'.rest = line ∧ h'.column = head.column + 2 ∧
      Leads (before tokens indent indents head)
        (before (.blockEntry ::
            (if indent < head.column then .blockSequenceStart :: tokens else tokens))
          head.column (if indent < head.column then indent :: indents else indents) h') := by
  have hbegins : BeginsToken head.rest := by
    rw [hrest]
    rintro c ⟨⟩
    decide
  have hready := @ready_before tokens indent indents head hbegins
  rw [unroll_of_le hindent] at hready
  have hnext : head.next = some '-' := by rw [Head.next, hrest]; rfl
  have hahead : head.ahead 1 = some ' ' := by rw [Head.ahead, hrest]; rfl
  have hmark : head.atDocumentMark = false := by simp [Head.atDocumentMark, hrest]
  have hgap : Head.isGap (some ' ') = true := rfl
  have hspace : (head.skip 1).rest = ' ' :: line := by simp [hrest]
  refine ⟨(head.skip 1).skip 1, by rw [Head.rest_skip, hspace]; rfl, rfl,
    .trans (.of_token hready hnext ?_ ?_) (leads_space hspace hline)⟩
  · rw [← entry_before hindent]
    simp [token, before, hmark, hahead, hgap]
  · show (head.skip 1).rest.length < head.rest.length
    rw [hspace, hrest]
    simp

/-- At the end of the document its list is closed. -/
theorem run_end (fuel : Nat) (hrest : head.rest = []) (hcolumn : head.column = 0) :
    run (fuel + 1) (before tokens 0 [-1] head) = some (.blockEnd :: tokens).reverse := by
  have hline : BeginsToken head.rest := by
    rw [hrest]
    rintro c ⟨⟩
  have hreach : (before tokens 0 [-1] head).unroll head.column = before tokens 0 [-1] head :=
    unroll_of_le (by rw [hcolumn]; exact Int.le_refl 0)
  have hnext : (before tokens 0 [-1] head).head.next = none := by
    show head.rest.head? = none
    rw [hrest]
    rfl
  have hclose : (before tokens 0 [-1] head).unroll (-1) =
      before (.blockEnd :: tokens) (-1) [] head := by
    rw [unroll_before (by decide)]
    exact unroll_of_le (Int.le_refl _)
  rw [run_succ, ready_before hline, hreach, Option.bind_some, hnext]
  simp only [hclose]
  rfl

end BackupPlan.Yaml.Scan
