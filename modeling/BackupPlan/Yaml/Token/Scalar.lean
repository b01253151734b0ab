import BackupPlan.Yaml.Token.Basic

/-!
# Texts in a YAML document

A text stands bare, between quotes, or indented behind a bar or an angle.  Where
a bare or quoted text goes over several lines, a single line break counts as a
blank, and of several the first counts for nothing.
-/

namespace BackupPlan.Yaml

/-- Blanks and line breaks within a text. -/
structure Gap where
  /-- The blanks before the first line break. -/
  blanks : List Char := []
  /-- The line breaks. -/
  breaks : List Char := []

namespace Gap

/-- What a gap within a line of text counts for. -/
def folded (gap : Gap) : List Char :=
  match gap.breaks with
  | [] => gap.blanks
  | ['\n'] => [' ']
  | '\n' :: rest => rest
  | breaks => breaks

/-- Reads a gap, behind the part that is read already.  In a line that begins, no
tab may stand before the column `indent`. -/
def read (indent : Nat) (isLineStart : Bool) : Nat → Gap → Head → Option (Gap × Head)
  | 0, gap, h => some (gap, h)
  | fuel + 1, gap, h =>
    match h.next with
    | none => some (gap, h)
    | some c =>
      if isBlank c then
        if isLineStart || !gap.breaks.isEmpty then
          if c == '\t' && h.column < indent then none else read indent isLineStart fuel gap (h.skip 1)
        else read indent isLineStart fuel { gap with blanks := gap.blanks ++ [c] } (h.skip 1)
      else if isBreak c then
        let (line, h) := h.readBreak
        read indent isLineStart fuel { gap with breaks := gap.breaks ++ line } h
      else some (gap, h)

end Gap

namespace Plain

/-- The characters that end a bare text between brackets or braces. -/
def isFlowEnd (c : Char) : Bool :=
  c == ',' || c == '[' || c == ']' || c == '\x7b' || c == '\x7d'

/-- The characters of a bare text up to the next gap or the end of the text.
Between brackets, a colon must not stand right before one of their characters. -/
def chunk (inFlow : Bool) : List Char → Option (List Char)
  | [] => some []
  | c :: rest =>
    let colon := c == ':'
    if Head.isGap (some c) then some []
    else if inFlow && colon && (rest.head?.map fun d => isFlowEnd d || d == '?').getD false then none
    else if colon && Head.isGap rest.head? then some []
    else if inFlow && isFlowEnd c then some []
    else (chunk inFlow rest).map (c :: ·)

/-- Reads a bare text behind the part that is read already and the gap after it;
answers also whether a line has begun behind the text. -/
def read (inFlow : Bool) (indent : Nat) :
    Nat → List Char → Gap → Head → Option (List Char × Bool × Head)
  | 0, done, gap, h => some (done, !gap.breaks.isEmpty, h)
  | fuel + 1, done, gap, h =>
    if h.atDocumentMark || h.sees '#' then some (done, !gap.breaks.isEmpty, h)
    else do
      let part ← chunk inFlow h.rest
      let h := h.skip part.length
      let (done, gap) := if part.isEmpty then (done, gap) else (done ++ gap.folded ++ part, {})
      if h.next.isNone || !Head.isGap h.next then some (done, !gap.breaks.isEmpty, h)
      else do
        let (gap, h) ← Gap.read indent false (h.rest.length + 1) {} h
        if !inFlow && h.column < indent then some (done, !gap.breaks.isEmpty, h)
        else read inFlow indent fuel done gap h

end Plain

namespace Quoted

/-- The value of a hexadecimal digit. -/
def hexValue (c : Char) : Option Nat :=
  if c.isDigit then some (c.toNat - '0'.toNat)
  else if 'a' ≤ c && c ≤ 'f' then some (c.toNat - 'a'.toNat + 10)
  else if 'A' ≤ c && c ≤ 'F' then some (c.toNat - 'A'.toNat + 10)
  else none

/-- The character of so many hexadecimal digits. -/
def coded (h : Head) (count : Nat) : Option (Char × Head) := do
  let digits ← (h.rest.take count).mapM hexValue
  if digits.length = count then
    let n := digits.foldl (fun n d => n * 16 + d) 0
    if n.isValidChar then some (Char.ofNat n, h.skip count) else none
  else none

/-- The character that an escape stands for, behind its backslash. -/
def escape (h : Head) : Option (Char × Head) :=
  let single (c : Char) : Option (Char × Head) := some (c, h.skip 1)
  match h.next with
  | some '0' => single '\x00'
  | some 'a' => single '\x07'
  | some 'b' => single '\x08'
  | some 't' | some '\t' => single '\t'
  | some 'n' => single '\n'
  | some 'v' => single '\x0b'
  | some 'f' => single '\x0c'
  | some 'r' => single '\r'
  | some 'e' => single '\x1b'
  | some ' ' => single ' '
  | some '"' => single '"'
  | some '/' => single '/'
  | some '\\' => single '\\'
  | some 'N' => single '\u0085'
  | some '_' => single '\u00a0'
  | some 'L' => single '\u2028'
  | some 'P' => single '\u2029'
  | some 'x' => coded (h.skip 1) 2
  | some 'u' => coded (h.skip 1) 4
  | some 'U' => coded (h.skip 1) 8
  | _ => none

/-- Reads the characters up to the next gap or the closing quote, behind those
that are read already; answers also whether an escaped line break ended them. -/
def chunk (quote : Char) : Nat → List Char → Head → Option (List Char × Bool × Head)
  | 0, _, _ => none
  | fuel + 1, done, h =>
    match h.next with
    | none => some (done, false, h)
    | some c =>
      if Head.isGap (some c) then some (done, false, h)
      else if quote == '\'' && c == '\'' && h.ahead 1 == some '\'' then
        chunk quote fuel (done ++ ['\'']) (h.skip 2)
      else if c == quote then some (done, false, h)
      else if quote == '"' && c == '\\' then
        if (h.ahead 1).isSome && Head.isLineEnd (h.ahead 1) then
          some (done, true, (h.skip 1).readBreak.2)
        else do
          let (c, h) ← escape (h.skip 1)
          chunk quote fuel (done ++ [c]) h
      else chunk quote fuel (done ++ [c]) (h.skip 1)

/-- Reads a quoted text up to its closing quote, behind the part that is read
already. -/
def read (quote : Char) : Nat → List Char → Head → Option (List Char × Head)
  | 0, _, _ => none
  | fuel + 1, done, h =>
    if h.atDocumentMark || h.next.isNone then none
    else do
      let (done, isLineStart, h) ← chunk quote (h.rest.length + 1) done h
      if h.sees quote then some (done, h.skip 1)
      else do
        let (gap, h) ← Gap.read 0 isLineStart (h.rest.length + 1) {} h
        let text := if isLineStart then gap.breaks else gap.folded
        read quote fuel (done ++ text) h

end Quoted

namespace Block

/-- What becomes of the line breaks at the end of an indented text. -/
inductive Ending where
  /-- All are dropped. -/
  | strip
  /-- One is kept. -/
  | clip
  /-- All are kept. -/
  | keep

/-- Reads what stands behind the bar: the ending, and the indentation if it is
given. -/
def header (h : Head) : Option (Ending × Option Nat × Head) := do
  let ending (h : Head) : Option Ending :=
    if h.sees '+' then some .keep else if h.sees '-' then some .strip else none
  let digit (h : Head) : Option (Option Nat × Head) :=
    match h.next with
    | some c =>
      if c == '0' then none
      else if c.isDigit then some (some (c.toNat - '0'.toNat), h.skip 1)
      else some (none, h)
    | none => some (none, h)
  match ending h with
  | some e =>
    let (indent, h) ← digit (h.skip 1)
    let h ← h.finishLine
    pure (e, indent, h)
  | none =>
    let (indent, h) ← digit h
    let (e, h) := match indent, ending h with
      | some _, some e => (e, h.skip 1)
      | _, _ => (.clip, h)
    let h ← h.finishLine
    pure (e, indent, h)

/-- Reads empty lines and the indentation of the line behind them.  The
indentation is found out if it is not given; `least` is the least it can be. -/
def emptyLines (least : Nat) :
    Nat → Option Nat → Nat → List Char → Head → Option (List Char × Nat × Head)
  | 0, _, _, _, _ => none
  | fuel + 1, indent, widest, breaks, h =>
    let isBefore (column : Nat) : Bool := (indent.map fun n => decide (column < n)).getD true
    let spaces := (h.rest.takeWhile (· == ' ')).length
    let h := h.skip ((indent.map fun n => min spaces (n - h.column)).getD spaces)
    let widest := max widest h.column
    if h.sees '\t' && isBefore h.column then none
    else if h.next.isSome && Head.isLineEnd h.next then
      let (line, h) := h.readBreak
      emptyLines least fuel indent widest (breaks ++ line) h
    else some (breaks, indent.getD (max widest least), h)

/-- Reads the lines of an indented text, behind the part that is read already,
the line break after it, and the empty lines after that. -/
def lines (isFolded : Bool) (indent : Nat) : Nat → List Char → Bool → List Char → List Char →
    Head → Option (List Char × List Char × List Char × Head)
  | 0, _, _, _, _, _ => none
  | fuel + 1, done, wasBlank, lastBreak, empty, h =>
    if h.column == indent && h.next.isSome then do
      let startsBlank := (h.next.map isBlank).getD false
      let joint := if isFolded && lastBreak == ['\n'] && !wasBlank && !startsBlank then
          if empty.isEmpty then [' '] else []
        else lastBreak
      let (line, h) := h.span fun c => !isBreak c
      let (lastBreak, h) := h.readBreak
      let (more, _, h) ← emptyLines 0 (h.rest.length + 1) (some indent) 0 [] h
      lines isFolded indent fuel (done ++ joint ++ empty ++ line) startsBlank lastBreak more h
    else some (done, lastBreak, empty, h)

/-- Reads an indented text behind its bar or angle, below a structure of some
indentation. -/
def read (isFolded : Bool) (parent : Int) (h : Head) : Option (List Char × Head) := do
  let (ending, given, h) ← header h
  let least := max 1 (parent + 1).toNat
  let indent := given.map fun n => if 0 ≤ parent then parent.toNat + n else n
  let (empty, indent, h) ← emptyLines least (h.rest.length + 1) indent 0 [] h
  let (text, lastBreak, empty, h) ← lines isFolded indent (h.rest.length + 1) [] false [] empty h
  pure (text ++ (match ending with
    | .strip => []
    | .clip => lastBreak
    | .keep => lastBreak ++ empty), h)

end Block

end BackupPlan.Yaml
