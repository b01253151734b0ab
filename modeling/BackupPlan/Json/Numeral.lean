import BackupPlan.Reading.Problem

/-!
# Numerals of JSON

An integer that fits into 64 bits is read exactly.  Any other number keeps as
many of its leading digits as fit into 64 bits, and is then scaled by a power of
ten in floating point arithmetic, so that the last digit may be off by one.
-/

namespace BackupPlan.Json

open Reading

/-- What a numeral stands for. -/
inductive Numeral where
  /-- An integer. -/
  | integer (n : Int)
  /-- A floating point number. -/
  | real (x : Float)

namespace Numeral

/-- The value of a digit. -/
def digitValue (c : Char) : Nat :=
  c.toNat - '0'.toNat

/-- Digits that are read into a number of at most 64 bits. -/
structure Digits where
  /-- The number. -/
  value : Nat
  /-- How many digits it took. -/
  taken : Nat
  /-- How many digits were left over because they did not fit. -/
  skipped : Nat
  /-- What follows the digits. -/
  rest : List Char

/-- Appends digits to a number while it fits into 64 bits, and skips the others. -/
def digits (value taken skipped : Nat) : List Char → Digits
  | [] => ⟨value, taken, skipped, []⟩
  | c :: rest =>
    if c.isDigit then
      if skipped = 0 && value * 10 + digitValue c < 0x10000000000000000 then
        digits (value * 10 + digitValue c) (taken + 1) 0 rest
      else digits value taken (skipped + 1) rest
    else ⟨value, taken, skipped, c :: rest⟩

/-- A power of ten as the nearest float. -/
def powerOfTen (n : Nat) : Float :=
  Float.ofScientific 1 false n

/-- Divides by a power of ten, by at most `10 ^ 308` at a time. -/
def divided (x : Float) (n : Nat) : Float :=
  if n ≤ 308 then x / powerOfTen n
  else if x == 0 then x
  else divided (x / powerOfTen 308) (n - 308)
termination_by n

/-- A number of at most 64 bits times a power of ten, if it is not too large. -/
def scaled (value : Nat) (exponent : Int) : Option Float :=
  let x := (UInt64.ofNat value).toFloat
  if exponent < 0 then some (divided x (-exponent).toNat)
  else if exponent ≤ 308 then
    let y := x * powerOfTen exponent.toNat
    if y.isInf then none else some y
  else if x == 0 then some x
  else none

/-- The fate of a numeral: what it stands for and what follows, or why it is none. -/
abbrev Result := Except Stop (Numeral × List Char)

/-- A float of a sign, a number and a power of ten. -/
def finish (negative : Bool) (value : Nat) (exponent : Int) (rest : List Char) : Result :=
  match scaled value exponent with
  | some x => .ok (.real (if negative then -x else x), rest)
  | none => .error .malformed

/-- The digits of an exponent, up to the largest of 32 bits. -/
def exponentDigits (power : Nat) : List Char → Nat × List Char
  | [] => (power, [])
  | c :: rest =>
    if c.isDigit then exponentDigits (min (power * 10 + digitValue c) 0x80000000) rest
    else (power, c :: rest)

/-- Reads what follows the letter of an exponent. -/
def afterExponent (negative : Bool) (value : Nat) (exponent : Int) (cs : List Char) : Result :=
  let (down, cs) := match cs with
    | '+' :: rest => (false, rest)
    | '-' :: rest => (true, rest)
    | cs => (false, cs)
  match cs with
  | [] => .error .truncated
  | c :: _ =>
    if c.isDigit then
      let (power, rest) := exponentDigits 0 cs
      if power < 0x80000000 then
        finish negative value (if down then exponent - power else exponent + power) rest
      else if down || value = 0 then .ok (.real (if negative then -0.0 else 0.0), rest)
      else .error .malformed
    else .error .malformed

/-- Reads what follows the digits before the point. -/
def afterWhole (negative : Bool) (d : Digits) : Result :=
  match d.rest with
  | '.' :: rest =>
    let fraction := digits d.value 0 0 rest
    let exponent : Int := d.skipped - fraction.taken
    if fraction.taken + fraction.skipped = 0 then
      .error (if rest.isEmpty then .truncated else .malformed)
    else match fraction.rest with
      | 'e' :: rest | 'E' :: rest => afterExponent negative fraction.value exponent rest
      | rest => finish negative fraction.value exponent rest
  | 'e' :: rest | 'E' :: rest => afterExponent negative d.value d.skipped rest
  | rest =>
    if 0 < d.skipped then finish negative d.value d.skipped rest
    else if !negative then .ok (.integer d.value, rest)
    else if 0 < d.value && d.value ≤ 0x8000000000000000 then .ok (.integer (-d.value), rest)
    else .ok (.real (-(UInt64.ofNat d.value).toFloat), rest)

/-- Reads the digits of a numeral: no zero may stand in front of others. -/
def unsigned (negative : Bool) : List Char → Result
  | [] => .error .truncated
  | '0' :: rest =>
    if (rest.head?.map Char.isDigit).getD false then .error .malformed
    else afterWhole negative ⟨0, 1, 0, rest⟩
  | c :: rest =>
    if c.isDigit then afterWhole negative (digits 0 0 0 (c :: rest)) else .error .malformed

/-- Reads a numeral. -/
def read : List Char → Result
  | '-' :: rest => unsigned true rest
  | cs => unsigned false cs

end Numeral

end BackupPlan.Json
