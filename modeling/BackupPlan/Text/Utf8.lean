/-!
# Reading bytes as UTF-8, broken bytes included

`pieces` cuts a byte sequence into the characters it holds and the runs of bytes
that are no character: a run is the longest beginning of a character that the
next byte does not continue, or a single byte that begins none.  It is a machine
that takes one byte at a time, so nothing is looked at twice.
-/

namespace BackupPlan.Text

/-- A part of a byte sequence: a character, or bytes that form none. -/
inductive Piece where
  /-- A well-formed character. -/
  | char (c : Char)
  /-- Bytes that no character has. -/
  | broken (bytes : List UInt8)

/-- A character whose first bytes are read: the value so far, how many bytes are
still owed, and the range in which the next one must lie. -/
structure OpenChar where
  /-- The bytes read so far. -/
  bytes : List UInt8
  /-- The value of the bits read so far. -/
  value : Nat
  /-- How many bytes are owed; at least one. -/
  owed : Nat
  /-- The least byte that may come next. -/
  least : UInt8
  /-- The greatest byte that may come next. -/
  greatest : UInt8

/-- What the first byte of a character says about the rest of it. -/
inductive FirstByte where
  /-- The byte is a character by itself. -/
  | whole (c : Char)
  /-- The byte begins a longer character. -/
  | opens (o : OpenChar)
  /-- No character begins with the byte. -/
  | none

/-- Classifies a byte that stands at the beginning of a character. -/
def firstByte (b : UInt8) : FirstByte :=
  let n := b.toNat
  let opened (mask owed : Nat) (least greatest : UInt8) :=
    FirstByte.opens ⟨[b], n - mask, owed, least, greatest⟩
  if n < 0x80 then .whole (Char.ofNat n)
  else if n < 0xC2 then .none
  else if n < 0xE0 then opened 0xC0 1 0x80 0xBF
  else if n == 0xE0 then opened 0xE0 2 0xA0 0xBF
  else if n == 0xED then opened 0xE0 2 0x80 0x9F
  else if n < 0xF0 then opened 0xE0 2 0x80 0xBF
  else if n == 0xF0 then opened 0xF0 3 0x90 0xBF
  else if n < 0xF4 then opened 0xF0 3 0x80 0xBF
  else if n == 0xF4 then opened 0xF0 3 0x80 0x8F
  else .none

/-- The piece that one byte completes at the beginning of a character, if any,
and the character that it leaves open. -/
def begin (b : UInt8) : List Piece × Option OpenChar :=
  match firstByte b with
  | .whole c => ([.char c], none)
  | .opens o => ([], some o)
  | .none => ([.broken [b]], none)

/-- Takes one byte after an open character: continues it, or closes it as broken
and begins anew with the byte. -/
def OpenChar.next (o : OpenChar) (b : UInt8) : List Piece × Option OpenChar :=
  if o.least ≤ b && b ≤ o.greatest then
    let value := o.value * 64 + (b.toNat - 0x80)
    if o.owed ≤ 1 then ([.char (Char.ofNat value)], none)
    else ([], some ⟨o.bytes ++ [b], value, o.owed - 1, 0x80, 0xBF⟩)
  else
    let (done, rest) := begin b
    (.broken o.bytes :: done, rest)

/-- The pieces of a byte sequence that follows an open character, if there is one. -/
def piecesAfter : Option OpenChar → List UInt8 → List Piece
  | none, [] => []
  | some o, [] => [.broken o.bytes]
  | pending, b :: rest =>
    let (done, pending) := match pending with
      | none => begin b
      | some o => o.next b
    done ++ piecesAfter pending rest

/-- A byte sequence as characters and broken runs, in order. -/
def pieces (bytes : List UInt8) : List Piece :=
  piecesAfter none bytes

end BackupPlan.Text
