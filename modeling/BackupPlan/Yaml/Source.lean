import BackupPlan.Yaml.Basic

/-!
# The characters of a YAML document

A document is a sequence of bytes in UTF-8, or in UTF-16 if it starts with the
mark of that encoding.  It must not hold control characters other than the tab
and the line breaks.
-/

namespace BackupPlan.Yaml.Source

/-- The characters that may stand in a document. -/
def isAllowed (c : Char) : Bool :=
  let n := c.toNat
  c == '\t' || c == '\n' || c == '\r' || (0x20 ≤ n && n ≤ 0x7E) || n == 0x85 ||
    (0xA0 ≤ n && n ≤ 0xFFFD) || 0x10000 ≤ n

/-- The units of two bytes each, the greater byte first if `bigEndian` is set. -/
def units16 (bigEndian : Bool) : List UInt8 → Option (List Nat)
  | [] => some []
  | [_] => none
  | a :: b :: rest =>
    let unit := if bigEndian then a.toNat * 256 + b.toNat else b.toNat * 256 + a.toNat
    (units16 bigEndian rest).map (unit :: ·)

/-- The characters of units, of which two surrogates make one character. -/
def ofUnits16 : List Nat → Option (List Char)
  | [] => some []
  | unit :: rest =>
    if unit < 0xD800 || 0xE000 ≤ unit then (ofUnits16 rest).map (Char.ofNat unit :: ·)
    else match rest with
      | [] => none
      | low :: rest =>
        if unit < 0xDC00 && 0xDC00 ≤ low && low < 0xE000 then
          let c := Char.ofNat (0x10000 + (unit - 0xD800) * 0x400 + (low - 0xDC00))
          (ofUnits16 rest).map (c :: ·)
        else none

/-- The characters of a document, whatever they are. -/
def decode : List UInt8 → Option (List Char)
  | 0xFF :: 0xFE :: rest => (units16 false rest).bind ofUnits16
  | 0xFE :: 0xFF :: rest => (units16 true rest).bind ofUnits16
  | 0xEF :: 0xBB :: 0xBF :: rest => (String.fromUTF8? ⟨rest.toArray⟩).map String.toList
  | bytes => (String.fromUTF8? ⟨bytes.toArray⟩).map String.toList

/-- The characters of a document, if all of them are allowed. -/
def chars? (bytes : List UInt8) : Option (List Char) :=
  (decode bytes).filter (·.all isAllowed)

end BackupPlan.Yaml.Source
