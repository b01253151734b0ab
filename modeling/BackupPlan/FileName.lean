import BackupPlan.Text.Blank

/-!
# File names that are safe everywhere

A name is safe when it holds none of the characters that some file system
reserves, is not made of full stops only, and fits into 255 bytes.  `sanitize`
turns any name into one that is safe or empty.
-/

namespace BackupPlan.FileName

/-- The most bytes that a file name may have. -/
def maxBytes : Nat := 255

/-- The characters that no file name may hold. -/
def isReserved (c : Char) : Bool :=
  c == '/' || c == '?' || c == '<' || c == '>' || c == '\\' || c == ':' || c == '*' ||
    c == '|' || c == '"'

/-- The control characters of ASCII and Latin-1, the delete character apart. -/
def isControl (c : Char) : Bool :=
  c.toNat < 0x20 || (0x80 ≤ c.toNat && c.toNat ≤ 0x9F)

/-- The characters that a safe name is free of. -/
def isForbidden (c : Char) : Bool :=
  isReserved c || isControl c

/-- A name of one or more full stops and nothing else. -/
def isOnlyDots (name : List Char) : Bool :=
  !name.isEmpty && name.all (· == '.')

/-- How many bytes a name takes in UTF-8. -/
def byteLength : List Char → Nat
  | [] => 0
  | c :: rest => c.utf8Size + byteLength rest

/-- Whether a name is safe as it is. -/
def isSafe (name : String) : Bool :=
  !name.toList.any isForbidden && !isOnlyDots name.toList && byteLength name.toList ≤ maxBytes

/-- The longest beginning of a name that fits into so many bytes. -/
def fitting : Nat → List Char → List Char
  | _, [] => []
  | room, c :: rest => if c.utf8Size ≤ room then c :: fitting (room - c.utf8Size) rest else []

/-- Drops the forbidden characters, then a name of full stops, then what does
not fit. -/
def sanitize (name : String) : String :=
  let allowed := name.toList.filter fun c => !isForbidden c
  if isOnlyDots allowed then "" else String.ofList (fitting maxBytes allowed)

end BackupPlan.FileName
