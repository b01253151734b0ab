import BackupPlan.Text.Utf8
import BackupPlan.Text.Quoted

/-!
# Paths as byte strings

A path is any sequence of bytes; only some are texts.  Two paths name the same
place when their `components` agree: repeated and trailing slashes and inner
`.` segments do not count, `..` is kept, since no file system is consulted.

* `toText?_ofText` — a path made of a text reads back as that text;
* `eq_ofText_of_toText?` — and no other path reads as it.
-/

namespace BackupPlan

/-- A file path: the bytes of its name. -/
structure UnixPath where
  /-- The bytes, of any value. -/
  bytes : List UInt8
  deriving DecidableEq, Inhabited

/-- A step of a path. -/
inductive Component where
  /-- The leading slash of an absolute path. -/
  | root
  /-- A leading `.` of a relative path. -/
  | current
  /-- A `..`, which is never simplified. -/
  | parent
  /-- Any other name. -/
  | name (bytes : List UInt8)
  deriving DecidableEq

namespace UnixPath

/-- The byte of the slash. -/
def slash : UInt8 := 0x2F

/-- The byte of the full stop. -/
def dot : UInt8 := 0x2E

/-- The path that a text spells. -/
def ofText (s : String) : UnixPath :=
  ⟨s.toByteArray.data.toList⟩

/-- The text of a path, if its bytes are UTF-8. -/
def toText? (p : UnixPath) : Option String :=
  String.fromUTF8? ⟨p.bytes.toArray⟩

theorem toText?_ofText (s : String) : (ofText s).toText? = some s := by
  have h : (ByteArray.mk (ofText s).bytes.toArray) = s.toByteArray := by
    simp [ofText]
  simp only [toText?, String.fromUTF8?]
  rw [dif_pos (h ▸ s.isValidUTF8)]
  simp only [String.fromUTF8, h]

theorem eq_ofText_of_toText? {p : UnixPath} {s : String} (h : p.toText? = some s) :
    p = ofText s := by
  simp only [toText?, String.fromUTF8?] at h
  split at h
  · cases h
    simp [ofText, String.fromUTF8]
  · cases h

theorem toText?_eq_some_iff {p : UnixPath} {s : String} :
    p.toText? = some s ↔ p = ofText s :=
  ⟨eq_ofText_of_toText?, fun h => h ▸ toText?_ofText s⟩

/-- Whether the path starts at the root. -/
def isAbsolute (p : UnixPath) : Bool :=
  p.bytes.head? == some slash

/-- The step that one segment between slashes stands for; empty segments and
single dots stand for none. -/
def segmentStep (segment : List UInt8) : Option Component :=
  if segment = [] ∨ segment = [dot] then none
  else if segment = [dot, dot] then some .parent
  else some (.name segment)

/-- The segments of a path: what stands between its slashes. -/
def segments (p : UnixPath) : List (List UInt8) :=
  p.bytes.splitOn slash

/-- The steps of a path, in order. -/
def components (p : UnixPath) : List Component :=
  let start :=
    if p.isAbsolute then [.root]
    else if p.segments.head? = some [dot] then [.current]
    else []
  start ++ p.segments.filterMap segmentStep

/-- Two spellings of one path. -/
def Same (p q : UnixPath) : Prop :=
  p.components = q.components

instance (p q : UnixPath) : Decidable (p.Same q) :=
  inferInstanceAs (Decidable (p.components = q.components))

/-- The path `p` seen from the directory `base`: an absolute path stands for
itself, any other is put behind the directory and a slash. -/
def join (base p : UnixPath) : UnixPath :=
  if p.isAbsolute then p
  else if base.bytes = [] ∨ base.bytes.getLast? = some slash then ⟨base.bytes ++ p.bytes⟩
  else ⟨base.bytes ++ slash :: p.bytes⟩

/-- The text of a path, each run of bytes that is no character replaced by the
replacement character. -/
def lossyText (p : UnixPath) : String :=
  match p.toText? with
  | some s => s
  | none => String.ofList <| (Text.pieces p.bytes).map fun
    | .char c => c
    | .broken _ => '\uFFFD'

/-- A byte that is part of no character, as a message shows it. -/
def quotedByte (b : UInt8) : List Char :=
  let digits := (Nat.toDigits 16 b.toNat).map Char.toUpper
  ['\\', 'x'] ++ List.replicate (2 - digits.length) '0' ++ digits

/-- A path as a message shows it: like a quoted text, with broken bytes in
upper case hexadecimal. -/
def quoted (p : UnixPath) : String :=
  match p.toText? with
  | some s => Text.quoted s
  | none =>
    let shown := (Text.pieces p.bytes).flatMap fun
      | .char c => Text.quotedChar c
      | .broken bytes => bytes.flatMap quotedByte
    String.ofList ('"' :: shown ++ ['"'])

theorem lossyText_of_toText? {p : UnixPath} {s : String} (h : p.toText? = some s) :
    p.lossyText = s := by
  simp [lossyText, h]

theorem lossyText_ofText (s : String) : (ofText s).lossyText = s :=
  lossyText_of_toText? (toText?_ofText s)

end UnixPath

end BackupPlan
