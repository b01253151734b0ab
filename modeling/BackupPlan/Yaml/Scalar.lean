import BackupPlan.Reading.Datum

/-!
# What a bare text of YAML stands for

A bare text stands for none, a truth value, an integer or a number if it is
written like one, and for itself otherwise.
-/

namespace BackupPlan.Yaml.Scalar

open Reading

/-- Whether a text is a word for none. -/
def isNull (text : String) : Bool :=
  text == "null" || text == "Null" || text == "NULL" || text == "~"

/-- The truth value of a word. -/
def truth? (text : String) : Option Bool :=
  if text == "true" || text == "True" || text == "TRUE" then some true
  else if text == "false" || text == "False" || text == "FALSE" then some false
  else none

/-- The value of a digit of a base up to sixteen. -/
def digit? (base : Nat) (c : Char) : Option Nat :=
  let value :=
    if c.isDigit then c.toNat - '0'.toNat
    else if 'a' ≤ c && c ≤ 'f' then c.toNat - 'a'.toNat + 10
    else if 'A' ≤ c && c ≤ 'F' then c.toNat - 'A'.toNat + 10
    else 16
  if value < base then some value else none

/-- The number that one or more digits of a base spell. -/
def digits? (base : Nat) (cs : List Char) : Option Nat :=
  if cs.isEmpty then none
  else (cs.mapM (digit? base)).map (·.foldl (fun n d => n * base + d) 0)

/-- The digits of a number behind its sign, and whether it is negative. -/
def unsigned : List Char → Bool × List Char
  | '+' :: rest => (false, rest)
  | '-' :: rest => (true, rest)
  | cs => (false, cs)

/-- Whether a text is made of digits with a needless zero in front, behind a
sign. -/
def hasLeadingZero (cs : List Char) : Bool :=
  match (unsigned cs).2 with
  | '0' :: rest => !rest.isEmpty && rest.all Char.isDigit
  | _ => false

/-- The integer that a text spells: decimal without needless zeros, or with a mark
for base sixteen, eight or two; of at most 128 bits. -/
def integer? (cs : List Char) : Option Int :=
  let (isNegative, magnitude) := unsigned cs
  let number : Option Nat :=
    match magnitude with
    | '0' :: 'x' :: rest => digits? 16 rest
    | '0' :: 'o' :: rest => digits? 8 rest
    | '0' :: 'b' :: rest => digits? 2 rest
    | _ => if hasLeadingZero cs then none else digits? 10 magnitude
  let fits (n : Nat) : Bool :=
    if isNegative then n ≤ 0x80000000000000000000000000000000
    else n < 0x100000000000000000000000000000000
  (number.filter fits).map fun n => if isNegative then -n else n

/-- The number that digits around a point spell, with an exponent behind the
letter `e`. -/
def decimal? (cs : List Char) : Option Float :=
  let (isNegative, magnitude) := unsigned cs
  let whole := magnitude.takeWhile Char.isDigit
  let rest := magnitude.dropWhile Char.isDigit
  let (fraction, rest) := match rest with
    | '.' :: rest => (rest.takeWhile Char.isDigit, rest.dropWhile Char.isDigit)
    | rest => ([], rest)
  let exponent : Option Int := match rest with
    | [] => some 0
    | 'e' :: rest | 'E' :: rest =>
      let (isNegative, digits) := unsigned rest
      (digits? 10 digits).map fun n => if isNegative then -n else n
    | _ => none
  match digits? 10 (whole ++ fraction), exponent with
  | some n, some e =>
    let power := e - fraction.length
    let x :=
      if n = 0 || power < -100000 then 0.0
      else if 100000 < power then Float.ofScientific 1 false 400
      else Float.ofScientific n (power < 0) power.natAbs
    some (if isNegative then -x else x)
  | _, _ => none

/-- The number that a text spells: finite, infinite, or no number at all. -/
def real? (text : String) : Option Float :=
  let cs := text.toList
  let positive := match cs with
    | '+' :: rest => rest
    | cs => cs
  let isWord (words : List String) (cs : List Char) : Bool := words.contains (String.ofList cs)
  if cs.head? = some '+' && (positive.head? = some '+' || positive.head? = some '-') then none
  else if isWord [".inf", ".Inf", ".INF"] positive then some (1.0 / 0.0)
  else if isWord ["-.inf", "-.Inf", "-.INF"] cs then some (-1.0 / 0.0)
  else if isWord [".nan", ".NaN", ".NAN"] cs then some (0.0 / 0.0)
  else (decimal? positive).filter Float.isFinite

/-- What a bare text stands for. -/
def resolve (text : String) : Open :=
  let cs := text.toList
  if cs.isEmpty || isNull text then .nothing
  else match truth? text, integer? cs with
    | some b, _ => .truth b
    | none, some n => .integer n
    | none, none =>
      match if hasLeadingZero cs then none else real? text with
      | some x => .real x
      | none => .text text

/-- The tag of a type of the language. -/
def typeTag (name : String) : String :=
  "tag:yaml.org,2002:" ++ name

/-- What a text with a tag stands for. -/
def tagged (tag : Option String) (isPlain : Bool) (text : String) : Except Problem Open :=
  let orElse (value : Option Open) (expected : String) : Except Problem Open :=
    match value with
    | some value => .ok value
    | none => .error (.misvalued (.text text) expected)
  match tag with
  | none => .ok (if isPlain then resolve text else .text text)
  | some tag =>
    if tag = typeTag "bool" then orElse ((truth? text).map .truth) "a boolean"
    else if tag = typeTag "int" then orElse ((integer? text.toList).map .integer) "an integer"
    else if tag = typeTag "float" then orElse ((real? text).map .real) "a float"
    else if tag = typeTag "null" then
      orElse (if isNull text then some .nothing else none) "null"
    else if tag.startsWith "!" && isPlain then .ok (resolve text)
    else .ok (.text text)

end BackupPlan.Yaml.Scalar
