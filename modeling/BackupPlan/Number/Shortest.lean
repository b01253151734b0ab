/-!
# The shortest decimal of a floating point number

Every finite `Float` is read from the decimals of an interval around it.  The
shortest of them is found on the coarsest power-of-ten grid that has a point in
the interval; of two points of that grid the nearer is taken, and of two equally
near ones the even one.  All arithmetic is exact, on natural numbers.

`scientific` and `positional` are the two ways in which the digits are laid out.
-/

namespace BackupPlan.Number

/-- A positive number `digits · 10 ^ exponent`. -/
structure Decimal where
  /-- The digits, as a number that is no multiple of ten. -/
  digits : Nat
  exponent : Int

/-- The positive number `mantissa · 2 ^ exponent` of a finite float that is not
zero, and whether the gap below it is half of the gap above it. -/
structure Binary where
  mantissa : Nat
  exponent : Int
  isLeast : Bool

/-- The magnitude of a finite float, from its bits. -/
def Binary.ofBits (bits : Nat) : Binary :=
  let fraction : Nat := bits % 0x10000000000000
  let biased : Nat := bits / 0x10000000000000 % 0x800
  if biased = 0 then ⟨fraction, -1074, false⟩
  else ⟨0x10000000000000 + fraction, (biased : Int) - 1075, fraction == 0 && 1 < biased⟩

/-- The power of a base as a fraction: the factor of the numerator and the
factor of the denominator. -/
def scale (base : Nat) (exponent : Int) : Nat × Nat :=
  if 0 ≤ exponent then (base.pow exponent.toNat, 1) else (1, base.pow (-exponent).toNat)

/-- The point of the grid `10 ^ k` that stands for a number: the nearest point
within its interval, if there is one. -/
def Binary.onGrid (b : Binary) (k : Int) : Option Nat :=
  let (num2, den2) := scale 2 (b.exponent - 2)
  let (num10, den10) := scale 10 k
  let unit := num10 * den2
  let value := 4 * b.mantissa * num2 * den10
  let low := (4 * b.mantissa - if b.isLeast then 1 else 2) * num2 * den10
  let high := (4 * b.mantissa + 2) * num2 * den10
  let inside (point : Nat) : Bool :=
    let at_ := point * unit
    if b.mantissa % 2 = 0 then low ≤ at_ && at_ ≤ high else low < at_ && at_ < high
  let below := value / unit
  let above := below + 1
  let toBelow := value - below * unit
  let toAbove := above * unit - value
  match 0 < below && inside below, inside above with
  | false, false => none
  | true, false => some below
  | false, true => some above
  | true, true =>
    if toBelow < toAbove then some below
    else if toAbove < toBelow then some above
    else some (if below % 2 = 0 then below else above)

/-- The coarsest grid at or below `10 ^ k` with a point for a number. -/
def Binary.coarsest (b : Binary) : Nat → Int → Decimal
  | 0, k => ⟨b.mantissa, k⟩
  | fuel + 1, k =>
    match b.onGrid k with
    | some point => ⟨point, k⟩
    | none => b.coarsest fuel (k - 1)

/-- The shortest decimal of a finite float that is not zero, sign apart. -/
def shortest (x : Float) : Decimal :=
  (Binary.ofBits x.toBits.toNat).coarsest 700 310

/-- The decimal digits of a number. -/
def digitsOf (n : Nat) : List Char :=
  Nat.toDigits 10 n

/-- The decimal with its point in place and at least one digit on each side. -/
def Decimal.positional (d : Decimal) : List Char :=
  let digits := digitsOf d.digits
  if 0 ≤ d.exponent then
    digits ++ List.replicate d.exponent.toNat '0' ++ ['.', '0']
  else
    let places := (-d.exponent).toNat
    let digits := List.replicate (places + 1 - digits.length) '0' ++ digits
    let whole := digits.length - places
    digits.take whole ++ ['.'] ++ digits.drop whole

/-- The power of ten of the first digit. -/
def Decimal.magnitude (d : Decimal) : Int :=
  d.exponent + (digitsOf d.digits).length - 1

/-- The decimal with one digit before the point, and its power of ten with a
sign and at least two digits. -/
def Decimal.withExponent (d : Decimal) : List Char :=
  let digits := digitsOf d.digits
  let fraction := digits.drop 1
  let power := digitsOf d.magnitude.natAbs
  digits.take 1 ++ (if fraction.isEmpty then [] else '.' :: fraction) ++
    ['e', if d.magnitude < 0 then '-' else '+'] ++
    List.replicate (2 - power.length) '0' ++ power

/-- The sign of a float, the zeros included. -/
def signOf (x : Float) : List Char :=
  if x.toBits.toNat < 0x8000000000000000 then [] else ['-']

/-- A float with all its digits before and after the point. -/
def positional (x : Float) : String :=
  if x.isNaN then "NaN"
  else if x.isInf then String.ofList (signOf x ++ ['i', 'n', 'f'])
  else if x == 0 then String.ofList (signOf x ++ ['0', '.', '0'])
  else String.ofList (signOf x ++ (shortest x).positional)

/-- A float with all its digits around the point from `10 ^ -5` up to `10 ^ 16`,
and with an exponent outside of that range. -/
def scientific (x : Float) : String :=
  if !x.isFinite then "null"
  else if x == 0 then String.ofList (signOf x ++ ['0', '.', '0'])
  else
    let d := shortest x
    if -5 ≤ d.magnitude && d.magnitude < 16 then String.ofList (signOf x ++ d.positional)
    else String.ofList (signOf x ++ d.withExponent)

end BackupPlan.Number
