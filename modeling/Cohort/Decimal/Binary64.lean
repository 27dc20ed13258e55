/-!
# Binary64: double-precision numbers, read and written exactly

A double is kept as its 64 bits and read as a multiple of `2 ^ -1074`, the smallest positive one, so
that order, scaling and the two conversions to decimal are arithmetic on whole numbers.

· `ofDecimal?` rounds a decimal to the nearest double, a tie to the even one, and refuses what is
  too large.
· `toText` writes the fewest digits that read back, without an exponent and without a trailing
  `.0`; of two shortest candidates the nearer one, the upper one in a tie.
-/

namespace Cohort

structure Binary64 where
  bits : UInt64
  deriving DecidableEq, Repr

namespace Binary64

def isNegative (x : Binary64) : Bool := x.bits >>> 63 != 0

def exponentField (x : Binary64) : Nat := (x.bits >>> 52 &&& 0x7ff).toNat

def fraction (x : Binary64) : Nat := (x.bits &&& 0xfffffffffffff).toNat

def isNaN (x : Binary64) : Bool := x.exponentField == 2047 && x.fraction != 0

def isInfinite (x : Binary64) : Bool := x.exponentField == 2047 && x.fraction == 0

/-- The leading bit of a normal significand, which the fraction leaves out: `2 ^ 52`. -/
def hiddenBit : Nat := 0x10_0000_0000_0000

/-- How many times the smallest positive double fits into 1: `2 ^ 1074`. -/
def unitsPerOne : Nat := Nat.pow 2 1074

def significand (x : Binary64) : Nat :=
  if x.exponentField = 0 then x.fraction else x.fraction + hiddenBit

/-- The power of two that the significand is multiplied by, counted from the smallest one. -/
def shift (x : Binary64) : Nat := x.exponentField - 1

/-- `|x|` as a multiple of `2 ^ -1074`; an infinity lies above every finite number. -/
def magnitude (x : Binary64) : Nat := x.significand * Nat.pow 2 x.shift

/-- `x` as a multiple of `2 ^ -1074`. -/
def scaled (x : Binary64) : Int := if x.isNegative then -x.magnitude else x.magnitude

/-- Whether `0 ≤ x ≤ 1`, which no NaN satisfies. -/
def inUnitInterval (x : Binary64) : Bool :=
  !x.isNaN && 0 ≤ x.scaled && x.scaled ≤ unitsPerOne

/-- `x < y`, false if either is a NaN. -/
def lt (x y : Binary64) : Bool := !x.isNaN && !y.isNaN && x.scaled < y.scaled

/-- `⌊x * 2 ^ 64⌋`, kept between 0 and `2 ^ 128 - 1`; a NaN counts as 0. -/
def timesTwoPow64 (x : Binary64) : Nat :=
  if x.isNaN || x.isNegative then 0
  else min (x.magnitude * Nat.pow 2 64 / unitsPerOne) (Nat.pow 2 128 - 1)

/-- `num / den` rounded to the nearest whole number, a half to the even one. -/
def roundHalfEven (num den : Nat) : Nat :=
  let q := num / den
  let twice := 2 * (num % den)
  if twice < den || twice == den && q % 2 == 0 then q else q + 1

/-- The bits, without the sign, of the double nearest to `num / den`. -/
def nearestBits (num den : Nat) : Nat :=
  let num := num * unitsPerOne
  let shift := (num / den).log2 - 52
  shift * hiddenBit + roundHalfEven num (den * Nat.pow 2 shift)

def decimalLength (n : Nat) : Nat := (Nat.toDigits 10 n).length

/-- The double nearest to `digits * 10 ^ exponent`, negated if asked for. -/
def ofDecimal? (negative : Bool) (digits : Nat) (exponent : Int) : Option Binary64 :=
  let sign : UInt64 := if negative then 0x8000000000000000 else 0
  if digits = 0 || exponent + decimalLength digits < -400 then some ⟨sign⟩
  else if exponent > 400 then none
  else
    let bits :=
      if 0 ≤ exponent then nearestBits (digits * Nat.pow 10 exponent.toNat) 1
      else nearestBits digits (Nat.pow 10 (-exponent).toNat)
    if bits < 2047 * hiddenBit then some ⟨sign ||| bits.toUInt64⟩ else none

/-- The whole number nearest to `num / den` among its two neighbours that lie between `lo / den`
and `hi / den`, ends included if `closed`. -/
def nearestWithin? (num den lo hi : Nat) (closed : Bool) : Option Nat :=
  let within (n : Nat) : Bool :=
    if closed then lo ≤ n * den && n * den ≤ hi else lo < n * den && n * den < hi
  let below := num / den
  let above := below + 1
  match within below, within above with
  | true, true => some (if 2 * (num % den) < den then below else above)
  | true, false => some below
  | false, true => some above
  | false, false => none

/-- The shortest decimal `n * 10 ^ k` that reads back as the positive double `x`, as `(n, k)`.
The grids `10 ^ k` are tried from the coarsest on. -/
def shortest (x : Binary64) : Nat × Int :=
  let unit := Nat.pow 2 x.shift
  let num := 4 * x.magnitude
  let lo := num - (if x.significand = hiddenBit && x.shift > 0 then unit else 2 * unit)
  let hi := num + 2 * unit
  let closed := x.significand % 2 == 0
  let den := 4 * unitsPerOne
  let top : Int :=
    if den ≤ num then decimalLength (num / den) else 1 - decimalLength (den / num)
  let attempt (k : Int) : Option (Nat × Int) :=
    if 0 ≤ k then (nearestWithin? num (den * Nat.pow 10 k.toNat) lo hi closed).map (·, k)
    else
      let scale := Nat.pow 10 (-k).toNat
      (nearestWithin? (num * scale) den (lo * scale) (hi * scale) closed).map (·, k)
  ((List.range 20).findSome? fun (d : Nat) => attempt (top - d)).getD (0, 0)

/-- `n * 10 ^ k` in positional notation. -/
def positional (n : Nat) (k : Int) : String :=
  let digits := Nat.toDigits 10 n
  if 0 ≤ k then .ofList (digits ++ List.replicate k.toNat '0')
  else
    let places := (-k).toNat
    let padded := List.replicate (places + 1 - digits.length) '0' ++ digits
    let whole := padded.length - places
    .ofList (padded.take whole ++ '.' :: padded.drop whole)

def toText (x : Binary64) : String :=
  if x.isNaN then "NaN"
  else
    let sign := if x.isNegative then "-" else ""
    if x.isInfinite then sign ++ "inf"
    else if x.magnitude = 0 then sign ++ "0"
    else sign ++ positional x.shortest.1 x.shortest.2

end Binary64

end Cohort
