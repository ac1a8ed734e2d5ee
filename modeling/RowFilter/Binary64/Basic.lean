/-! A number is the 64 bits that encode it, so that two numbers are the same exactly when their bits
are. Every operation is arithmetic on natural numbers: `significand * 2 ^ scale` is the magnitude,
and results are rounded once, by `nearest`. -/

namespace RowFilter

/-- A double-precision number: a sign bit, eleven bits of exponent, fifty-two of fraction. -/
structure Binary64 where
  bits : UInt64
  deriving DecidableEq, Repr

namespace Binary64

/-- One bit past the fraction: the weight of the hidden leading bit. -/
def hidden : Nat := 0x10000000000000

def signBit : Nat := 0x8000000000000000

/-- The magnitude bits of infinity. Larger magnitudes are NaNs. -/
def infinityBits : Nat := 2047 * hidden

def magnitude (x : Binary64) : Nat := x.bits.toNat % signBit

def isNegative (x : Binary64) : Bool := signBit ≤ x.bits.toNat

def isNaN (x : Binary64) : Bool := infinityBits < x.magnitude

def isFinite (x : Binary64) : Bool := x.magnitude < infinityBits

def isZero (x : Binary64) : Bool := x.magnitude == 0

/-- A magnitude below infinity is never reached by the sign bit. -/
def ofMagnitude (negative : Bool) (magnitude : Nat) : Binary64 :=
  ⟨UInt64.ofNat (if negative then signBit + magnitude else magnitude)⟩

def zero : Binary64 := ⟨0⟩

def neg (x : Binary64) : Binary64 := ofMagnitude (!x.isNegative) x.magnitude

def exponentField (x : Binary64) : Nat := x.magnitude / hidden

/-- The integer that the scale multiplies; numbers with exponent field zero have no hidden bit. -/
def significand (x : Binary64) : Nat :=
  if x.exponentField = 0 then x.magnitude else hidden + x.magnitude % hidden

/-- The power of two that multiplies the significand. -/
def scale (x : Binary64) : Int := (max x.exponentField 1 : Nat) - 1075

def equal (x y : Binary64) : Bool :=
  !x.isNaN && !y.isNaN && (x.bits == y.bits || (x.isZero && y.isZero))

/-- `num / den` as a quotient of naturals over `2 ^ e`. -/
def overPower (num den : Nat) (e : Int) : Nat × Nat :=
  (num <<< (-e).toNat, den <<< e.toNat)

/-- The quotient of `num` by `den`, rounded to the nearest natural, a tie going to the even one. -/
def roundEven (num den : Nat) : Nat :=
  let q := num / den
  let r := num % den
  if den < 2 * r || (2 * r == den && q % 2 == 1) then q + 1 else q

/-- The exponent at which `num / den` has fifty-three bits, or the least exponent there is. -/
def exponentOf (num den : Nat) : Int :=
  let e : Int := (num.log2 : Int) - den.log2 - 52
  let (n, d) := overPower num den e
  max (if n / d < hidden then e - 1 else e) (-1074)

/-- The magnitude nearest to `num / den`; infinity when it is past the largest finite one.
A carry out of the fraction raises the exponent by itself, since the fields are adjacent. -/
def nearest (num den : Nat) : Nat :=
  if num = 0 then 0 else
    let e := exponentOf num den
    let (n, d) := overPower num den e
    min ((e + 1074).toNat * hidden + roundEven n d) infinityBits

def ofNat (n : Nat) : Binary64 := ofMagnitude false (nearest n 1)

def ofInt (n : Int) : Binary64 := ofMagnitude (n < 0) (nearest n.natAbs 1)

/-- The rounded product of two finite numbers. -/
def mul (x y : Binary64) : Binary64 :=
  let (n, d) := overPower (x.significand * y.significand) 1 (-(x.scale + y.scale))
  ofMagnitude (x.isNegative != y.isNegative) (nearest n d)

/-- The rounded quotient of two finite numbers, the divisor not zero. -/
def div (x y : Binary64) : Binary64 :=
  let (n, d) := overPower x.significand y.significand (y.scale - x.scale)
  ofMagnitude (x.isNegative != y.isNegative) (nearest n d)

/-- The number nearest to a power of ten. -/
def powerOfTen (k : Nat) : Binary64 := ofNat (Nat.pow 10 k)

/-- The number nearest to `coefficient * 10 ^ exponent`, or an infinity. Decimals that are past
every finite number, or nearer to zero than to any other, are told by the place of their leading
digit. -/
def ofDecimal (negative : Bool) (coefficient : Nat) (exponent : Int) : Binary64 :=
  let places := exponent + (coefficient.log2 * 30103 / 100000 : Nat)
  ofMagnitude negative <|
    if coefficient = 0 ∨ places < -400 then 0
    else if 400 < places then infinityBits
    else nearest (coefficient * Nat.pow 10 exponent.toNat) (Nat.pow 10 (-exponent).toNat)

example : ofNat 1 = ⟨0x3ff0000000000000⟩ := by decide +kernel
example : (ofNat 1).div (ofNat 10) = ⟨0x3fb999999999999a⟩ := by decide +kernel
example : (powerOfTen 308).isFinite = true ∧ (powerOfTen 309).isFinite = false := by decide +kernel

end Binary64

end RowFilter
