import RowFilter.Json.Basic
import RowFilter.Json.Problem

/-! `Numeral.scan` cuts a numeral off the front of a text and `Numeral.value?` says which number it
denotes: without point and exponent an integer of 64 bits, if it fits, and otherwise a
double-precision number. That number is reached in steps of double precision and is not always the
nearest one. The digits are gathered as long as they fit sixty-four bits (`Gathered`); the whole
that results is rounded, then multiplied or divided by a rounded power of ten (`scaled`). -/

namespace RowFilter.Json

structure Numeral where
  negative : Bool
  whole : List Char
  /-- The digits after the point, none if there is no point. -/
  fraction : List Char
  /-- Whether the exponent is negative, and its digits. -/
  exponent : Option (Bool × List Char)
  deriving DecidableEq, Repr

namespace Numeral

/-- Digits that have to be there, and what follows them. -/
def scanDigits (cs : List Char) : Except Problem (List Char × List Char) :=
  match Text.leadingDigits cs with
  | [] => .error (Problem.at cs)
  | ds => .ok (ds, Text.afterDigits cs)

/-- The whole part; a zero stands alone. -/
def scanWhole (cs : List Char) : Except Problem (List Char × List Char) :=
  match scanDigits cs with
  | .ok ('0' :: _ :: _, _) => .error .malformed
  | r => r

def scanFraction : List Char → Except Problem (List Char × List Char)
  | '.' :: cs => scanDigits cs
  | cs => .ok ([], cs)

/-- An exponent without a sign is positive. -/
def scanSigned : List Char → Except Problem ((Bool × List Char) × List Char)
  | '-' :: cs => (scanDigits cs).map fun r => ((true, r.1), r.2)
  | '+' :: cs => (scanDigits cs).map fun r => ((false, r.1), r.2)
  | cs => (scanDigits cs).map fun r => ((false, r.1), r.2)

def scanExponent : List Char → Except Problem (Option (Bool × List Char) × List Char)
  | 'e' :: cs => (scanSigned cs).map fun r => (some r.1, r.2)
  | 'E' :: cs => (scanSigned cs).map fun r => (some r.1, r.2)
  | cs => .ok (none, cs)

def scanSign : List Char → Bool × List Char
  | '-' :: cs => (true, cs)
  | cs => (false, cs)

/-- The longest numeral at the front of a text. -/
def scan (cs : List Char) : Except Problem (Numeral × List Char) := do
  let (negative, cs) := scanSign cs
  let (whole, cs) ← scanWhole cs
  let (fraction, cs) ← scanFraction cs
  let (exponent, cs) ← scanExponent cs
  return (⟨negative, whole, fraction, exponent⟩, cs)

/-- A whole that fits sixty-four bits, times a power of ten. -/
structure Gathered where
  whole : Nat
  exponent : Int
  deriving DecidableEq, Repr

/-- Whether one more digit would still fit. -/
def Gathered.fits (g : Gathered) (c : Char) : Bool :=
  10 * g.whole + (c.toNat - 48) < 0x10000000000000000

/-- Digits before the point: from the first that does not fit on, each only counts as a place. -/
def gatherWhole (g : Gathered) : List Char → Gathered
  | [] => g
  | c :: cs =>
    if g.exponent = 0 ∧ g.fits c then gatherWhole ⟨10 * g.whole + (c.toNat - 48), 0⟩ cs
    else gatherWhole ⟨g.whole, g.exponent + 1⟩ cs

/-- Digits after the point: from the first that does not fit on, they are dropped. -/
def gatherFraction (g : Gathered) : List Char → Gathered
  | [] => g
  | c :: cs =>
    if g.fits c then gatherFraction ⟨10 * g.whole + (c.toNat - 48), g.exponent - 1⟩ cs else g

/-- Brings a very small exponent into the range of the powers of ten. -/
def raise (x : Binary64) (exponent : Int) : Binary64 × Int :=
  if h : exponent < -308 then
    if x.isZero then (x, 0) else raise (x.div (.powerOfTen 308)) (exponent + 308)
  else (x, exponent)
termination_by (-exponent).toNat
decreasing_by omega

/-- The whole times ten to the exponent, unless it is past all finite numbers. -/
def scaled (whole : Nat) (exponent : Int) : Option Binary64 :=
  let x := Binary64.ofNat whole
  if exponent < 0 then
    let (x, exponent) := raise x exponent
    some (x.div (.powerOfTen (-exponent).toNat))
  else if exponent ≤ 308 then
    let y := x.mul (.powerOfTen exponent.toNat)
    if y.isFinite then some y else none
  else if x.isZero then some x
  else none

/-- Exponents of ten digits and more are beyond all that matter. -/
def exponentLimit : Nat := 0x7fffffff

/-- The magnitude of a numeral that has a point or an exponent, or does not fit as an integer. -/
def magnitude (n : Numeral) : Option Binary64 :=
  let g := gatherFraction (gatherWhole ⟨0, 0⟩ n.whole) n.fraction
  match n.exponent with
  | none => scaled g.whole g.exponent
  | some (negative, ds) =>
    let e := Text.naturalOf ds
    if exponentLimit < e then
      if g.whole ≠ 0 && !negative then none else some .zero
    else scaled g.whole (if negative then g.exponent - e else g.exponent + e)

def integer? (n : Numeral) : Option Number :=
  let k := Text.naturalOf n.whole
  if n.fraction ≠ [] ∨ n.exponent ≠ none ∨ (n.negative ∧ k = 0) then none
  else Number.ofInt? (if n.negative then -(k : Int) else k)

/-- The number a numeral denotes, if it is finite. -/
def value? (n : Numeral) : Option Number :=
  match n.integer? with
  | some k => some k
  | none => n.magnitude.bind fun x => Number.ofBinary64? (if n.negative then x.neg else x)

/-! ## What is left is shorter -/

theorem scanDigits_length {cs ds rest : List Char} (h : scanDigits cs = .ok (ds, rest)) :
    rest.length < cs.length := by
  unfold scanDigits at h
  split at h
  · cases h
  · next hne =>
    cases h
    have split := congrArg List.length (Text.leadingDigits_append_afterDigits cs)
    have some : 0 < (Text.leadingDigits cs).length := List.length_pos_iff.mpr (by simpa using hne)
    rw [List.length_append] at split
    omega

theorem scanWhole_length {cs ds rest : List Char} (h : scanWhole cs = .ok (ds, rest)) :
    rest.length < cs.length := by
  unfold scanWhole at h
  split at h
  · cases h
  · exact scanDigits_length h

theorem scanFraction_length {cs ds rest : List Char} (h : scanFraction cs = .ok (ds, rest)) :
    rest.length ≤ cs.length := by
  unfold scanFraction at h
  split at h
  · exact Nat.le_succ_of_le (Nat.le_of_lt (scanDigits_length h))
  · cases h; exact Nat.le_refl _

theorem scanSigned_length {cs rest : List Char} {e} (h : scanSigned cs = .ok (e, rest)) :
    rest.length < cs.length := by
  unfold scanSigned at h
  split at h <;>
  · simp only [Except.map] at h
    split at h
    · cases h
    · next hs => cases h; have := scanDigits_length hs; grind

theorem scanExponent_length {cs rest : List Char} {e} (h : scanExponent cs = .ok (e, rest)) :
    rest.length ≤ cs.length := by
  unfold scanExponent at h
  split at h
  · simp only [Except.map] at h
    split at h
    · cases h
    · next hs => cases h; have := scanSigned_length hs; grind
  · simp only [Except.map] at h
    split at h
    · cases h
    · next hs => cases h; have := scanSigned_length hs; grind
  · cases h; exact Nat.le_refl _

theorem scanSign_length (cs : List Char) : (scanSign cs).2.length ≤ cs.length := by
  unfold scanSign
  split
  · exact Nat.le_succ _
  · exact Nat.le_refl _

/-- A numeral has at least one character. -/
theorem scan_length {cs rest : List Char} {n} (h : scan cs = .ok (n, rest)) :
    rest.length < cs.length := by
  simp only [scan, bind, Except.bind, pure, Except.pure] at h
  have sign := scanSign_length cs
  split at h
  · cases h
  · next whole =>
    split at h
    · cases h
    · next fraction =>
      split at h
      · cases h
      · next exponent =>
        cases h
        have := scanWhole_length whole
        have := scanFraction_length fraction
        have := scanExponent_length exponent
        omega

end Numeral

end RowFilter.Json
