import RowFilter.Binary64.Shortest
import RowFilter.Text.Decimal

namespace RowFilter.Binary64

structure Layout where
  /-- How a digit is chosen between two equally near ones. -/
  tie : Tie
  /-- The exponents of the leading digit that are written without an exponent. -/
  isPlain : Int → Bool
  /-- Whether a whole number ends in a point and a zero. -/
  keepsPoint : Bool

/-- No exponent and no superfluous point. -/
def Layout.plain : Layout := ⟨.upward, fun _ => true, false⟩

/-- Sixteen and more digits before the point, or five zeros after it, call for an exponent. -/
def Layout.scientific : Layout := ⟨.even, fun e => -5 ≤ e && e ≤ 15, true⟩

/-- The digits of `coefficient * 10 ^ exponent` around a point. -/
def Decimal.plain (d : Decimal) (keepsPoint : Bool) : List Char :=
  let ds := Text.natural d.coefficient
  if 0 ≤ d.exponent then
    ds ++ List.replicate d.exponent.toNat '0' ++ (if keepsPoint then ['.', '0'] else [])
  else
    let places := (-d.exponent).toNat
    if places < ds.length then
      ds.take (ds.length - places) ++ '.' :: ds.drop (ds.length - places)
    else
      '0' :: '.' :: List.replicate (places - ds.length) '0' ++ ds

/-- One digit, a point before any further ones, and the exponent of the first with its sign. -/
def Decimal.scientific (d : Decimal) : List Char :=
  let ds := Text.natural d.coefficient
  let e := d.exponent + (ds.length - 1 : Nat)
  let tail := if ds.length ≤ 1 then [] else '.' :: ds.drop 1
  ds.take 1 ++ tail ++ 'e' :: (if e < 0 then '-' else '+') :: Text.natural e.natAbs

def Decimal.leading (d : Decimal) : Int :=
  d.exponent + ((Text.natural d.coefficient).length - 1 : Nat)

/-- A finite number under a layout; zero keeps its sign. -/
def layOut (l : Layout) (x : Binary64) : List Char :=
  let d : Decimal := if x.isZero then ⟨0, 0⟩ else x.shortest l.tie
  let body := if l.isPlain d.leading then d.plain l.keepsPoint else d.scientific
  if x.isNegative then '-' :: body else body

/-- The text shown to a person. -/
def plainText (x : Binary64) : String :=
  if x.isNaN then "NaN"
  else if x.isFinite then String.ofList (x.layOut .plain)
  else if x.isNegative then "-inf" else "inf"

/-- The text shown to a person where a number has to look like a fraction. -/
def pointedText (x : Binary64) : String :=
  if x.isFinite then String.ofList (x.layOut { Layout.plain with keepsPoint := true })
  else x.plainText

/-- The text inside a JSON document, for a finite number. -/
def scientificText (x : Binary64) : String := String.ofList (x.layOut .scientific)

example : plainText ⟨0x3e7ad7f29abcaf48⟩ = "0.0000001" := by decide +kernel
example : plainText ⟨0x8000000000000000⟩ = "-0" := by decide +kernel
example : scientificText ⟨0x4341c37937e08000⟩ = "1e+16" := by decide +kernel
example : scientificText ⟨0x3ff8000000000000⟩ = "1.5" := by decide +kernel
example : scientificText ⟨1⟩ = "5e-324" := by decide +kernel

end RowFilter.Binary64
