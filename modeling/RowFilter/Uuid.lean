import RowFilter.Text.Hex

namespace RowFilter

structure Uuid where
  number : Nat
  bounded : number < 0x100000000000000000000000000000000
  deriving DecidableEq, Repr

namespace Uuid

def groups : List Nat := [8, 4, 4, 4, 12]

/-- Cuts digits into groups with a hyphen between two. -/
def hyphenate : List Nat → List Char → List Char
  | n :: m :: rest, cs => cs.take n ++ '-' :: hyphenate (m :: rest) (cs.drop n)
  | _, cs => cs

/-- Takes the hyphens out again, if they stand where the groups end. -/
def dehyphenate? : List Nat → List Char → Option (List Char)
  | n :: m :: rest, cs =>
    match cs.drop n with
    | '-' :: tail => (dehyphenate? (m :: rest) tail).map (cs.take n ++ ·)
    | _ => none
  | _, cs => some cs

def text (u : Uuid) : String := String.ofList (hyphenate groups (Text.hexDigits 32 u.number))

def ofNat? (n : Nat) : Option Uuid :=
  if h : n < 0x100000000000000000000000000000000 then some ⟨n, h⟩ else none

def ofDigits? (cs : List Char) : Option Uuid := do
  if cs.length ≠ 32 then none
  let n ← Text.hexNumber? cs
  ofNat? n

def ofHyphenated? (cs : List Char) : Option Uuid :=
  if cs.length ≠ 36 then none else (dehyphenate? groups cs).bind ofDigits?

def unbrace? : List Char → Option (List Char)
  | '{' :: cs => if cs.getLast? = some '}' then some cs.dropLast else none
  | _ => none

def urn : List Char := "urn:uuid:".toList

def parse? (s : String) : Option Uuid :=
  let cs := s.toList
  if cs.length = 32 then ofDigits? cs
  else if cs.length = 36 then ofHyphenated? cs
  else if cs.length = 38 then (unbrace? cs).bind ofHyphenated?
  else if (cs.take urn.length).map Char.toLower = urn then ofHyphenated? (cs.drop urn.length)
  else none

example : (parse? "Urn:uuid:00000000-0000-0000-0000-0000000000FF").map text =
    some "00000000-0000-0000-0000-0000000000ff" := by decide +kernel
example : parse? "\x7b000000000000000000000000000000ff\x7d" = none := by decide +kernel

end Uuid

end RowFilter
