import RowFilter.Calendar.Date
import RowFilter.Text.Decimal
import RowFilter.Text.Hex
import RowFilter.Toml.Basic

/-!
# The words of TOML

Scanners for blanks, comments, keys, strings, numbers, dates and times. Each
takes its word off the front of a text, or fails: a text that is not TOML has no
finer diagnosis.
-/

namespace RowFilter.Toml

/-! ## Blanks and comments -/

def isBlank (c : Char) : Bool := c == ' ' || c == '\t'

def skipBlanks (cs : List Char) : List Char := cs.dropWhile isBlank

/-- Characters that need no escape anywhere; the tab is the only control among them. -/
def isPlain (c : Char) : Bool := c == '\t' || (32 ≤ c.toNat && c.toNat != 127)

/-- A line end, with or without a carriage return. -/
def newLine? : List Char → Option (List Char)
  | '\n' :: cs => some cs
  | '\r' :: '\n' :: cs => some cs
  | _ => none

def skipComment : List Char → List Char
  | '#' :: cs => cs.dropWhile isPlain
  | cs => cs

/-- Blanks and a comment up to the end of the line. -/
def restOfLine? (cs : List Char) : Option (List Char) :=
  match skipComment (skipBlanks cs) with
  | [] => some []
  | cs => newLine? cs

/-- Blanks and line ends. -/
def skipLines : List Char → List Char
  | '\r' :: '\n' :: cs => skipLines cs
  | c :: cs => if c = '\n' ∨ isBlank c then skipLines cs else c :: cs
  | [] => []

/-- Blanks, comments and line ends between the items of an array. -/
def skipTrivia : Nat → List Char → List Char
  | 0, cs => cs
  | steps + 1, cs =>
    match skipLines cs with
    | '#' :: cs =>
      match newLine? (cs.dropWhile isPlain) with
      | some cs => skipTrivia steps cs
      | none => '#' :: cs
    | cs => cs

/-! ## Strings -/

/-- The character with the code point in the first `width` digits. -/
def codePoint? (width : Nat) (cs : List Char) : Option (Char × List Char) := do
  let digits := cs.take width
  if digits.length ≠ width then none
  let n ← Text.hexNumber? digits
  if n.isValidChar then some (Char.ofNat n, cs.drop width) else none

def shortEscape? : Char → Option Char
  | 'b' => some '\x08'
  | 't' => some '\t'
  | 'n' => some '\n'
  | 'f' => some '\x0c'
  | 'r' => some '\r'
  | '"' => some '"'
  | '\\' => some '\\'
  | _ => none

/-- What follows a backslash. -/
def escape? : List Char → Option (Char × List Char)
  | 'u' :: cs => codePoint? 4 cs
  | 'U' :: cs => codePoint? 8 cs
  | c :: cs => (shortEscape? c).map fun d => (d, cs)
  | [] => none

/-- A string on one line, after its opening quote. -/
def basic? : Nat → List Char → Option (List Char × List Char)
  | 0, _ => none
  | steps + 1, cs =>
    match cs with
    | '"' :: cs => some ([], cs)
    | '\\' :: cs => do
      let (c, cs) ← escape? cs
      let (s, cs) ← basic? steps cs
      return (c :: s, cs)
    | c :: cs =>
      if isPlain c then (basic? steps cs).map fun r => (c :: r.1, r.2) else none
    | [] => none

/-- A string without escapes on one line, after its opening quote. -/
def literal? (cs : List Char) : Option (List Char × List Char) :=
  match cs.dropWhile fun c => isPlain c && c != '\'' with
  | '\'' :: rest => some (cs.takeWhile fun c => isPlain c && c != '\'', rest)
  | _ => none

/-- The run of a quote at the front. -/
def quotes (q : Char) (cs : List Char) : Nat := (cs.takeWhile (· == q)).length

/-- A string over lines after its three opening quotes, with escapes or without. One or two
quotes are content, and up to two may stand before the three that close. -/
def multiline? (q : Char) (escapes : Bool) : Nat → List Char → Option (List Char × List Char)
  | 0, _ => none
  | steps + 1, cs =>
    let n := quotes q cs
    if 3 ≤ n then
      if n ≤ 5 then some (List.replicate (n - 3) q, cs.drop n) else none
    else if 1 ≤ n then
      (multiline? q escapes steps (cs.drop n)).map fun r => (List.replicate n q ++ r.1, r.2)
    else
      match newLine? cs, cs with
      | some cs, _ => (multiline? q escapes steps cs).map fun r => ('\n' :: r.1, r.2)
      | none, [] => none
      | none, c :: cs =>
        if escapes && c == '\\' then
          match newLine? (skipBlanks cs) with
          | some cs => multiline? q escapes steps (skipLines cs)
          | none => do
            let (c, cs) ← escape? cs
            let (s, cs) ← multiline? q escapes steps cs
            return (c :: s, cs)
        else if isPlain c then
          (multiline? q escapes steps cs).map fun r => (c :: r.1, r.2)
        else none

/-- A line end straight after the opening quotes is not content. -/
def opened (cs : List Char) : List Char := (newLine? cs).getD cs

/-- A string of any of the four kinds, if a quote begins one. -/
def string? : List Char → Option (List Char × List Char)
  | '"' :: '"' :: '"' :: cs => multiline? '"' true (cs.length + 1) (opened cs)
  | '\'' :: '\'' :: '\'' :: cs => multiline? '\'' false (cs.length + 1) (opened cs)
  | '"' :: cs => basic? (cs.length + 1) cs
  | '\'' :: cs => literal? cs
  | _ => none

/-! ## Keys -/

def isBare (c : Char) : Bool := c.isAlphanum || c == '-' || c == '_'

def simpleKey? (cs : List Char) : Option (String × List Char) :=
  match cs with
  | '"' :: cs => (basic? (cs.length + 1) cs).map fun r => (String.ofList r.1, r.2)
  | '\'' :: cs => (literal? cs).map fun r => (String.ofList r.1, r.2)
  | cs =>
    match cs.takeWhile isBare with
    | [] => none
    | name => some (String.ofList name, cs.dropWhile isBare)

/-- Names with dots between, and the blanks around them. -/
def names? : Nat → List Char → Option (List String × List Char)
  | 0, _ => none
  | steps + 1, cs => do
    let (name, cs) ← simpleKey? (skipBlanks cs)
    match skipBlanks cs with
    | '.' :: cs =>
      let (more, cs) ← names? steps cs
      return (name :: more, cs)
    | cs => return ([name], cs)

/-- How deep arrays, braces and the names of a key may go. -/
def depthLimit : Nat := 79

/-- A key as a path and a last name. -/
def key? (cs : List Char) : Option ((List String × String) × List Char) := do
  let (names, cs) ← names? (cs.length + 1) cs
  let last ← names.getLast?
  if names.length ≤ depthLimit then some ((names.dropLast, last), cs) else none

/-! ## Numbers -/

/-- Digits, single underscores between them left out. -/
def groups? (isDigit : Char → Bool) : List Char → Option (List Char × List Char)
  | [] => none
  | [c] => if isDigit c then some ([c], []) else none
  | c :: '_' :: cs =>
    if isDigit c then (groups? isDigit cs).map fun r => (c :: r.1, r.2) else none
  | c :: d :: cs =>
    if isDigit c then
      if isDigit d then (groups? isDigit (d :: cs)).map fun r => (c :: r.1, r.2)
      else some ([c], d :: cs)
    else none

/-- The whole part of a decimal number: a zero stands alone. -/
def whole? : List Char → Option (List Char × List Char)
  | '0' :: cs => some (['0'], cs)
  | cs => groups? Char.isDigit cs

def sign : List Char → Bool × List Char
  | '-' :: cs => (true, cs)
  | '+' :: cs => (false, cs)
  | cs => (false, cs)

def fraction? : List Char → Option (List Char × List Char)
  | '.' :: cs => groups? Char.isDigit cs
  | cs => some ([], cs)

def exponent? (cs : List Char) : Option (Int × List Char) :=
  match cs with
  | c :: rest =>
    if c = 'e' ∨ c = 'E' then do
      let (negative, rest) := sign rest
      let (ds, rest) ← groups? Char.isDigit rest
      let n : Int := Text.naturalOf ds
      return (if negative then -n else n, rest)
    else some (0, cs)
  | [] => some (0, cs)

/-- An integer of sixty-four bits. -/
def fitting? (n : Int) : Option Item :=
  if -0x8000000000000000 ≤ n ∧ n < 0x8000000000000000 then some (.integer n) else none

/-- A number too large for a float is refused, though not one that is negative. -/
def finite? (x : Binary64) : Option Item :=
  if x.isFinite || x.isNegative then some (.float x) else none

/-- A decimal number: a float if it has a point or an exponent. -/
def decimal? (cs : List Char) : Option (Item × List Char) := do
  let (negative, cs) := sign cs
  let (whole, cs) ← whole? cs
  let (fraction, after) ← fraction? cs
  let (exponent, rest) ← exponent? after
  if rest.length = cs.length then
    let n : Int := Text.naturalOf whole
    return (← fitting? (if negative then -n else n), rest)
  else
    let x := Binary64.ofDecimal negative (Text.naturalOf (whole ++ fraction))
      (exponent - fraction.length)
    return (← finite? x, rest)

/-- The number that digits of a base below seventeen denote. -/
def inBase (base : Nat) (ds : List Char) : Nat :=
  ds.foldl (fun n c => base * n + (Text.hexValue? c).getD 0) 0

def isHexDigit (c : Char) : Bool := (Text.hexValue? c).isSome

def isOctalDigit (c : Char) : Bool := '0' ≤ c && c ≤ '7'

def isBinaryDigit (c : Char) : Bool := c == '0' || c == '1'

/-- An integer in another base, after its two-character mark. -/
def based? (base : Nat) (isDigit : Char → Bool) (cs : List Char) :
    Option (Item × List Char) := do
  let (ds, cs) ← groups? isDigit cs
  return (← fitting? (inBase base ds), cs)

def infinity (negative : Bool) : Binary64 := .ofMagnitude negative Binary64.infinityBits

def notANumber (negative : Bool) : Binary64 :=
  .ofMagnitude negative (Binary64.infinityBits + Binary64.hidden / 2)

def number? (cs : List Char) : Option (Item × List Char) :=
  match cs with
  | '0' :: 'x' :: cs => based? 16 isHexDigit cs
  | '0' :: 'o' :: cs => based? 8 isOctalDigit cs
  | '0' :: 'b' :: cs => based? 2 isBinaryDigit cs
  | _ =>
    match sign cs with
    | (negative, 'i' :: 'n' :: 'f' :: cs) => some (.float (infinity negative), cs)
    | (negative, 'n' :: 'a' :: 'n' :: cs) => some (.float (notANumber negative), cs)
    | _ => decimal? cs

/-! ## Dates and times -/

/-- A number of exactly `width` digits within a range. -/
def part? (width least most : Nat) (cs : List Char) : Option (Nat × List Char) :=
  let ds := cs.take width
  if ds.length = width ∧ ds.all Char.isDigit then
    let n := Text.naturalOf ds
    if least ≤ n ∧ n ≤ most then some (n, cs.drop width) else none
  else none

def mark? (m : Char) : List Char → Option (List Char)
  | c :: cs => if c = m then some cs else none
  | [] => none

def date? (cs : List Char) : Option (List Char) := do
  let (year, cs) ← part? 4 0 9999 cs
  let cs ← mark? '-' cs
  let (month, cs) ← part? 2 1 12 cs
  let cs ← mark? '-' cs
  let (_, cs) ← part? 2 1 (Calendar.daysIn year month) cs
  return cs

/-- A fraction of a second, if there are digits after a point. -/
def skipFraction : List Char → List Char
  | '.' :: c :: cs => if c.isDigit then cs.dropWhile Char.isDigit else '.' :: c :: cs
  | cs => cs

def time? (cs : List Char) : Option (List Char) := do
  let (_, cs) ← part? 2 0 23 cs
  let cs ← mark? ':' cs
  let (_, cs) ← part? 2 0 59 cs
  let cs ← mark? ':' cs
  let (_, cs) ← part? 2 0 60 cs
  return skipFraction cs

/-- An offset, which may be missing. -/
def offset? : List Char → Option (List Char)
  | c :: cs =>
    if c = 'Z' ∨ c = 'z' then some cs
    else if c = '+' ∨ c = '-' then do
      let (_, cs) ← part? 2 0 23 cs
      let cs ← mark? ':' cs
      let (_, cs) ← part? 2 0 59 cs
      return cs
    else some (c :: cs)
  | [] => some []

/-- Whether the text begins with `width` digits and a mark, which settles what it has to be. -/
def begins (width : Nat) (m : Char) (cs : List Char) : Bool :=
  (cs.take width).length == width && (cs.take width).all Char.isDigit &&
    (cs.drop width).head? == some m

/-- A time after a date, if one follows. -/
def timeAfterDate? (cs : List Char) : Option (List Char) :=
  match cs with
  | c :: rest =>
    if (c = 'T' ∨ c = 't' ∨ c = ' ') ∧ begins 2 ':' rest then (time? rest).bind offset?
    else some cs
  | [] => some []

def dateOrNumber? (cs : List Char) : Option (Item × List Char) :=
  if begins 4 '-' cs then ((date? cs).bind timeAfterDate?).map fun cs => (.dateTime, cs)
  else if begins 2 ':' cs then (time? cs).map fun cs => (.dateTime, cs)
  else number? cs

end RowFilter.Toml
