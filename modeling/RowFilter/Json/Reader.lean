import RowFilter.Binary64.Text
import RowFilter.Json.Token

/-!
# Reading JSON

A reader takes a value off the front of a list of tokens, or says which problem
it met first. Readers of lists and objects are given the reader of what they
hold; how deep brackets may still nest is a budget that each bracket spends.

* `value`: any value;
* `string`, `integer`, `binary64`, `boolean`, `nothing`: a value of one type;
* `parse`: a whole text, with nothing but blanks after the value.
-/

namespace RowFilter.Json

/-- Takes a value off the front and leaves the tokens after it. -/
abbrev Reader (α : Type) : Type := List Token → Except Problem (α × List Token)

/-- The number of brackets that may be open at once. -/
def depthLimit : Nat := 127

/-! ## Lists and objects -/

/-- The items after the first, up to the closing bracket. Each takes a token, so that as many
steps as there are tokens always suffice. -/
def moreItems {α : Type} (item : Reader α) : Nat → Reader (List α)
  | _, .closeList :: ts => .ok ([], ts)
  | _, .comma :: .closeList :: _ => .error .malformed
  | steps + 1, .comma :: ts => do
    let (a, ts) ← item ts
    let (as, ts) ← moreItems item steps ts
    return (a :: as, ts)
  | _, ts => .error (Problem.at ts)

/-- The items after the opening bracket. -/
def items {α : Type} (item : Reader α) : Reader (List α)
  | .closeList :: ts => .ok ([], ts)
  | ts => do
    let (a, rest) ← item ts
    let (as, rest) ← moreItems item ts.length rest
    return (a :: as, rest)

def name : Reader String
  | .str s :: ts => .ok (s, ts)
  | .brokenString p :: _ => .error p
  | ts => .error (Problem.at ts)

def mark (token : Token) : Reader Unit
  | t :: ts => if t = token then .ok ((), ts) else .error .malformed
  | [] => .error .cutOff

def member {α : Type} (item : Reader α) : Reader (String × α) := fun ts => do
  let (k, ts) ← name ts
  let (_, ts) ← mark .colon ts
  let (v, ts) ← item ts
  return ((k, v), ts)

/-- The members after the first, up to the closing brace. -/
def moreMembers {α : Type} (item : Reader α) : Nat → Reader (List (String × α))
  | _, .closeObject :: ts => .ok ([], ts)
  | steps + 1, .comma :: ts => do
    let (m, ts) ← member item ts
    let (ms, ts) ← moreMembers item steps ts
    return (m :: ms, ts)
  | _, ts => .error (Problem.at ts)

/-- The members after the opening brace. -/
def members {α : Type} (item : Reader α) : Reader (List (String × α))
  | .closeObject :: ts => .ok ([], ts)
  | ts => do
    let (m, rest) ← member item ts
    let (ms, rest) ← moreMembers item ts.length rest
    return (m :: ms, rest)

/-! ## Values -/

/-- Any value, with at most `depth` brackets open at once. -/
def value (depth : Nat) : Reader Json
  | .null :: ts => .ok (.null, ts)
  | .bool b :: ts => .ok (.bool b, ts)
  | .num n :: ts => .ok (.num n, ts)
  | .str s :: ts => .ok (.str s, ts)
  | .brokenString p :: _ => .error p
  | .broken p :: _ => .error p
  | .openList :: ts =>
    match depth with
    | 0 => .error .malformed
    | depth + 1 => (items (value depth) ts).map fun r => (.arr r.1, r.2)
  | .openObject :: ts =>
    match depth with
    | 0 => .error .malformed
    | depth + 1 => (members (value depth) ts).map fun r => (object r.1, r.2)
  | ts => .error (Problem.at ts)

/-- Reads a whole text. -/
def readAll {α : Type} (read : Reader α) (s : String) : Except Problem α :=
  match read (tokens s.toList) with
  | .error p => .error p
  | .ok (a, []) => .ok a
  | .ok (_, _ :: _) => .error .malformed

def parse (s : String) : Except Problem Json := readAll (value depthLimit) s

/-! ## Values of one type -/

/-- A number as it is named in a message. -/
def foundNumber : Number → Found
  | .int n _ => .integer n
  | .float x _ => .floatingPoint x.scientificText

/-- The problem that something else stands where `wanted` had to. A scalar is read first, so its
own problem comes before. -/
def mismatched (wanted : String) : List Token → Problem
  | .null :: _ => .mismatch (.wrongType .null wanted)
  | .bool b :: _ => .mismatch (.wrongType (.boolean b) wanted)
  | .num n :: _ => .mismatch (.wrongType (foundNumber n) wanted)
  | .str s :: _ => .mismatch (.wrongType (.text s) wanted)
  | .openList :: _ => .mismatch (.wrongType .list wanted)
  | .openObject :: _ => .mismatch (.wrongType .table wanted)
  | .brokenString p :: _ => p
  | .broken p :: _ => p
  | ts => Problem.at ts

def string (wanted : String) : Reader String
  | .str s :: ts => .ok (s, ts)
  | ts => .error (mismatched wanted ts)

def integer (least most : Int) (wanted : String) : Reader Int
  | .num (.int n _) :: ts =>
    if least ≤ n ∧ n ≤ most then .ok (n, ts)
    else .error (.mismatch (.wrongRange n wanted))
  | ts => .error (mismatched wanted ts)

/-- A double-precision number; an integer is rounded to one. -/
def binary64 (wanted : String) : Reader Binary64
  | .num (.int n _) :: ts => .ok (.ofInt n, ts)
  | .num (.float x _) :: ts => .ok (x, ts)
  | ts => .error (mismatched wanted ts)

def boolean (wanted : String) : Reader Bool
  | .bool b :: ts => .ok (b, ts)
  | ts => .error (mismatched wanted ts)

def nothing (wanted : String) : Reader Unit
  | .null :: ts => .ok ((), ts)
  | ts => .error (mismatched wanted ts)

/-- A list of a given type, whatever its items. -/
def list {α : Type} (item : Reader α) (wanted : String) : Reader (List α)
  | .openList :: ts => items item ts
  | ts => .error (mismatched wanted ts)

end RowFilter.Json
