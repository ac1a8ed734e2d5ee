import RowFilter.Json.Reader

/-! A value of one of several kinds is written as its tag alone, if the kind has no content, or as
an object with one member: the tag and the content. The tag is judged when it is read, before
anything after it. -/

namespace RowFilter.Json

/-- One of the kinds of a tagged value. -/
structure Alternative (α : Type) where
  /-- What the tag alone denotes. -/
  bare : Except Problem α
  /-- Reads the content beside the tag. -/
  content : Reader α

namespace Alternative

variable {α β : Type}

/-- A kind without content; beside the tag stands `null`. -/
def plain (a : α) : Alternative α :=
  ⟨.ok a, fun ts => (nothing "unit" ts).map fun r => (a, r.2)⟩

/-- A kind with one value. -/
def holding (read : Reader β) (make : β → α) : Alternative α :=
  ⟨.error (.mismatch (.wrongType .bareVariant "newtype variant")),
    fun ts => (read ts).map fun r => (make r.1, r.2)⟩

/-- The two values of a list after its opening bracket. -/
def two (wanted : String) (item : Reader β) : Reader (β × β)
  | .closeList :: _ => .error (.mismatch (.wrongLength 0 (wanted ++ " with 2 elements")))
  | ts => do
    let (a, ts) ← item ts
    match ts with
    | .closeList :: _ => .error (.mismatch (.wrongLength 1 (wanted ++ " with 2 elements")))
    | .comma :: .closeList :: _ => .error .malformed
    | .comma :: ts =>
      let (b, ts) ← item ts
      let (_, ts) ← mark .closeList ts
      return ((a, b), ts)
    | ts => .error (Problem.at ts)

/-- The content of a kind with two values: a list of exactly two. Without a reader of what it
holds, no bracket may be opened here. -/
def pair (wanted : String) (item : Option (Reader β)) : Reader (β × β)
  | .openList :: ts =>
    match item with
    | some item => two wanted item ts
    | none => .error .malformed
  | ts => .error (mismatched wanted ts)

/-- A kind with two values. -/
def pairing (wanted : String) (item : Option (Reader β)) (make : β → β → α) : Alternative α :=
  ⟨.error (.mismatch (.wrongType .bareVariant "tuple variant")),
    fun ts => (pair wanted item ts).map fun r => (make r.1.1 r.1.2, r.2)⟩

end Alternative

abbrev Alternatives (α : Type) : Type := List (String × Alternative α)

def Alternatives.find {α : Type} (as : Alternatives α) (tag : String) :
    Except Problem (Alternative α) :=
  match as.lookup tag with
  | some a => .ok a
  | none => .error (.mismatch (.unknownVariant tag (as.map Prod.fst)))

/-- A tagged value. The brace counts as open while the content is read. -/
def tagged {α : Type} (as : Alternatives α) (mayNest : Bool) : Reader α
  | .openObject :: ts =>
    if mayNest then do
      let (tag, ts) ← name ts
      let kind ← as.find tag
      let (_, ts) ← mark .colon ts
      let (a, ts) ← kind.content ts
      let (_, ts) ← mark .closeObject ts
      return (a, ts)
    else .error .malformed
  | .str tag :: ts => do
    let kind ← as.find tag
    return (← kind.bare, ts)
  | .brokenString p :: _ => .error p
  | ts => .error (Problem.at ts)

end RowFilter.Json
