import RowFilter.Proofs.Tree.Layout

namespace RowFilter.Tree

/-- Every parent is in the tree and comes after its children. -/
def Upward (t : Tree) : Prop :=
  ∀ id parent : Nat, t.parent? id = some parent → id < parent ∧ parent < t.count

/-- Inside an expression a parent is an operator that comes after its operands and no later than
the whole. -/
theorem Holds.parent_between {t : Tree} {start : Nat} {above : Option NodeId} {e : Expr Value}
    (h : t.Holds start above e) {id : Nat} (first : start ≤ id) (last : id < e.place start) :
    ∃ parent : Nat, t.parent? id = some parent ∧ id < parent ∧ parent ≤ e.place start ∧
      ∃ l r, t.children? parent = some (l, r) ∧ (id = l ∨ id = r) := by
  induction e generalizing start above with
  | binary op l r hl hr =>
    have whole := Expr.place_binary op l r start
    have lp := l.place_succ start
    have rp := r.place_succ (start + l.size)
    -- an operand has the operator for its parent; what is inside an operand stays there
    by_cases inLeft : id < start + l.size
    · by_cases root : id = l.place start
      · exact ⟨_, root ▸ h.left.parent?, by omega, Nat.le_refl _, _, _, h.children?, .inl root⟩
      · obtain ⟨parent, found, after, upto, operands⟩ := hl h.left first (by omega)
        exact ⟨parent, found, after, by omega, operands⟩
    · by_cases root : id = r.place (start + l.size)
      · exact ⟨_, root ▸ h.right.parent?, by omega, Nat.le_refl _, _, _, h.children?, .inr root⟩
      · obtain ⟨parent, found, after, upto, operands⟩ := hr h.right (by omega) (by omega)
        exact ⟨parent, found, after, by omega, operands⟩
  | _ => simp only [Expr.place, Expr.size] at last; omega

theorem parent?_lt_count {t : Tree} {id : Nat} {parent : NodeId}
    (h : t.parent? id = some parent) : id < t.count := by
  by_cases inside : id < t.slots.size
  · exact inside
  · simp [parent?, Array.getElem?_eq_none (Nat.le_of_not_lt inside)] at h

theorem ofExpr_parent {e : Expr Value} {id parent : Nat}
    (h : (Tree.ofExpr e).parent? id = some parent) :
    id < parent ∧ parent < (Tree.ofExpr e).count ∧
      ∃ l r, (Tree.ofExpr e).children? parent = some (l, r) ∧ (id = l ∨ id = r) := by
  have inside := parent?_lt_count h
  have holds := ofExpr_holds e
  have last := e.place_succ 0
  rw [ofExpr_count] at inside ⊢
  by_cases root : id = e.place 0
  · rw [root, holds.parent?] at h
    cases h
  · obtain ⟨q, found, after, upto, operands⟩ := holds.parent_between (Nat.zero_le id) (by omega)
    cases h.symm.trans found
    exact ⟨after, by omega, operands⟩

theorem ofExpr_upward (e : Expr Value) : (Tree.ofExpr e).Upward := by
  intro id parent h
  obtain ⟨after, inside, -⟩ := ofExpr_parent h
  exact ⟨after, inside⟩

/-- Induction up a tree. It ends, since every parent is nearer to the end of the tree. -/
theorem Upward.induction {t : Tree} (up : t.Upward) {motive : Nat → Prop}
    (step : ∀ id, (∀ parent : Nat, t.parent? id = some parent → motive parent) → motive id)
    (id : Nat) : motive id := by
  induction left : t.count - id using Nat.strongRecOn generalizing id with
  | ind left ih =>
    refine step id fun parent link => ih _ ?_ parent rfl
    have := up id parent link
    omega

/-- Steps beyond the distance to the end of the tree add nothing to a walk up. -/
theorem chain_steps {t : Tree} (up : t.Upward) {n m : Nat} {id : Option NodeId}
    (inside : ∀ p : Nat, id = some p → p < t.count)
    (hn : ∀ p : Nat, id = some p → t.count ≤ p + n)
    (hm : ∀ p : Nat, id = some p → t.count ≤ p + m) : t.chain n id = t.chain m id := by
  induction n generalizing m id with
  | zero =>
    cases id with
    | none => cases m <;> rfl
    | some p =>
      have := inside p rfl
      have := hn p rfl
      omega
  | succ n ih =>
    cases id with
    | none => cases m <;> rfl
    | some p =>
      cases m with
      | zero =>
        have := inside p rfl
        have := hm p rfl
        omega
      | succ m =>
        have := hn p rfl
        have := hm p rfl
        simp only [chain]
        congr 1
        apply ih
        · intro q hq
          exact (up p q hq).2
        · intro q hq
          have := (up p q hq).1
          omega
        · intro q hq
          have := (up p q hq).1
          omega

theorem ancestors_of_parent {t : Tree} (up : t.Upward) {id : Nat} {parent : Nat}
    (h : t.parent? id = some parent) : t.ancestors id = parent :: t.ancestors parent := by
  obtain ⟨after, inside⟩ := up id parent h
  obtain ⟨n, hn⟩ : ∃ n, t.count = n + 1 := ⟨t.count - 1, by omega⟩
  simp only [ancestors, h, hn, chain]
  congr 1
  apply chain_steps up
  · intro q hq
    exact (up parent q hq).2
  · intro q hq
    have := (up parent q hq).1
    omega
  · intro q hq
    omega

theorem ancestors_of_root {t : Tree} {id : NodeId} (h : t.parent? id = none) :
    t.ancestors id = [] := by
  rw [ancestors, h]
  cases t.count <;> rfl

end RowFilter.Tree
