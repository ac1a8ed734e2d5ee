import RowFilter.Proofs.Tree.Evaluation
import RowFilter.Proofs.Tree.Links
import RowFilter.Proofs.Tree.PostOrder

/-!
# What a walk shows

A walk is told by the calls that it makes: which nodes it shows, in which order,
and what the callback answers. A callback that keeps a list of its calls goes
along with any other, so that the calls can be read off the last state.

* `Callback.recorded`: a callback that lists its calls beside its own state;
* `Along`: what a walk along a list calls;
* `Tree.walkPostOrder_calls`: the calls of a walk through a subtree;
* `Tree.ancestors_calls`: the ancestors of a node, and the calls of a walk up.
-/

namespace RowFilter

variable {σ : Type}

/-- The callback with a list of its calls beside the state: the nodes in the order they were shown,
each with the answer that was given. -/
def Callback.recorded (f : Callback σ) : Callback (σ × List (NodeId × Bool)) :=
  fun id (s, calls) =>
    let (onward, s) := f id s
    (onward, (s, calls ++ [(id, onward)]))

/-- The calls of a walk along a list. Nodes are shown one after the other from the first on, up to the
first that is declined or to the end of the list. -/
structure Along (ids : List NodeId) (calls : List (NodeId × Bool)) : Prop where
  inOrder : calls.map Prod.fst <+: ids
  onward : ∀ call ∈ calls.dropLast, call.2 = true
  whole : calls.all Prod.snd = true → calls.map Prod.fst = ids

theorem Along.nil : Along [] [] := ⟨List.nil_prefix, nofun, fun _ => rfl⟩

theorem Along.declined (id : NodeId) (ids : List NodeId) : Along (id :: ids) [(id, false)] :=
  ⟨by simp, nofun, nofun⟩

theorem Along.cons {ids : List NodeId} {calls : List (NodeId × Bool)} (along : Along ids calls)
    (id : NodeId) : Along (id :: ids) ((id, true) :: calls) := by
  refine ⟨?_, ?_, ?_⟩
  · simpa using along.inOrder
  · intro call mem
    cases calls with
    | nil => cases mem
    | cons next calls =>
      rcases List.mem_cons.1 mem with rfl | mem
      · rfl
      · exact along.onward call mem
  · intro accepted
    rw [List.map_cons, along.whole accepted]

/-- A callback that lists its calls is shown the same nodes as the callback alone, and the walk goes
through to the end of the list exactly if no call was declined. -/
theorem visitAll_recorded (f : Callback σ) (ids : List NodeId) (s : σ)
    (earlier : List (NodeId × Bool)) :
    ∃ calls last, Along ids calls ∧ visitAll f ids s = (calls.all Prod.snd, last) ∧
      visitAll f.recorded ids (s, earlier) = (calls.all Prod.snd, (last, earlier ++ calls)) := by
  induction ids generalizing s earlier with
  | nil => exact ⟨[], s, .nil, rfl, by simp [visitAll]⟩
  | cons id ids ih =>
    rcases shown : f id s with ⟨_ | _, next⟩
    · refine ⟨[(id, false)], next, .declined id ids, ?_, ?_⟩
      · simp only [visitAll, shown, List.all_cons, Bool.false_and]
      · simp only [visitAll, Callback.recorded, shown, List.all_cons, Bool.false_and]
    · obtain ⟨calls, last, along, run, listed⟩ := ih next (earlier ++ [(id, true)])
      refine ⟨(id, true) :: calls, last, along.cons id, ?_, ?_⟩
      · simpa only [visitAll, shown, List.all_cons, Bool.true_and] using run
      · simpa only [visitAll, Callback.recorded, shown, List.all_cons, Bool.true_and,
          List.append_assoc, List.singleton_append] using listed

/-! ## Through a subtree -/

theorem Expr.evaluate_postOrder (start : Nat) (e : Expr Value) :
    e.evaluate Fold.postOrder start = List.range' start e.size := by
  induction e generalizing start with
  | binary op l r hl hr =>
    have join : (Expr.binary op l r).evaluate Fold.postOrder start =
        l.evaluate Fold.postOrder start ++ r.evaluate Fold.postOrder (start + l.size) ++
          [(Expr.binary op l r).place start] := by
      cases op <;> rfl
    rw [join, hl, hr, Expr.range_binary, List.append_assoc]
  | _ => rfl

namespace Tree

variable {e : Expr Value}

/-- **A walk through a subtree shows its nodes in post-order.** These are the nodes that child links
lead to, and they stand in a row without a gap. The walk makes the calls of a walk along that row, up
to the first that is declined, and says whether none was. It ends by itself: further steps change
nothing. -/
theorem walkPostOrder_calls {start : NodeId} (inside : start < (Tree.ofExpr e).count)
    (f : Callback σ) (s : σ) :
    let t := Tree.ofExpr e
    ∃ (nodes : List NodeId) (calls : List (NodeId × Bool)) (last : σ),
      t.postOrder? start = some nodes ∧
      nodes = List.range' (start + 1 - nodes.length) nodes.length ∧
      (∀ id, id ∈ nodes ↔ t.Under start id) ∧
      Along nodes calls ∧
      t.walkPostOrder f start s = (calls.all Prod.snd, last) ∧
      t.walkPostOrder f.recorded start (s, []) = (calls.all Prod.snd, (last, calls)) ∧
      ∀ steps, 2 * t.count ≤ steps →
        t.walkStack f steps [(start, false)] s = t.walkPostOrder f start s := by
  intro t
  obtain ⟨first, above, part, holds, rfl⟩ := ofExpr_part inside
  obtain ⟨calls, last, along, run, listed⟩ :=
    visitAll_recorded f (List.range' first part.size) s []
  have place := part.place_succ first
  refine ⟨_, calls, last, ?_, ?_, ?_, along, ?_, ?_, ?_⟩
  · rw [postOrder?, holds.evaluate, Expr.evaluate_postOrder]
  · have begins : part.place first + 1 - part.size = first := by omega
    rw [List.length_range', begins]
  · intro id
    rw [holds.under_iff, List.mem_range'_1]
    omega
  · rw [walkPostOrder_holds holds, run]
  · rw [walkPostOrder_holds holds, listed, List.nil_append]
  · intro steps enough
    rw [walkPostOrder_holds holds, walkStack_single holds f s (Nat.le_trans holds.visits_le enough)]

/-- The subtree of a right operand, with a callback that declines the second node it is shown. -/
theorem walkPostOrder_calls_operand :
    let t := Tree.ofExpr (.binary .or (.binary .and (.field "a") .parameter)
      (.binary .equals (.field "b") (.literal (.string "x"))))
    let second : Callback Nat := fun _ n => (n != 1, n + 1)
    5 < t.count ∧ t.postOrder? 5 = some [3, 4, 5] ∧ (∀ id, id ∈ [3, 4, 5] ↔ t.Under 5 id) ∧
      t.walkPostOrder second.recorded 5 (0, []) = (false, (2, [(3, true), (4, false)])) ∧
      Along [3, 4, 5] [(3, true), (4, false)] := by
  intro t second
  have inside : 5 < t.count := by decide
  obtain ⟨nodes, calls, last, order, -, under, along, -, run, -⟩ :=
    walkPostOrder_calls inside second 0
  have order' : t.postOrder? 5 = some [3, 4, 5] := rfl
  have run' : t.walkPostOrder second.recorded 5 (0, []) = (false, (2, [(3, true), (4, false)])) :=
    rfl
  cases order.symm.trans order'
  obtain ⟨-, rfl⟩ := Prod.mk.inj (Prod.mk.inj (run.symm.trans run')).2
  exact ⟨inside, order', under, run', along⟩

/-! ## Up to the root -/

theorem Above.lt {t : Tree} (up : t.Upward) {top id : Nat} (h : t.Above top id) : id < top := by
  induction h with
  | parent link => exact (up _ _ link).1
  | beyond link _ ih => exact Nat.lt_trans (up _ _ link).1 ih

/-- The links up of an assembled tree lead where its links down come from. -/
theorem above_iff_under {top id : Nat} :
    (Tree.ofExpr e).Above top id ↔ top ≠ id ∧ (Tree.ofExpr e).Under top id := by
  have up := ofExpr_upward e
  constructor
  · intro above
    refine ⟨Nat.ne_of_gt (above.lt up), ?_⟩
    induction above with
    | parent link =>
      obtain ⟨-, inside, l, r, children, rfl | rfl⟩ := ofExpr_parent link
      · exact (Under.self inside).left children
      · exact (Under.self inside).right children
    | beyond link _ ih =>
      obtain ⟨-, -, l, r, children, rfl | rfl⟩ := ofExpr_parent link
      · exact ih.left children
      · exact ih.right children
  · rintro ⟨apart, under⟩
    have extend {id next : Nat} (link : (Tree.ofExpr e).parent? next = some id)
        (upto : top ≠ id → (Tree.ofExpr e).Above top id) : (Tree.ofExpr e).Above top next := by
      by_cases here : top = id
      · exact .parent (here ▸ link)
      · exact .beyond link (upto here)
    induction under with
    | self => exact absurd rfl apart
    | left _ children ih => exact extend (ofExpr_children children).1 ih
    | right _ children ih => exact extend (ofExpr_children children).2.1 ih

theorem ancestors_pairwise {t : Tree} (up : t.Upward) (id : Nat) :
    (t.ancestors id).Pairwise (· < ·) := by
  induction id using up.induction with
  | step id ih =>
    cases link : t.parent? id with
    | none => rw [ancestors_of_root link]; exact .nil
    | some parent =>
      rw [ancestors_of_parent up link]
      refine .cons ?_ (ih parent link)
      intro top mem
      exact ((mem_ancestors_iff up).1 mem).lt up

theorem head?_ancestors {t : Tree} (up : t.Upward) (id : Nat) :
    (t.ancestors id).head? = t.parent? id := by
  cases link : t.parent? id with
  | none => rw [ancestors_of_root link, List.head?_nil]
  | some parent => rw [ancestors_of_parent up link, List.head?_cons]

theorem getLast?_ancestors {id : Nat} (inside : id < (Tree.ofExpr e).count) :
    ((Tree.ofExpr e).ancestors id).getLast? =
      if id = (Tree.ofExpr e).root then none else some (Tree.ofExpr e).root := by
  have up := ofExpr_upward e
  induction id using up.induction with
  | step id ih =>
    cases link : (Tree.ofExpr e).parent? id with
    | none =>
      rw [ancestors_of_root link, if_pos (ofExpr_root_iff.1 ⟨inside, link⟩), List.getLast?_nil]
    | some parent =>
      have below : id ≠ (Tree.ofExpr e).root := by
        intro root
        have none := (ofExpr_root_iff.2 root).2
        rw [link] at none
        cases none
      rw [ancestors_of_parent up link, List.getLast?_cons, ih parent link (up id parent link).2,
        if_neg below]
      by_cases root : parent = (Tree.ofExpr e).root
      · rw [if_pos root, Option.getD_none, root]
      · rw [if_neg root, Option.getD_some]

/-- **The ancestors of a node are the other nodes whose subtree it is in.** They are in ascending
order, from the parent of the node to the root, and the root has none; they come to an end by
themselves, since further steps change nothing. A walk up makes the calls of a walk along them, up to
the first that is declined. -/
theorem ancestors_calls {id : NodeId} (inside : id < (Tree.ofExpr e).count) (f : Callback σ) (s : σ) :
    let t := Tree.ofExpr e
    (∀ top, top ∈ t.ancestors id ↔ top ≠ id ∧ t.Under top id) ∧
      (t.ancestors id).Pairwise (· < ·) ∧
      (t.ancestors id).head? = t.parent? id ∧
      (t.ancestors id).getLast? = (if id = t.root then none else some t.root) ∧
      (∀ steps, t.count ≤ steps → t.chain steps (t.parent? id) = t.ancestors id) ∧
      ∃ (calls : List (NodeId × Bool)) (last : σ),
        Along (t.ancestors id) calls ∧ t.walkUp f id s = last ∧
        t.walkUp f.recorded id (s, []) = (last, calls) := by
  intro t
  have up := ofExpr_upward e
  obtain ⟨calls, last, along, run, listed⟩ := visitAll_recorded f (t.ancestors id) s []
  refine ⟨?_, ancestors_pairwise up id, head?_ancestors up id, getLast?_ancestors inside, ?_,
    calls, last, along, ?_, ?_⟩
  · intro top
    rw [mem_ancestors_iff up, above_iff_under]
  · intro steps enough
    apply chain_steps up
    · intro parent link
      exact (up id parent link).2
    · intro parent link
      exact Nat.le_trans enough (Nat.le_add_left steps parent)
    · intro parent link
      exact Nat.le_add_left t.count parent
  · rw [walkUp, run]
  · rw [walkUp, listed, List.nil_append]

/-- A leaf two levels down, with a callback that declines the first node it is shown. -/
theorem ancestors_calls_leaf :
    let t := Tree.ofExpr (.binary .or (.binary .and (.field "a") .parameter)
      (.binary .equals (.field "b") (.literal (.string "x"))))
    let first : Callback Nat := fun _ n => (false, n + 1)
    3 < t.count ∧ t.ancestors 3 = [5, 6] ∧ (∀ top, top ∈ [5, 6] ↔ top ≠ 3 ∧ t.Under top 3) ∧
      t.walkUp first.recorded 3 (0, []) = (1, [(5, false)]) ∧ Along [5, 6] [(5, false)] := by
  intro t first
  have inside : 3 < t.count := by decide
  obtain ⟨above, -, -, -, -, calls, last, along, -, run⟩ := ancestors_calls inside first 0
  have run' : t.walkUp first.recorded 3 (0, []) = (1, [(5, false)]) := rfl
  cases run.symm.trans run'
  exact ⟨inside, rfl, above, run', along⟩

end Tree

end RowFilter
