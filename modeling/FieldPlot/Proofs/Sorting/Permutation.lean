import Mathlib.Data.List.Perm.Basic
import FieldPlot.Sorting.Runs

/-! Sorting by merging runs permutes, whatever the comparisons answer: runs are cut off, filled up and
merged by moving elements, and none of these steps looks at more of them than it moves. -/

namespace FieldPlot.Sorting

variable {β : Type} (less : β → β → Bool)

/-! ### Runs -/

theorem ascending_append (a : β) (s : List β) : (ascending less a s).1 ++ (ascending less a s).2 = s := by
  fun_induction ascending less a s with
  | case1 => rfl
  | case2 => rfl
  | case3 a b s _ run rest h ih =>
    rw [h] at ih
    exact congrArg (b :: ·) ih

theorem descending_append (a : β) (s : List β) : (descending less a s).1 ++ (descending less a s).2 = s := by
  fun_induction descending less a s with
  | case1 => rfl
  | case2 a b s _ run rest h ih =>
    rw [h] at ih
    exact congrArg (b :: ·) ih
  | case3 => rfl

theorem firstRun_perm (s : List β) : ((firstRun less s).1 ++ (firstRun less s).2).Perm s := by
  unfold firstRun
  split
  · next a b s =>
    split
    · have h := descending_append less b s
      refine ((List.reverse_perm _).append_right _).trans ?_
      rw [List.cons_append, List.cons_append, h]
    · have h := ascending_append less b s
      rw [List.cons_append, List.cons_append, h]
  · rw [List.append_nil]

theorem firstRun_ne_nil {s : List β} (h : s ≠ []) : (firstRun less s).1 ≠ [] := by
  unfold firstRun
  split
  · dsimp only
    split <;> simp
  · exact h

theorem insertInto_perm (run : List β) (a : β) : (insertInto less run a).Perm (a :: run) := by
  unfold insertInto
  refine List.perm_middle.trans (List.Perm.cons a ?_)
  rw [List.take_append_drop]

theorem foldl_insertInto_perm (s run : List β) : (s.foldl (insertInto less) run).Perm (run ++ s) := by
  induction s generalizing run with
  | nil => rw [List.foldl_nil, List.append_nil]
  | cons a s ih =>
    have h : (insertInto less run a ++ s).Perm (run ++ a :: s) :=
      ((insertInto_perm less run a).append_right s).trans List.perm_middle.symm
    exact (ih _).trans h

/-- The runs are the list, as long as there is fuel for every element. -/
theorem runs_perm (least : Nat) {fuel : Nat} {s : List β} (h : s.length ≤ fuel) :
    (runs less least fuel s).flatten.Perm s := by
  induction fuel generalizing s with
  | zero =>
    rw [List.length_eq_zero_iff.mp (Nat.le_zero.mp h)]
    rfl
  | succ fuel ih =>
    have hperm := firstRun_perm less s
    unfold runs
    split
    · next rest hrun =>
      have hs : s = [] := by
        by_contra hne
        exact firstRun_ne_nil less hne (congrArg Prod.fst hrun)
      rw [hs]
      rfl
    · next run rest hne hrun =>
      rw [hrun] at hperm
      have hlength : run.length + rest.length = s.length := by
        rw [← List.length_append]
        exact hperm.length_eq
      have hpos := List.length_pos_of_ne_nil hne
      have htail := ih (s := rest.drop (least - run.length)) (by rw [List.length_drop]; omega)
      refine ((foldl_insertInto_perm less _ _).append htail).trans ?_
      rw [List.append_assoc, List.take_append_drop]
      exact hperm

/-! ### Merges -/

namespace Merging

variable {less} {m : Merging β} {side : End} {next : Merging β → Merging β}

/-- Everything that takes part in a merge. -/
def elements (m : Merging β) : List β :=
  m.moved ++ (m.left ++ m.right)

theorem moveLeft_perm (k : Nat) (m : Merging β) : (m.moveLeft k).elements.Perm m.elements := by
  have h : ((m.left.take k).reverse ++ m.moved ++ m.left.drop k).Perm (m.moved ++ m.left) := by
    refine ((List.perm_append_comm.trans ((List.reverse_perm _).append_left _)).append_right _).trans ?_
    rw [List.append_assoc, List.take_append_drop]
  simpa only [elements, moveLeft, List.append_assoc] using h.append_right m.right

theorem moveRight_perm (k : Nat) (m : Merging β) : (m.moveRight k).elements.Perm m.elements := by
  have h : ((m.right.take k).reverse ++ (m.moved ++ (m.left ++ m.right.drop k))).Perm
      (m.moved ++ (m.left ++ m.right)) := by
    refine ((List.reverse_perm _).append_right _).trans ?_
    rw [← List.append_assoc m.moved, ← List.append_assoc m.moved]
    refine List.perm_append_comm_assoc _ _ _ |>.trans ?_
    rw [List.take_append_drop]
  simpa only [elements, moveRight, List.append_assoc] using h

theorem andThen_perm (h : (next m).elements.Perm m.elements) :
    (m.andThen side next).elements.Perm m.elements := by
  unfold andThen
  split
  · exact .refl _
  · exact h

theorem run_perm (side : End) (rightFirst : β → β → Bool) (fuel : Nat) (pace : Pace) (m : Merging β) :
    (run side rightFirst fuel pace m).elements.Perm m.elements := by
  induction fuel generalizing pace m with
  | zero => exact .refl _
  | succ fuel ih =>
    unfold run
    split
    · split
      · refine (andThen_perm ?_).trans (moveRight_perm 1 m)
        split <;> exact ih _ _
      · refine (andThen_perm ?_).trans (moveLeft_perm 1 m)
        split <;> exact ih _ _
    · dsimp only
      refine (andThen_perm ?_).trans (moveLeft_perm _ m)
      refine (andThen_perm ?_).trans (moveRight_perm 1 _)
      split
      · exact .refl _
      · refine (andThen_perm ?_).trans (moveRight_perm _ _)
        refine (andThen_perm ?_).trans (moveLeft_perm 1 _)
        split <;> exact ih _ _
    · exact .refl _

end Merging

theorem mergeFront_perm (patience : Nat) (s t : List β) :
    (mergeFront less patience s t).1.Perm (s ++ t) := by
  let start : Merging β := { left := s, right := t, moved := [], patience }
  let m := (start.moveRight 1).andThen .front
    (Merging.run .front (fun a b => less b a) (s.length + t.length) (.walking 0 0))
  have hm : m.elements.Perm start.elements :=
    (Merging.andThen_perm (Merging.run_perm _ _ _ _ _)).trans (Merging.moveRight_perm 1 start)
  have h : (m.moved.reverse ++ m.right ++ m.left).Perm m.elements := by
    rw [List.append_assoc]
    exact (List.reverse_perm _).append List.perm_append_comm
  exact h.trans hm

theorem mergeBack_perm (patience : Nat) (s t : List β) :
    (mergeBack less patience s t).1.Perm (s ++ t) := by
  let start : Merging β := { left := s.reverse, right := t.reverse, moved := [], patience }
  let m := (start.moveLeft 1).andThen .back
    (Merging.run .back (fun a b => !less b a) (s.length + t.length) (.walking 0 0))
  have hm : m.elements.Perm start.elements :=
    (Merging.andThen_perm (Merging.run_perm _ _ _ _ _)).trans (Merging.moveLeft_perm 1 start)
  have h : (m.moved.reverse ++ m.left ++ m.right).reverse.Perm m.elements := by
    refine (List.reverse_perm _).trans ?_
    rw [List.append_assoc]
    exact (List.reverse_perm _).append_right _
  exact (h.trans hm).trans ((List.reverse_perm s).append (List.reverse_perm t))

/-- What stays where it is and what is merged in between. -/
theorem merge_perm (patience : Nat) (s t : List β) : (merge less patience s t).1.Perm (s ++ t) := by
  unfold merge
  split
  · rw [List.append_nil]
  · next b t =>
    dsimp only
    split
    · exact .refl _
    · generalize countHead false _ s = k
      generalize (b :: t).length - _ = l
      dsimp only
      have hmerged (inner : List β) : (if inner.isEmpty then (s.drop k, patience)
          else if (s.drop k).length ≤ inner.length then mergeFront less patience (s.drop k) inner
          else mergeBack less patience (s.drop k) inner).1.Perm (s.drop k ++ inner) := by
        split
        · next h => rw [List.isEmpty_iff.mp h, List.append_nil]
        · split
          · exact mergeFront_perm less patience _ _
          · exact mergeBack_perm less patience _ _
      refine (((hmerged _).append_left _).append_right _).trans ?_
      rw [← List.append_assoc, List.take_append_drop, List.append_assoc, List.take_append_drop]

namespace Queue

/-- Everything that waits for being merged. -/
def elements (q : Queue β) : List β :=
  q.pending.flatMap (·.run)

theorem join_perm (s t : Pending β) (patience : Nat) :
    (join less s t patience).1.run.Perm (t.run ++ s.run) :=
  (merge_perm less patience s.run t.run).trans List.perm_append_comm

theorem settle_perm (level fuel : Nat) (q : Queue β) :
    (settle less level fuel q).elements.Perm q.elements := by
  induction fuel generalizing q with
  | zero => exact .refl _
  | succ fuel ih =>
    unfold settle
    split
    · next t s others hq =>
      split
      · refine (ih _).trans ?_
        simp only [elements, hq, List.flatMap_cons]
        rw [← List.append_assoc t.run]
        exact (join_perm less s t q.patience).append_right _
      · exact .refl _
    · exact .refl _

theorem push_perm (n : Nat) (q : Queue β) (run : List β) :
    (push less n q run).elements.Perm (run ++ q.elements) := by
  unfold push
  split
  · next h => simp [elements, h]
  · next t others h =>
    dsimp only
    generalize boundaryLevel n _ _ _ = level
    have hsettled := settle_perm less level q.pending.length q
    generalize settle less level q.pending.length q = settled at hsettled ⊢
    refine List.Perm.append_left run (List.Perm.trans ?_ hsettled)
    obtain ⟨pending, patience⟩ := settled
    cases pending <;> exact .refl _

theorem collapse_perm (fuel : Nat) (q : Queue β) : (collapse less fuel q).Perm q.elements := by
  induction fuel generalizing q with
  | zero => exact .refl _
  | succ fuel ih =>
    unfold collapse
    split
    · next t s r others hq =>
      split
      · refine (ih _).trans ?_
        simp only [elements, hq, List.flatMap_cons]
        rw [← List.append_assoc s.run]
        exact ((join_perm less r s q.patience).append_right _).append_left _
      · refine (ih _).trans ?_
        simp only [elements, hq, List.flatMap_cons]
        rw [← List.append_assoc t.run]
        exact (join_perm less s t q.patience).append_right _
    · next t s hq =>
      simp only [elements, hq, List.flatMap_cons, List.flatMap_nil, List.append_nil]
      exact join_perm less s t q.patience
    · next t hq => simp [elements, hq]
    · next hq => simp [elements, hq]

end Queue

theorem sort_perm (s : List β) : (sort less s).Perm s := by
  unfold sort
  refine (Queue.collapse_perm less _ _).trans ?_
  have hpush (runs : List (List β)) (q : Queue β) :
      (runs.foldl (Queue.push less s.length) q).elements.Perm (q.elements ++ runs.flatten) := by
    induction runs generalizing q with
    | nil => simp
    | cons run runs ih =>
      refine (ih _).trans (((Queue.push_perm less _ q run).append_right _).trans ?_)
      rw [List.flatten_cons, ← List.append_assoc]
      exact List.perm_append_comm.append_right _
  exact (hpush _ _).trans (runs_perm less _ (Nat.le_refl _))

end FieldPlot.Sorting
