import FieldPlot.Proofs.Scalar.Ordered
import FieldPlot.Proofs.Sorting.Permutation
import FieldPlot.Scene.Quad

/-! The order of painting. Nothing is lost or repeated, whatever the distances are. Where all of them have
an order, no item comes before a farther one, and equally far ones keep their places. -/

namespace FieldPlot.Scene

variable {α β : Type} [Scalar α] {distance : β → α} {items : List β}

theorem farthestFirst_perm (distance : β → α) (items : List β) :
    (farthestFirst distance items).Perm items := by
  unfold farthestFirst
  split
  · exact (List.reverse_perm _).trans ((Sorting.sort_perm _ _).trans (List.reverse_perm items))
  · exact List.mergeSort_perm _ _

/-- The order of painting where undefined distances come first. -/
def paintedBefore (distance : β → α) (a b : β) : Bool :=
  Scalar.isUndefined (distance a) || !Scalar.isUndefined (distance b) && decide (distance b ≤ distance a)

theorem farthestFirst_eq (h : ∀ a ∈ items, Scalar.isUndefined (distance a) = false) :
    farthestFirst distance items = items.mergeSort (paintedBefore distance) := by
  have hany : (items.any fun a => Scalar.isUndefined (distance a)) = false := by
    simpa using h
  have hcompare (a : β) (ha : a ∈ items) (b : β) (hb : b ∈ items) :
      decide (distance b ≤ distance a) = paintedBefore distance (id a) (id b) := by
    simp [paintedBefore, h a ha, h b hb]
  rw [farthestFirst, if_neg (by simp [hany])]
  simpa using List.map_mergeSort hcompare

variable [OrderedScalar α]

theorem paintedBefore_trans {a b c : β} (hab : paintedBefore distance a b = true)
    (hbc : paintedBefore distance b c = true) : paintedBefore distance a c = true := by
  simp only [paintedBefore, Bool.or_eq_true, Bool.and_eq_true, Bool.not_eq_true', decide_eq_true_eq] at *
  rcases hab with ha | ⟨hb, hba⟩
  · exact .inl ha
  · rcases hbc with hb' | ⟨hc, hcb⟩
    · rw [hb] at hb'
      cases hb'
    · exact .inr ⟨hc, OrderedScalar.le_trans hcb hba⟩

theorem paintedBefore_total (a b : β) :
    (paintedBefore distance a b || paintedBefore distance b a) = true := by
  simp only [paintedBefore, Bool.or_eq_true, Bool.and_eq_true, Bool.not_eq_true', decide_eq_true_eq]
  cases ha : Scalar.isUndefined (distance a)
  · cases hb : Scalar.isUndefined (distance b)
    · rcases OrderedScalar.le_total ha hb with hle | hle
      · exact .inr (.inr ⟨rfl, hle⟩)
      · exact .inl (.inr ⟨rfl, hle⟩)
    · exact .inr (.inl rfl)
  · exact .inl (.inl rfl)

theorem farthestFirst_pairwise (h : ∀ a ∈ items, Scalar.isUndefined (distance a) = false) :
    (farthestFirst distance items).Pairwise fun a b => distance b ≤ distance a := by
  have hsorted : (items.mergeSort (paintedBefore distance)).Pairwise (paintedBefore distance · ·) :=
    List.pairwise_mergeSort (fun _ _ _ => paintedBefore_trans) paintedBefore_total items
  rw [← farthestFirst_eq h] at hsorted
  refine hsorted.imp_of_mem fun {a b} ha _ hab => ?_
  have hdefined := h a ((farthestFirst_perm distance items).mem_iff.mp ha)
  simp only [paintedBefore, hdefined, Bool.false_or, Bool.and_eq_true, decide_eq_true_eq] at hab
  exact hab.2

/-- Whether two distances are the same in the order. -/
def equallyFar (a b : α) : Bool :=
  decide (a ≤ b) && decide (b ≤ a)

theorem farthestFirst_stable (h : ∀ a ∈ items, Scalar.isUndefined (distance a) = false) (d : α) :
    (farthestFirst distance items).filter (fun a => equallyFar (distance a) d) =
      items.filter fun a => equallyFar (distance a) d := by
  have hties : (items.filter fun a => equallyFar (distance a) d).Pairwise (paintedBefore distance · ·) := by
    refine List.pairwise_of_forall_mem_list fun a ha b hb => ?_
    obtain ⟨hmem, ha⟩ := List.mem_filter.mp ha
    obtain ⟨hmem', hb⟩ := List.mem_filter.mp hb
    simp only [equallyFar, Bool.and_eq_true, decide_eq_true_eq] at ha hb
    have hle := OrderedScalar.le_trans hb.1 ha.2
    simp [paintedBefore, h a hmem, h b hmem', hle]
  have hsublist := List.sublist_mergeSort (fun _ _ _ => paintedBefore_trans) paintedBefore_total hties
    List.filter_sublist
  rw [← farthestFirst_eq h] at hsublist
  have hsublist := hsublist.filter fun a => equallyFar (distance a) d
  rw [List.filter_filter, List.filter_congr fun a _ => Bool.and_self _] at hsublist
  exact (hsublist.eq_of_length ((farthestFirst_perm distance items).filter _).length_eq.symm).symm

end FieldPlot.Scene
