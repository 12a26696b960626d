import FieldPlot.Proofs.Scalar.Difference
import FieldPlot.Proofs.Scalar.Ordered

/-! The strict part of the order, and clamping by it. What has no order clamps to the upper bound. -/

namespace FieldPlot

class StrictlyOrderedScalar (α : Type) [Scalar α] : Prop extends OrderedScalar α where
  lt_iff {a b : α} : a < b ↔ a ≤ b ∧ ¬b ≤ a
  defined_of_le {a b : α} : a ≤ b → Scalar.isUndefined a = false ∧ Scalar.isUndefined b = false

instance {α : Type} [ExactScalar α] : StrictlyOrderedScalar α where
  lt_iff := lt_iff_le_not_ge
  defined_of_le _ := ⟨Scalar.isUndefined_eq_false _, Scalar.isUndefined_eq_false _⟩

namespace Scalar

open OrderedScalar StrictlyOrderedScalar

variable {α : Type} [Scalar α] [StrictlyOrderedScalar α] {a b c lo hi : α}

theorem le_refl_of_defined (h : isUndefined a = false) : a ≤ a :=
  or_self_iff.mp (OrderedScalar.le_total h h)

theorem le_of_lt (h : a < b) : a ≤ b :=
  (lt_iff.mp h).1

theorem le_of_not_lt (ha : isUndefined a = false) (hb : isUndefined b = false) (h : ¬a < b) : b ≤ a := by
  by_contra hle
  exact h (lt_iff.mpr ⟨(OrderedScalar.le_total ha hb).resolve_right hle, hle⟩)

theorem lt_of_lt_of_le (hab : a < b) (hbc : b ≤ c) : a < c := by
  obtain ⟨hle, hnot⟩ := lt_iff.mp hab
  exact lt_iff.mpr ⟨OrderedScalar.le_trans hle hbc, fun hca => hnot (OrderedScalar.le_trans hbc hca)⟩

theorem lt_of_le_of_lt (hab : a ≤ b) (hbc : b < c) : a < c := by
  obtain ⟨hle, hnot⟩ := lt_iff.mp hbc
  exact lt_iff.mpr ⟨OrderedScalar.le_trans hab hle, fun hca => hnot (OrderedScalar.le_trans hca hab)⟩

/-! ### Clamping -/

theorem clamp_within (h : lo ≤ hi) (a : α) : lo ≤ clamp a lo hi ∧ clamp a lo hi ≤ hi := by
  obtain ⟨hlo, hhi⟩ := defined_of_le h
  unfold clamp larger
  split
  · next hlt =>
    refine ⟨le_of_lt hlt, ?_⟩
    unfold smaller
    split
    · next hlt => exact le_of_lt hlt
    · exact le_refl_of_defined hhi
  · exact ⟨le_refl_of_defined hlo, h⟩

theorem clamp_le (hlo : lo ≤ c) (hhi : isUndefined hi = false) (ha : isUndefined a = false → a ≤ c)
    (hundefined : isUndefined a = true → hi ≤ c) : clamp a lo hi ≤ c := by
  have hsmaller : smaller hi a ≤ c := by
    unfold smaller
    split
    · next hlt => exact ha (defined_of_le (le_of_lt hlt)).1
    · next hnot =>
      rcases Bool.eq_false_or_eq_true (isUndefined a) with hnone | hsome
      · exact hundefined hnone
      · exact OrderedScalar.le_trans (le_of_not_lt hsome hhi hnot) (ha hsome)
  unfold clamp larger
  split
  · exact hsmaller
  · exact hlo

theorem le_clamp (hlo : isUndefined lo = false) (ha : c ≤ a) (hhi : c ≤ hi) : c ≤ clamp a lo hi := by
  have hsmaller : c ≤ smaller hi a := by
    unfold smaller
    split
    · exact ha
    · exact hhi
  unfold clamp larger
  split
  · exact hsmaller
  · next hle => exact OrderedScalar.le_trans hsmaller (le_of_not_lt hlo (defined_of_le hsmaller).2 hle)

end Scalar

/-! ### Doubles -/

namespace Number

open Float.Model (UnpackedFloat)
open Float.Model.UnpackedFloat

variable {a b : Float}

theorem compare_swap (a b : UnpackedFloat) : b.compare a = (a.compare b).map Ordering.swap := by
  rcases a with ⟨_ | _⟩ | _ | _ | ⟨_ | _, m, e, _⟩ <;> rcases b with ⟨_ | _⟩ | _ | _ | ⟨_ | _, n, f, _⟩ <;>
    first
    | rfl
    | simp [UnpackedFloat.compare, Ordering.swap_then, Int.compare_swap, Nat.compare_swap]

theorem isUndefined_eq_false_iff : Scalar.isUndefined a = false ↔ a.toModel.unpack ≠ notANumber := by
  refine ⟨unpack_ne_notANumber, fun h => ?_⟩
  have hself : (a == a) = true := (beq_iff_ne_notANumber_and_eq _ _).mpr ⟨h, h, .inl rfl⟩
  rw [Scalar.isUndefined, hself]
  rfl

end Number

instance : StrictlyOrderedScalar Float where
  lt_iff {a b} := by
    rw [Number.lt_iff_compare, float_le_iff, float_le_iff, Float.Model.UnpackedFloat.le,
      Float.Model.UnpackedFloat.le, Number.compare_swap a.toModel.unpack b.toModel.unpack]
    rcases a.toModel.unpack.compare b.toModel.unpack with _ | _ | _ | _ <;> decide
  defined_of_le {a b} h := by
    obtain ⟨ha, hb⟩ := ne_notANumber_of_le (float_le_iff.mp h)
    exact ⟨Number.isUndefined_eq_false_iff.mpr ha, Number.isUndefined_eq_false_iff.mpr hb⟩

end FieldPlot
