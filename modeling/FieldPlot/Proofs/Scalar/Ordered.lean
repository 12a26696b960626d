import FieldPlot.Proofs.Scalar.Exact
import FieldPlot.Scalar.Double

/-! Numbers whose order is total as far as they have one: doubles apart from NaN, and exact numbers. -/

namespace FieldPlot

class OrderedScalar (α : Type) [Scalar α] : Prop where
  le_trans {a b c : α} : a ≤ b → b ≤ c → a ≤ c
  le_total {a b : α} : Scalar.isUndefined a = false → Scalar.isUndefined b = false → a ≤ b ∨ b ≤ a

theorem Scalar.isUndefined_eq_false {α : Type} [ExactScalar α] (a : α) : isUndefined a = false := by
  rw [isUndefined, ExactScalar.beq_eq, decide_eq_true rfl]
  rfl

instance {α : Type} [ExactScalar α] : OrderedScalar α where
  le_trans hab hbc := hab.trans hbc
  le_total {a b} _ _ := LinearOrder.le_total a b

/-! ### Doubles -/

open Float.Model (UnpackedFloat)
open Float.Model.UnpackedFloat (notANumber)

/-- The place of a double in a lexicographic order: its kind, its exponent and its mantissa. -/
def lexPlace : UnpackedFloat → ℤ ×ₗ ℤ ×ₗ ℤ
  | .infinity .negative => toLex (-2, toLex (0, 0))
  | .finite .negative m e _ => toLex (-1, toLex (-e, -m))
  | .zero _ | notANumber => toLex (0, toLex (0, 0))
  | .finite .positive m e _ => toLex (1, toLex (e, m))
  | .infinity .positive => toLex (2, toLex (0, 0))

theorem isLE_then_compare (e f : ℤ) (m n : ℕ) :
    ((compare e f).then (compare m n)).isLE = true ↔ e < f ∨ e = f ∧ m ≤ n := by
  rw [Ordering.isLE_then_iff_or, compare_lt_iff_lt, compare_eq_iff_eq, Nat.isLE_compare]

theorem isGE_then_compare (e f : ℤ) (m n : ℕ) :
    ((compare e f).then (compare m n)).isGE = true ↔ f < e ∨ e = f ∧ n ≤ m := by
  rw [← Ordering.isLE_swap, Ordering.swap_then, Int.compare_swap, Nat.compare_swap, isLE_then_compare, eq_comm]

theorem unpacked_le_iff {a b : UnpackedFloat} (ha : a ≠ notANumber) (hb : b ≠ notANumber) :
    a.le b = true ↔ lexPlace a ≤ lexPlace b := by
  rcases a with ⟨_ | _⟩ | _ | _ | ⟨_ | _, m, e, _⟩ <;> rcases b with ⟨_ | _⟩ | _ | _ | ⟨_ | _, n, f, _⟩ <;>
    first
    | exact (ha rfl).elim
    | exact (hb rfl).elim
    | decide
    | simp [UnpackedFloat.le, UnpackedFloat.compare, lexPlace, Prod.Lex.le_iff, isLE_then_compare,
        isGE_then_compare]

theorem ne_notANumber_of_le {a b : UnpackedFloat} (h : a.le b = true) :
    a ≠ notANumber ∧ b ≠ notANumber := by
  refine ⟨fun ha => ?_, fun hb => ?_⟩
  · subst ha
    cases h
  · subst hb
    cases a <;> cases h

theorem unpack_ne_notANumber {a : Float} (h : Scalar.isUndefined a = false) :
    a.toModel.unpack ≠ notANumber := by
  intro hnan
  have hself : (a == a) = a.toModel.unpack.beq a.toModel.unpack := rfl
  rw [Scalar.isUndefined, hself, hnan] at h
  cases h

theorem float_le_iff {a b : Float} : a ≤ b ↔ a.toModel.unpack.le b.toModel.unpack = true :=
  decide_eq_true_iff

instance : OrderedScalar Float where
  le_trans {a b c} hab hbc := by
    obtain ⟨ha, hb⟩ := ne_notANumber_of_le (float_le_iff.mp hab)
    obtain ⟨-, hc⟩ := ne_notANumber_of_le (float_le_iff.mp hbc)
    have hab := (unpacked_le_iff ha hb).mp (float_le_iff.mp hab)
    have hbc := (unpacked_le_iff hb hc).mp (float_le_iff.mp hbc)
    exact float_le_iff.mpr ((unpacked_le_iff ha hc).mpr (hab.trans hbc))
  le_total {a b} ha hb := by
    have ha := unpack_ne_notANumber ha
    have hb := unpack_ne_notANumber hb
    rcases le_total (lexPlace a.toModel.unpack) (lexPlace b.toModel.unpack) with h | h
    · exact .inl (float_le_iff.mpr ((unpacked_le_iff ha hb).mpr h))
    · exact .inr (float_le_iff.mpr ((unpacked_le_iff hb ha).mpr h))

end FieldPlot
