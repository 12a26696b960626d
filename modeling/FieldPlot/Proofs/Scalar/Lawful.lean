import FieldPlot.Proofs.Outcome
import FieldPlot.Proofs.Scalar.Exact

/-! Exact numbers that are all finite, with the whole numbers and the powers of ten among them. No operation
on such numbers fails but a division by zero and the decade of a number that is not positive. -/

namespace FieldPlot

class LawfulScalar (α : Type) extends ExactScalar α where
  isBounded_eq : Scalar.isBounded α = false
  isFinite_eq (a : α) : Scalar.isFinite a = true
  ofInt_eq (n : ℤ) : Scalar.ofInt n = (n : α)
  tenTo_eq (n : ℤ) : Scalar.tenTo n = (10 : α) ^ n
  abs_eq (a : α) : Scalar.abs a = |a|

instance : LawfulScalar ℚ where
  isBounded_eq := rfl
  isFinite_eq _ := rfl
  ofInt_eq _ := rfl
  tenTo_eq _ := rfl
  abs_eq _ := rfl

namespace Scalar

section

variable {α : Type} [ExactScalar α] {a b : α}

theorem literal_pos {m : ℕ} (e : ℕ) (hm : 0 < m) :
    0 < @OfScientific.ofScientific α Scalar.toOfScientific m true e := by
  rw [ExactScalar.scientific_eq]
  positivity

theorem literal_one : @OfScientific.ofScientific α Scalar.toOfScientific 10 true 1 = 1 := by
  rw [ExactScalar.scientific_eq]
  norm_num

theorem literal_half : @OfScientific.ofScientific α Scalar.toOfScientific 5 true 1 = 1 / 2 := by
  rw [ExactScalar.scientific_eq]
  norm_num

theorem beq_zero_iff : (a == @OfScientific.ofScientific α Scalar.toOfScientific 0 true 1) = true ↔ a = 0 := by
  rw [ExactScalar.beq_eq, literal_zero, decide_eq_true_iff]

theorem larger_eq_max (a b : α) : larger a b = max a b := by
  unfold larger
  split
  · next h => exact (max_eq_right h.le).symm
  · next h => exact (max_eq_left (not_lt.mp h)).symm

theorem smaller_eq_min (a b : α) : smaller a b = min a b := by
  unfold smaller
  split
  · next h => exact (min_eq_right h.le).symm
  · next h => exact (min_eq_left (not_lt.mp h)).symm

theorem clamp_mem {lo hi : α} (h : lo ≤ hi) (a : α) : clamp a lo hi ∈ Set.Icc lo hi := by
  rw [clamp, larger_eq_max, smaller_eq_min]
  exact ⟨le_max_left _ _, max_le h (min_le_left _ _)⟩

theorem clampUnit_mem (a : α) : clampUnit a ∈ Set.Icc (0 : α) 1 := by
  rw [clampUnit, literal_zero, literal_one]
  exact clamp_mem zero_le_one a

theorem clampUnit_eq_self (h : a ∈ Set.Icc (0 : α) 1) : clampUnit a = a := by
  rw [clampUnit, literal_zero, literal_one, clamp, larger_eq_max, smaller_eq_min, min_eq_right h.2, max_eq_right h.1]

theorem largest?_eq_some {s : List α} : largest? s = some a ↔ a ∈ s ∧ ∀ b ∈ s, b ≤ a := by
  have hmax : largest? s = s.max? := by
    cases s with
    | nil => rfl
    | cons b s => exact congrArg (fun f => some (s.foldl f b)) (funext₂ larger_eq_max)
  rw [hmax, List.max?_eq_some_iff]

theorem larger_pos (ha : 0 < a) (b : α) : 0 < larger a b := by
  rw [larger_eq_max]
  exact lt_max_of_lt_left ha

theorem largest?_pos {s : List α} (hs : ∀ b ∈ s, 0 < b) (h : largest? s = some a) : 0 < a := by
  cases s with
  | nil => cases h
  | cons b s =>
    obtain rfl := Option.some.inj h
    have hb := hs b List.mem_cons_self
    clear hs h
    induction s generalizing b with
    | nil => exact hb
    | cons c s ih => exact ih (larger b c) (larger_pos hb c)

theorem divide_returns (a : α) (hb : b ≠ 0) : Returns (divide a b) :=
  ⟨a / b, divide_of_ne_zero hb⟩

end

variable {α : Type} [LawfulScalar α] {a b : α}

theorem ofNat_eq (n : ℕ) : (ofNat n : α) = n := by
  rw [ofNat, LawfulScalar.ofInt_eq, Int.cast_natCast]

theorem ofInt?_eq (n : ℤ) : ofInt? n = .ok (n : α) := by
  rw [ofInt?, LawfulScalar.isBounded_eq, LawfulScalar.ofInt_eq]
  rfl

theorem listLength_eq (n : ℤ) : listLength α n = .ok n.toNat := by
  rw [listLength, LawfulScalar.isBounded_eq]
  rfl

theorem whole_returns (f : α → ℤ) (a : α) : Returns (whole f a) := by
  rw [whole, LawfulScalar.isFinite_eq]
  exact .ok _

theorem turn_returns (angle : α) : Returns (turn angle) := by
  rw [turn, LawfulScalar.isFinite_eq]
  exact .ok _

theorem tenTo_pos (n : ℤ) : 0 < (tenTo n : α) := by
  rw [LawfulScalar.tenTo_eq]
  positivity

theorem decade_returns (ha : 0 < a) : ∃ d, decade a = .ok d ∧ 0 < d := by
  obtain ⟨n, hn⟩ := whole_returns floor (log10 a)
  refine ⟨tenTo n, ?_, tenTo_pos n⟩
  rw [decade, literal_zero, if_pos ha, floor?, hn]
  rfl

end Scalar

end FieldPlot
