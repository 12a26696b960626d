import FieldPlot.Proofs.Scalar.Decoded
import FieldPlot.Proofs.Scalar.Integral

/-! Scalars that stand for numbers. Each finite one has a value in an ordered field, and comparison, sign changes, the
floor and rounding are those of the value. Doubles have rational values, and exact numbers are their own. -/

namespace FieldPlot

class HasValue (α : Type) (K : outParam Type) where
  /-- The number that a finite scalar stands for. -/
  value : α → K

open HasValue (value)

class ValuedScalar (α : Type) (K : outParam Type) [Scalar α] [Field K] [LinearOrder K] [IsStrictOrderedRing K]
    [HasValue α K] : Prop extends StrictlyOrderedScalar α where
  le_iff {a b : α} : Scalar.isFinite a = true → Scalar.isFinite b = true → (a ≤ b ↔ value a ≤ value b)
  isFinite_of_between {a b c : α} :
    Scalar.isFinite a = true → Scalar.isFinite c = true → a ≤ b → b ≤ c → Scalar.isFinite b = true
  neg {a : α} : Scalar.isFinite a = true → Scalar.isFinite (-a) = true ∧ value (-a) = -value a
  abs {a : α} : Scalar.isFinite a = true → Scalar.isFinite (Scalar.abs a) = true ∧ value (Scalar.abs a) = |value a|
  ofInt {n : ℤ} :
    n.natAbs < 2 ^ 53 → Scalar.isFinite (Scalar.ofInt n : α) = true ∧ value (Scalar.ofInt n : α) = n
  value_eq_of_beq {a b : α} :
    Scalar.isFinite a = true → Scalar.isFinite b = true → (a == b) = true → value a = value b
  le_floor_iff {a : α} (n : ℤ) : Scalar.isFinite a = true → (n ≤ Scalar.floor a ↔ (n : K) ≤ value a)
  abs_roundAt_sub_le {a : α} (places : ℕ) :
    Scalar.isFinite a = true → |(Scalar.roundAt places a : K) - value a * 10 ^ places| ≤ 1 / 2
  roundAt_congr {a b : α} (places : ℕ) : Scalar.isFinite a = true → Scalar.isFinite b = true → value a = value b →
    Scalar.roundAt places a = Scalar.roundAt places b
  zero : Scalar.isFinite (0.0 : α) = true ∧ value (0.0 : α) = 0
  ten : Scalar.isFinite (10.0 : α) = true ∧ value (10.0 : α) = 10
  hundred : Scalar.isFinite (100.0 : α) = true ∧ value (100.0 : α) = 100
  lt_thousandth_iff {a : α} : Scalar.isFinite a = true → (a < 0.001 ↔ value a < 1 / 1000)
  /-- The text of an infinity is read as one. -/
  text_eq {a : α} : Scalar.isFinite a = false → Scalar.isUndefined a = false →
    Number.readReal? (Scalar.text a) = some (.infinite (a < 0.0))

instance {α : Type} [IntegralScalar α] : HasValue α α where
  value a := a

theorem value_exact {α : Type} [IntegralScalar α] (a : α) : value a = a :=
  rfl

instance {α : Type} [IntegralScalar α] : ValuedScalar α α where
  le_iff _ _ := Iff.rfl
  isFinite_of_between _ _ _ _ := LawfulScalar.isFinite_eq _
  neg _ := ⟨LawfulScalar.isFinite_eq _, rfl⟩
  abs _ := ⟨LawfulScalar.isFinite_eq _, LawfulScalar.abs_eq _⟩
  ofInt _ := ⟨LawfulScalar.isFinite_eq _, LawfulScalar.ofInt_eq _⟩
  value_eq_of_beq {a b} _ _ h := by rwa [ExactScalar.beq_eq, decide_eq_true_iff] at h
  le_floor_iff {a} n _ := IntegralScalar.le_floor_iff n a
  abs_roundAt_sub_le {a} places _ := IntegralScalar.abs_roundAt_sub_le places a
  roundAt_congr _ _ _ h := by rw [value_exact, value_exact] at h; rw [h]
  zero := ⟨LawfulScalar.isFinite_eq _, Scalar.literal_zero⟩
  ten := ⟨LawfulScalar.isFinite_eq _, by rw [value_exact, ExactScalar.scientific_eq]; norm_num⟩
  hundred := ⟨LawfulScalar.isFinite_eq _, by rw [value_exact, ExactScalar.scientific_eq]; norm_num⟩
  lt_thousandth_iff {a} _ := by rw [value_exact, ExactScalar.scientific_eq]; norm_num
  text_eq {a} h _ := by
    rw [LawfulScalar.isFinite_eq] at h
    cases h

/-! ### The integer part and rounding -/

namespace Scalar

variable {α K : Type} [Scalar α] [Field K] [LinearOrder K] [IsStrictOrderedRing K] [HasValue α K] [ValuedScalar α K]
variable {a b : α} {n : ℤ}

theorem lt_iff_value (ha : isFinite a = true) (hb : isFinite b = true) : a < b ↔ value a < value b := by
  rw [StrictlyOrderedScalar.lt_iff, ValuedScalar.le_iff ha hb, ValuedScalar.le_iff hb ha, lt_iff_le_not_ge]

include K in
theorem zero_defined : isUndefined (0.0 : α) = false :=
  (StrictlyOrderedScalar.defined_of_le ((ValuedScalar.le_iff ValuedScalar.zero.1 ValuedScalar.zero.1).mpr le_rfl)).1

theorem neg_iff_value (ha : isFinite a = true) : a < 0.0 ↔ value a < 0 := by
  rw [lt_iff_value ha ValuedScalar.zero.1, ValuedScalar.zero.2]

/-- The integer part is the ceiling of a negative number, and the floor of any other one. -/
theorem truncate_cases (ha : isFinite a = true) :
    value a < 0 ∧ (∀ n : ℤ, truncate a ≤ n ↔ value a ≤ n) ∨
      0 ≤ value a ∧ ∀ n : ℤ, n ≤ truncate a ↔ (n : K) ≤ value a := by
  obtain ⟨hfinite, hneg⟩ := ValuedScalar.neg ha
  by_cases hlt : a < 0.0
  · refine .inl ⟨(neg_iff_value ha).mp hlt, fun n => ?_⟩
    rw [truncate, if_pos hlt, neg_le, ValuedScalar.le_floor_iff _ hfinite, hneg, Int.cast_neg, neg_le_neg_iff]
  · refine .inr ⟨not_lt.mp fun h => hlt ((neg_iff_value ha).mpr h), fun n => ?_⟩
    rw [truncate, if_neg hlt, ValuedScalar.le_floor_iff _ ha]

theorem le_truncate (ha : isFinite a = true) (h : (n : K) ≤ value a) : n ≤ truncate a := by
  rcases truncate_cases ha with ⟨-, hceil⟩ | ⟨-, hfloor⟩
  · exact Int.cast_le.mp (h.trans ((hceil _).mp le_rfl))
  · exact (hfloor n).mpr h

theorem truncate_le (ha : isFinite a = true) (h : value a ≤ n) : truncate a ≤ n := by
  rcases truncate_cases ha with ⟨-, hceil⟩ | ⟨-, hfloor⟩
  · exact (hceil n).mpr h
  · exact Int.cast_le.mp (((hfloor _).mp le_rfl).trans h)

theorem abs_truncate_sub_lt (ha : isFinite a = true) : |(truncate a : K) - value a| < 1 := by
  rw [abs_lt]
  rcases truncate_cases ha with ⟨-, hceil⟩ | ⟨-, hfloor⟩
  · have hle := (hceil _).mp le_rfl
    have hlt := not_le.mp fun h => (sub_one_lt (truncate a)).not_ge ((hceil _).mpr h)
    push_cast at hlt
    constructor <;> linarith
  · have hle := (hfloor _).mp le_rfl
    have hlt := not_le.mp fun h => (lt_add_one (truncate a)).not_ge ((hfloor _).mpr h)
    push_cast at hlt
    constructor <;> linarith

theorem truncate_le_truncate (ha : isFinite a = true) (hb : isFinite b = true) (h : value a ≤ value b) :
    truncate a ≤ truncate b := by
  rcases truncate_cases ha with ⟨hneg, hceil⟩ | ⟨hpos, hfloor⟩
  · rcases truncate_cases hb with ⟨-, hceil'⟩ | ⟨hpos, -⟩
    · exact (hceil _).mpr (h.trans ((hceil' _).mp le_rfl))
    · have hzero : ((0 : ℤ) : K) = 0 := Int.cast_zero
      exact (truncate_le ha (hzero ▸ hneg.le)).trans (le_truncate hb (hzero ▸ hpos))
  · exact le_truncate hb (((hfloor _).mp le_rfl).trans h)

/-- Rounding crosses no integer of the place. -/
theorem le_roundAt {p : ℕ} (ha : isFinite a = true) (h : (n : K) ≤ value a * 10 ^ p) : n ≤ roundAt p a :=
  le_of_near (ValuedScalar.abs_roundAt_sub_le p ha) h

theorem roundAt_le {p : ℕ} (ha : isFinite a = true) (h : value a * 10 ^ p ≤ n) : roundAt p a ≤ n :=
  ge_of_near (ValuedScalar.abs_roundAt_sub_le p ha) h

theorem roundAt_le_roundAt (p : ℕ) (ha : isFinite a = true) (hb : isFinite b = true) (h : value a ≤ value b) :
    roundAt p a ≤ roundAt p b := by
  rcases h.eq_or_lt with heq | hlt
  · exact (ValuedScalar.roundAt_congr p ha hb heq).le
  · have hbelow := (abs_le.mp (ValuedScalar.abs_roundAt_sub_le p ha)).2
    have habove := (abs_le.mp (ValuedScalar.abs_roundAt_sub_le p hb)).1
    have hscaled : value a * 10 ^ p < value b * 10 ^ p := mul_lt_mul_of_pos_right hlt (by positivity)
    have hlt : (roundAt p a : K) < ((roundAt p b + 1 : ℤ) : K) := by
      push_cast
      linarith
    exact Int.lt_add_one_iff.mp (Int.cast_lt.mp hlt)

end Scalar

/-! ### Doubles -/

namespace Number

open Float.Model.UnpackedFloat

variable {a : Float}

theorem stands_ten : Stands 10.0 (5 * 2 ^ 50) (-49) :=
  ⟨by decide, rfl⟩

theorem stands_hundred : Stands 100.0 (25 * 2 ^ 48) (-46) :=
  ⟨by decide, rfl⟩

theorem stands_thousandth : Stands 0.001 4611686018427388 (-62) :=
  ⟨by decide, rfl⟩

/-- No double is between a thousandth and the double that is nearest to it. -/
theorem lt_thousandth_iff (ha : a.isFinite = true) : a < 0.001 ↔ valueOf a < 1 / 1000 := by
  obtain ⟨hfinite, hvalue⟩ := stands_thousandth.valueOf
  have habove : 1 / 1000 < scaled 4611686018427388 (-62) := by norm_num [scaled]
  have hbelow : scaled 4611686018427387 (-62) < 1 / 1000 := by norm_num [scaled]
  have hlt : a < 0.001 ↔ valueOf a < scaled 4611686018427388 (-62) := by
    rw [StrictlyOrderedScalar.lt_iff, float_le_iff_valueOf ha hfinite, float_le_iff_valueOf hfinite ha, hvalue,
      lt_iff_le_not_ge]
  rw [hlt]
  refine ⟨fun h => ?_, fun h => h.trans habove⟩
  rw [valueOf_eq ha] at h ⊢
  rcases finite_cases ha with ⟨s, hs⟩ | ⟨_ | _, m, e, hm, hs, hfits, -⟩ <;> rw [hs] at h ⊢
  · rw [toRat_zero]
    norm_num
  · rw [toRat_negative]
    have hpos := scaled_pos hm e
    linarith
  · rw [toRat_positive] at h ⊢
    have hnext : Fits 4611686018427387 (-62) := ⟨by decide, by decide, fun _ => by decide⟩
    refine lt_of_le_of_lt ((hfits.scaled_le_iff hnext).mpr ?_) hbelow
    have hplace := lt_iff_le_not_ge.mp h
    rw [hfits.scaled_le_iff stands_thousandth.fits, stands_thousandth.fits.scaled_le_iff hfits] at hplace
    omega

theorem readReal?_specialChars (ha : a.isNaN = false) :
    readReal? (specialChars a) = some (.infinite (a < 0.0)) := by
  rw [specialChars, if_neg (Bool.not_eq_true _ ▸ ha)]
  by_cases hneg : a < 0.0
  · rw [if_pos hneg, decide_eq_true hneg]
    decide
  · rw [if_neg hneg, decide_eq_false hneg]
    decide

theorem readReal?_shortest (hfinite : a.isFinite = false) (hdefined : Scalar.isUndefined a = false) :
    readReal? (shortest a) = some (.infinite (a < 0.0)) := by
  rw [shortest, hfinite]
  exact readReal?_specialChars (Bool.eq_false_iff.mpr fun h => isUndefined_eq_false_iff.mp hdefined (isNaN_iff.mp h))

end Number

instance : HasValue Float ℚ where
  value := Number.valueOf

instance : ValuedScalar Float ℚ where
  le_iff := Number.float_le_iff_valueOf
  isFinite_of_between ha hc hab hbc :=
    Number.unpacked_isFinite_of_between ha hc (float_le_iff.mp hab) (float_le_iff.mp hbc)
  neg ha := ⟨Number.isFinite_neg ha, Number.valueOf_neg ha⟩
  abs ha := ⟨Number.isFinite_abs ha, Number.valueOf_abs ha⟩
  ofInt := Number.valueOf_ofInteger
  value_eq_of_beq := Number.valueOf_eq_of_beq
  le_floor_iff {a} n _ := Number.le_floor_toRat n (Number.decode a)
  abs_roundAt_sub_le {a} places _ := (Number.roundAt_nearest places (Number.decode a)).near
  roundAt_congr {a b} places _ _ h := by
    have ha := Number.roundAt_nearest places (Number.decode a)
    have hb := Number.roundAt_nearest places (Number.decode b)
    have h : (Number.decode a).toRat = (Number.decode b).toRat := h
    rw [← h] at hb
    exact ha.unique hb
  zero := Number.valueOf_zero
  ten := ⟨Number.stands_ten.valueOf.1, Number.stands_ten.valueOf.2.trans (by norm_num [Number.scaled])⟩
  hundred := ⟨Number.stands_hundred.valueOf.1, Number.stands_hundred.valueOf.2.trans (by norm_num [Number.scaled])⟩
  lt_thousandth_iff := Number.lt_thousandth_iff
  text_eq := Number.readReal?_shortest

end FieldPlot
