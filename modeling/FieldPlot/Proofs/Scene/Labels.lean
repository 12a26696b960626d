import FieldPlot.Proofs.Scalar.DecimalText
import FieldPlot.Proofs.Scalar.Valued
import FieldPlot.Scene.Label

/-! Texts of numbers read back. What a label stands for is on the same side of every integer as its number, so it is
exact on integers, and labels are never in another order than their numbers. -/

namespace FieldPlot

open HasValue (value)

/-- The number that was read, or the infinity. -/
def Number.Written.extended? : Number.Written → Option (WithBotTop ℚ)
  | decimal negative m e => some (decimal negative m e).toRat
  | infinite negative => some (if negative then ⊥ else ⊤)
  | undefined => none

theorem Number.toRat_natAbs {n : ℤ} {negative : Bool} (hneg : negative = true → n ≤ 0)
    (hpos : negative = false → 0 ≤ n) (e : ℤ) : (Number.Written.decimal negative n.natAbs e).toRat = n * 10 ^ e := by
  rw [Number.Written.toRat, Nat.cast_natAbs]
  cases negative with
  | true => rw [if_pos rfl, abs_of_nonpos (hneg rfl), Int.cast_neg, neg_one_mul, neg_neg]
  | false => rw [if_neg Bool.false_ne_true, abs_of_nonneg (hpos rfl), one_mul]

namespace Scene

open Scalar

/-- The number that a text denotes. -/
def denoted? (s : List Char) : Option (WithBotTop ℚ) :=
  (Number.readReal? s).bind Number.Written.extended?

variable {α K : Type} [Scalar α] [Field K] [LinearOrder K] [HasValue α K] {a b : α}

/-- What the label of a finite number denotes. It depends on the size of the number alone: an integer is the same with
and without a fraction. -/
structure Labelled (a : α) (q : ℚ) : Prop where
  zero : |value a| < 1 / 1000 → q = 0
  hundredths : 1 / 1000 ≤ |value a| → |value a| < 10 → q = roundAt 2 a / 10 ^ 2
  tenths : 10 ≤ |value a| → |value a| < 100 → q = roundAt 1 a / 10 ^ 1
  whole : 100 ≤ |value a| → q = truncate a

theorem Labelled.cases {q : ℚ} (h : Labelled a q) :
    |value a| < 1 / 1000 ∧ q = 0 ∨ (∃ p, q = roundAt p a / 10 ^ p) ∨ q = truncate a := by
  rcases lt_or_ge |value a| (1 / 1000) with hzero | hzero
  · exact .inl ⟨hzero, h.zero hzero⟩
  rcases lt_or_ge |value a| 10 with hten | hten
  · exact .inr (.inl ⟨2, h.hundredths hzero hten⟩)
  rcases lt_or_ge |value a| 100 with hhundred | hhundred
  · exact .inr (.inl ⟨1, h.tenths hten hhundred⟩)
  · exact .inr (.inr (h.whole hhundred))

variable [IsStrictOrderedRing K]

theorem Labelled.of_whole (h : 100 ≤ |value a|) : Labelled a (truncate a) where
  zero hlt := absurd (h.trans_lt hlt) (by norm_num)
  hundredths _ hlt := absurd (h.trans_lt hlt) (by norm_num)
  tenths _ hlt := absurd (h.trans_lt hlt) (lt_irrefl _)
  whole _ := rfl

theorem Labelled.of_tenths (hle : 10 ≤ |value a|) (hlt : |value a| < 100) : Labelled a (roundAt 1 a / 10 ^ 1) where
  zero h := absurd (hle.trans_lt h) (by norm_num)
  hundredths _ h := absurd (hle.trans_lt h) (lt_irrefl _)
  tenths _ _ := rfl
  whole h := absurd (h.trans_lt hlt) (lt_irrefl _)

theorem Labelled.of_hundredths (hle : 1 / 1000 ≤ |value a|) (hlt : |value a| < 10) :
    Labelled a (roundAt 2 a / 10 ^ 2) where
  zero h := absurd (hle.trans_lt h) (lt_irrefl _)
  hundredths _ _ := rfl
  tenths h _ := absurd (h.trans_lt hlt) (lt_irrefl _)
  whole h := absurd (h.trans_lt hlt) (by norm_num)

theorem Labelled.of_zero (hlt : |value a| < 1 / 1000) : Labelled a 0 where
  zero _ := rfl
  hundredths h _ := absurd (h.trans_lt hlt) (lt_irrefl _)
  tenths h _ := absurd (h.trans_lt hlt) (by norm_num)
  whole h := absurd (h.trans_lt hlt) (by norm_num)

/-! ### Labels read back -/

variable [ValuedScalar α K]

theorem denoted?_zero : denoted? ['0'] = some ((0 : ℚ) : WithBotTop ℚ) := by
  have hread : Number.readReal? ['0'] = some (.decimal false 0 0) := Number.readReal?_digitsOf false 0
  rw [denoted?, hread, Option.bind_some, Number.Written.extended?, Number.Written.toRat,
    Nat.cast_zero, mul_zero, zero_mul]

theorem denoted?_integerLabel (a : α) : denoted? (integerLabel a) = some ((truncate a : ℚ) : WithBotTop ℚ) := by
  rw [denoted?, integerLabel, Number.readReal?_digitsOf, Option.bind_some, Number.Written.extended?,
    Number.toRat_natAbs (fun h => (of_decide_eq_true h).le) (fun h => not_lt.mp (of_decide_eq_false h)), zpow_zero,
    mul_one]

include K in
theorem denoted?_fixedLabel (places : ℕ) (ha : isFinite a = true) :
    denoted? (fixedLabel places a) = some ((roundAt places a / 10 ^ places : ℚ) : WithBotTop ℚ) := by
  have hneg (h : decide (a < 0.0) = true) : roundAt places a ≤ 0 := by
    have hvalue := (neg_iff_value ha).mp (of_decide_eq_true h)
    refine roundAt_le ha ?_
    rw [Int.cast_zero]
    exact mul_nonpos_of_nonpos_of_nonneg hvalue.le (by positivity)
  have hpos (h : decide (a < 0.0) = false) : 0 ≤ roundAt places a := by
    have hvalue := not_lt.mp (mt (neg_iff_value ha).mpr (of_decide_eq_false h))
    refine le_roundAt ha ?_
    rw [Int.cast_zero]
    exact mul_nonneg hvalue (by positivity)
  rw [denoted?, fixedLabel, Number.readReal?_fixedChars, Option.bind_some, Number.Written.extended?,
    Number.toRat_natAbs hneg hpos, zpow_neg, zpow_natCast, div_eq_mul_inv]

theorem Labelled.of_integer {n : ℤ} (ha : isFinite a = true) (hn : value a = n) (h : 1 / 1000 ≤ |value a|) :
    Labelled a (truncate a) := by
  have htruncate : truncate a = n := le_antisymm (truncate_le ha hn.le) (le_truncate ha hn.ge)
  have hround (p : ℕ) : roundAt p a = n * 10 ^ p := by
    have hscaled : value a * 10 ^ p = ((n * 10 ^ p : ℤ) : K) := by
      rw [hn]
      push_cast
      rfl
    exact le_antisymm (roundAt_le ha hscaled.le) (le_roundAt ha hscaled.ge)
  have hfixed (p : ℕ) : (truncate a : ℚ) = roundAt p a / 10 ^ p := by
    rw [htruncate, hround]
    push_cast
    rw [mul_div_cancel_right₀ _ (by positivity)]
  exact ⟨fun hlt => absurd h hlt.not_ge, fun _ _ => hfixed 2, fun _ _ => hfixed 1, fun _ => rfl⟩

/-- Below a hundred, a number that equals a converted integer has that integer for its value. -/
theorem value_eq_roundAt (ha : isFinite a = true) (hlt : |value a| < 100)
    (h : (a == ofInt (roundAt 0 a)) = true) : value a = (roundAt 0 a : K) := by
  obtain ⟨hlo, hhi⟩ := abs_lt.mp hlt
  have hle : roundAt 0 a ≤ 100 := roundAt_le ha (by push_cast; linarith)
  have hge : -100 ≤ roundAt 0 a := le_roundAt ha (by push_cast; linarith)
  obtain ⟨hfinite, hvalue⟩ := ValuedScalar.ofInt (α := α) (n := roundAt 0 a) (by omega)
  rw [ValuedScalar.value_eq_of_beq ha hfinite h, hvalue]

theorem exists_labelled (ha : isFinite a = true) :
    ∃ q : ℚ, denoted? (numberLabel a) = some (q : WithBotTop ℚ) ∧ Labelled a q := by
  obtain ⟨hfinite, hsize⟩ := ValuedScalar.abs ha
  have hzero : Scalar.abs a < 0.001 ↔ |value a| < 1 / 1000 := by
    rw [ValuedScalar.lt_thousandth_iff hfinite, hsize]
  have hten : 10.0 ≤ Scalar.abs a ↔ 10 ≤ |value a| := by
    rw [ValuedScalar.le_iff ValuedScalar.ten.1 hfinite, ValuedScalar.ten.2, hsize]
  have hhundred : 100.0 ≤ Scalar.abs a ↔ 100 ≤ |value a| := by
    rw [ValuedScalar.le_iff ValuedScalar.hundred.1 hfinite, ValuedScalar.hundred.2, hsize]
  unfold numberLabel
  simp only [ha, Bool.not_true, Bool.false_eq_true, if_false, hzero, hten, hhundred]
  split
  · next hlt => exact ⟨0, denoted?_zero, .of_zero hlt⟩
  next hge =>
  have hge := not_lt.mp hge
  split
  · next hinteger =>
    refine ⟨_, denoted?_integerLabel a, ?_⟩
    rcases le_or_gt 100 |value a| with hlarge | hsmall
    · exact .of_whole hlarge
    · exact .of_integer ha (value_eq_roundAt ha hsmall (Bool.and_eq_true_iff.mp hinteger).1) hge
  split
  · next hlarge => exact ⟨_, denoted?_integerLabel a, .of_whole hlarge⟩
  next hsmall =>
  split
  · next hle => exact ⟨_, denoted?_fixedLabel 1 ha, .of_tenths hle (not_le.mp hsmall)⟩
  · next hlt => exact ⟨_, denoted?_fixedLabel 2 ha, .of_hundredths hge (not_le.mp hlt)⟩

/-! ### Accuracy and order -/

theorem le_roundAt_div {n : ℤ} (p : ℕ) (ha : isFinite a = true) (hn : (n : K) ≤ value a) :
    (n : ℚ) ≤ roundAt p a / 10 ^ p := by
  have hscaled : ((n * 10 ^ p : ℤ) : K) ≤ value a * 10 ^ p := by
    push_cast
    exact mul_le_mul_of_nonneg_right hn (by positivity)
  rw [le_div_iff₀ (by positivity)]
  exact_mod_cast le_roundAt ha hscaled

theorem roundAt_div_le {n : ℤ} (p : ℕ) (ha : isFinite a = true) (hn : value a ≤ n) :
    (roundAt p a / 10 ^ p : ℚ) ≤ n := by
  have hscaled : value a * 10 ^ p ≤ ((n * 10 ^ p : ℤ) : K) := by
    push_cast
    exact mul_le_mul_of_nonneg_right hn (by positivity)
  rw [div_le_iff₀ (by positivity)]
  exact_mod_cast roundAt_le ha hscaled

theorem abs_roundAt_div_sub_le (p : ℕ) (ha : isFinite a = true) :
    |((roundAt p a / 10 ^ p : ℚ) : K) - value a| ≤ 1 / 2 / 10 ^ p := by
  have hpos : (0 : K) < 10 ^ p := by positivity
  have hscaled : ((roundAt p a / 10 ^ p : ℚ) : K) - value a = (roundAt p a - value a * 10 ^ p) / 10 ^ p := by
    push_cast
    field_simp
  rw [hscaled, abs_div, abs_of_pos hpos]
  exact div_le_div_of_nonneg_right (ValuedScalar.abs_roundAt_sub_le p ha) hpos.le

/-- An integer that is not above a number is not above what its label denotes. -/
theorem Labelled.le {n : ℤ} {q : ℚ} (h : Labelled a q) (ha : isFinite a = true) (hn : (n : K) ≤ value a) : n ≤ q := by
  rcases h.cases with ⟨hlt, rfl⟩ | ⟨p, rfl⟩ | rfl
  · have hone : (n : K) < (1 : ℤ) := by
      have hle := le_abs_self (value a)
      push_cast
      linarith
    exact_mod_cast Int.lt_add_one_iff.mp (Int.cast_lt.mp hone)
  · exact le_roundAt_div p ha hn
  · exact_mod_cast le_truncate ha hn

theorem Labelled.ge {n : ℤ} {q : ℚ} (h : Labelled a q) (ha : isFinite a = true) (hn : value a ≤ n) : q ≤ n := by
  rcases h.cases with ⟨hlt, rfl⟩ | ⟨p, rfl⟩ | rfl
  · have hone : ((-1 : ℤ) : K) < n := by
      have hle := neg_abs_le (value a)
      push_cast
      linarith
    exact_mod_cast Int.add_one_le_iff.mpr (Int.cast_lt.mp hone)
  · exact roundAt_div_le p ha hn
  · exact_mod_cast truncate_le ha hn

/-- How near a label has to be to its number. -/
structure Accurate (v q : K) : Prop where
  hundreds : 100 ≤ |v| → |q - v| < 1
  tens : 10 ≤ |v| → |v| < 100 → |q - v| ≤ 1 / 20
  ones : 1 / 1000 ≤ |v| → |v| < 10 → |q - v| ≤ 1 / 200
  small : |v| < 1 / 1000 → |q - v| < 1 / 1000
  integer : ∀ n : ℤ, v = n → q = v

theorem Labelled.accurate {q : ℚ} (h : Labelled a q) (ha : isFinite a = true) : Accurate (value a) q where
  hundreds hv := by
    rw [h.whole hv, Rat.cast_intCast]
    exact abs_truncate_sub_lt ha
  tens hle hlt := by
    rw [h.tenths hle hlt]
    exact (abs_roundAt_div_sub_le 1 ha).trans (by norm_num)
  ones hle hlt := by
    rw [h.hundredths hle hlt]
    exact (abs_roundAt_div_sub_le 2 ha).trans (by norm_num)
  small hv := by
    rw [h.zero hv, Rat.cast_zero, zero_sub, abs_neg]
    exact hv
  integer n hn := by
    have hq : q = n := le_antisymm (h.ge ha hn.le) (h.le ha hn.ge)
    rw [hq, hn, Rat.cast_intCast]

/-- Numbers without an integer between them are on the same side of every size. -/
theorem abs_lt_iff_of_no_integer {v w : K} (hle : v ≤ w) (hnone : ∀ n : ℤ, v ≤ n → w < n) (n : ℤ) :
    |v| < n ↔ |w| < n := by
  have hneg := hnone (-n)
  push_cast at hneg
  rw [abs_lt, abs_lt]
  constructor
  · rintro ⟨hlo, hhi⟩
    exact ⟨hlo.trans_le hle, hnone n hhi.le⟩
  · rintro ⟨hlo, hhi⟩
    refine ⟨not_le.mp fun h => (hneg h).not_gt hlo, hle.trans_lt hhi⟩

theorem Labelled.mono {p q : ℚ} (hp : Labelled a p) (hq : Labelled b q) (ha : isFinite a = true)
    (hb : isFinite b = true) (h : value a ≤ value b) : p ≤ q := by
  by_cases hinteger : ∃ n : ℤ, value a ≤ n ∧ (n : K) ≤ value b
  · obtain ⟨n, han, hnb⟩ := hinteger
    exact (hp.ge ha han).trans (hq.le hb hnb)
  have hnone (n : ℤ) (hn : value a ≤ n) : value b < n := not_le.mp fun hle => hinteger ⟨n, hn, hle⟩
  have hten : |value a| < 10 ↔ |value b| < 10 := by exact_mod_cast abs_lt_iff_of_no_integer h hnone 10
  have hhundred : |value a| < 100 ↔ |value b| < 100 := by exact_mod_cast abs_lt_iff_of_no_integer h hnone 100
  have hround (p : ℕ) : (roundAt p a / 10 ^ p : ℚ) ≤ roundAt p b / 10 ^ p :=
    div_le_div_of_nonneg_right (Int.cast_le.mpr (roundAt_le_roundAt p ha hb h)) (by positivity)
  rcases le_or_gt 100 |value a| with hlarge | hlarge
  · rw [hp.whole hlarge, hq.whole (not_lt.mp (mt hhundred.mpr hlarge.not_gt))]
    exact_mod_cast truncate_le_truncate ha hb h
  rcases le_or_gt 10 |value a| with hmiddle | hmiddle
  · rw [hp.tenths hmiddle hlarge, hq.tenths (not_lt.mp (mt hten.mpr hmiddle.not_gt)) (hhundred.mp hlarge)]
    exact hround 1
  -- Below ten a number may be close to zero, where the sign tells what the other one is.
  have hten' := hten.mp hmiddle
  rcases lt_or_ge |value a| (1 / 1000) with hsmall | hsmall <;>
    rcases lt_or_ge |value b| (1 / 1000) with hsmall' | hsmall'
  · rw [hp.zero hsmall, hq.zero hsmall']
  · have hpos : 0 ≤ value b := by
      by_contra hneg
      have hle := neg_le_abs (value a)
      rw [abs_of_neg (not_le.mp hneg)] at hsmall'
      linarith
    rw [hp.zero hsmall, ← Int.cast_zero]
    exact hq.le hb (by rwa [Int.cast_zero])
  · have hneg : value a ≤ 0 := by
      by_contra hpos
      have hle := le_abs_self (value b)
      rw [abs_of_pos (not_le.mp hpos)] at hsmall
      linarith
    rw [hq.zero hsmall', ← Int.cast_zero]
    exact hp.ge ha (by rwa [Int.cast_zero])
  · rw [hp.hundredths hsmall hmiddle, hq.hundredths hsmall' hten']
    exact hround 2

section Infinities

include K

theorem denoted?_of_infinite (hinfinite : isFinite a = false) (hdefined : isUndefined a = false) :
    denoted? (numberLabel a) = some (if a < 0.0 then ⊥ else ⊤) := by
  have htext : numberLabel a = text a := if_pos (by rw [hinfinite]; rfl)
  rw [htext, denoted?, ValuedScalar.text_eq hinfinite hdefined, Option.bind_some, Number.Written.extended?]
  simp only [decide_eq_true_iff]

theorem exists_denoted (hdefined : isUndefined a = false) : ∃ q, denoted? (numberLabel a) = some q := by
  rcases Bool.eq_false_or_eq_true (isFinite a) with hfinite | hinfinite
  · obtain ⟨q, hq, -⟩ := exists_labelled hfinite
    exact ⟨q, hq⟩
  · exact ⟨_, denoted?_of_infinite hinfinite hdefined⟩

/-- An infinity is below all finite numbers or above them. -/
theorem infinite_cases (h : a ≤ b) (hinfinite : isFinite a = false ∨ isFinite b = false) :
    isFinite a = false ∧ a < 0.0 ∨ isFinite b = false ∧ ¬b < 0.0 := by
  have hzero : isFinite (0.0 : α) = true := ValuedScalar.zero.1
  have hbetween := @ValuedScalar.isFinite_of_between α K _ _ _ _ _ _
  rcases Bool.eq_false_or_eq_true (isFinite a) with ha | ha
  · have hb : isFinite b = false := hinfinite.resolve_left (by rw [ha]; decide)
    refine .inr ⟨hb, fun hneg => ?_⟩
    rw [hbetween ha hzero h (le_of_lt hneg)] at hb
    cases hb
  · by_cases hneg : a < 0.0
    · exact .inl ⟨ha, hneg⟩
    · have hle := le_of_not_lt (StrictlyOrderedScalar.defined_of_le h).1 zero_defined hneg
      refine .inr ⟨Bool.eq_false_iff.mpr fun hb => ?_, fun hlt => hneg (lt_of_le_of_lt h hlt)⟩
      rw [hbetween hzero hb hle h] at ha
      cases ha

end Infinities

/-- Labels are read back as numbers near to their own, and in the same order. An infinity is read as such. -/
theorem numberLabel_accurate_and_ordered :
    (∀ a : α, isFinite a = true →
        ∃ q : ℚ, denoted? (numberLabel a) = some (q : WithBotTop ℚ) ∧ Accurate (value a) q) ∧
      ∀ a b : α, a ≤ b → ∃ p q, denoted? (numberLabel a) = some p ∧ denoted? (numberLabel b) = some q ∧ p ≤ q := by
  refine ⟨fun a ha => ?_, fun a b h => ?_⟩
  · obtain ⟨q, hread, hq⟩ := exists_labelled ha
    exact ⟨q, hread, hq.accurate ha⟩
  · by_cases hfinite : isFinite a = true ∧ isFinite b = true
    · obtain ⟨ha, hb⟩ := hfinite
      obtain ⟨p, hreada, hp⟩ := exists_labelled ha
      obtain ⟨q, hreadb, hq⟩ := exists_labelled hb
      have hle := hp.mono hq ha hb ((ValuedScalar.le_iff ha hb).mp h)
      exact ⟨p, q, hreada, hreadb, WithBotTop.coe_le_coe.mpr hle⟩
    · rw [not_and_or, Bool.not_eq_true, Bool.not_eq_true] at hfinite
      obtain ⟨ha, hb⟩ := StrictlyOrderedScalar.defined_of_le h
      rcases infinite_cases h hfinite with ⟨hinfinite, hneg⟩ | ⟨hinfinite, hpos⟩
      · obtain ⟨q, hq⟩ := exists_denoted hb
        exact ⟨⊥, q, by rw [denoted?_of_infinite hinfinite ha, if_pos hneg], hq, bot_le⟩
      · obtain ⟨p, hp⟩ := exists_denoted ha
        exact ⟨p, ⊤, hp, by rw [denoted?_of_infinite hinfinite hb, if_neg hpos], le_top⟩

theorem numberLabel_accurate_and_ordered_below_hundred :
    numberLabel (99.96 : Float) = ['1', '0', '0', '.', '0'] ∧
      (∃ q : ℚ, denoted? (numberLabel (99.96 : Float)) = some (q : WithBotTop ℚ) ∧
        Accurate (value (99.96 : Float)) q) ∧
      ∃ p q, denoted? (numberLabel (99.96 : Float)) = some p ∧ denoted? (numberLabel (100.5 : Float)) = some q ∧
        p ≤ q := by
  obtain ⟨haccurate, hordered⟩ := @numberLabel_accurate_and_ordered Float ℚ _ _ _ _ _ _
  exact ⟨by decide +kernel, haccurate 99.96 (by decide +kernel), hordered 99.96 100.5 (by decide +kernel)⟩

end Scene

end FieldPlot
