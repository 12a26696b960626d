import FieldPlot.Proofs.Outcome
import FieldPlot.Proofs.Scalar.Counting
import FieldPlot.Proofs.Scalar.Within
import FieldPlot.Sampling.Lattice

/-! Positions of a machine in scene units. Rounding may take a position off the range that is sampled, and a range may
be too large or too small for its positions to be numbers at all. Along one axis they are alike in this: all of them
are finite and far from the largest number, or none is finite. -/

namespace FieldPlot

open HasValue (value)
open Scalar (Within)

theorem Scalar.divide_eq_ok {α : Type} [Scalar α] {a b c : α} :
    divide a b = .ok c ↔ (b == 0.0) = false ∧ a / b = c := by
  unfold divide
  split
  · next hzero => simp [hzero]
  · next hne => simp [Bool.eq_false_iff.mpr hne]

theorem Scalar.isFinite_of_whole {α : Type} [Scalar α] {f : α → ℤ} {a : α} {n : ℤ} (h : whole f a = .ok n) :
    isFinite a = true := by
  unfold whole at h
  split at h
  · next hfinite => exact hfinite
  · split at h <;> cases h

namespace Sampling

/-! ### Positions -/

section

variable {α : Type} [Scalar α] {start stop r x : α} {n k : ℕ} {cells : ℤ} {xs : List α}

/-- A position is the last one, or an offset from the first one. -/
theorem evenlyAt_cases (hk : k < n) (h : evenlyAt start stop n k = .ok x) : x = stop ∨ ∃ p, x = p + start ∧
    (p = Scalar.ofNat k * (stop - start) ∧ k = 0 ∨ k + 1 < n ∧
      (p = Scalar.ofNat k / Scalar.ofNat (n - 1) * (stop - start) ∨
        p = Scalar.ofNat k * ((stop - start) / Scalar.ofNat (n - 1)))) := by
  unfold evenlyAt at h
  dsimp only at h
  split at h
  · next hn => exact .inr ⟨_, (Except.ok.inj h).symm, .inl ⟨rfl, by omega⟩⟩
  · split at h
    · exact .inl (Except.ok.inj h).symm
    · obtain ⟨step, hstep, h⟩ := bind_eq_ok.mp h
      obtain ⟨-, rfl⟩ := Scalar.divide_eq_ok.mp hstep
      split at h
      · obtain ⟨ratio, hratio, h⟩ := bind_eq_ok.mp h
        obtain ⟨-, rfl⟩ := Scalar.divide_eq_ok.mp hratio
        exact .inr ⟨_, (pure_eq_ok.mp h).symm, .inr ⟨by omega, .inl rfl⟩⟩
      · exact .inr ⟨_, (pure_eq_ok.mp h).symm, .inr ⟨by omega, .inr rfl⟩⟩

theorem exists_of_mem_vertices (h : vertices r cells = .ok xs) (hx : x ∈ xs) :
    ∃ n k, (Scalar.isBounded α = true → 8 * n < Scalar.memoryBound) ∧ k < n ∧ evenlyAt (-r) r n k = .ok x := by
  unfold vertices evenly at h
  split at h
  · cases h
  · obtain ⟨_, -, h⟩ := bind_eq_ok.mp h
    obtain ⟨n, hlength, h⟩ := bind_eq_ok.mp h
    split at h
    · cases h
    · obtain ⟨k, hk, hx⟩ := exists_of_mem_right (mapM_eq_ok.mp h) hx
      exact ⟨n, k, fun hbounded => Scalar.length_lt_of_listLength hbounded hlength, List.mem_range.mp hk, hx⟩

end

section

variable {α K : Type} [Scalar α] [Field K] [LinearOrder K] [IsStrictOrderedRing K] [HasValue α K] {r x p : α}
  {n k : ℕ}

/-- A position that is not farther from the middle than rounding makes of the end of the range. -/
structure Nearby (r x : α) : Prop where
  finite : Scalar.isFinite x = true
  abs_le : |value x| ≤ 2 * |value r| + 2 ^ (-49 : ℤ)

theorem Nearby.of_abs_le (hx : Scalar.isFinite x = true) (h : |value x| ≤ |value r|) : Nearby r x := by
  have htiny : (0 : K) < 2 ^ (-49 : ℤ) := zpow_pos two_pos _
  exact ⟨hx, by linarith [abs_nonneg (value r)]⟩

variable [RoundedScalar α K]

theorem ofNat_value (hn : n < 2 ^ 53) :
    Scalar.isFinite (Scalar.ofNat n : α) = true ∧ value (Scalar.ofNat n : α) = n := by
  obtain ⟨hfinite, hvalue⟩ := ValuedScalar.ofInt (α := α) (n := n) (by rwa [Int.natAbs_natCast])
  exact ⟨hfinite, by rw [Scalar.ofNat, hvalue, Int.cast_natCast]⟩

/-- An offset between nothing and the whole range leads to a position in the range. -/
theorem near_of_offset (hspan : Scalar.isFinite (r - -r) = true) (hp : Scalar.isFinite p = true)
    (h : value p ∈ Set.uIcc 0 (value (r - -r))) : Nearby r (p + -r) := by
  have hr := (RoundedScalar.isFinite_of_sub hspan).1
  obtain ⟨hneg, hvalue⟩ := ValuedScalar.neg hr
  obtain ⟨habs, hsize⟩ := ValuedScalar.abs hr
  rw [RoundedScalar.value_sub_neg hspan] at h
  have hexact : |value p + value (-r)| ≤ value (Scalar.abs r) := by
    rw [hvalue, hsize, ← sub_eq_add_neg]
    rcases le_total 0 (value r) with hpos | hneg
    · rw [Set.uIcc_of_le (by linarith), Set.mem_Icc] at h
      rw [abs_of_nonneg hpos, abs_le]
      constructor <;> linarith
    · rw [Set.uIcc_of_ge (by linarith), Set.mem_Icc] at h
      rw [abs_of_nonpos hneg, abs_le]
      constructor <;> linarith
  obtain ⟨hfinite, hle⟩ := (RoundedScalar.add_rounds hp hneg).abs_value_le habs hexact
  exact .of_abs_le hfinite (hle.trans_eq hsize)

/-- A part of the range, as it is rounded. -/
theorem near_of_part {a b : α} (hspan : Scalar.isFinite (r - -r) = true) (ha : Scalar.isFinite a = true)
    (hb : Scalar.isFinite b = true) (hsign : 0 ≤ value a * value b * value (r - -r))
    (habs : |value a * value b| ≤ |value (r - -r)|) : Nearby r (a * b + -r) := by
  have hmem := mem_uIcc_zero hsign habs
  rw [← (ValuedScalar.zero (α := α)).2] at hmem
  obtain ⟨hfinite, hbetween⟩ := (RoundedScalar.mul_rounds ha hb).mem_uIcc ValuedScalar.zero.1 hspan hmem
  rw [(ValuedScalar.zero (α := α)).2] at hbetween
  exact near_of_offset hspan hfinite hbetween

theorem near_of_ratio (hspan : Scalar.isFinite (r - -r) = true) (hk : k + 1 < n) (hn : n < 2 ^ 53) :
    Nearby r (Scalar.ofNat k / Scalar.ofNat (n - 1) * (r - -r) + -r) := by
  obtain ⟨hkfinite, hkvalue⟩ := ofNat_value (α := α) (n := k) (by omega)
  obtain ⟨hgfinite, hgvalue⟩ := ofNat_value (α := α) (n := n - 1) (by omega)
  have hpos : (0 : K) < (n - 1 : ℕ) := Nat.cast_pos.mpr (by omega)
  have hlo : 0 ≤ value (Scalar.ofNat k : α) / value (Scalar.ofNat (n - 1) : α) := by
    rw [hkvalue, hgvalue]
    exact div_nonneg (Nat.cast_nonneg k) hpos.le
  have hhi : value (Scalar.ofNat k : α) / value (Scalar.ofNat (n - 1) : α) ≤ 1 := by
    rw [hkvalue, hgvalue]
    exact div_le_one_of_le₀ (Nat.cast_le.mpr (by omega)) hpos.le
  have hratio := RoundedScalar.div_rounds hkfinite hgfinite (hgvalue ▸ hpos.ne')
  obtain ⟨hzero, hone⟩ := And.intro (ValuedScalar.zero (α := α)) (RoundedScalar.one (α := α))
  rw [← hzero.2] at hlo
  rw [← hone.2] at hhi
  have hfinite := hratio.isFinite hzero.1 hone.1 hlo hhi
  have hle := (hratio.le hfinite hone.1 hhi).trans_eq hone.2
  have hge := hzero.2.symm.trans_le (hratio.ge hfinite hzero.1 hlo)
  refine near_of_part hspan hfinite hspan ?_ ?_
  · rw [mul_assoc]
    exact mul_nonneg hge (mul_self_nonneg _)
  · rw [abs_mul, abs_of_nonneg hge]
    exact mul_le_of_le_one_left (abs_nonneg _) hle

theorem mul_nonneg_of_mem_uIcc {x y : K} (h : x ∈ Set.uIcc 0 y) : 0 ≤ x * y := by
  rcases le_total 0 y with hy | hy
  · rw [Set.uIcc_of_le hy] at h
    exact mul_nonneg h.1 hy
  · rw [Set.uIcc_of_ge hy] at h
    exact mul_nonneg_of_nonpos_of_nonpos h.2 hy

/-- As many steps as there are before the end do not pass it, if rounding adds less to each than its share. -/
theorem abs_steps_le {q z : K} (hk : k + 1 < n) (hn : n < 2 ^ 44) (hq : 2 ^ (-1029 : ℤ) ≤ |q|)
    (hz : |z| ≤ |q| * (1 + 2 ^ (-52 : ℤ)) + 2 ^ (-1074 : ℤ)) : k * |z| ≤ |q| * (n - 1 : ℕ) := by
  have hsmall : (2 : K) ^ (-1074 : ℤ) ≤ |q| * 2 ^ (-45 : ℤ) := by
    have hsplit : (2 : K) ^ (-1074 : ℤ) = 2 ^ (-1029 : ℤ) * 2 ^ (-45 : ℤ) := zpow_add₀ two_ne_zero (-1029) (-45)
    rw [hsplit]
    exact mul_le_mul_of_nonneg_right hq (zpow_nonneg zero_le_two _)
  have hshare : |z| ≤ |q| * (1 + 2 ^ (-44 : ℤ)) := by
    have hparts : (2 : K) ^ (-52 : ℤ) + 2 ^ (-45 : ℤ) ≤ 2 ^ (-44 : ℤ) := by norm_num
    calc |z| ≤ |q| * (1 + 2 ^ (-52 : ℤ)) + |q| * 2 ^ (-45 : ℤ) := hz.trans (by linarith)
      _ = |q| * (1 + (2 ^ (-52 : ℤ) + 2 ^ (-45 : ℤ))) := by ring
      _ ≤ |q| * (1 + 2 ^ (-44 : ℤ)) := mul_le_mul_of_nonneg_left (by linarith) (abs_nonneg q)
  have hcount : (k : K) * 2 ^ (-44 : ℤ) ≤ 1 := by
    have hk : (k : K) ≤ 2 ^ (44 : ℤ) := by exact_mod_cast (by omega : k ≤ 2 ^ 44)
    calc (k : K) * 2 ^ (-44 : ℤ) ≤ 2 ^ (44 : ℤ) * 2 ^ (-44 : ℤ) :=
          mul_le_mul_of_nonneg_right hk (zpow_nonneg zero_le_two _)
      _ = 1 := by norm_num
  have hlast : (k : K) + 1 ≤ (n - 1 : ℕ) := by exact_mod_cast (by omega : k + 1 ≤ n - 1)
  calc k * |z| ≤ k * (|q| * (1 + 2 ^ (-44 : ℤ))) := mul_le_mul_of_nonneg_left hshare (Nat.cast_nonneg k)
    _ = |q| * (k + k * 2 ^ (-44 : ℤ)) := by ring
    _ ≤ |q| * (n - 1 : ℕ) := mul_le_mul_of_nonneg_left (by linarith) (abs_nonneg q)

/-- In a range that is tiny no count of tiny steps leads far from the middle. -/
theorem near_of_short {count step : α} (hspan : Scalar.isFinite (r - -r) = true) (hcount : Within count 44)
    (hstep : Within step (-1028)) (hsize : |value (r - -r)| ≤ 2 ^ (-985 : ℤ)) : Nearby r (count * step + -r) := by
  have hend : Within (-r) (-983) := by
    obtain ⟨hneg, hvalue⟩ := ValuedScalar.neg (RoundedScalar.isFinite_of_sub hspan).1
    rw [RoundedScalar.value_sub_neg hspan, abs_mul, abs_two] at hsize
    refine ⟨hneg, ?_⟩
    rw [hvalue, abs_neg]
    have hmono : (2 : K) ^ (-985 : ℤ) ≤ 2 ^ (-983 : ℤ) := two_zpow_le (by decide)
    linarith [abs_nonneg (value r)]
  have hproduct := (hcount.mul hstep (by decide) (by decide)).mono (by decide : (44 + -1028 + 1 : ℤ) ≤ -983)
  have hsum := hproduct.add hend (by decide) (by decide)
  have hbound := hsum.abs_le.trans (two_zpow_le (by decide : (-983 + 2 : ℤ) ≤ -49))
  exact ⟨hsum.finite, by linarith [abs_nonneg (value r)]⟩

/-- Steps that are counted keep to the range, unless they are so short that nothing in the range is far from the
middle. -/
theorem near_of_step (hbounded : Scalar.isBounded α = true) (hspan : Scalar.isFinite (r - -r) = true) (hk : k + 1 < n)
    (hn : n < 2 ^ 44) : Nearby r (Scalar.ofNat k * ((r - -r) / Scalar.ofNat (n - 1)) + -r) := by
  obtain ⟨hkfinite, hkvalue⟩ := ofNat_value (α := α) (n := k) (by omega)
  obtain ⟨hgfinite, hgvalue⟩ := ofNat_value (α := α) (n := n - 1) (by omega)
  have hpos : (0 : K) < (n - 1 : ℕ) := Nat.cast_pos.mpr (by omega)
  have hstep := RoundedScalar.div_rounds hspan hgfinite (hgvalue ▸ hpos.ne')
  obtain ⟨q, hq⟩ : ∃ q, value (r - -r) / (n - 1 : ℕ) = q := ⟨_, rfl⟩
  have hwhole : value (r - -r) = q * (n - 1 : ℕ) := by rw [← hq, div_mul_cancel₀ _ hpos.ne']
  have habs : |value (r - -r)| = |q| * (n - 1 : ℕ) := by rw [hwhole, abs_mul, Nat.abs_cast]
  rw [hgvalue, hq] at hstep
  -- The step has the sign of the range.
  have hpart : q ∈ Set.uIcc 0 (value (r - -r)) := by
    refine mem_uIcc_zero ?_ ?_
    · rw [hwhole, ← mul_assoc]
      exact mul_nonneg (mul_self_nonneg q) hpos.le
    · rw [habs]
      exact le_mul_of_one_le_right (abs_nonneg q) (by exact_mod_cast (by omega : 1 ≤ n - 1))
  rw [← (ValuedScalar.zero (α := α)).2] at hpart
  obtain ⟨hfinite, hsign⟩ := hstep.mem_uIcc ValuedScalar.zero.1 hspan hpart
  rw [(ValuedScalar.zero (α := α)).2] at hsign
  rcases le_or_gt (2 ^ (-1029 : ℤ)) |q| with hlarge | hsmall
  · refine near_of_part hspan hkfinite hfinite ?_ ?_
    · rw [hkvalue, mul_assoc]
      exact mul_nonneg (Nat.cast_nonneg k) (mul_nonneg_of_mem_uIcc hsign)
    · rw [hkvalue, abs_mul, Nat.abs_cast, habs]
      rcases Nat.eq_zero_or_pos k with rfl | hkpos
      · rw [Nat.cast_zero, zero_mul]
        exact mul_nonneg (abs_nonneg q) hpos.le
      · have hcap : |q| ≤ 3 * 2 ^ (1022 : ℤ) := by
          have htwo : (2 : K) ≤ (n - 1 : ℕ) := by exact_mod_cast (by omega : 2 ≤ n - 1)
          have hlt := (RoundedScalar.abs_value_lt hbounded hspan).trans_eq (zpow_add₀ two_ne_zero 2 1022)
          have hfour : (2 : K) ^ (2 : ℤ) = 4 := by norm_num
          rw [habs, hfour] at hlt
          have hdouble := mul_le_mul_of_nonneg_left htwo (abs_nonneg q)
          have hpower : (0 : K) < 2 ^ (1022 : ℤ) := zpow_pos two_pos _
          generalize (2 : K) ^ (1022 : ℤ) = power at hlt hpower ⊢
          linarith
        exact abs_steps_le hk hn hlarge (hstep.abs_le_above le_rfl hcap).2
  · refine near_of_short hspan ⟨hkfinite, ?_⟩ (hstep.within hsmall.le (by decide) (by decide)) ?_
    · rw [hkvalue, Nat.abs_cast]
      exact_mod_cast (by omega : k ≤ 2 ^ 44)
    · have hgaps : ((n - 1 : ℕ) : K) ≤ 2 ^ (44 : ℤ) := by exact_mod_cast (by omega : n - 1 ≤ 2 ^ 44)
      calc |value (r - -r)| ≤ 2 ^ (-1029 : ℤ) * 2 ^ (44 : ℤ) :=
            habs.trans_le (mul_le_mul hsmall.le hgaps hpos.le (zpow_nonneg zero_le_two _))
        _ = 2 ^ (-985 : ℤ) := (zpow_add₀ two_ne_zero _ _).symm

theorem near_of_evenlyAt (hbounded : Scalar.isBounded α = true) (hspan : Scalar.isFinite (r - -r) = true)
    (hn : n < 2 ^ 44) (hk : k < n) (h : evenlyAt (-r) r n k = .ok x) : Nearby r x := by
  rcases evenlyAt_cases hk h with rfl | ⟨p, rfl, ⟨rfl, rfl⟩ | ⟨hlast, rfl | rfl⟩⟩
  · exact .of_abs_le (RoundedScalar.isFinite_of_sub hspan).1 le_rfl
  · obtain ⟨hzero, hvalue⟩ := ofNat_value (α := α) (n := 0) (by decide)
    rw [Nat.cast_zero] at hvalue
    refine near_of_part hspan hzero hspan ?_ ?_ <;> rw [hvalue, zero_mul]
    · rw [zero_mul]
    · exact abs_zero.trans_le (abs_nonneg _)
  · exact near_of_ratio hspan hlast (by omega)
  · exact near_of_step hbounded hspan hlast hn

include K in
theorem not_finite_of_evenlyAt (hr : Scalar.isFinite r = false) (hk : k < n) (h : evenlyAt (-r) r n k = .ok x) :
    Scalar.isFinite x = false := by
  rcases evenlyAt_cases hk h with rfl | ⟨p, rfl, -⟩
  · exact hr
  · refine Bool.eq_false_iff.mpr fun hfinite => ?_
    rw [RoundedScalar.isFinite_of_neg (RoundedScalar.isFinite_of_add hfinite).2] at hr
    cases hr

/-! ### Scene units -/

variable {β : Type} {l : List β} {xs : List α} {cells : ℤ} {f : β → α} {b : β}

/-- A range that scene units can be made of: it is not zero, and if it is finite it is so from end to end. -/
structure Spanned (r : α) : Prop where
  ne_zero : (r == 0.0) = false
  span : Scalar.isFinite r = true → Scalar.isFinite (r - -r) = true

include K in
/-- An axis whose ticks can be counted is spanned. -/
theorem span_of_steps {spacing : α} {ticks : List α} (hspacing : floorSpacing r = .ok spacing)
    (hticks : steps (-r) r spacing = .ok ticks) (hr : Scalar.isFinite r = true) :
    Scalar.isFinite (r - -r) = true := by
  by_contra hspan
  have hdouble : Scalar.isFinite (2.0 * r) = false :=
    Bool.eq_false_iff.mpr fun h => hspan (RoundedScalar.isFinite_sub_neg h)
  -- Without a finite length the spacing is 1, and the ticks are counted by the length itself.
  unfold floorSpacing at hspacing
  dsimp only at hspacing
  rw [hdouble, Bool.and_false, if_neg Bool.false_ne_true] at hspacing
  obtain rfl := Except.ok.inj hspacing
  have hone : (0.0 : α) < 1.0 := by
    rw [Scalar.lt_iff_value ValuedScalar.zero.1 RoundedScalar.one.1, (ValuedScalar.zero (α := α)).2,
      (RoundedScalar.one (α := α)).2]
    exact zero_lt_one
  rw [steps, decide_eq_true hone, (ValuedScalar.neg hr).1, hr, if_pos (by decide)] at hticks
  obtain ⟨length, hlength, hticks⟩ := bind_eq_ok.mp hticks
  obtain ⟨-, rfl⟩ := Scalar.divide_eq_ok.mp hlength
  obtain ⟨count, hcount, -⟩ := bind_eq_ok.mp hticks
  exact hspan (RoundedScalar.isFinite_of_div (RoundedScalar.isFinite_of_add (Scalar.isFinite_of_whole hcount)).1)

/-- Numbers that are all finite and far from the largest one, or none of which is finite. -/
def Uniform (f : β → α) (l : List β) : Prop :=
  (∀ b ∈ l, Within (f b) 977) ∨ ∀ b ∈ l, Scalar.isFinite (f b) = false

theorem scaled_within (hbounded : Scalar.isBounded α = true) (hr : Scalar.isFinite r = true) (hne : (r == 0.0) = false)
    (hscale : Scalar.isFinite (200.0 / r) = true) (hx : Nearby r x) : Within (x * (200.0 / r)) 977 := by
  have hvalue : value r ≠ 0 := fun hzero => by
    rw [RoundedScalar.beq_zero hr hzero] at hne
    cases hne
  obtain ⟨hfinite, htwoHundred⟩ := RoundedScalar.twoHundred (α := α)
  have hproduct := abs_div_mul_le hbounded hfinite hr hvalue hscale
  have hsize := RoundedScalar.abs_value_lt hbounded hscale
  rw [htwoHundred] at hproduct
  refine (RoundedScalar.mul_rounds hx.finite hscale).within (i := 976) ?_ (by decide) (by decide)
  have htiny : (2 : K) ^ (-49 : ℤ) * |value (200.0 / r)| ≤ 2 ^ (975 : ℤ) :=
    calc (2 : K) ^ (-49 : ℤ) * |value (200.0 / r)| ≤ 2 ^ (-49 : ℤ) * 2 ^ (1024 : ℤ) :=
          mul_le_mul_of_nonneg_left hsize.le (zpow_nonneg zero_le_two _)
      _ = 2 ^ (975 : ℤ) := (zpow_add₀ two_ne_zero _ _).symm
  have hlarge : 2 * (4 / 3 * |(200 : K)| + 2 ^ (-50 : ℤ)) ≤ 2 ^ (975 : ℤ) := by
    have hround : 2 * (4 / 3 * |(200 : K)| + 2 ^ (-50 : ℤ)) ≤ 2 ^ (10 : ℤ) := by norm_num
    exact hround.trans (two_zpow_le (by decide))
  have hdouble : (2 : K) ^ (976 : ℤ) = 2 ^ (975 : ℤ) * 2 := zpow_add_one₀ two_ne_zero 975
  rw [abs_mul, hdouble]
  calc |value x| * |value (200.0 / r)| ≤ (2 * |value r| + 2 ^ (-49 : ℤ)) * |value (200.0 / r)| :=
        mul_le_mul_of_nonneg_right hx.abs_le (abs_nonneg _)
    _ = 2 * (|value (200.0 / r)| * |value r|) + 2 ^ (-49 : ℤ) * |value (200.0 / r)| := by ring
    _ ≤ 2 ^ (975 : ℤ) + 2 ^ (975 : ℤ) :=
        add_le_add ((mul_le_mul_of_nonneg_left hproduct zero_le_two).trans hlarge) htiny
    _ = 2 ^ (975 : ℤ) * 2 := (mul_two _).symm

include K in
theorem Uniform.of_infinite_scale {scale : α} (h : Scalar.isFinite scale = false) : Uniform (f · * scale) l :=
  .inr fun _ _ => Bool.eq_false_iff.mpr fun hfinite =>
    Bool.false_ne_true (h.symm.trans (RoundedScalar.isFinite_of_mul hfinite).2)

include K in
theorem Uniform.of_infinite (h : ∀ b ∈ l, Scalar.isFinite (f b) = false) (scale : α) : Uniform (f · * scale) l :=
  .inr fun b hb => Bool.eq_false_iff.mpr fun hfinite =>
    Bool.false_ne_true ((h b hb).symm.trans (RoundedScalar.isFinite_of_mul hfinite).1)

/-- The vertices of a range in scene units. -/
theorem vertices_uniform (hbounded : Scalar.isBounded α = true) (hspanned : Spanned r) (h : vertices r cells = .ok xs) :
    Uniform (· * (200.0 / r)) xs := by
  rcases hscale : Scalar.isFinite (200.0 / r) with _ | _
  · exact .of_infinite_scale hscale
  rcases hr : Scalar.isFinite r with _ | _
  · refine .of_infinite (fun x hx => ?_) _
    obtain ⟨n, k, -, hk, hx⟩ := exists_of_mem_vertices h hx
    exact not_finite_of_evenlyAt hr hk hx
  · refine .inl fun x hx => ?_
    obtain ⟨n, k, hn, hk, hx⟩ := exists_of_mem_vertices h hx
    have hroom : Scalar.memoryBound = 2 ^ 47 := by decide
    have hlt := hn hbounded
    exact scaled_within hbounded hr hspanned.ne_zero hscale
      (near_of_evenlyAt hbounded (hspanned.span hr) (by omega) hk hx)

/-- A product with nothing is nothing. -/
theorem value_mul_of_zero {a b : α} (ha : Scalar.isFinite a = true) (hb : Scalar.isFinite b = true)
    (hzero : value a * value b = 0) : Scalar.isFinite (a * b) = true ∧ value (a * b) = 0 := by
  have hpart : value a * value b ∈ Set.uIcc (value (0.0 : α)) (value (0.0 : α)) := by
    rw [hzero, (ValuedScalar.zero (α := α)).2]
    exact Set.left_mem_uIcc
  obtain ⟨hfinite, hmem⟩ :=
    (RoundedScalar.mul_rounds ha hb).mem_uIcc ValuedScalar.zero.1 ValuedScalar.zero.1 hpart
  rw [Set.uIcc_self, Set.mem_singleton_iff, (ValuedScalar.zero (α := α)).2] at hmem
  exact ⟨hfinite, hmem⟩

theorem within_of_zero {a b : α} {i : ℤ} (ha : Scalar.isFinite a = true) (hb : Scalar.isFinite b = true)
    (hzero : value a * value b = 0) : Within (a * b) i :=
  .of_value_zero (value_mul_of_zero ha hb hzero).1 (value_mul_of_zero ha hb hzero).2

/-- A height that is finite in scene units is one in the range, or the range has no size in scene units. -/
theorem scaled_within_of_finite (hbounded : Scalar.isBounded α = true) (hspanned : Spanned r)
    (hx : Scalar.isFinite r = true → Scalar.isFinite x = true → Nearby r x)
    (h : Scalar.isFinite (x * (200.0 / r)) = true) : Within (x * (200.0 / r)) 977 := by
  obtain ⟨hxfinite, hscale⟩ := RoundedScalar.isFinite_of_mul h
  rcases hr : Scalar.isFinite r with _ | _
  · have hvalue := RoundedScalar.value_div_infinite (RoundedScalar.twoHundred (α := α)).1 hr hscale
    exact within_of_zero hxfinite hscale (by rw [hvalue, mul_zero])
  · exact scaled_within hbounded hr hspanned.ne_zero hscale (hx hr hxfinite)

/-- A value that is moved into a range is as large as its end at most. -/
theorem near_confine {v : α} (hr : Scalar.isFinite r = true) (h : Scalar.isFinite (confine (-r) r v) = true) :
    Nearby r (confine (-r) r v) := by
  obtain ⟨hneg, hvalue⟩ := ValuedScalar.neg hr
  have hends : Nearby r (-r) := .of_abs_le hneg (by rw [hvalue, abs_neg])
  have hend : Nearby r r := .of_abs_le hr le_rfl
  unfold confine at h ⊢
  rw [Scalar.isUndefined_of_finite hneg, Scalar.isUndefined_of_finite hr] at h ⊢
  simp only [Bool.false_eq_true, if_false] at h ⊢
  split at h
  · next hbelow =>
    rw [if_pos hbelow]
    split
    · exact hend
    · exact hends
  · next habove =>
    rw [if_neg habove]
    split at h
    · next hbelow => rw [if_pos hbelow]; exact hend
    · next hbelow =>
      rw [if_neg hbelow]
      refine .of_abs_le h (abs_le_abs ?_ ?_)
      · exact not_lt.mp fun hlt => hbelow ((Scalar.lt_iff_value hr h).mpr hlt)
      · rw [neg_le, ← hvalue]
        exact not_lt.mp fun hlt => habove ((Scalar.lt_iff_value h hneg).mpr hlt)

theorem Uniform.of_zero {scale : α} (h : ∀ b ∈ l, Scalar.isFinite (f b) = true ∧ value (f b) = 0) :
    Uniform (f · * scale) l := by
  rcases hscale : Scalar.isFinite scale with _ | _
  · exact .of_infinite_scale hscale
  · exact .inl fun b hb => within_of_zero (h b hb).1 hscale (by rw [(h b hb).2, zero_mul])

/-- Heights that are scaled so that the largest one reaches the end of the range. -/
theorem Nearby.of_scaled {peak v : α} (hbounded : Scalar.isBounded α = true) (hspan : Scalar.isFinite (r - -r) = true)
    (hpeak : Scalar.isFinite peak = true) (hpos : 0 < value peak) (hfactor : Scalar.isFinite (r / peak) = true)
    (hv : Scalar.isFinite v = true) (hle : |value v| ≤ value peak) : Nearby r (v * (r / peak)) := by
  have hproduct := abs_div_mul_le hbounded (RoundedScalar.isFinite_of_sub hspan).1 hpeak hpos.ne' hfactor
  rw [abs_of_pos hpos] at hproduct
  have hexact : |value v * value (r / peak)| ≤ 4 / 3 * |value r| + 2 ^ (-50 : ℤ) :=
    calc |value v * value (r / peak)| = |value v| * |value (r / peak)| := abs_mul _ _
      _ ≤ value peak * |value (r / peak)| := mul_le_mul_of_nonneg_right hle (abs_nonneg _)
      _ ≤ 4 / 3 * |value r| + 2 ^ (-50 : ℤ) := (mul_comm _ _).trans_le hproduct
  have hcap : 4 / 3 * |value r| + 2 ^ (-50 : ℤ) ≤ 3 * 2 ^ (1022 : ℤ) := by
    have hlt := (RoundedScalar.abs_value_lt hbounded hspan).trans_eq (zpow_add₀ two_ne_zero 2 1022)
    have hfour : (2 : K) ^ (2 : ℤ) = 4 := by norm_num
    have hone : (2 : K) ^ (-50 : ℤ) ≤ 1 / 3 := by norm_num
    have hpower : (1 : K) ≤ 2 ^ (1022 : ℤ) := one_le_zpow₀ one_le_two (by decide)
    rw [RoundedScalar.value_sub_neg hspan, abs_mul, abs_two, hfour] at hlt
    generalize (2 : K) ^ (1022 : ℤ) = power at hlt hpower ⊢
    linarith
  obtain ⟨hfinite, hround⟩ := (RoundedScalar.mul_rounds hv hfactor).abs_le_above hexact hcap
  refine ⟨hfinite, hround.trans ?_⟩
  have hsmall : (2 : K) ^ (-1074 : ℤ) ≤ 2 ^ (-51 : ℤ) := two_zpow_le (by decide)
  have hrelative : 4 / 3 * (1 + 2 ^ (-52 : ℤ)) ≤ (2 : K) := by norm_num
  have hrest : (2 : K) ^ (-50 : ℤ) * (1 + 2 ^ (-52 : ℤ)) + 2 ^ (-51 : ℤ) ≤ 2 ^ (-49 : ℤ) := by norm_num
  calc (4 / 3 * |value r| + 2 ^ (-50 : ℤ)) * (1 + 2 ^ (-52 : ℤ)) + 2 ^ (-1074 : ℤ)
      = 4 / 3 * (1 + 2 ^ (-52 : ℤ)) * |value r| + (2 ^ (-50 : ℤ) * (1 + 2 ^ (-52 : ℤ)) + 2 ^ (-1074 : ℤ)) := by ring
    _ ≤ 2 * |value r| + 2 ^ (-49 : ℤ) :=
        add_le_add (mul_le_mul_of_nonneg_right hrelative (abs_nonneg _)) (by linarith)

theorem scaled_uniform {peak : α} (hbounded : Scalar.isBounded α = true) (hspanned : Spanned r)
    (hpeak : Scalar.isFinite peak = true) (hpos : 0 < value peak)
    (hl : ∀ b ∈ l, Scalar.isFinite (f b) = true ∧ |value (f b)| ≤ value peak) :
    Uniform (fun b => f b * (r / peak) * (200.0 / r)) l := by
  rcases hscale : Scalar.isFinite (200.0 / r) with _ | _
  · exact .of_infinite_scale hscale
  rcases hfactor : Scalar.isFinite (r / peak) with _ | _
  · refine .of_infinite (fun b _ => Bool.eq_false_iff.mpr fun hfinite => ?_) _
    exact Bool.false_ne_true (hfactor.symm.trans (RoundedScalar.isFinite_of_mul hfinite).2)
  · have hr := RoundedScalar.isFinite_of_div hfactor
    refine .inl fun b hb => ?_
    exact scaled_within hbounded hr hspanned.ne_zero hscale
      (.of_scaled hbounded (hspanned.span hr) hpeak hpos hfactor (hl b hb).1 (hl b hb).2)

end

end Sampling

end FieldPlot
