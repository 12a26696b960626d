/-!
Rounding of exact quotients. Every decimal text and every conversion to a double goes through
`roundDiv`, so ties are decided in one place.
-/

namespace FieldPlot.Number

/-- The integer nearest to `num / den`; a tie goes to the even neighbour. -/
def roundDiv (num den : Nat) : Nat :=
  let q := num / den
  let r := num % den
  if 2 * r < den then q else if den < 2 * r then q + 1 else q + q % 2

theorem roundDiv_one (n : Nat) : roundDiv n 1 = n := by
  simp [roundDiv, Nat.mod_one]

/-- The rounded quotient is at most half a unit away. -/
theorem roundDiv_close {num den : Nat} (h : 0 < den) :
    2 * (den * roundDiv num den) ≤ 2 * num + den ∧ 2 * num ≤ 2 * (den * roundDiv num den) + den := by
  have hd := Nat.div_add_mod num den
  have hm := Nat.mod_lt num h
  have h2 := Nat.mod_two_eq_zero_or_one (num / den)
  simp only [roundDiv]
  split
  · omega
  · split
    · rw [Nat.mul_add]; omega
    · rcases h2 with h2 | h2 <;> rw [h2, Nat.mul_add] <;> omega

/-- `num / den` scaled by a power of ten, as a quotient of naturals. -/
def scaleTen (num den : Nat) (k : Int) : Nat × Nat :=
  if 0 ≤ k then (num * Nat.pow 10 k.toNat, den) else (num, den * Nat.pow 10 (-k).toNat)

/-- `num / den` scaled by a power of two, as a quotient of naturals. -/
def scaleTwo (num den : Nat) (k : Int) : Nat × Nat :=
  if 0 ≤ k then (num <<< k.toNat, den) else (num, den <<< (-k).toNat)

end FieldPlot.Number
