import Mathlib.Data.List.Basic
import Mathlib.Data.List.TakeWhile
import FieldPlot.Proofs.Colour.Hexadecimal

/-! Decimal texts read back. A sign, digits and a point with further digits are read as the number that they were
written for. -/

namespace FieldPlot.Number

variable {c : Char} {s whole fraction : List Char}

/-! ### The characters of a decimal text -/

/-- A character that stands for itself in a number. -/
structure Decimal (c : Char) : Prop where
  plainChar_eq : plainChar c = c
  not_blank : Text.isNumericBlank c = false
  ne_underscore : c ≠ '_'

theorem Decimal.of_isDigit (h : c.isDigit = true) : Decimal c := by
  have hrange : 48 ≤ c.toNat ∧ c.toNat ≤ 57 := Char.isDigit_iff_toNat.mp h
  refine ⟨?_, ?_, ?_⟩
  · rw [plainChar, if_pos (by omega)]
  · have hblank : Text.isBlank c = false := by
      simp [Text.isBlank]
      omega
    rw [Text.isNumericBlank, hblank, Bool.false_and]
  · rintro rfl
    cases h

theorem Decimal.point : Decimal '.' :=
  ⟨by decide, by decide, by decide⟩

theorem Decimal.minus : Decimal '-' :=
  ⟨by decide, by decide, by decide⟩

theorem toLower_of_isDigit (h : c.isDigit = true) : c.toLower = c := by
  have hrange : 48 ≤ c.toNat ∧ c.toNat ≤ 57 := Char.isDigit_iff_toNat.mp h
  have hupper : ¬(c.val ≥ 'A'.val ∧ c.val ≤ 'Z'.val) := fun hupper => by
    have hle : 65 ≤ c.toNat := UInt32.le_iff_toNat_le.mp hupper.1
    omega
  exact dif_neg hupper

theorem natOf_eq_ofDigitChars (hs : ∀ c ∈ s, c.isDigit = true) : natOf 10 s = Nat.ofDigitChars 10 s 0 := by
  rw [natOf, Nat.ofDigitChars_eq_foldl]
  exact List.foldl_ext _ _ _ fun n c hc => by rw [if_pos (hs c hc)]

theorem plainChars_eq_self (hs : ∀ c ∈ s, Decimal c) : plainChars s = s := by
  rw [plainChars, List.map_congr_left fun c hc => (hs c hc).plainChar_eq, List.map_id']
  exact Colour.trimBoth_eq_self fun c hc => (hs c hc).not_blank

/-! ### Reading it -/

theorem mem_fractionChars (h : c ∈ fractionChars fraction) : c = '.' ∨ c ∈ fraction := by
  unfold fractionChars at h
  split at h
  · cases h
  · exact List.mem_cons.mp h

theorem splitFraction_fractionChars (hfraction : ∀ c ∈ fraction, c.isDigit = true) :
    splitFraction (fractionChars fraction) = (fraction, []) := by
  cases fraction with
  | nil => rfl
  | cons c s =>
    show (List.takeWhile Char.isDigit (c :: s), List.dropWhile Char.isDigit (c :: s)) = (c :: s, [])
    rw [List.takeWhile_eq_self_iff.mpr hfraction, List.dropWhile_eq_nil_iff.mpr hfraction]

/-- A fraction begins with a point, so the digits before it end there. -/
theorem span_fractionChars (hwhole : ∀ c ∈ whole, c.isDigit = true) (fraction : List Char) :
    (whole ++ fractionChars fraction).takeWhile Char.isDigit = whole ∧
      (whole ++ fractionChars fraction).dropWhile Char.isDigit = fractionChars fraction := by
  rw [List.takeWhile_append_of_pos hwhole, List.dropWhile_append_of_pos hwhole]
  cases fraction with
  | nil => exact ⟨List.append_nil whole, rfl⟩
  | cons c s => exact ⟨List.append_nil whole, rfl⟩

/-- What begins with a digit is none of the words for infinities and NaN. -/
theorem ofList_ne_word (hne : whole ≠ []) (hwhole : ∀ c ∈ whole, c.isDigit = true) (s : List Char) {word : String}
    (hword : word.toList.head?.all (! ·.isDigit) = true) : String.ofList ((whole ++ s).map Char.toLower) ≠ word := by
  obtain ⟨first, rest, rfl⟩ := List.exists_cons_of_ne_nil hne
  have hfirst := hwhole first List.mem_cons_self
  rintro rfl
  simp [toLower_of_isDigit hfirst, hfirst] at hword

theorem splitSign_signChars (negative : Bool) (hs : ∀ c ∈ s, c ≠ '-' ∧ c ≠ '+') :
    splitSign (signChars negative s) = (negative, s) := by
  cases negative with
  | true => rfl
  | false => exact Colour.splitSign_eq_self hs

/-- A decimal text without an exponent is read to its end. -/
theorem readReal?_signChars (negative : Bool) (hne : whole ≠ []) (hwhole : ∀ c ∈ whole, c.isDigit = true)
    (hfraction : ∀ c ∈ fraction, c.isDigit = true) :
    readReal? (signChars negative (whole ++ fractionChars fraction)) =
      some (.decimal negative (natOf 10 (whole ++ fraction)) (-fraction.length)) := by
  have hbody : ∀ c ∈ whole ++ fractionChars fraction, c = '.' ∨ c.isDigit = true := by
    intro c hc
    rcases List.mem_append.mp hc with hc | hc
    · exact .inr (hwhole c hc)
    · exact (mem_fractionChars hc).imp_right (hfraction c)
  have hdecimal : ∀ c ∈ signChars negative (whole ++ fractionChars fraction), Decimal c := by
    have hbody : ∀ c ∈ whole ++ fractionChars fraction, Decimal c := fun c hc =>
      (hbody c hc).elim (fun h => h ▸ .point) .of_isDigit
    cases negative with
    | true => exact List.forall_mem_cons.mpr ⟨.minus, hbody⟩
    | false => exact hbody
  have hsign : ∀ c ∈ whole ++ fractionChars fraction, c ≠ '-' ∧ c ≠ '+' := by
    rintro c hc
    rcases hbody c hc with rfl | hc
    · exact ⟨by decide, by decide⟩
    · exact ⟨ne_of_apply_ne Char.isDigit (by rw [hc]; decide), ne_of_apply_ne Char.isDigit (by rw [hc]; decide)⟩
  obtain ⟨htake, hdrop⟩ := span_fractionChars hwhole fraction
  rw [readReal?, plainChars_eq_self hdecimal,
    Colour.dropUnderscores?_eq_some fun c hc => (hdecimal c hc).ne_underscore, Option.bind_eq_bind, Option.bind_some,
    splitSign_signChars negative hsign]
  dsimp only
  rw [htake, hdrop, splitFraction_fractionChars hfraction]
  have hword {word : String} := @ofList_ne_word whole hne hwhole (fractionChars fraction) word
  have hsome : ¬(whole ++ fraction).isEmpty = true := by simp [hne]
  have hinfinite : ¬(decide (String.ofList ((whole ++ fractionChars fraction).map Char.toLower) = "inf") ||
      decide (String.ofList ((whole ++ fractionChars fraction).map Char.toLower) = "infinity")) = true := by
    rw [Bool.or_eq_true, decide_eq_true_iff, decide_eq_true_iff]
    exact not_or.mpr ⟨hword (by decide), hword (by decide)⟩
  rw [if_neg hinfinite, if_neg (hword (by decide)), if_neg hsome]
  show some (Written.decimal negative _ (0 - fraction.length)) = _
  rw [Int.zero_sub]

/-! ### What is written -/

theorem isDigit_of_mem_digitsOf {n : ℕ} (h : c ∈ digitsOf n) : c.isDigit = true :=
  Nat.isDigit_of_mem_toDigits (by decide) (by decide) h

theorem isDigit_of_mem_padZeros {width n : ℕ} (h : c ∈ padZeros width (digitsOf n)) : c.isDigit = true := by
  rcases List.mem_append.mp h with h | h
  · rw [List.eq_of_mem_replicate h]
    rfl
  · exact isDigit_of_mem_digitsOf h

theorem natOf_padZeros (width n : ℕ) : natOf 10 (padZeros width (digitsOf n)) = n := by
  rw [natOf_eq_ofDigitChars fun c hc => isDigit_of_mem_padZeros hc, padZeros, Nat.ofDigitChars_append,
    Nat.ofDigitChars_replicate_zero, Nat.mul_zero]
  exact Nat.ofDigitChars_ten_toDigits

theorem natOf_digitsOf (n : ℕ) : natOf 10 (digitsOf n) = n := by
  simpa [padZeros] using natOf_padZeros 0 n

/-- An integer is read as the one that it was. -/
theorem readReal?_digitsOf (negative : Bool) (n : ℕ) :
    readReal? (signChars negative (digitsOf n)) = some (.decimal negative n 0) := by
  have hread := @readReal?_signChars (digitsOf n) [] negative Nat.toDigits_ne_nil
    (fun c hc => isDigit_of_mem_digitsOf hc) (fun c hc => absurd hc List.not_mem_nil)
  have hnone : fractionChars [] = [] := rfl
  rwa [hnone, List.append_nil, natOf_digitsOf] at hread

/-- The digits of a number with a fixed number of places, before the point and after it. -/
theorem fixedChars_split (places n : ℕ) : ∃ whole fraction, whole ≠ [] ∧ fraction.length = places ∧
    whole ++ fraction = padZeros (places + 1) (digitsOf n) ∧
      fixedChars places n = whole ++ fractionChars fraction := by
  obtain ⟨digits, hdigits⟩ : ∃ digits, padZeros (places + 1) (digitsOf n) = digits := ⟨_, rfl⟩
  have hlength : places < digits.length := by
    rw [← hdigits, padZeros, List.length_append, List.length_replicate]
    omega
  have hfraction : (digits.drop (digits.length - places)).length = places := by
    rw [List.length_drop]
    omega
  refine ⟨digits.take (digits.length - places), digits.drop (digits.length - places), ?_, hfraction, ?_, ?_⟩
  · refine List.ne_nil_of_length_pos ?_
    rw [List.length_take]
    omega
  · rw [List.take_append_drop, hdigits]
  · unfold fixedChars fractionChars
    simp only [hdigits, List.isEmpty_iff_length_eq_zero, hfraction]
    split
    · exact (List.append_nil _).symm
    · rfl

/-- A number with a fixed number of places is read as the one that it was. -/
theorem readReal?_fixedChars (negative : Bool) (places n : ℕ) :
    readReal? (signChars negative (fixedChars places n)) = some (.decimal negative n (-places)) := by
  obtain ⟨whole, fraction, hne, hlength, happend, hchars⟩ := fixedChars_split places n
  have hdigit : ∀ c ∈ whole ++ fraction, c.isDigit = true := by
    rw [happend]
    exact fun c hc => isDigit_of_mem_padZeros hc
  rw [hchars, readReal?_signChars negative hne (fun c hc => hdigit c (List.mem_append_left _ hc))
    (fun c hc => hdigit c (List.mem_append_right _ hc)), happend, natOf_padZeros, hlength]

end FieldPlot.Number
