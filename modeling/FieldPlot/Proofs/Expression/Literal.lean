import FieldPlot.Proofs.Expression.Grammar
import Mathlib.Data.List.Induction
import Mathlib.Data.List.TakeWhile

/-! Numerals and names: what the readers make of a single lexeme is what the grammar says of it. -/

namespace FieldPlot.Expression

theorem foldl_digits (s : List Char) :
    s.foldl (fun n c => 10 * n + (c.toNat - '0'.toNat)) 0 =
      Nat.ofDigits 10 (s.map fun c => c.toNat - '0'.toNat).reverse := by
  induction s using List.reverseRecOn with
  | nil => rfl
  | append_singleton s c ih =>
    simp only [List.foldl_append, List.foldl_cons, List.foldl_nil, ih, List.map_append,
      List.map_cons, List.map_nil, List.reverse_append, List.reverse_cons, List.reverse_nil,
      List.nil_append, List.singleton_append, Nat.ofDigits_cons]
    omega

theorem ne_point_of_isDigit {c : Char} (h : c.isDigit = true) : c ≠ '.' := by
  rintro rfl
  exact absurd h (by decide)

theorem count_point_eq_zero_iff {s : List Char} (hs : ∀ c ∈ s, isNumberChar c = true) :
    s.count '.' = 0 ↔ ∀ c ∈ s, c.isDigit = true := by
  rw [List.count_eq_zero]
  constructor
  · intro h c hc
    have hn := hs c hc
    simp only [isNumberChar, Bool.or_eq_true, decide_eq_true_eq] at hn
    exact hn.resolve_right fun he => h (he ▸ hc)
  · intro h hp
    exact ne_point_of_isDigit (h _ hp) rfl

theorem digits_or_point {s : List Char} (hs : ∀ c ∈ s, isNumberChar c = true) :
    (∀ c ∈ s, c.isDigit = true) ∨ ∃ w f, s = w ++ '.' :: f ∧ ∀ c ∈ w, c.isDigit = true := by
  induction s with
  | nil => simp
  | cons c s ih =>
    have hc := hs c (by simp)
    simp only [isNumberChar, Bool.or_eq_true, decide_eq_true_eq] at hc
    rcases hc with hc | rfl
    · rcases ih fun d hd => hs d (by simp [hd]) with hd | ⟨w, f, rfl, hw⟩
      · exact .inl (by simpa [hc] using hd)
      · exact .inr ⟨c :: w, f, rfl, by simpa [hc] using hw⟩
    · exact .inr ⟨[], s, rfl, by simp⟩

theorem dropWhile_ne_point {w : List Char} (hw : ∀ c ∈ w, c.isDigit = true) (f : List Char) :
    (w ++ f).dropWhile (· ≠ '.') = f.dropWhile (· ≠ '.') :=
  List.dropWhile_append_of_pos fun c hc => decide_eq_true (ne_point_of_isDigit (hw c hc))

theorem Numeral.ofChars?_digits {s : List Char} (hs : ∀ c ∈ s, c.isDigit = true) (h0 : s ≠ []) :
    Numeral.ofChars? s = some (decimal s) := by
  have hw : s.takeWhile Char.isDigit = s := List.takeWhile_eq_self_iff.mpr hs
  have hr : s.dropWhile Char.isDigit = [] := List.dropWhile_eq_nil_iff.mpr hs
  have hd := dropWhile_ne_point hs []
  rw [List.append_nil] at hd
  simp only [Numeral.ofChars?, decimal, hw, hr, hd, foldl_digits, List.filter_eq_self.mpr hs]
  simp [h0]

theorem Numeral.ofChars?_point {w f : List Char} (hw : ∀ c ∈ w, c.isDigit = true) :
    Numeral.ofChars? (w ++ '.' :: f) =
      if w ++ f ≠ [] ∧ f.all Char.isDigit = true then some (decimal (w ++ '.' :: f)) else none := by
  have ht : (w ++ '.' :: f).takeWhile Char.isDigit = w := by
    rw [List.takeWhile_append_of_pos hw, List.takeWhile_cons_of_neg (by decide), List.append_nil]
  have hr : (w ++ '.' :: f).dropWhile Char.isDigit = '.' :: f := by
    rw [List.dropWhile_append_of_pos hw, List.dropWhile_cons_of_neg (by decide)]
  simp only [Numeral.ofChars?, ht, hr, List.drop_one, List.tail_cons]
  by_cases hf : ∀ c ∈ f, c.isDigit = true
  · have hflt : (w ++ '.' :: f).filter Char.isDigit = w ++ f := by
      rw [List.filter_append, List.filter_eq_self.mpr hw,
        List.filter_cons_of_neg (by decide), List.filter_eq_self.mpr hf]
    have hp : ((w ++ '.' :: f).dropWhile (· ≠ '.')).drop 1 = f := by
      rw [dropWhile_ne_point hw, List.dropWhile_cons_of_neg (by decide), List.drop_one,
        List.tail_cons]
    have hall : f.all Char.isDigit = true := List.all_eq_true.mpr hf
    have hdec : decimal (w ++ '.' :: f) =
        ⟨(w ++ f).foldl (fun n c => 10 * n + (c.toNat - '0'.toNat)) 0, f.length⟩ := by
      rw [decimal, hflt, hp, foldl_digits]
    rw [hdec, hall]
    by_cases h0 : w ++ f = []
    · simp [h0]
    · simp [h0]
  · have hall : f.all Char.isDigit = false := by simpa using hf
    rw [hall]
    simp

theorem exists_digit_iff {w f : List Char} (hw : ∀ c ∈ w, c.isDigit = true)
    (hf : ∀ c ∈ f, c.isDigit = true) :
    (∃ c ∈ w ++ '.' :: f, c.isDigit = true) ↔ w ++ f ≠ [] := by
  constructor
  · rintro ⟨c, hm, hdigit⟩ h0
    obtain ⟨rfl, rfl⟩ := List.append_eq_nil_iff.mp h0
    rw [List.nil_append, List.mem_singleton] at hm
    exact ne_point_of_isDigit hdigit hm
  · intro h0
    have hm := List.head_mem h0
    refine ⟨(w ++ f).head h0, ?_, ?_⟩
    · rcases List.mem_append.mp hm with hm | hm <;> simp [hm]
    · exact (List.mem_append.mp hm).elim (hw _) (hf _)

theorem Numeral.ofChars?_eq_some_iff {s : List Char} (hs : ∀ c ∈ s, isNumberChar c = true)
    {n : Numeral} :
    Numeral.ofChars? s = some n ↔
      (∃ c ∈ s, c.isDigit = true) ∧ s.count '.' ≤ 1 ∧ n = decimal s := by
  rcases digits_or_point hs with hd | ⟨w, f, rfl, hw⟩
  · have hc := (count_point_eq_zero_iff hs).mpr hd
    by_cases h0 : s = []
    · simp [h0, Numeral.ofChars?]
    · have hex : ∃ c ∈ s, c.isDigit = true :=
        ⟨s.head h0, List.head_mem h0, hd _ (List.head_mem h0)⟩
      rw [Numeral.ofChars?_digits hd h0]
      simp only [Option.some.injEq, hex, hc, zero_le, true_and]
      exact eq_comm
  · have hf : ∀ c ∈ f, isNumberChar c = true := fun c hc => hs c (by simp [hc])
    have hwc : w.count '.' = 0 := (count_point_eq_zero_iff fun c hc => hs c (by simp [hc])).mpr hw
    have hc : (w ++ '.' :: f).count '.' ≤ 1 ↔ ∀ c ∈ f, c.isDigit = true := by
      rw [← count_point_eq_zero_iff hf, List.count_append, hwc, List.count_cons_self]
      omega
    rw [Numeral.ofChars?_point hw, hc]
    by_cases hd : ∀ c ∈ f, c.isDigit = true
    · rw [exists_digit_iff hw hd]
      by_cases h0 : w ++ f ≠ []
      · rw [if_pos ⟨h0, List.all_eq_true.mpr hd⟩, Option.some.injEq]
        exact ⟨fun h => ⟨h0, hd, h.symm⟩, fun h => h.2.2.symm⟩
      · rw [if_neg fun h => h0 h.1]
        simp only [h0, false_and, reduceCtorEq]
    · rw [if_neg fun h => hd (List.all_eq_true.mp h.2)]
      simp [hd]

theorem Function.ofName?_name (f : Function) : Function.ofName? f.name.toList = some f := by
  cases f <;> decide

theorem Function.eq_of_ofName? {name : List Char} {f : Function}
    (h : Function.ofName? name = some f) : name = f.name.toList := by
  have hp := List.find?_some h
  exact (of_decide_eq_true hp).symm

theorem Tree.ofName?_function (f : Function) : Tree.ofName? f.name.toList = none := by
  cases f <;> rfl

end FieldPlot.Expression
