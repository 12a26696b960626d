/-!
The blanks of a typed text. A text is trimmed of all of them before it is read; inside a text they
are ordinary characters. `isNumericBlank` is the smaller class that may surround a written number.
-/

namespace FieldPlot.Text

def isBlank (c : Char) : Bool :=
  let n := c.toNat
  (0x9 ≤ n && n ≤ 0xD) || (0x1C ≤ n && n ≤ 0x20) || n == 0x85 || n == 0xA0 || n == 0x1680 ||
    (0x2000 ≤ n && n ≤ 0x200A) || n == 0x2028 || n == 0x2029 || n == 0x202F || n == 0x205F ||
    n == 0x3000

/-- The four separator controls are blanks of a text, but not of a number. -/
def isNumericBlank (c : Char) : Bool :=
  isBlank c && !(0x1C ≤ c.toNat && c.toNat ≤ 0x1F)

/-- `s` without the characters of class `p` at either end. -/
def trimBoth (p : Char → Bool) (s : List Char) : List Char :=
  ((s.dropWhile p).reverse.dropWhile p).reverse

def trim (s : List Char) : List Char :=
  trimBoth isBlank s

theorem trim_sublist (s : List Char) : (trim s).Sublist s := by
  have hinner := (List.dropWhile_sublist (l := s) isBlank).reverse
  have houter := (List.dropWhile_sublist (l := (s.dropWhile isBlank).reverse) isBlank).trans hinner
  simpa [trim, trimBoth] using houter.reverse

theorem trim_eq_self {s : List Char} (hhead : ∀ c ∈ s.head?, isBlank c = false)
    (hlast : ∀ c ∈ s.getLast?, isBlank c = false) : trim s = s := by
  have hdrop : ∀ l : List Char, (∀ c ∈ l.head?, isBlank c = false) → l.dropWhile isBlank = l := by
    intro l hl
    cases l with
    | nil => rfl
    | cons c l => rw [List.dropWhile_cons_of_neg (by simp [hl c rfl])]
  rw [trim, trimBoth, hdrop s hhead, hdrop s.reverse (by rwa [List.head?_reverse]), List.reverse_reverse]

theorem isBlank_of_trim_eq_nil {s : List Char} (h : trim s = []) : ∀ c ∈ s, isBlank c = true := by
  have hsplit : ∀ (l : List Char) (c : Char), c ∈ l → isBlank c = true ∨ c ∈ l.dropWhile isBlank := by
    intro l c hc
    rw [← List.takeWhile_append_dropWhile (p := isBlank) (l := l)] at hc
    rcases List.mem_append.mp hc with hc | hc
    · exact .inl (List.all_eq_true.mp List.all_takeWhile c hc)
    · exact .inr hc
  intro c hc
  rcases hsplit s c hc with hblank | hrest
  · exact hblank
  · rcases hsplit _ c (List.mem_reverse.mpr hrest) with hblank | hrest
    · exact hblank
    · rw [List.reverse_eq_nil_iff.mp h] at hrest
      cases hrest

theorem eq_nil_of_trim_trim {s : List Char} (h : trim (trim s) = []) : trim s = [] := by
  cases hc : (trim s).getLast? with
  | none => exact List.getLast?_eq_none_iff.mp hc
  | some c =>
    have hblank : isBlank c = true := isBlank_of_trim_eq_nil h c (List.mem_of_getLast? hc)
    rw [trim, trimBoth, List.getLast?_reverse] at hc
    have hstops := List.head?_dropWhile_not isBlank (s.dropWhile isBlank).reverse
    rw [hc] at hstops
    exact absurd (hstops.symm.trans hblank) (by decide)

theorem isBlank_of_isWhitespace {c : Char} (h : c.isWhitespace = true) : isBlank c = true := by
  simp only [Char.isWhitespace, Bool.or_eq_true, decide_eq_true_eq] at h
  rcases h with ((h | h) | h) | h <;> subst h <;> decide

end FieldPlot.Text
