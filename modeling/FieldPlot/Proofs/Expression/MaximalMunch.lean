import FieldPlot.Proofs.Expression.Enclosed
import FieldPlot.Proofs.Expression.Segments

/-! What stands between the tokens of a text. It can be put there or taken away without a change to what is scanned,
and so to what is read, as long as no token is torn apart. -/

namespace FieldPlot.Expression

/-- The text `s`, whose first character has the offset `k`, with `gap i` in front of the character at offset `i`. -/
def padded (gap : Nat → List Char) (k : Nat) : List Char → List Char
  | [] => gap k
  | c :: s => gap k ++ c :: padded gap (k + 1) s

theorem lexemes_append_of_ignored {w : List Char} (hw : ∀ c ∈ w, isLexical c = false) (s : List Char) :
    lexemes (w ++ s) = lexemes s := by
  induction w with
  | nil => rfl
  | cons c w ih =>
    obtain ⟨hm, hn, ha⟩ := isLexical_eq_false (hw c List.mem_cons_self)
    rw [List.cons_append, lexemes_cons_skip hm hn ha]
    exact ih fun d hd => hw d (List.mem_cons_of_mem _ hd)

section

variable {gap : Nat → List Char}

theorem padded_append {k n : Nat} {w : List Char} (hn : k + w.length = n) (hgap : ∀ i, k ≤ i → i < n → gap i = [])
    (s : List Char) : padded gap k (w ++ s) = w ++ padded gap n s := by
  induction w generalizing k with
  | nil =>
    obtain rfl : k = n := hn
    rfl
  | cons c w ih =>
    rw [List.length_cons] at hn
    rw [List.cons_append, padded, hgap k le_rfl (by omega), List.nil_append, List.cons_append,
      ih (by omega) fun i hi hlt => hgap i (by omega) hlt]

/-- What is put in front of a text does not go on with a run that the text does not go on with. -/
theorem head?_padded {p : Char → Bool} (hp : ∀ c, isLexical c = false → p c = false)
    (hgap : ∀ i, ∀ c ∈ gap i, isLexical c = false) {s : List Char} (hs : ∀ c ∈ s.head?, p c = false) (k : Nat) :
    ∀ c ∈ (padded gap k s).head?, p c = false := by
  intro c hc
  cases hk : gap k with
  | cons d w =>
    refine hp c (hgap k c ?_)
    cases s <;> rw [padded, hk] at hc <;> exact hk ▸ Option.some.inj hc ▸ List.mem_cons_self
  | nil =>
    cases s with
    | nil =>
      rw [padded, hk] at hc
      cases hc
    | cons d s =>
      rw [padded, hk] at hc
      exact hs c hc

/-- A run is scanned as before where nothing is put between its characters. -/
theorem padded_run {p : Char → Bool} (hp : ∀ c, isLexical c = false → p c = false)
    (hgap : ∀ i, ∀ c ∈ gap i, isLexical c = false) {k : Nat} {s : List Char}
    (hnone : ∀ i, k ≤ i → i < k + (s.takeWhile p).length → gap i = []) :
    (padded gap k s).takeWhile p = s.takeWhile p ∧
      (padded gap k s).dropWhile p = padded gap (k + (s.takeWhile p).length) (s.dropWhile p) := by
  have hsplit := padded_append rfl hnone (s.dropWhile p)
  rw [List.takeWhile_append_dropWhile] at hsplit
  rw [hsplit]
  exact takeWhile_run (fun c hc => List.mem_takeWhile_imp hc) (head?_padded hp hgap (head?_dropWhile p s) _)

theorem lexemes_padded (hgap : ∀ i, ∀ c ∈ gap i, isLexical c = false) {k : Nat} {s : List Char}
    (hinside : ∀ t ∈ tokensFrom k s, ∀ i, t.start < i → i < t.stop → gap i = []) :
    lexemes (padded gap k s) = (tokensFrom k s).map Token.lexeme := by
  fun_induction tokensFrom k s with
  | case1 k =>
    have hnone := lexemes_append_of_ignored (hgap k) []
    rwa [List.append_nil, lexemes_nil] at hnone
  | case2 k c s m hm ih =>
    rw [padded, lexemes_append_of_ignored (hgap k), lexemes_cons_mark hm,
      ih fun t ht => hinside t (List.mem_cons_of_mem _ ht)]
    rfl
  | case3 k c s hm hc run ih =>
    obtain ⟨hrun, hafter⟩ := padded_run (p := isNumberChar) (fun c hc => (isLexical_eq_false hc).2.1) hgap
      (k := k + 1) (s := s) fun i hi hlt => hinside _ List.mem_cons_self i hi (hlt.trans_eq (Nat.add_right_comm ..))
    rw [padded, lexemes_append_of_ignored (hgap k), lexemes_cons_number hm hc, hrun, hafter,
      ih fun t ht => hinside t (List.mem_cons_of_mem _ ht)]
    rfl
  | case4 k c s hm hc ha run ih =>
    obtain ⟨hrun, hafter⟩ := padded_run (p := Char.isAlphanum) (fun c hc => isAlphanum_eq_false hc) hgap
      (k := k + 1) (s := s) fun i hi hlt => hinside _ List.mem_cons_self i hi (hlt.trans_eq (Nat.add_right_comm ..))
    rw [padded, lexemes_append_of_ignored (hgap k), lexemes_cons_name hm (by simpa using hc) ha, hrun, hafter,
      ih fun t ht => hinside t (List.mem_cons_of_mem _ ht)]
    rfl
  | case5 k c s hm hc ha ih =>
    rw [padded, lexemes_append_of_ignored (hgap k), lexemes_cons_skip hm (by simpa using hc) (by simpa using ha),
      ih hinside]

end

theorem sameValues_of_lexemes {s t : List Char} (h : lexemes s = lexemes t) : SameValues s t := by
  have halike : Alike (tokens s) (tokens t) :=
    .append_closers [] (by simpa [lexemes] using h.symm) fun _ ht => nomatch ht
  exact sameValues_of_tree (halike.readSum_tree nestingLimit)

/-- The tokens of a text are the one way to cut it into segments, and characters that are put in anywhere but inside of
a token, and that no token can be made of, change neither the lexemes nor the value. -/
theorem tokens_maximal_munch (s : List Char) :
    (∀ ts, Segmentation s ts ↔ ts = tokens s) ∧
    ∀ gap : Nat → List Char, (∀ i, ∀ c ∈ gap i, isLexical c = false) →
      (∀ t ∈ tokens s, ∀ i, t.start < i → i < t.stop → gap i = []) →
      lexemes (padded gap 0 s) = lexemes s ∧ SameValues (padded gap 0 s) s := by
  refine ⟨fun ts => segmentation_iff, fun gap hgap hinside => ?_⟩
  have hlexemes : lexemes (padded gap 0 s) = lexemes s := lexemes_padded hgap hinside
  exact ⟨hlexemes, sameValues_of_lexemes hlexemes⟩

/-- A point behind a name starts a number and a digit there does not; a name starts behind a number. -/
theorem tokens_maximal_munch_glued :
    let s := "2x1.5*y".toList
    let gap : Nat → List Char := fun i => if i = 1 ∨ i = 3 then [' '] else []
    Segmentation s [⟨.number ['2'], 0⟩, ⟨.name ['x', '1'], 1⟩, ⟨.number ['.', '5'], 3⟩, ⟨.mark .times, 5⟩,
      ⟨.name ['y'], 6⟩] ∧
    padded gap 0 s = "2 x1 .5*y".toList ∧ (∀ i, ∀ c ∈ gap i, isLexical c = false) ∧
    (∀ t ∈ tokens s, ∀ i, t.start < i → i < t.stop → gap i = []) ∧
    lexemes "2 x1 .5*y".toList = lexemes s ∧ SameValues "2 x1 .5*y".toList s := by
  intro s gap
  have htokens : tokens s = [⟨.number ['2'], 0⟩, ⟨.name ['x', '1'], 1⟩, ⟨.number ['.', '5'], 3⟩, ⟨.mark .times, 5⟩,
      ⟨.name ['y'], 6⟩] := by decide +kernel
  have hgap : ∀ i, ∀ c ∈ gap i, isLexical c = false := by
    intro i c hc
    dsimp only [gap] at hc
    split at hc
    · obtain rfl := List.mem_singleton.mp hc
      decide
    · cases hc
  have hspans : ∀ t ∈ tokens s, t.start = 1 ∧ t.stop = 3 ∨ t.start = 3 ∧ t.stop = 5 ∨ t.stop = t.start + 1 := by
    rw [htokens]
    decide
  have hinside : ∀ t ∈ tokens s, ∀ i, t.start < i → i < t.stop → gap i = [] := by
    intro t ht i hi hlt
    have hspan := hspans t ht
    exact if_neg (by omega)
  obtain ⟨hcut, hpadded⟩ := tokens_maximal_munch s
  exact ⟨(hcut _).mpr htokens.symm, rfl, hgap, hinside, hpadded gap hgap hinside⟩

end FieldPlot.Expression
