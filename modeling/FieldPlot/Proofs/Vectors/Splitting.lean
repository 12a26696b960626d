import FieldPlot.Proofs.Vectors.SignedTerm

/-! How a signed sum is split. Each term ends with its marker in a piece of its own; where a coefficient
has a sign, the sign in front of it is split off. -/

namespace FieldPlot.Vectors

open Expression

/-- A marker in any letter case. -/
def Marks (convention : Convention) (axis : Axis) (w : List Char) : Prop :=
  w.map lowerChar = convention.marker axis

theorem marks_marker (convention : Convention) (axis : Axis) :
    Marks convention axis (convention.marker axis) := by
  cases convention <;> cases axis <;> rfl

section

variable {convention : Convention} {axis : Axis} {w : List Char}

theorem Marks.ofChar?_eq_none (h : Marks convention axis w) : ∀ c ∈ w, Mark.ofChar? c = none := by
  intro c hc
  cases hm : Mark.ofChar? c with
  | none => rfl
  | some m =>
    obtain rfl := eq_char_of_ofChar? hm
    have hlower : lowerChar m.char ∈ convention.marker axis := h ▸ List.mem_map_of_mem hc
    cases convention <;> cases axis <;> cases m <;> exact absurd hlower (by decide)

theorem keepsSign_eq_false {c : Char} (h : Mark.ofChar? c = none) : keepsSign c = false := by
  by_contra hkeeps
  simp only [keepsSign, Bool.not_eq_false, List.contains_eq_mem, List.mem_cons, List.not_mem_nil, or_false,
    decide_eq_true_eq] at hkeeps
  rcases hkeeps with rfl | rfl | rfl | rfl | rfl <;> cases h

theorem Marks.last (h : Marks convention axis w) : ∃ c, w.getLast? = some c ∧ keepsSign c = false := by
  cases hlast : w.getLast? with
  | none =>
    obtain rfl := List.getLast?_eq_none_iff.mp hlast
    cases convention <;> cases axis <;> cases h
  | some c => exact ⟨c, rfl, keepsSign_eq_false (h.ofChar?_eq_none c (List.mem_of_getLast? hlast))⟩

/-- A text that ends with a marker and is not cut stays together, whatever it follows. -/
theorem Marks.splitFrom (h : Marks convention axis w) {s : List Char} (hs : w <:+ s) {p : Option Char}
    (huncut : Uncut 0 p s) (hdepth : s.foldl depthAfter 0 = 0) (rest : List Char) :
    ∃ q : Char, keepsSign q = false ∧ splitFrom 0 p (s ++ rest) =
      (s ++ (splitFrom 0 (some q) rest).1, (splitFrom 0 (some q) rest).2) := by
  obtain ⟨q, hlast, hq⟩ := h.last
  obtain ⟨x, rfl⟩ := hs
  have hend : (x ++ w).getLast?.or p = some q := by
    rw [List.getLast?_append, hlast]
    rfl
  refine ⟨q, hq, ?_⟩
  rw [splitFrom_append huncut, hdepth, hend]

end

theorem splitFrom_stem (convention : Convention) (t : SignedTerm) (p : Option Char)
    (rest : List Char) : ∃ q : Char, keepsSign q = false ∧
      splitFrom 0 p (t.stem convention ++ rest) =
        (t.stem convention ++ (splitFrom 0 (some q) rest).1, (splitFrom 0 (some q) rest).2) := by
  have hmarks := marks_marker convention t.axis
  obtain ⟨hbody, hdepth⟩ := t.body_uncut p
  obtain ⟨hmarker, hdepth'⟩ := uncut_run hmarks.ofChar?_eq_none 0 (some '*')
  have huncut : Uncut 0 p (t.stem convention) := by
    refine hbody.append ?_
    rw [hdepth]
    exact ⟨fun h => absurd h (by decide), hmarker⟩
  have hdepth : (t.stem convention).foldl depthAfter 0 = 0 := by
    rw [SignedTerm.stem, List.foldl_append, hdepth]
    exact hdepth'
  have hends : convention.marker t.axis <:+ t.stem convention :=
    (List.suffix_cons _ _).trans (List.suffix_append _ _)
  exact hmarks.splitFrom hends huncut hdepth rest

/-- Behind a character that keeps no sign, a sign starts a term. -/
theorem splitFrom_sign {s : Sign} (hs : s ≠ .absent) {q : Char} (hq : keepsSign q = false)
    (rest : List Char) : ∃ r : Char, keepsSign r = false ∧ splitFrom 0 (some q) (s.chars ++ rest) =
      ([], (s.kept.chars ++ (splitFrom 0 (some r) rest).1) :: (splitFrom 0 (some r) rest).2) := by
  have hany : (some q).any (!keepsSign ·) = true := by simp [hq]
  cases s with
  | absent => exact absurd rfl hs
  | plus => exact ⟨'+', by decide, splitFrom_cut rfl hany rest⟩
  | minus => exact ⟨'-', by decide, splitFrom_cut rfl hany rest⟩

/-- At the head of a text, a sign belongs to the first term. -/
theorem splitFrom_head (s : Sign) (rest : List Char) : ∃ r : Option Char,
    (s ≠ .absent → ∃ q, r = some q ∧ keepsSign q = false) ∧
    splitFrom 0 none (s.chars ++ rest) =
      (s.chars ++ (splitFrom 0 r rest).1, (splitFrom 0 r rest).2) := by
  cases s with
  | absent => exact ⟨none, fun h => absurd rfl h, rfl⟩
  | plus => exact ⟨some '+', fun _ => ⟨_, rfl, by decide⟩, splitFrom_keep (fun _ _ => rfl) rest⟩
  | minus => exact ⟨some '-', fun _ => ⟨_, rfl, by decide⟩, splitFrom_keep (fun _ _ => rfl) rest⟩

/-- The pieces that a term is cut into: it ends with the last one, whose sign has the effect of the
term's, and the others hold nothing but a sign. -/
def Pieces (convention : Convention) (t : SignedTerm) (ps : List (List Char)) : Prop :=
  ∃ (loose : List Sign) (s : Sign), ps = loose.map Sign.chars ++ [s.chars ++ t.stem convention] ∧
    ∀ a, s.apply a = t.effective.apply a

def sumText (convention : Convention) (ts : List SignedTerm) : List Char :=
  ts.flatMap (SignedTerm.text convention)

/-- A sum behind a marker is cut in front of each of its terms. -/
def Splits (convention : Convention) (ts : List SignedTerm) : Prop :=
  ∀ q : Char, keepsSign q = false → ∃ pss, List.Forall₂ (Pieces convention) ts pss ∧
    splitFrom 0 (some q) (sumText convention ts) = ([], pss.flatten)

/-- A coefficient with a sign of its own leaves the one in front of it alone. -/
theorem Splits.coefficient {convention : Convention} {ts : List SignedTerm}
    (h : Splits convention ts) (t : SignedTerm) {s : Sign} (hs : ∀ a, s.apply a = t.sign.apply a)
    {q : Char} (hq : keepsSign q = false) : ∃ pss, List.Forall₂ (Pieces convention) (t :: ts) pss ∧
      (s.chars ++ (splitFrom 0 (some q)
        (t.own.chars ++ (t.stem convention ++ sumText convention ts))).1) ::
      (splitFrom 0 (some q) (t.own.chars ++ (t.stem convention ++ sumText convention ts))).2 =
        pss.flatten := by
  by_cases hown : t.own = .absent
  · obtain ⟨r, hr, hstem⟩ := splitFrom_stem convention t (some q) (sumText convention ts)
    obtain ⟨pss, hpieces, hsum⟩ := h r hr
    rw [hsum, List.append_nil] at hstem
    refine ⟨[s.chars ++ t.stem convention] :: pss, .cons ⟨[], s, rfl, ?_⟩ hpieces, ?_⟩
    · rw [SignedTerm.effective, if_pos hown]
      exact hs
    · rw [hown, Sign.chars, List.nil_append, hstem]
      rfl
  · obtain ⟨r, -, hsign⟩ := splitFrom_sign hown hq (t.stem convention ++ sumText convention ts)
    obtain ⟨r', hr', hstem⟩ := splitFrom_stem convention t (some r) (sumText convention ts)
    obtain ⟨pss, hpieces, hsum⟩ := h r' hr'
    rw [hsum, List.append_nil] at hstem
    refine ⟨[s.chars, t.own.kept.chars ++ t.stem convention] :: pss,
      .cons ⟨[s], t.own.kept, rfl, ?_⟩ hpieces, ?_⟩
    · rw [SignedTerm.effective, if_neg hown]
      exact t.own.apply_kept
    · rw [hsign, hstem, List.append_nil]
      rfl

theorem text_append (convention : Convention) (t : SignedTerm) (rest : List Char) :
    t.text convention ++ rest = t.sign.chars ++ (t.own.chars ++ (t.stem convention ++ rest)) := by
  simp only [SignedTerm.text, t.coefficient_eq, SignedTerm.stem, List.append_assoc,
    List.cons_append]

theorem splits (convention : Convention) (ts : List SignedTerm) : Splits convention ts := by
  induction ts with
  | nil => exact fun q _ => ⟨[], .nil, rfl⟩
  | cons t ts ih =>
    intro q hq
    have htext : sumText convention (t :: ts) =
        t.sign.chars ++ (t.own.chars ++ (t.stem convention ++ sumText convention ts)) :=
      text_append convention t _
    obtain ⟨r, hr, hsign⟩ := splitFrom_sign t.sign_ne_absent hq
      (t.own.chars ++ (t.stem convention ++ sumText convention ts))
    obtain ⟨pss, hpieces, hflat⟩ := ih.coefficient t t.sign.apply_kept hr
    refine ⟨pss, hpieces, ?_⟩
    rw [htext, hsign, hflat]

/-- The text of a sum without its spaces; a plus in front of the first term may be left out. -/
def Spells (convention : Convention) (ts : List SignedTerm) (s : List Char) : Prop :=
  s.filter (· ≠ ' ') = sumText convention ts ∨ '+' :: s.filter (· ≠ ' ') = sumText convention ts

theorem splitFrom_spelled {convention : Convention} {t : SignedTerm} {ts : List SignedTerm}
    {s : List Char} (h : Spells convention (t :: ts) s) :
    ∃ pss, List.Forall₂ (Pieces convention) (t :: ts) pss ∧
      (splitFrom 0 none (s.filter (· ≠ ' '))).1 :: (splitFrom 0 none (s.filter (· ≠ ' '))).2 =
        pss.flatten := by
  have htext : sumText convention (t :: ts) =
      t.sign.chars ++ (t.own.chars ++ (t.stem convention ++ sumText convention ts)) :=
    text_append convention t _
  rw [Spells, htext] at h
  rcases h with h | h
  · rw [h]
    obtain ⟨r, hr, hhead⟩ := splitFrom_head t.sign
      (t.own.chars ++ (t.stem convention ++ sumText convention ts))
    obtain ⟨q, rfl, hq⟩ := hr t.sign_ne_absent
    rw [hhead]
    exact (splits convention ts).coefficient t (fun _ => rfl) hq
  · cases hsign : t.sign with
    | absent => exact absurd hsign t.sign_ne_absent
    | minus =>
      rw [hsign] at h
      exact absurd (List.cons.inj h).1 (by decide)
    | plus =>
      rw [hsign] at h
      have hbare : s.filter (· ≠ ' ') =
          t.own.chars ++ (t.stem convention ++ sumText convention ts) := (List.cons.inj h).2
      obtain ⟨r, -, hhead⟩ := splitFrom_head t.own (t.stem convention ++ sumText convention ts)
      obtain ⟨r', hr', hstem⟩ := splitFrom_stem convention t r (sumText convention ts)
      obtain ⟨pss, hpieces, hsum⟩ := splits convention ts r' hr'
      rw [hsum, List.append_nil] at hstem
      rw [hbare, hhead, hstem]
      refine ⟨[t.own.chars ++ t.stem convention] :: pss, .cons ⟨[], t.own, rfl, ?_⟩ hpieces, rfl⟩
      intro a
      by_cases hown : t.own = .absent
      · rw [SignedTerm.effective, if_pos hown, hown, hsign]
        rfl
      · rw [SignedTerm.effective, if_neg hown]

end FieldPlot.Vectors
