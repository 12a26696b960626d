import FieldPlot.Proofs.Vectors.Splitting

/-! How the pieces of a signed sum are gathered. The last piece of a term gives its axis a component, and
the signs that were split off give none. -/

namespace FieldPlot.Vectors

open Expression

theorem marker_length (convention : Convention) (a b : Axis) :
    (convention.marker a).length = (convention.marker b).length := by
  cases convention <;> cases a <;> cases b <;> rfl

theorem marker_injective {convention : Convention} {a b : Axis}
    (h : convention.marker a = convention.marker b) : a = b := by
  cases convention <;> cases a <;> cases b <;> first | rfl | exact absurd h (by decide)

theorem startsToken_concat {c : Char} (hletter : Text.isLetter c = false)
    (hdigit : Text.isDigitSign c = false) (hunderscore : c ≠ '_') (hpoint : c ≠ '.') (x : List Char) :
    startsToken (x ++ [c]) = true := by
  simp [startsToken, hletter, hdigit, hunderscore, hpoint]

theorem startsToken_star (x : List Char) : startsToken (x ++ ['*']) = true :=
  startsToken_concat (by decide) (by decide +kernel) (by decide) (by decide) x

section

variable {convention : Convention} {axis : Axis} {w : List Char}

theorem Marks.isSuffixOf (h : Marks convention axis w) (a : Axis) (x : List Char) :
    (convention.marker a).isSuffixOf ((x ++ w).map lowerChar) = decide (a = axis) := by
  rw [List.map_append, h]
  by_cases hab : a = axis
  · rw [hab, decide_eq_true rfl, List.isSuffixOf_iff_suffix]
    exact List.suffix_append _ _
  · rw [decide_eq_false hab, ← Bool.not_eq_true, List.isSuffixOf_iff_suffix]
    intro hsuffix
    have hother := List.suffix_of_suffix_length_le hsuffix
      (List.suffix_append (x.map lowerChar) (convention.marker axis)) (marker_length ..).le
    exact hab (marker_injective (hother.eq_of_length (marker_length ..)))

theorem Marks.splitTerm? (h : Marks convention axis w) {x : List Char} (hx : startsToken x = true) :
    splitTerm? convention (x ++ w) = some (x, axis) := by
  have htake : ∀ a, (x ++ w).take ((x ++ w).length - (convention.marker a).length) = x := by
    intro a
    have hlength : (convention.marker a).length = w.length := by
      rw [marker_length convention a axis, ← h, List.length_map]
    rw [hlength, List.length_append, Nat.add_sub_cancel, List.take_left]
  rw [Vectors.splitTerm?]
  simp only [htake, h.isSuffixOf, hx, Bool.and_true]
  cases axis <;> rfl

/-- A marker behind a character that is part of no name shows that a text is a field. -/
theorem Marks.mentionsMarker (h : Marks convention axis w) {c : Char}
    (hc : (('a' ≤ lowerChar c && lowerChar c ≤ 'z') || lowerChar c = '_') = false) (x : List Char)
    (afterName : Bool) : mentionsMarker convention afterName ((x ++ c :: w).map lowerChar) = true := by
  induction x generalizing afterName with
  | nil =>
    have hmarker : Vectors.mentionsMarker convention false (convention.marker axis) = true := by
      cases convention <;> cases axis <;> rfl
    rw [List.nil_append, List.map_cons, Vectors.mentionsMarker, hc, h, hmarker, Bool.or_true]
  | cons d x ih => rw [List.cons_append, List.map_cons, Vectors.mentionsMarker, ih, Bool.or_true]

end

theorem splitTerm?_eq_some {convention : Convention} {term x : List Char} {axis : Axis}
    (h : splitTerm? convention term = some (x, axis)) :
    ∃ w, term = x ++ w ∧ Marks convention axis w ∧ startsToken x = true := by
  obtain ⟨a, -, ha⟩ := List.exists_of_findSome?_eq_some h
  dsimp only at ha
  split at ha
  · next hmarks =>
    obtain ⟨rfl, rfl⟩ := Prod.mk.inj (Option.some.inj ha)
    rw [Bool.and_eq_true] at hmarks
    obtain ⟨hsuffix, hstarts⟩ := hmarks
    refine ⟨_, (List.take_append_drop _ term).symm, ?_, hstarts⟩
    rw [List.isSuffixOf_iff_suffix, List.suffix_iff_eq_drop, List.length_map] at hsuffix
    rw [Marks, List.map_drop]
    exact hsuffix.symm
  · cases ha

theorem splitTerm?_sign (convention : Convention) (s : Sign) :
    splitTerm? convention s.chars = none := by
  cases convention <;> cases s <;> rfl

theorem dropWhile_star (x : List Char) :
    (x ++ ['*']).dropWhile Text.isBlank = x.dropWhile Text.isBlank ++ ['*'] :=
  dropWhile_append_stop (by decide) x []

/-- More than a sign is left of a coefficient, and a product sign at its end goes. -/
theorem coefficient_of_mem {s : List Char} {c : Char} (hc : c ∈ Text.trim s) (hplus : c ≠ '+')
    (hminus : c ≠ '-') : coefficient s =
      if (Text.trim s).getLast? = some '*' || (Text.trim s).getLast? = some '·' then (Text.trim s).dropLast
      else Text.trim s := by
  have hempty : Text.trim s ≠ [] := List.ne_nil_of_mem hc
  have hother : ∀ d, c ≠ d → Text.trim s ≠ [d] := by
    intro d hd heq
    rw [heq, List.mem_singleton] at hc
    exact hd hc
  rw [coefficient]
  simp only [hempty, hother '+' hplus, hother '-' hminus, decide_false, Bool.or_self,
    Bool.false_eq_true, if_false]

/-- The product sign between a coefficient and its marker goes, and so do blanks in front. -/
theorem coefficient_star (x : List Char) :
    coefficient (x ++ ['*']) = x.dropWhile Text.isBlank := by
  have htrim : Text.trim (x ++ ['*']) = x.dropWhile Text.isBlank ++ ['*'] := by
    have hstar : Text.isBlank '*' = false := by decide
    simp only [Text.trim, Text.trimBoth, dropWhile_star, List.reverse_append, List.reverse_cons,
      List.reverse_nil, List.nil_append, List.singleton_append, List.dropWhile_cons, hstar]
    simp
  have hstar : '*' ∈ Text.trim (x ++ ['*']) := by simp [htrim]
  rw [coefficient_of_mem hstar (by decide) (by decide), htrim, List.getLast?_concat]
  exact List.dropLast_concat

theorem add_sign (convention : Convention) (g : Gathered) (s : Sign) :
    g.add convention s.chars = g := by
  rw [Gathered.add, splitTerm?_sign]

theorem gather_eq_foldl (convention : Convention) (s : List Char) : gather convention s =
    ((splitFrom 0 none s).1 :: (splitFrom 0 none s).2).foldl (Gathered.add convention)
      ⟨.none, []⟩ := by
  have hterms : splitTerms s =
      ((splitFrom 0 none s).1 :: (splitFrom 0 none s).2).filter (!·.isEmpty) := rfl
  rw [gather, hterms, List.foldl_filter]
  congr 1
  funext g term
  cases term with
  | nil => exact (add_sign convention g .absent).symm
  | cons c term => rfl

/-- What a component text has in common with the coefficient that it comes from. -/
def Carries (t : SignedTerm) (x : List Char) : Prop :=
  ∃ s : Sign, (∀ a, s.apply a = t.effective.apply a) ∧
    x = (s.chars ++ t.body).dropWhile Text.isBlank

theorem add_pieces {convention : Convention} {t : SignedTerm} {ps : List (List Char)}
    (h : Pieces convention t ps) (g : Gathered) (hg : g.components.get t.axis = none) :
    ∃ x, Carries t x ∧
      ps.foldl (Gathered.add convention) g = ⟨g.components.set t.axis x, g.repetitions⟩ := by
  obtain ⟨loose, s, rfl, hs⟩ := h
  have hloose : (loose.map Sign.chars).foldl (Gathered.add convention) g = g := by
    induction loose with
    | nil => rfl
    | cons s loose ih => rwa [List.map_cons, List.foldl_cons, add_sign]
  have hstem : s.chars ++ t.stem convention =
      (s.chars ++ t.body) ++ '*' :: convention.marker t.axis := by
    rw [SignedTerm.stem, List.append_assoc]
  refine ⟨_, ⟨s, hs, rfl⟩, ?_⟩
  rw [List.foldl_append, hloose, List.foldl_cons, List.foldl_nil, Gathered.add, hstem,
    List.append_cons, (marks_marker ..).splitTerm? (startsToken_star _)]
  simp only [coefficient_star, hg, Option.isSome_none, Bool.false_eq_true, if_false]

theorem add_all {convention : Convention} {ts : List SignedTerm} {pss : List (List (List Char))}
    (h : List.Forall₂ (Pieces convention) ts pss) (haxes : (ts.map SignedTerm.axis).Nodup)
    (g : Gathered) (hg : ∀ t ∈ ts, g.components.get t.axis = none) :
    ∃ f, pss.flatten.foldl (Gathered.add convention) g = ⟨f, g.repetitions⟩ ∧
      (∀ t ∈ ts, ∃ x, Carries t x ∧ f.get t.axis = some x) ∧
      ∀ axis, axis ∉ ts.map SignedTerm.axis → f.get axis = g.components.get axis := by
  induction h generalizing g with
  | nil => exact ⟨g.components, rfl, by simp, fun _ _ => rfl⟩
  | @cons t ps ts pss hpieces _ ih =>
    obtain ⟨hfresh, haxes⟩ := List.nodup_cons.mp haxes
    obtain ⟨x, hx, hadd⟩ := add_pieces hpieces g (hg t List.mem_cons_self)
    have hother : ∀ axis ∈ ts.map SignedTerm.axis,
        (g.components.set t.axis x).get axis = g.components.get axis := by
      intro axis haxis
      rw [Components.get_set, if_neg]
      rintro rfl
      exact hfresh haxis
    obtain ⟨f, hfold, hset, hrest⟩ := ih haxes ⟨g.components.set t.axis x, g.repetitions⟩ (by
      intro u hu
      rw [hother _ (List.mem_map_of_mem hu)]
      exact hg u (List.mem_cons_of_mem _ hu))
    refine ⟨f, ?_, ?_, ?_⟩
    · rw [List.flatten_cons, List.foldl_append, hadd, hfold]
    · intro u hu
      rcases List.mem_cons.mp hu with rfl | hu
      · refine ⟨x, hx, ?_⟩
        rw [hrest _ hfresh, Components.get_set, if_pos rfl]
      · exact hset u hu
    · intro axis haxis
      rw [List.map_cons, List.mem_cons, not_or] at haxis
      rw [hrest _ haxis.2, Components.get_set, if_neg haxis.1]

theorem sumText_eq (convention : Convention) (t : SignedTerm) (ts : List SignedTerm) :
    ∃ x axis, sumText convention (t :: ts) = x ++ '*' :: convention.marker axis := by
  induction ts generalizing t with
  | nil => exact ⟨t.sign.chars ++ t.coefficient, t.axis, List.append_nil _⟩
  | cons u ts ih =>
    obtain ⟨x, axis, hx⟩ := ih u
    refine ⟨t.text convention ++ x, axis, ?_⟩
    rw [List.append_assoc, ← hx]
    rfl

theorem Spells.mentionsMarker {convention : Convention} {t : SignedTerm} {ts : List SignedTerm}
    {s : List Char} (h : Spells convention (t :: ts) s) :
    mentionsMarker convention false ((s.filter (· ≠ ' ')).map lowerChar) = true := by
  obtain ⟨x, axis, hx⟩ := sumText_eq convention t ts
  rw [Spells, hx] at h
  have hends : ∃ y, s.filter (· ≠ ' ') = y ++ '*' :: convention.marker axis := by
    rcases h with h | h
    · exact ⟨x, h⟩
    · cases x with
      | nil => exact absurd (List.cons.inj h).1 (by decide)
      | cons c x => exact ⟨x, (List.cons.inj h).2⟩
  obtain ⟨y, hy⟩ := hends
  rw [hy]
  exact (marks_marker convention axis).mentionsMarker (by decide) y false

theorem decompose_of_gather {convention : Convention} {s : List Char} {f : Components}
    {repetitions : List Repetition}
    (hmentions : mentionsMarker convention false ((s.filter (· ≠ ' ')).map lowerChar) = true)
    (hgather : gather convention (s.filter (· ≠ ' ')) = ⟨f, repetitions⟩) {axis : Axis} {x : List Char}
    (hx : f.get axis = some x) : decompose convention s = (some f, repetitions) := by
  have hne : f ≠ .none := by
    rintro rfl
    cases axis <;> cases hx
  simp only [decompose, hmentions, if_true, hgather, hne, if_false]

theorem decompose_spelled {convention : Convention} {ts : List SignedTerm} (hts : ts ≠ [])
    (haxes : (ts.map SignedTerm.axis).Nodup) {s : List Char} (h : Spells convention ts s) :
    ∃ f, decompose convention s = (some f, []) ∧
      (∀ t ∈ ts, ∃ x, Carries t x ∧ f.get t.axis = some x) ∧
      ∀ axis, axis ∉ ts.map SignedTerm.axis → f.get axis = none := by
  obtain ⟨t, ts, rfl⟩ := List.exists_cons_of_ne_nil hts
  obtain ⟨pss, hpieces, hsplit⟩ := splitFrom_spelled h
  have hfresh : ∀ u ∈ t :: ts, Components.none.get u.axis = none := by
    intro u _
    cases u.axis <;> rfl
  obtain ⟨f, hfold, hset, hrest⟩ := add_all hpieces haxes ⟨.none, []⟩ hfresh
  have hgather : gather convention (s.filter (· ≠ ' ')) = ⟨f, []⟩ := by
    rw [gather_eq_foldl, hsplit, hfold]
  obtain ⟨x, -, hx⟩ := hset t List.mem_cons_self
  refine ⟨f, decompose_of_gather h.mentionsMarker hgather hx, hset, fun axis haxis => ?_⟩
  rw [hrest axis haxis]
  cases axis <;> rfl

end FieldPlot.Vectors
