import FieldPlot.Proofs.Vectors.Assignments
import FieldPlot.Proofs.Vectors.Cuts
import FieldPlot.Proofs.Vectors.Gathering

/-! The search for a marker before a text is split. It finds one in every text that has a term with an
axis, so a text is read as if its terms were split at once. -/

namespace FieldPlot.Vectors

/-! ### What the search finds -/

/-- The lowered characters that a marker is not searched for behind. -/
def inName (c : Char) : Bool :=
  ('a' ≤ c && c ≤ 'z') || c = '_'

section

variable {convention : Convention}

theorem mentionsMarker_append (q : List Char) {s : List Char} {afterName : Bool}
    (h : mentionsMarker convention (q.getLast?.elim afterName inName) s = true) :
    mentionsMarker convention afterName (q ++ s) = true := by
  induction q generalizing afterName with
  | nil => exact h
  | cons c q ih =>
    rw [List.cons_append, mentionsMarker, Bool.or_eq_true]
    refine .inr (ih ?_)
    rw [List.getLast?_cons] at h
    cases hlast : q.getLast? <;> rw [hlast] at h <;> exact h

theorem markerEnds_marker (axis : Axis) {behind : List Char}
    (h : ∀ c ∈ behind.head?, c = '+' ∨ c = '-') :
    markerEnds convention (convention.marker axis ++ behind) = true := by
  rw [markerEnds, List.any_eq_true]
  refine ⟨axis, by cases axis <;> decide, ?_⟩
  have hhead : (convention.marker axis).isPrefixOf (convention.marker axis ++ behind) = true :=
    List.isPrefixOf_iff_prefix.mpr (List.prefix_append ..)
  simp only [hhead, List.drop_left, Bool.true_and]
  match behind, h with
  | [], _ => rfl
  | c :: s, h =>
    have hc : c = '+' ∨ c = '-' := h c rfl
    rcases hc with rfl | rfl <;> cases s <;> rfl

/-- A marker is found behind no name, also with a variable in between. -/
theorem mentionsMarker_of_marker (axis : Axis) {q v behind : List Char}
    (hq : ∀ c ∈ q.getLast?, inName c = false)
    (hv : v = [] ∨ ∃ c, ['x', 'y', 'z'].contains c = true ∧ v = [c])
    (hbehind : ∀ c ∈ behind.head?, c = '+' ∨ c = '-') :
    mentionsMarker convention false (q ++ (v ++ (convention.marker axis ++ behind))) = true := by
  have hends : markerEnds convention (convention.marker axis ++ behind) = true :=
    markerEnds_marker axis hbehind
  apply mentionsMarker_append
  have hname : q.getLast?.elim false inName = false := by
    cases hlast : q.getLast? with
    | none => rfl
    | some c => exact hq c hlast
  rw [hname]
  rcases hv with rfl | ⟨c, hc, rfl⟩
  · rw [List.nil_append]
    generalize convention.marker axis ++ behind = s at hends
    cases s with
    | nil => exact absurd hends (by cases convention <;> decide)
    | cons d s => simp only [mentionsMarker, hends, Bool.not_false, Bool.true_and, Bool.true_or]
  · simp only [List.cons_append, List.nil_append, mentionsMarker, hc, hends, Bool.not_false, Bool.true_and,
      Bool.or_true, Bool.true_or]

end

/-! ### Where a term has a marker -/

theorem isLetter_of_inName {c : Char} (h : inName (lowerChar c) = true) :
    Text.isLetter c = true ∨ c = '_' := by
  rw [lowerChar] at h
  split at h
  · next hc =>
    subst hc
    refine .inl ?_
    rw [Text.isLetter, Text.inRanges_eq_any, Text.inRanges_eq_any]
    decide +kernel
  · have hletter (hcase : c.isUpper = true ∨ c.isLower = true) : Text.isLetter c = true := by
      have halpha : c.isAlpha = true := Bool.or_eq_true_iff.mpr hcase
      rw [Text.isLetter, halpha, Bool.true_or]
    by_cases hupper : c.val ≥ 'A'.val ∧ c.val ≤ 'Z'.val
    · exact .inl (hletter (.inl (decide_eq_true hupper)))
    · have hsame : c.toLower = c := dif_neg hupper
      rw [hsame] at h
      rcases Bool.or_eq_true_iff.mp h with h | h
      · exact .inl (hletter (.inr h))
      · exact .inr (of_decide_eq_true h)

/-- No name goes up to the marker of a term, but a variable may stand in between. -/
theorem startsToken_cases {x : List Char} (h : startsToken x = true) :
    ∃ y v, x = y ++ v ∧ (∀ c ∈ y.getLast?, inName (lowerChar c) = false) ∧
      (v = [] ∨ ∃ c, ['x', 'y', 'z'].contains (lowerChar c) = true ∧ v = [c]) := by
  have hother : ∀ {c : Char}, Text.isLetter c = false → c ≠ '_' → inName (lowerChar c) = false := by
    intro c hletter hunderscore
    by_contra hname
    rcases isLetter_of_inName (Bool.not_eq_false _ ▸ hname) with h | h
    · exact absurd (h.symm.trans hletter) (by decide)
    · exact hunderscore h
  rcases List.eq_nil_or_concat x with rfl | ⟨x, last, rfl⟩
  · exact ⟨[], [], rfl, by simp, .inl rfl⟩
  rw [List.concat_eq_append] at h ⊢
  simp only [startsToken, List.reverse_append, List.reverse_singleton, List.singleton_append] at h
  split at h
  · rw [Bool.and_eq_true, Bool.not_eq_true', List.head?_reverse] at h
    obtain ⟨hvariable, hearlier⟩ := h
    refine ⟨x, [last], rfl, fun c hc => ?_, .inr ⟨last, ?_, rfl⟩⟩
    · rw [Option.mem_def.mp hc] at hearlier
      rw [Option.any_some, Bool.or_eq_false_iff, Text.isAlphanumeric, Bool.or_eq_false_iff] at hearlier
      obtain ⟨⟨hletter, -⟩, hpunctuation⟩ := hearlier
      refine hother hletter ?_
      rintro rfl
      exact absurd hpunctuation (by decide)
    · have hlower : lowerChar last = last.toLower := by
        refine if_neg ?_
        rintro rfl
        exact absurd hvariable (by decide)
      rw [hlower]
      exact hvariable
  · next hname =>
    obtain ⟨hletter, hunderscore⟩ : Text.isLetter last = false ∧ last ≠ '_' := by simpa using hname
    refine ⟨x ++ [last], [], (List.append_nil _).symm, fun c hc => ?_, .inl rfl⟩
    rw [List.getLast?_concat] at hc
    obtain rfl := Option.some.inj hc
    exact hother hletter hunderscore

theorem mentionsMarker_of_mem_splitTerms {convention : Convention} {s term x : List Char} {axis : Axis}
    (hterm : term ∈ splitTerms s) (h : splitTerm? convention term = some (x, axis)) :
    mentionsMarker convention false (s.map lowerChar) = true := by
  obtain ⟨w, rfl, hmarks, hstarts⟩ := splitTerm?_eq_some h
  obtain ⟨front, behind, rfl, hfront, hbehind⟩ := isCut_of_mem_splitTerms hterm
  obtain ⟨y, v, rfl, hy, hv⟩ := startsToken_cases hstarts
  have hvariable : v.map lowerChar = [] ∨
      ∃ c, ['x', 'y', 'z'].contains c = true ∧ v.map lowerChar = [c] := by
    rcases hv with rfl | ⟨c, hc, rfl⟩
    · exact .inl rfl
    · exact .inr ⟨lowerChar c, hc, rfl⟩
  -- A minus that the term starts with stands in `y`.
  have hminus : (v ++ w).head? ≠ some '-' := by
    intro hhead
    have hlower : (v.map lowerChar ++ convention.marker axis).head? = some '-' := by
      rw [← hmarks, ← List.map_append, List.head?_map, hhead]
      rfl
    rcases hvariable with h | ⟨c, hc, h⟩ <;> rw [h] at hlower
    · exact absurd hlower (by cases convention <;> cases axis <;> decide)
    · obtain rfl := Option.some.inj hlower
      exact absurd hc (by decide)
  have hname : ∀ c ∈ ((front ++ y).map lowerChar).getLast?, inName c = false := by
    intro c hc
    rw [List.getLast?_map, Option.mem_map, List.getLast?_append] at hc
    obtain ⟨d, hd, rfl⟩ := hc
    cases hlast : y.getLast? with
    | some e =>
      rw [hlast] at hd
      obtain rfl := Option.some.inj hd
      exact hy e hlast
    | none =>
      obtain rfl := List.getLast?_eq_none_iff.mp hlast
      rcases hfront d hd with rfl | hhead
      · decide
      · exact absurd hhead hminus
  have hlowered : (front ++ (y ++ v ++ w) ++ behind).map lowerChar = (front ++ y).map lowerChar ++
      (v.map lowerChar ++ (convention.marker axis ++ behind.map lowerChar)) := by
    rw [← hmarks]
    simp only [List.map_append, List.append_assoc]
  have hends : ∀ c ∈ (behind.map lowerChar).head?, c = '+' ∨ c = '-' := by
    intro c hc
    rw [List.head?_map, Option.mem_map] at hc
    obtain ⟨d, hd, rfl⟩ := hc
    rcases hbehind d hd with rfl | rfl
    · exact .inl (by decide)
    · exact .inr (by decide)
  rw [hlowered]
  exact mentionsMarker_of_marker axis hname hvariable hends

/-! ### Reading without the search -/

/-- The reading of a text by its terms alone. The last term of an axis gives the component, a term whose
axis has been set before is reported, and a text without a term that sets an axis is no field. -/
def parseTerms (convention : Convention) (s : List Char) : Option Components × List Entry :=
  let w := assignments convention (s.filter (· ≠ ' '))
  (if w = [] then none else some ⟨lastAssigned .x w, lastAssigned .y w, lastAssigned .z w⟩,
    (reassigned [] w).map (Repetition.entry s))

theorem mentionsMarker_of_assignments {convention : Convention} {s : List Char}
    (h : assignments convention s ≠ []) : mentionsMarker convention false (s.map lowerChar) = true := by
  obtain ⟨a, ha⟩ := List.exists_mem_of_ne_nil _ h
  obtain ⟨term, hterm, hset⟩ := List.mem_filterMap.mp ha
  obtain ⟨⟨x, axis⟩, hsplit, -⟩ := Option.map_eq_some_iff.mp hset
  exact mentionsMarker_of_mem_splitTerms hterm hsplit

theorem decompose_eq (convention : Convention) (s : List Char) : decompose convention s =
    (if assignments convention (s.filter (· ≠ ' ')) = [] then none
      else some (gather convention (s.filter (· ≠ ' '))).components,
      (gather convention (s.filter (· ≠ ' '))).repetitions) := by
  have hnone : (gather convention (s.filter (· ≠ ' '))).components = .none ↔
      assignments convention (s.filter (· ≠ ' ')) = [] := by
    rw [gather_eq]
    exact components_eq_none
  unfold decompose
  dsimp only
  by_cases hset : assignments convention (s.filter (· ≠ ' ')) = []
  · have hrepetitions : (gather convention (s.filter (· ≠ ' '))).repetitions = [] := by
      rw [gather_eq, hset]
      rfl
    simp only [hset, hnone.mpr hset, hrepetitions, if_true, ite_self]
  · have hmentions := mentionsMarker_of_assignments hset
    simp only [hset, mt hnone.mp hset, hmentions, if_true, if_false]

/-- The search never changes what is read or reported. -/
theorem parse_eq_parseTerms (convention : Convention) (s : List Char) :
    parse convention s = parseTerms convention s := by
  rw [parse, parseTerms, decompose_eq, gather_eq]

/-- A marker may follow a bracket, but not a letter of a name. -/
example : (parseTerms .ijk "sin(x)i-2pi".toList).1 = some ⟨some "sin(x)".toList, none, none⟩ := by
  decide +kernel

end FieldPlot.Vectors
