import FieldPlot.Request

/-! The assignments that the terms of a text make to the axes, and what gathering them leaves: the last one
for each axis, and a report of each one whose axis was set before. -/

namespace FieldPlot.Vectors

/-- The axis that a term sets, and what to. -/
def assignment? (convention : Convention) (term : List Char) : Option (Axis × List Char) :=
  (splitTerm? convention term).map fun (before, axis) => (axis, coefficient before)

def assignments (convention : Convention) (s : List Char) : List (Axis × List Char) :=
  (splitTerms s).filterMap (assignment? convention)

/-- What an axis is set to last. -/
def lastAssigned (axis : Axis) (w : List (Axis × List Char)) : Option (List Char) :=
  (w.filter (·.1 = axis)).getLast?.map Prod.snd

/-- The assignments to an axis that has been set before. -/
def reassigned (seen : List Axis) : List (Axis × List Char) → List Repetition
  | [] => []
  | (axis, c) :: w =>
    if axis ∈ seen then ⟨axis, c⟩ :: reassigned (axis :: seen) w else reassigned (axis :: seen) w

theorem lastAssigned_cons (axis a : Axis) (c : List Char) (w : List (Axis × List Char)) :
    lastAssigned axis ((a, c) :: w) = (lastAssigned axis w).or (if a = axis then some c else none) := by
  by_cases ha : a = axis
  · rw [lastAssigned, lastAssigned, List.filter_cons_of_pos (by simpa using ha), List.getLast?_cons,
      if_pos ha]
    cases (w.filter (·.1 = axis)).getLast? <;> rfl
  · rw [lastAssigned, lastAssigned, List.filter_cons_of_neg (by simpa using ha), if_neg ha, Option.or_none]

def Gathered.assign (g : Gathered) (a : Axis × List Char) : Gathered :=
  ⟨g.components.set a.1 a.2,
    if (g.components.get a.1).isSome then g.repetitions ++ [⟨a.1, a.2⟩] else g.repetitions⟩

theorem foldl_add (convention : Convention) (terms : List (List Char)) (g : Gathered) :
    terms.foldl (Gathered.add convention) g =
      (terms.filterMap (assignment? convention)).foldl Gathered.assign g := by
  rw [List.foldl_filterMap]
  congr 1
  funext g term
  rw [Gathered.add, assignment?]
  cases splitTerm? convention term <;> rfl

theorem foldl_assign (w : List (Axis × List Char)) {g : Gathered} {seen : List Axis}
    (hseen : ∀ axis, axis ∈ seen ↔ (g.components.get axis).isSome) :
    (∀ axis, (w.foldl Gathered.assign g).components.get axis =
      (lastAssigned axis w).or (g.components.get axis)) ∧
    (w.foldl Gathered.assign g).repetitions = g.repetitions ++ reassigned seen w := by
  induction w generalizing g seen with
  | nil => exact ⟨fun _ => rfl, (List.append_nil _).symm⟩
  | cons a w ih =>
    obtain ⟨a, c⟩ := a
    have hnext : ∀ axis, axis ∈ a :: seen ↔ ((g.assign (a, c)).components.get axis).isSome := by
      intro axis
      rw [Gathered.assign, Components.get_set, List.mem_cons, hseen]
      by_cases haxis : axis = a <;> simp [haxis]
    obtain ⟨hcomponents, hrepetitions⟩ := ih hnext
    rw [List.foldl_cons]
    constructor
    · intro axis
      rw [hcomponents, lastAssigned_cons, Gathered.assign, Components.get_set, Option.or_assoc]
      by_cases haxis : axis = a
      · rw [if_pos haxis, if_pos haxis.symm, Option.some_or]
      · rw [if_neg haxis, if_neg (Ne.symm haxis), Option.none_or]
    · rw [hrepetitions, Gathered.assign, reassigned]
      by_cases hmem : a ∈ seen
      · simp only [if_pos ((hseen _).mp hmem), if_pos hmem, List.append_assoc, List.singleton_append]
      · simp only [if_neg (mt (hseen _).mpr hmem), if_neg hmem]

theorem Components.ext_get {f g : Components} (h : ∀ axis, f.get axis = g.get axis) : f = g := by
  cases f
  cases g
  rw [Components.mk.injEq]
  exact ⟨h .x, h .y, h .z⟩

theorem gather_eq (convention : Convention) (s : List Char) :
    gather convention s = ⟨⟨lastAssigned .x (assignments convention s),
      lastAssigned .y (assignments convention s), lastAssigned .z (assignments convention s)⟩,
      reassigned [] (assignments convention s)⟩ := by
  have hseen : ∀ axis, axis ∈ [] ↔ (Components.none.get axis).isSome := by
    intro axis
    cases axis <;> simp [Components.none, Components.get]
  obtain ⟨hcomponents, hrepetitions⟩ :=
    foldl_assign (assignments convention s) (g := ⟨.none, []⟩) hseen
  have hgather : gather convention s = (assignments convention s).foldl Gathered.assign ⟨.none, []⟩ :=
    foldl_add convention (splitTerms s) _
  rw [hgather]
  refine congr (congrArg Gathered.mk (Components.ext_get fun axis => ?_)) hrepetitions
  rw [hcomponents]
  cases axis <;> exact Option.or_none

theorem lastAssigned_eq_none {axis : Axis} {w : List (Axis × List Char)} :
    lastAssigned axis w = none ↔ ∀ a ∈ w, a.1 ≠ axis := by
  simp [lastAssigned]

/-- Some axis is set as soon as there is an assignment. -/
theorem components_eq_none {w : List (Axis × List Char)} :
    (⟨lastAssigned .x w, lastAssigned .y w, lastAssigned .z w⟩ : Components) = .none ↔ w = [] := by
  constructor
  · intro h
    obtain ⟨hx, hy, hz⟩ := Components.mk.inj h
    refine List.eq_nil_iff_forall_not_mem.mpr fun a ha => ?_
    cases haxis : a.1 with
    | x => exact lastAssigned_eq_none.mp hx a ha haxis
    | y => exact lastAssigned_eq_none.mp hy a ha haxis
    | z => exact lastAssigned_eq_none.mp hz a ha haxis
  · rintro rfl
    rfl

end FieldPlot.Vectors
