import FieldPlot.Proofs.Expression.WellFormed
import FieldPlot.Proofs.Vectors.Cuts
import FieldPlot.Proofs.Vectors.Gathering

/-! The brackets in the components of a field. Every component is cut out of the text, so that it opens no
more brackets than the text does, and can be evaluated where the text opens few. -/

namespace FieldPlot

theorem Expression.openings_tokensFrom_le (start : Nat) (s : List Char) :
    openings (tokensFrom start s) ≤ s.count '(' := by
  have hrun : ∀ (p : Char → Bool) (c : Char) (s : List Char),
      (s.dropWhile p).count '(' ≤ (c :: s).count '(' := fun p c s =>
    ((s.dropWhile_sublist p).trans (List.sublist_cons_self c s)).count_le _
  fun_induction tokensFrom start s with
  | case1 => exact le_rfl
  | case2 start c s m hm ih =>
    obtain rfl := eq_char_of_ofChar? hm
    cases m <;> simpa [openings, Mark.char] using ih
  | case3 start c s hm hc run ih => simpa [openings] using ih.trans (hrun _ c s)
  | case4 start c s hm hc ha run ih => simpa [openings] using ih.trans (hrun _ c s)
  | case5 start c s hm hc ha ih => exact ih.trans ((List.sublist_cons_self c s).count_le _)

theorem Expression.openings_le_count (s : List Char) : openings (tokens s) ≤ s.count '(' :=
  openings_tokensFrom_le 0 s

namespace Vectors

theorem count_coefficient_le (s : List Char) : (coefficient s).count '(' ≤ s.count '(' := by
  have htrim := (Text.trim_sublist s).count_le '('
  unfold coefficient
  dsimp only
  split
  · simp
  split
  · simp
  split
  · exact ((Text.trim s).dropLast_sublist.count_le _).trans htrim
  · exact htrim

/-- No component opens more than `n` brackets. -/
def Components.OpenAtMost (n : Nat) (f : Components) : Prop :=
  ∀ axis x, f.get axis = some x → x.count '(' ≤ n

theorem add_openAtMost {convention : Convention} {n : Nat} {g : Gathered} {term : List Char}
    (hg : g.components.OpenAtMost n) (hterm : term.count '(' ≤ n) :
    (g.add convention term).components.OpenAtMost n := by
  intro axis x hx
  rw [Gathered.add] at hx
  split at hx
  · exact hg axis x hx
  · next before a hsplit =>
    rw [Components.get_set] at hx
    split at hx
    · obtain rfl := Option.some.inj hx
      obtain ⟨w, rfl, -, -⟩ := splitTerm?_eq_some hsplit
      have hbefore := (List.sublist_append_left before w).count_le '('
      exact (count_coefficient_le before).trans (hbefore.trans hterm)
    · exact hg axis x hx

theorem foldl_openAtMost {convention : Convention} {n : Nat} {terms : List (List Char)} {g : Gathered}
    (hg : g.components.OpenAtMost n) (hterms : ∀ term ∈ terms, term.count '(' ≤ n) :
    (terms.foldl (Gathered.add convention) g).components.OpenAtMost n := by
  induction terms generalizing g with
  | nil => exact hg
  | cons term terms ih =>
    obtain ⟨hterm, hterms⟩ := List.forall_mem_cons.mp hterms
    exact ih (add_openAtMost hg hterm) hterms

theorem gather_openAtMost (convention : Convention) (s : List Char) :
    (gather convention s).components.OpenAtMost (s.count '(') := by
  refine foldl_openAtMost (fun axis x hx => ?_) fun term hterm => ?_
  · cases axis <;> cases hx
  · exact (isCut_of_mem_splitTerms hterm).sublist.count_le _

theorem decompose_openAtMost {convention : Convention} {s : List Char} {f : Components}
    (h : (decompose convention s).1 = some f) : f.OpenAtMost (s.count '(') := by
  have hspaceless : (s.filter (· ≠ ' ')).count '(' ≤ s.count '(' := List.filter_sublist.count_le _
  intro axis x hx
  unfold decompose at h
  dsimp only at h
  split at h
  · split at h
    · cases h
    · obtain rfl := Option.some.inj h
      exact (gather_openAtMost convention _ axis x hx).trans hspaceless
  · cases h

end Vectors

end FieldPlot
