import FieldPlot.Proofs.Expression.LetterCase
import FieldPlot.Vectors.Decomposition

/-! Letter case in vector fields. Nothing that decides how a text is decomposed looks at the case of a letter, so that
the components of a text in lower case are its components in lower case. -/

namespace FieldPlot

open Expression (toLower_congr toLower_toLower dropWhile_toLower)

namespace Text

theorem isBlank_toLower (c : Char) : isBlank c.toLower = isBlank c :=
  toLower_congr isBlank (by decide) c

theorem isLetter_toLower (c : Char) : isLetter c.toLower = isLetter c :=
  toLower_congr isLetter (by decide +kernel) c

theorem isAlphanumeric_toLower (c : Char) : isAlphanumeric c.toLower = isAlphanumeric c :=
  toLower_congr isAlphanumeric (by decide +kernel) c

theorem isDigitSign_toLower (c : Char) : isDigitSign c.toLower = isDigitSign c :=
  toLower_congr isDigitSign (by decide +kernel) c

theorem trim_toLower (s : List Char) : trim (s.map Char.toLower) = (trim s).map Char.toLower := by
  simp only [trim, trimBoth, dropWhile_toLower isBlank_toLower, ← List.map_reverse]

section

variable {s t : List Char} (h : s.map Char.toLower = t.map Char.toLower)

include h

theorem trim_of_toLower : (trim s).map Char.toLower = (trim t).map Char.toLower := by
  rw [← trim_toLower, h, trim_toLower]

theorem isEmpty_trim_of_toLower : (trim s).isEmpty = (trim t).isEmpty := by
  rw [← List.isEmpty_map (f := Char.toLower), trim_of_toLower h, List.isEmpty_map]

end

end Text

namespace Vectors

open Expression (Token tokens tokens_toLower)
open Text (isLetter isAlphanumeric isDigitSign)

/-- Whether a character is `d` does not depend on letter case if `d` is no letter. -/
theorem toLower_eq_iff {d : Char} (hd : d.isAlpha = false) (c : Char) : c.toLower = d ↔ c = d := by
  have hletter : ∀ i : Fin 26, (Char.ofNat (97 + i)).isAlpha = true ∧ (Char.ofNat (65 + i)).isAlpha = true := by
    decide
  have hother {e : Char} (he : e.isAlpha = true) : (e = d) = False :=
    eq_false fun h => absurd (h ▸ he) (by simp [hd])
  refine iff_of_eq (toLower_congr (· = d) (fun i => ?_) c)
  rw [hother (hletter i).1, hother (hletter i).2]

theorem lowerChar_toLower (c : Char) : lowerChar c.toLower = lowerChar c :=
  toLower_congr lowerChar (by decide) c

theorem filter_toLower (s : List Char) :
    (s.map Char.toLower).filter (· ≠ ' ') = (s.filter (· ≠ ' ')).map Char.toLower := by
  rw [List.filter_map]
  refine congrArg (List.map _) (List.filter_congr fun c _ => ?_)
  simp only [Function.comp_apply, ne_eq, toLower_eq_iff (d := ' ') rfl]

theorem map_lowerChar_toLower (s : List Char) : (s.map Char.toLower).map lowerChar = s.map lowerChar := by
  rw [List.map_map]
  exact List.map_congr_left fun c _ => lowerChar_toLower c

/-! ### Terms -/

theorem splitFrom_toLower (depth : Int) (previous : Option Char) (s : List Char) :
    splitFrom depth (previous.map Char.toLower) (s.map Char.toLower) =
      ((splitFrom depth previous s).1.map Char.toLower,
        (splitFrom depth previous s).2.map (List.map Char.toLower)) := by
  have hkeeps (c : Char) : keepsSign c.toLower = keepsSign c := toLower_congr keepsSign (by decide) c
  have hdepth (d : Int) (c : Char) : depthAfter d c.toLower = depthAfter d c := by
    simp only [depthAfter, toLower_eq_iff (d := '(') rfl, toLower_eq_iff (d := ')') rfl]
  have hprevious (p : Option Char) : (p.map Char.toLower).any (!keepsSign ·) = p.any (!keepsSign ·) := by
    cases p with
    | none => rfl
    | some c => exact congrArg (!·) (hkeeps c)
  induction s generalizing depth previous with
  | nil => rfl
  | cons c s ih =>
    have hrest := ih (depthAfter depth c) (some c)
    rw [Option.map_some] at hrest
    simp only [List.map_cons, splitFrom, hdepth, hrest, hprevious, toLower_eq_iff (d := '+') rfl,
      toLower_eq_iff (d := '-') rfl]
    split
    · split <;> rfl
    · rfl

theorem splitTerms_toLower (s : List Char) :
    splitTerms (s.map Char.toLower) = (splitTerms s).map (List.map Char.toLower) := by
  have hsplit := splitFrom_toLower 0 none s
  rw [Option.map_none] at hsplit
  have hempty : (fun t : List Char => !t.isEmpty) ∘ List.map Char.toLower = fun t => !t.isEmpty :=
    funext fun t => congrArg (!·) List.isEmpty_map
  simp only [splitTerms, hsplit]
  rw [← List.map_cons (f := List.map Char.toLower), List.filter_map, hempty]

theorem startsToken_toLower (x : List Char) : startsToken (x.map Char.toLower) = startsToken x := by
  have hpunctuation (c : Char) : ['_', '.', ')'].contains c.toLower = ['_', '.', ')'].contains c :=
    toLower_congr ['_', '.', ')'].contains (by decide) c
  unfold startsToken
  rw [← List.map_reverse, tokens_toLower, List.getLast?_map]
  generalize (tokens x).getLast? = token
  cases x.reverse with
  | nil => rfl
  | cons last earlier =>
    simp only [List.map_cons, Text.isLetter_toLower, Text.isDigitSign_toLower, toLower_toLower,
      toLower_eq_iff (d := '_') rfl, toLower_eq_iff (d := '.') rfl]
    congr 1
    · cases earlier with
      | nil => rfl
      | cons c earlier =>
        simp only [List.map_cons, List.head?_cons, Option.any_some, Text.isAlphanumeric_toLower, hpunctuation]
    · match token with
      | none | some ⟨.mark _, _⟩ | some ⟨.number _, _⟩ | some ⟨.name _, _⟩ => rfl

theorem splitTerm?_toLower (convention : Convention) (term : List Char) :
    splitTerm? convention (term.map Char.toLower) =
      (splitTerm? convention term).map fun found => (found.1.map Char.toLower, found.2) := by
  simp only [splitTerm?, map_lowerChar_toLower, List.length_map, ← List.map_take, startsToken_toLower]
  rw [List.map_findSome?]
  refine congrArg (List.findSome? · _) (funext fun axis => ?_)
  rw [Function.comp_apply]
  split <;> rfl

theorem coefficient_toLower (x : List Char) :
    coefficient (x.map Char.toLower) = (coefficient x).map Char.toLower := by
  have hsign {d : Char} (hd : d.isAlpha = false) (s : List Char) : s.map Char.toLower = [d] ↔ s = [d] := by
    match s with
    | [] | _ :: _ :: _ => simp
    | [c] => simp [toLower_eq_iff hd]
  have hlast {d : Char} (hd : d.isAlpha = false) (s : List Char) :
      (s.map Char.toLower).getLast? = some d ↔ s.getLast? = some d := by
    rw [List.getLast?_map]
    cases s.getLast? with
    | none => rfl
    | some c => simp [toLower_eq_iff hd]
  simp only [coefficient, Text.trim_toLower, List.map_eq_nil_iff, hsign (d := '+') rfl, hsign (d := '-') rfl,
    hlast (d := '*') rfl, hlast (d := '·') rfl, ← List.map_dropLast]
  split
  · rfl
  split
  · rfl
  split <;> rfl

/-! ### Components -/

def Components.lowered (f : Components) : Components :=
  ⟨f.x.map (List.map Char.toLower), f.y.map (List.map Char.toLower), f.z.map (List.map Char.toLower)⟩

theorem Components.get_lowered (f : Components) (axis : Axis) :
    f.lowered.get axis = (f.get axis).map (List.map Char.toLower) := by
  cases axis <;> rfl

theorem Components.set_lowered (f : Components) (axis : Axis) (s : List Char) :
    (f.set axis s).lowered = f.lowered.set axis (s.map Char.toLower) := by
  cases axis <;> rfl

theorem Components.lowered_eq_none {f : Components} : f.lowered = .none ↔ f = .none := by
  obtain ⟨x, y, z⟩ := f
  simp [lowered, none]

theorem add_toLower (convention : Convention) (terms : List (List Char)) (g h : Gathered)
    (hgh : h.components = g.components.lowered) :
    ((terms.map (List.map Char.toLower)).foldl (Gathered.add convention) h).components =
      (terms.foldl (Gathered.add convention) g).components.lowered := by
  induction terms generalizing g h with
  | nil => exact hgh
  | cons term terms ih =>
    refine ih _ _ ?_
    simp only [Gathered.add, splitTerm?_toLower]
    cases splitTerm? convention term with
    | none => exact hgh
    | some found => simp only [Option.map_some, coefficient_toLower, hgh, Components.set_lowered]

theorem gather_toLower (convention : Convention) (s : List Char) :
    (gather convention (s.map Char.toLower)).components = (gather convention s).components.lowered := by
  rw [gather, splitTerms_toLower]
  exact add_toLower convention (splitTerms s) _ _ rfl

/-- The components of a text in lower case are those of the text, in lower case. -/
theorem decompose_toLower (convention : Convention) (s : List Char) :
    (decompose convention (s.map Char.toLower)).1 = (decompose convention s).1.map Components.lowered := by
  simp only [decompose, filter_toLower, map_lowerChar_toLower, gather_toLower, Components.lowered_eq_none]
  split
  · split <;> rfl
  · rfl

end Vectors

end FieldPlot
