import FieldPlot.Proofs.Vectors.Assignments
import FieldPlot.Proofs.Vectors.Gathering
import FieldPlot.Request

/-! Fields whose coefficients are written in brackets. Whatever the brackets hold, each term is a piece of
its own, and its coefficient is given back together with its sign. -/

namespace FieldPlot.Vectors

open Expression (Sign)

/-- No bracket is closed before one is opened, and in the end all are closed. -/
structure Balanced (s : List Char) : Prop where
  opened : ∀ t, t <+: s → t.count ')' ≤ t.count '('
  closed : s.count '(' = s.count ')'

theorem foldl_depthAfter_add (s : List Char) (depth : Int) :
    s.foldl depthAfter depth + s.count ')' = depth + s.count '(' := by
  induction s generalizing depth with
  | nil => rfl
  | cons c s ih =>
    have hrest := ih (depthAfter depth c)
    rw [List.foldl_cons, List.count_cons, List.count_cons]
    by_cases hopening : c = '('
    · subst hopening
      have hdepth : depthAfter depth '(' = depth + 1 := rfl
      rw [hdepth] at hrest ⊢
      simp
      omega
    · by_cases hclosing : c = ')'
      · subst hclosing
        have hdepth : depthAfter depth ')' = depth - 1 := rfl
        rw [hdepth] at hrest ⊢
        simp
        omega
      · have hdepth : depthAfter depth c = depth := by
          rw [depthAfter, if_neg hopening, if_neg hclosing]
        rw [hdepth] at hrest ⊢
        simpa [hopening, hclosing] using hrest

/-- Where the depth of brackets never comes back to 0, nothing is cut. -/
theorem uncut_of_deep {s : List Char} {depth : Int} (h : ∀ t, t <+: s → t.foldl depthAfter depth ≠ 0)
    (p : Option Char) : Uncut depth p s := by
  induction s generalizing depth p with
  | nil => trivial
  | cons c s ih =>
    refine ⟨fun _ h0 => absurd h0 (h [] List.nil_prefix), ih (fun t ht => ?_) (some c)⟩
    exact h (c :: t) (List.cons_prefix_cons.mpr ⟨rfl, ht⟩)

/-- Brackets around a balanced text hold it together. -/
theorem Balanced.bracket_uncut {s : List Char} (h : Balanced s) (p : Option Char) :
    Uncut 0 p ('(' :: s ++ [')']) ∧ ('(' :: s ++ [')']).foldl depthAfter 0 = 0 := by
  have hinside : Uncut 1 (some '(') s := uncut_of_deep (fun t ht => by
    have hdepth := foldl_depthAfter_add t 1
    have hopened := h.opened t ht
    omega) _
  have hdepth : s.foldl depthAfter 1 = 1 := by
    have hdepth := foldl_depthAfter_add s 1
    have hclosed := h.closed
    omega
  constructor
  · refine ⟨fun h => absurd h (by decide), hinside.append ?_⟩
    exact ⟨fun h => absurd h (by decide), trivial⟩
  · have hopening : depthAfter 0 '(' = 1 := rfl
    rw [List.cons_append, List.foldl_cons, hopening, List.foldl_append, hdepth]
    rfl

theorem Balanced.bracket {s : List Char} (h : Balanced s) : Balanced ('(' :: s ++ [')']) := by
  have hclosed := h.closed
  refine ⟨fun t ht => ?_, by simp; omega⟩
  rcases List.prefix_concat_iff.mp ht with rfl | hopen
  · simp
    omega
  · cases t with
    | nil => exact le_rfl
    | cons c t =>
      obtain ⟨rfl, hprefix⟩ := List.cons_prefix_cons.mp hopen
      have hopened := h.opened t hprefix
      simp
      omega

/-- What stands between a coefficient and its marker. -/
inductive Link
  | star | dot | nothing

def Link.chars : Link → List Char
  | star => ['*']
  | dot => ['·']
  | nothing => []

/-- A unit vector with a sign and a coefficient in brackets; the marker is written in any letter case. -/
structure BracketedTerm (convention : Convention) where
  isNegative : Bool
  body : List Char
  link : Link
  axis : Axis
  written : List Char
  spaceless : ' ' ∉ body
  balanced : Balanced body
  marks : Marks convention axis written

namespace BracketedTerm

variable {convention : Convention}

def sign (t : BracketedTerm convention) : Sign :=
  if t.isNegative then .minus else .plus

def group (t : BracketedTerm convention) : List Char :=
  '(' :: t.body ++ [')']

def stem (t : BracketedTerm convention) : List Char :=
  t.group ++ (t.link.chars ++ t.written)

/-- The term behind others. -/
def text (t : BracketedTerm convention) : List Char :=
  t.sign.chars ++ t.stem

/-- The term at the head of a text, where a plus is left out. -/
def head (t : BracketedTerm convention) : List Char :=
  t.sign.kept.chars ++ t.stem

/-- The component that the term stands for. -/
def component (t : BracketedTerm convention) : List Char :=
  t.sign.kept.chars ++ t.group

theorem sign_ne_absent (t : BracketedTerm convention) : t.sign ≠ .absent := by
  cases h : t.isNegative <;> simp [sign, h]

theorem head_eq (t : BracketedTerm convention) : t.head = t.component ++ t.link.chars ++ t.written := by
  simp [head, stem, component]

theorem stem_uncut (t : BracketedTerm convention) (p : Option Char) :
    Uncut 0 p t.stem ∧ t.stem.foldl depthAfter 0 = 0 := by
  have hgroup := t.balanced.bracket_uncut p
  have hlink : ∀ q, Uncut 0 q t.link.chars ∧ t.link.chars.foldl depthAfter 0 = 0 := by
    intro q
    cases t.link with
    | nothing => exact ⟨trivial, rfl⟩
    | star | dot => exact ⟨⟨fun h => absurd h (by decide), trivial⟩, rfl⟩
  have hwritten := uncut_run t.marks.ofChar?_eq_none 0
  rw [stem, group]
  constructor
  · refine hgroup.1.append ?_
    rw [hgroup.2]
    refine (hlink _).1.append ?_
    rw [(hlink none).2]
    exact (hwritten _).1
  · rw [List.foldl_append, hgroup.2, List.foldl_append, (hlink none).2, (hwritten none).2]

theorem splitFrom_stem (t : BracketedTerm convention) (p : Option Char) (rest : List Char) :
    ∃ q : Char, keepsSign q = false ∧ splitFrom 0 p (t.stem ++ rest) =
      (t.stem ++ (splitFrom 0 (some q) rest).1, (splitFrom 0 (some q) rest).2) := by
  obtain ⟨huncut, hdepth⟩ := t.stem_uncut p
  have hends : t.written <:+ t.stem := (List.suffix_append _ _).trans (List.suffix_append _ _)
  exact t.marks.splitFrom hends huncut hdepth rest

theorem splitFrom_texts (ts : List (BracketedTerm convention)) {q : Char} (hq : keepsSign q = false) :
    splitFrom 0 (some q) (ts.flatMap text) = ([], ts.map head) := by
  induction ts generalizing q with
  | nil => rfl
  | cons t ts ih =>
    have htext : (t :: ts).flatMap text = t.sign.chars ++ (t.stem ++ ts.flatMap text) := by
      simp [text]
    obtain ⟨r, -, hsign⟩ := splitFrom_sign t.sign_ne_absent hq (t.stem ++ ts.flatMap text)
    obtain ⟨r', hr', hstem⟩ := t.splitFrom_stem (some r) (ts.flatMap text)
    rw [htext, hsign, hstem, ih hr', List.append_nil]
    rfl

end BracketedTerm

open BracketedTerm (text head component group sign)

section

variable {convention : Convention}

/-- The text of a field that starts with the term `t`. -/
def fieldText (t : BracketedTerm convention) (ts : List (BracketedTerm convention)) : List Char :=
  t.head ++ ts.flatMap text

theorem splitFrom_fieldText (t : BracketedTerm convention) (ts : List (BracketedTerm convention)) :
    splitFrom 0 none (fieldText t ts) = (t.head, ts.map head) := by
  obtain ⟨r, -, hhead⟩ := splitFrom_head t.sign.kept (t.stem ++ ts.flatMap text)
  obtain ⟨q, hq, hstem⟩ := t.splitFrom_stem r (ts.flatMap text)
  have htext : fieldText t ts = t.sign.kept.chars ++ (t.stem ++ ts.flatMap text) :=
    List.append_assoc ..
  rw [htext, hhead, hstem, BracketedTerm.splitFrom_texts ts hq, List.append_nil]
  rfl

/-! ### Gathering -/

theorem isLetter_dot : Text.isLetter '·' = false := by
  rw [Text.isLetter, Text.inRanges_eq_any, Text.inRanges_eq_any]
  decide +kernel

theorem startsToken_component (t : BracketedTerm convention) :
    startsToken (t.component ++ t.link.chars) = true := by
  cases t.link with
  | nothing =>
    rw [Link.chars, List.append_nil, component, group, ← List.append_assoc]
    exact startsToken_concat (by decide) (by decide +kernel) (by decide) (by decide) _
  | star => exact startsToken_star _
  | dot => exact startsToken_concat isLetter_dot (by decide +kernel) (by decide) (by decide) _

theorem getLast?_component (t : BracketedTerm convention) :
    (t.component ++ t.link.chars).getLast? = t.link.chars.getLast?.or (some ')') := by
  rw [List.getLast?_append, component, group, ← List.append_assoc, List.getLast?_concat]

/-- The link goes, and the brackets keep all else as it is. -/
theorem coefficient_component (t : BracketedTerm convention) :
    coefficient (t.component ++ t.link.chars) = t.component := by
  have htrim : Text.trim (t.component ++ t.link.chars) = t.component ++ t.link.chars := by
    refine Text.trim_eq_self ?_ ?_
    · cases h : t.isNegative <;> simp [component, group, sign, h, Sign.kept, Sign.chars] <;> decide
    · rw [getLast?_component]
      cases t.link <;>
      · intro c hc
        obtain rfl := Option.some.inj hc
        decide
  have hopening : '(' ∈ Text.trim (t.component ++ t.link.chars) := by
    rw [htrim]
    simp [component, group]
  rw [coefficient_of_mem hopening (by decide) (by decide), htrim, getLast?_component]
  cases t.link with
  | nothing => exact List.append_nil _
  | star | dot => exact List.dropLast_concat

theorem assignment?_head (t : BracketedTerm convention) :
    assignment? convention t.head = some (t.axis, t.component) := by
  rw [assignment?, t.head_eq, t.marks.splitTerm? (startsToken_component t)]
  simp only [Option.map_some, coefficient_component]

/-- The component of the last term that has an axis. -/
def lastOn (axis : Axis) (ts : List (BracketedTerm convention)) : Option (List Char) :=
  (ts.filter (·.axis = axis)).getLast?.map component

/-- The terms whose axis has been set before, by one of `seen` or by a term in front. -/
def repeated (seen : List Axis) : List (BracketedTerm convention) → List (BracketedTerm convention)
  | [] => []
  | t :: ts => if t.axis ∈ seen then t :: repeated (t.axis :: seen) ts else repeated (t.axis :: seen) ts

/-- The assignment that a term makes. -/
def assigned (t : BracketedTerm convention) : Axis × List Char :=
  (t.axis, t.component)

/-- The term as what it is reported for. -/
def repetition (t : BracketedTerm convention) : Repetition :=
  ⟨t.axis, t.component⟩

theorem lastOn_eq (axis : Axis) (ts : List (BracketedTerm convention)) :
    lastOn axis ts = lastAssigned axis (ts.map assigned) := by
  rw [lastAssigned, List.filter_map, List.getLast?_map, Option.map_map]
  rfl

theorem repeated_eq (seen : List Axis) (ts : List (BracketedTerm convention)) :
    (repeated seen ts).map repetition = reassigned seen (ts.map assigned) := by
  induction ts generalizing seen with
  | nil => rfl
  | cons t ts ih =>
    rw [repeated, List.map_cons, assigned, reassigned, ← ih]
    split <;> rfl

theorem lastOn_cons (axis : Axis) (t : BracketedTerm convention) (ts : List (BracketedTerm convention)) :
    lastOn axis (t :: ts) = (lastOn axis ts).or (if t.axis = axis then some t.component else none) := by
  rw [lastOn_eq, lastOn_eq, List.map_cons, assigned, lastAssigned_cons]

theorem foldl_add_heads (ts : List (BracketedTerm convention)) {g : Gathered} {seen : List Axis}
    (hseen : ∀ axis, axis ∈ seen ↔ (g.components.get axis).isSome) :
    (∀ axis, ((ts.map head).foldl (Gathered.add convention) g).components.get axis =
      (lastOn axis ts).or (g.components.get axis)) ∧
    ((ts.map head).foldl (Gathered.add convention) g).repetitions =
      g.repetitions ++ (repeated seen ts).map repetition := by
  have hassigned : (ts.map head).filterMap (assignment? convention) = ts.map assigned := by
    have hheads : assignment? convention ∘ head = some ∘ assigned := funext assignment?_head
    rw [List.filterMap_map, hheads, List.filterMap_eq_map]
  rw [foldl_add, hassigned, repeated_eq]
  simp only [lastOn_eq]
  exact foldl_assign (ts.map assigned) hseen

/-! ### Decomposing -/

theorem BracketedTerm.space_not_mem_stem (t : BracketedTerm convention) : ' ' ∉ t.stem := by
  have hwritten : ' ' ∉ t.written := by
    intro hmem
    have hlower : lowerChar ' ' ∈ convention.marker t.axis := t.marks ▸ List.mem_map_of_mem hmem
    cases convention <;> cases haxis : t.axis <;> rw [haxis] at hlower <;> exact absurd hlower (by decide)
  have hlink : ' ' ∉ t.link.chars := by cases t.link <;> decide
  simp [stem, group, t.spaceless, hwritten, hlink]

theorem filter_fieldText (t : BracketedTerm convention) (ts : List (BracketedTerm convention)) :
    (fieldText t ts).filter (· ≠ ' ') = fieldText t ts := by
  have hsign : ∀ s : Sign, ' ' ∉ s.chars := by intro s; cases s <;> decide
  have hmem : ' ' ∉ fieldText t ts := by
    simp [fieldText, head, text, hsign, BracketedTerm.space_not_mem_stem]
  rw [List.filter_eq_self]
  intro c hc
  exact decide_eq_true fun h => hmem (h ▸ hc)

/-- A field ends with the marker of its last term, behind a bracket or a product sign. -/
theorem fieldText_eq (t : BracketedTerm convention) (ts : List (BracketedTerm convention)) :
    ∃ (u : BracketedTerm convention) (x : List Char) (c : Char),
      (c = ')' ∨ c = '*' ∨ c = '·') ∧ fieldText t ts = x ++ c :: u.written := by
  have hlast : ∃ (x : List Char) (u : BracketedTerm convention), fieldText t ts = x ++ u.stem := by
    rcases List.eq_nil_or_concat ts with rfl | ⟨ts, u, rfl⟩
    · exact ⟨t.sign.kept.chars, t, List.append_nil _⟩
    · exact ⟨t.head ++ ts.flatMap text ++ u.sign.chars, u, by simp [fieldText, text]⟩
  obtain ⟨x, u, hx⟩ := hlast
  rw [hx, BracketedTerm.stem, group]
  cases u.link with
  | nothing => exact ⟨u, x ++ '(' :: u.body, ')', .inl rfl, by simp [Link.chars]⟩
  | star => exact ⟨u, x ++ ('(' :: u.body ++ [')']), '*', .inr (.inl rfl), by simp [Link.chars]⟩
  | dot => exact ⟨u, x ++ ('(' :: u.body ++ [')']), '·', .inr (.inr rfl), by simp [Link.chars]⟩

theorem mentionsMarker_fieldText (t : BracketedTerm convention) (ts : List (BracketedTerm convention)) :
    mentionsMarker convention false ((fieldText t ts).map lowerChar) = true := by
  obtain ⟨u, x, c, hc, hx⟩ := fieldText_eq t ts
  rw [hx]
  refine u.marks.mentionsMarker ?_ x false
  rcases hc with rfl | rfl | rfl <;> decide

theorem decompose_fieldText (t : BracketedTerm convention) (ts : List (BracketedTerm convention)) :
    ∃ f, decompose convention (fieldText t ts) = (some f, (repeated [] (t :: ts)).map repetition) ∧
      ∀ axis, f.get axis = lastOn axis (t :: ts) := by
  have hnone : ∀ axis, Components.none.get axis = none := by
    intro axis
    cases axis <;> rfl
  have hseen : ∀ axis, axis ∈ [] ↔ (Components.none.get axis).isSome := by simp [hnone]
  have hgather : gather convention ((fieldText t ts).filter (· ≠ ' ')) =
      ((t :: ts).map head).foldl (Gathered.add convention) ⟨.none, []⟩ := by
    rw [filter_fieldText, gather_eq_foldl, splitFrom_fieldText]
    rfl
  obtain ⟨hcomponents, hrepetitions⟩ := foldl_add_heads (t :: ts) (g := ⟨.none, []⟩) hseen
  rw [← hgather] at hcomponents hrepetitions
  have hlast : ∀ axis, (gather convention ((fieldText t ts).filter (· ≠ ' '))).components.get axis =
      lastOn axis (t :: ts) := by
    intro axis
    rw [hcomponents, hnone, Option.or_none]
  have hset : ∃ x, lastOn t.axis (t :: ts) = some x := by
    rw [lastOn_cons, if_pos rfl]
    cases lastOn t.axis ts <;> exact ⟨_, rfl⟩
  obtain ⟨x, hx⟩ := hset
  have hmentions : mentionsMarker convention false
      (((fieldText t ts).filter (· ≠ ' ')).map lowerChar) = true := by
    rw [filter_fieldText]
    exact mentionsMarker_fieldText t ts
  have hgathered : gather convention ((fieldText t ts).filter (· ≠ ' ')) =
      ⟨_, (repeated [] (t :: ts)).map repetition⟩ := congrArg (Gathered.mk _) hrepetitions
  exact ⟨_, decompose_of_gather hmentions hgathered ((hlast t.axis).trans hx), hlast⟩

/-! ### Reporting -/

/-- A warning that the text sets a component again, with the component and what it is set to now. -/
structure Warns (text : List Char) (axis : Axis) (kept : List Char) (entry : Entry) : Prop where
  level : levelName entry.level = "WARNING"
  source : entry.source = "calcplot.vector_field"
  message : entry.message = "Vector field " ++ Text.quoted (String.ofList text) ++ " sets the " ++ axis.name ++
    " component twice; keeping " ++ Text.quoted (String.ofList kept)

theorem Repetition.entry_warns (text : List Char) (r : Repetition) : Warns text r.axis r.kept (r.entry text) :=
  ⟨rfl, rfl, rfl⟩

theorem entries_warn (text : List Char) (ts : List (BracketedTerm convention)) :
    List.Forall₂ (fun t => Warns text t.axis t.component) ts ((ts.map repetition).map (Repetition.entry text)) := by
  induction ts with
  | nil => exact .nil
  | cons t ts ih => exact .cons (Repetition.entry_warns text (repetition t)) ih

/-- A field of bracketed terms is read back: each axis has the component of its last term. What is reported is one
warning for each term whose axis has been set before, in the order of the terms. -/
theorem parse_fieldText (t : BracketedTerm convention) (ts : List (BracketedTerm convention)) :
    ∃ f entries, parse convention (fieldText t ts) = (some f, entries) ∧
      (∀ axis, f.get axis = lastOn axis (t :: ts)) ∧
      List.Forall₂ (fun again => Warns (fieldText t ts) again.axis again.component) (repeated [] (t :: ts))
        entries := by
  obtain ⟨f, hdecompose, hf⟩ := decompose_fieldText t ts
  exact ⟨f, _, by rw [parse, hdecompose], hf, entries_warn _ _⟩

end

example : decompose .ijk "(x-y*i)*i-(2)J+(z)*I".toList =
    (some ⟨some "(z)".toList, some "-(2)".toList, none⟩, [⟨.x, "(z)".toList⟩]) := by
  decide +kernel

end FieldPlot.Vectors
