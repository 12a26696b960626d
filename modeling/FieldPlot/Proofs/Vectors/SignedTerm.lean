import FieldPlot.Proofs.Expression.Leading
import FieldPlot.Proofs.Vectors.Uncut

/-! A unit vector term with a sign in front. Its coefficient may have a sign of its own, and is not cut
behind that. -/

namespace FieldPlot.Expression

namespace Sign

def chars : Sign → List Char
  | absent => []
  | plus => ['+']
  | minus => ['-']

/-- What is kept of a sign where a term starts: a plus is dropped. -/
def kept : Sign → Sign
  | minus => minus
  | _ => absent

theorem apply_kept (s : Sign) (a : Tree Numeral) : s.kept.apply a = s.apply a := by
  cases s <;> rfl

end Sign

theorem lexemes_sign_append (s : Sign) (v : List Char) :
    lexemes (s.chars ++ v) = s.lexemes ++ lexemes v := by
  cases s with
  | absent => rfl
  | plus | minus => exact lexemes_cons_mark rfl

theorem nesting_sign_append (s : Sign) (w : List Lexeme) : nesting (s.lexemes ++ w) = nesting w := by
  cases s <;> rfl

def ownSign : List Char → Sign
  | '+' :: _ => .plus
  | '-' :: _ => .minus
  | _ => .absent

/-- A text without the sign that it starts with. -/
def unsigned : List Char → List Char
  | '+' :: s => s
  | '-' :: s => s
  | s => s

theorem ownSign_append_unsigned (s : List Char) : (ownSign s).chars ++ unsigned s = s := by
  unfold ownSign unsigned
  split <;> rfl

end FieldPlot.Expression

namespace FieldPlot.Vectors

open Expression

theorem isSignChar_head_of_absent {s : List Char} (h : ownSign s = .absent) :
    ∀ c ∈ s.head?, isSignChar c = false := by
  intro c hc
  cases s with
  | nil => cases hc
  | cons d s =>
    cases hc
    by_contra hsign
    simp only [isSignChar, Bool.not_eq_false, Bool.or_eq_true, decide_eq_true_eq] at hsign
    rcases hsign with rfl | rfl <;> cases h

/-- Without a loose sign, a text that starts with no sign has none in front of its lexemes. -/
theorem lexemes_head_unsigned {s : List Char} {p : Option Char}
    (hloose : hasLooseSign 0 p s = false) (hs : ∀ c ∈ s.head?, isSignChar c = false) :
    (lexemes s).head? ≠ some (.mark .minus) ∧ (lexemes s).head? ≠ some (.mark .plus) := by
  induction s generalizing p with
  | nil => simp [lexemes_nil]
  | cons c s ih =>
    have hc := hs c rfl
    rw [hasLooseSign, Bool.or_eq_false_iff] at hloose
    cases hm : Mark.ofChar? c with
    | some m =>
      obtain rfl := eq_char_of_ofChar? hm
      rw [lexemes_cons_mark hm]
      cases m <;> simp_all [isSignChar, Mark.char]
    | none =>
      cases hn : isNumberChar c with
      | true => simp [lexemes_cons_number hm hn]
      | false =>
        cases ha : c.isAlpha with
        | true => simp [lexemes_cons_name hm hn ha]
        | false =>
          have hmarks : ∀ d ∈ [c], Mark.ofChar? d = none := by simpa using hm
          have hdepth : depthAfter 0 c = 0 := (uncut_run hmarks 0 none).2
          rw [lexemes_cons_skip hm hn ha]
          rw [hdepth] at hloose
          refine ih hloose.2 fun d hd => ?_
          obtain ⟨s, rfl⟩ := List.head?_eq_some_iff.mp hd
          rw [hasLooseSign, Bool.or_eq_false_iff] at hloose
          simpa [isPassedOver, hm, hn, ha] using hloose.2.1

/-- A unit vector with a sign and a coefficient, which is a term of the grammar. -/
structure SignedTerm where
  isNegative : Bool
  coefficient : List Char
  tree : Expression.Tree Numeral
  axis : Axis
  derives : Derives .term (lexemes coefficient) tree
  tight : hasLooseSign 0 none coefficient = false

namespace SignedTerm

def sign (t : SignedTerm) : Sign :=
  if t.isNegative then .minus else .plus

def own (t : SignedTerm) : Sign :=
  ownSign t.coefficient

def body (t : SignedTerm) : List Char :=
  unsigned t.coefficient

/-- The sign that the first operand is read with: the own one hides the one in front. -/
def effective (t : SignedTerm) : Sign :=
  if t.own = .absent then t.sign else t.own

/-- The coefficient without its sign, and the marker. -/
def stem (convention : Convention) (t : SignedTerm) : List Char :=
  t.body ++ '*' :: convention.marker t.axis

def text (convention : Convention) (t : SignedTerm) : List Char :=
  t.sign.chars ++ t.coefficient ++ '*' :: convention.marker t.axis

theorem sign_ne_absent (t : SignedTerm) : t.sign ≠ .absent := by
  cases h : t.isNegative <;> simp [sign, h]

theorem coefficient_eq (t : SignedTerm) : t.coefficient = t.own.chars ++ t.body :=
  (ownSign_append_unsigned t.coefficient).symm

theorem lexemes_eq (t : SignedTerm) : lexemes t.coefficient = t.own.lexemes ++ lexemes t.body := by
  rw [← lexemes_sign_append, ← coefficient_eq]

theorem leads (t : SignedTerm) : ∃ a r, Leads (lexemes t.coefficient) t.own a r ∧
    t.tree = r.around (t.own.apply a) := by
  obtain ⟨s, a, r, hleads, htree⟩ := t.derives.leads
  obtain ⟨hplus, hminus⟩ := hleads.head_iff
  have hown : t.own = s := by
    cases hown : t.own with
    | plus =>
      rw [lexemes_eq, hown] at hplus
      exact (hplus.mp rfl).symm
    | minus =>
      rw [lexemes_eq, hown] at hminus
      exact (hminus.mp rfl).symm
    | absent =>
      obtain ⟨hminus', hplus'⟩ := lexemes_head_unsigned t.tight (isSignChar_head_of_absent hown)
      cases s with
      | absent => rfl
      | plus => exact absurd (hplus.mpr rfl) hplus'
      | minus => exact absurd (hminus.mpr rfl) hminus'
  rw [hown]
  exact ⟨a, r, hleads, htree⟩

theorem isSignChar_head_body (t : SignedTerm) : ∀ c ∈ t.body.head?, isSignChar c = false := by
  obtain ⟨a, r, hleads, -⟩ := t.leads
  rw [lexemes_eq] at hleads
  obtain ⟨hminus, hplus⟩ := hleads.rest_head
  intro c hc
  obtain ⟨s, hs⟩ := List.head?_eq_some_iff.mp hc
  rw [hs] at hminus hplus
  by_contra hsign
  simp only [isSignChar, Bool.not_eq_false, Bool.or_eq_true, decide_eq_true_eq] at hsign
  rcases hsign with rfl | rfl
  · exact hplus (congrArg List.head? (lexemes_cons_mark rfl))
  · exact hminus (congrArg List.head? (lexemes_cons_mark rfl))

/-- Behind its sign a coefficient is not cut, whatever it follows. -/
theorem body_uncut (t : SignedTerm) (p : Option Char) :
    Uncut 0 p t.body ∧ t.body.foldl depthAfter 0 = 0 := by
  have hwhole := term_uncut t.derives t.tight
  rw [coefficient_eq] at hwhole
  suffices h : ∃ q, Uncut 0 q t.body ∧ t.body.foldl depthAfter 0 = 0 by
    obtain ⟨q, huncut, hdepth⟩ := h
    exact ⟨huncut.of_unsigned t.isSignChar_head_body p, hdepth⟩
  cases hown : t.own with
  | absent =>
    rw [hown] at hwhole
    exact ⟨none, hwhole⟩
  | plus | minus =>
    rw [hown] at hwhole
    exact ⟨_, hwhole.1.2, hwhole.2⟩

end SignedTerm

end FieldPlot.Vectors
