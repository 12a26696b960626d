import FieldPlot.Proofs.Expression.Completeness

/-! The first operand of a term with the sign in front of it, and the tail behind it. The sign can be
exchanged without touching the rest, so a sign before a term is one before its first operand. -/

namespace FieldPlot.Expression

inductive Sign
  | absent | plus | minus
deriving DecidableEq

namespace Sign

def lexemes : Sign → List Lexeme
  | absent => []
  | plus => [.mark .plus]
  | minus => [.mark .minus]

def apply : Sign → Tree Numeral → Tree Numeral
  | minus, a => .negate a
  | _, a => a

end Sign

/-- What stands behind the first operand of a term: its exponent and the further factors. -/
structure Tail where
  exponent : Option (Tree Numeral)
  factors : List (Binary × Tree Numeral)

def Tail.around (t : Tail) (a : Tree Numeral) : Tree Numeral :=
  t.factors.foldl (fun a f => .binary f.1 a f.2) (t.exponent.elim a (.binary .pow a))

inductive Tail.Derived : List Lexeme → Tail → Prop
  | bare : Derived [] ⟨none, []⟩
  | raised {v : List Lexeme} {b : Tree Numeral} (h : Derives .signed v b) :
    Derived (.mark .power :: v) ⟨some b, []⟩
  | factor {r v : List Lexeme} {t : Tail} {b : Tree Numeral} {m : Mark} {op : Binary}
    (hop : Binary.ofProductMark? m = some op) (h : Derived r t) (h' : Derives .power v b) :
    Derived (r ++ .mark m :: v) ⟨t.exponent, t.factors ++ [(op, b)]⟩

/-- A term is read as a signed operand and a tail. -/
def Leads (w : List Lexeme) (s : Sign) (a : Tree Numeral) (t : Tail) : Prop :=
  ∃ u r, w = s.lexemes ++ u ++ r ∧ Derives .operand u a ∧ Tail.Derived r t

section

variable {w v : List Lexeme} {a b : Tree Numeral} {s : Sign} {t : Tail}

theorem Derives.signed_iff : Derives .signed w a ↔
    ∃ (s : Sign) (u : List Lexeme) (b : Tree Numeral),
      w = s.lexemes ++ u ∧ Derives .operand u b ∧ a = s.apply b := by
  constructor
  · intro h
    cases h with
    | unsigned h => exact ⟨.absent, _, _, rfl, h, rfl⟩
    | plus h => exact ⟨.plus, _, _, rfl, h, rfl⟩
    | minus h => exact ⟨.minus, _, _, rfl, h, rfl⟩
  · rintro ⟨s, u, b, rfl, h, rfl⟩
    cases s with
    | absent => exact .unsigned h
    | plus => exact .plus h
    | minus => exact .minus h

theorem Derives.power_leads (h : Derives .power w a) :
    ∃ s b t, Leads w s b t ∧ a = t.around (s.apply b) := by
  cases h with
  | base h =>
    obtain ⟨s, u, b, rfl, hu, rfl⟩ := Derives.signed_iff.mp h
    exact ⟨s, b, _, ⟨u, [], (List.append_nil _).symm, hu, .bare⟩, rfl⟩
  | raised h h' =>
    obtain ⟨s, u, b, rfl, hu, rfl⟩ := Derives.signed_iff.mp h
    exact ⟨s, b, _, ⟨u, _, rfl, hu, .raised h'⟩, rfl⟩

theorem Tail.around_factor (t : Tail) (op : Binary) (a b : Tree Numeral) :
    Tail.around ⟨t.exponent, t.factors ++ [(op, b)]⟩ a = .binary op (t.around a) b := by
  simp only [Tail.around, List.foldl_append, List.foldl_cons, List.foldl_nil]

theorem Derives.leads (h : Derives .term w a) :
    ∃ s b t, Leads w s b t ∧ a = t.around (s.apply b) := by
  generalize hk : Phrase.term = k at h
  induction h with
  | factor h => exact h.power_leads
  | product hop _ h' ih =>
    obtain ⟨s, b, t, ⟨u, r, rfl, hu, hr⟩, rfl⟩ := ih rfl
    refine ⟨s, b, _, ⟨u, _, ?_, hu, .factor hop hr h'⟩, (t.around_factor ..).symm⟩
    rw [← List.append_assoc]
  | _ => cases hk

theorem Leads.derives (h : Leads w s a t) : Derives .term w (t.around (s.apply a)) := by
  obtain ⟨u, r, rfl, hu, hr⟩ := h
  have hs : Derives .signed (s.lexemes ++ u) (s.apply a) :=
    Derives.signed_iff.mpr ⟨s, u, a, rfl, hu, rfl⟩
  induction hr with
  | bare =>
    rw [List.append_nil]
    exact .factor (.base hs)
  | raised h => exact .factor (.raised hs h)
  | factor hop _ h' ih =>
    rw [← List.append_assoc, Tail.around_factor]
    exact .product hop ih h'

theorem Leads.exchange (h : Leads (s.lexemes ++ v) s a t) (s' : Sign) :
    Leads (s'.lexemes ++ v) s' a t := by
  obtain ⟨u, r, heq, hu, hr⟩ := h
  rw [List.append_assoc] at heq
  rw [List.append_cancel_left heq]
  exact ⟨u, r, (List.append_assoc ..).symm, hu, hr⟩

theorem Leads.head_iff (h : Leads w s a t) :
    (w.head? = some (.mark .plus) ↔ s = .plus) ∧ (w.head? = some (.mark .minus) ↔ s = .minus) := by
  obtain ⟨u, r, rfl, hu, -⟩ := h
  obtain ⟨hne, hminus, hplus⟩ := hu.operand_head
  obtain ⟨l, u, rfl⟩ := List.exists_cons_of_ne_nil hne
  cases s <;> simp_all [Sign.lexemes]

/-- Behind its sign a term starts without one. -/
theorem Leads.rest_head (h : Leads (s.lexemes ++ v) s a t) :
    v.head? ≠ some (.mark .minus) ∧ v.head? ≠ some (.mark .plus) := by
  have hhead := (h.exchange .absent).head_iff
  exact ⟨fun hv => absurd (hhead.2.mp hv) (by decide),
    fun hv => absurd (hhead.1.mp hv) (by decide)⟩

theorem Leads.bare_of_singleton {l : Lexeme} (h : Leads [l] s a t) : t.exponent = none := by
  obtain ⟨u, r, heq, hu, hr⟩ := h
  obtain ⟨k, u, rfl⟩ := List.exists_cons_of_ne_nil hu.operand_head.1
  have hlength := congrArg List.length heq
  cases hr with
  | bare => rfl
  | raised | factor =>
    simp only [List.length_append, List.length_cons, List.length_nil] at hlength
    omega

end

section

variable {α : Type} [Arithmetic α]

def Tree.value (p : Point α) (a : Tree Numeral) : α :=
  (a.map Arithmetic.numeral).eval p

/-- A sign passes through products and quotients. -/
structure SignedFactors (α : Type) [Arithmetic α] : Prop where
  mul_neg (a b : α) :
    Arithmetic.mul (Arithmetic.neg a) b = Arithmetic.neg (Arithmetic.mul a b)
  div_neg (a b : α) :
    Arithmetic.div (Arithmetic.neg a) b = Arithmetic.neg (Arithmetic.div a b)

theorem Tail.Derived.value_around_negate {r : List Lexeme} {t : Tail} (h : Tail.Derived r t)
    (hsign : SignedFactors α) (hbare : t.exponent = none) (p : Point α) (a : Tree Numeral) :
    (t.around (.negate a)).value p = Arithmetic.neg ((t.around a).value p) := by
  induction h with
  | bare => rfl
  | raised => cases hbare
  | @factor _ _ t b _ op hop _ _ ih =>
    have hleft := ih hbare
    rw [Tail.around_factor, Tail.around_factor]
    simp only [Tree.value, Tree.map, Tree.eval] at hleft ⊢
    rw [hleft]
    rcases mark_of_product hop with rfl | rfl
    · cases hop
      exact hsign.mul_neg _ _
    · cases hop
      exact hsign.div_neg _ _

end

end FieldPlot.Expression
