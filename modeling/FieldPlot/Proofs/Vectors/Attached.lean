import FieldPlot.Proofs.Expression.Grammar
import FieldPlot.Vectors.Decomposition

/-! Signs inside of a term of the grammar. Outside of brackets, each stands at the head of the term or
behind a sign of a product or power, so it belongs to the operand behind it. -/

namespace FieldPlot.Vectors

open Expression

def depthBehind (depth : Int) : Lexeme → Int
  | .mark m => depthAfter depth m.char
  | _ => depth

/-- Whether a sign behind `previous` belongs to its operand. -/
def HoldsSign : Option Lexeme → Prop
  | none => True
  | some (.mark m) => keepsSign m.char = true
  | some _ => False

def isSignLexeme (l : Lexeme) : Prop :=
  l = .mark .plus ∨ l = .mark .minus

/-- Every sign outside of brackets belongs to the operand behind it. -/
def Attached (depth : Int) (previous : Option Lexeme) : List Lexeme → Prop
  | [] => True
  | l :: w => (isSignLexeme l → depth = 0 → HoldsSign previous) ∧
    Attached (depthBehind depth l) (some l) w

section

variable {depth : Int} {previous : Option Lexeme} {w v : List Lexeme} {m : Mark}

theorem Attached.join (h : Attached depth previous w)
    (hm : isSignLexeme (.mark m) → w.foldl depthBehind depth ≠ 0)
    (h' : Attached (depthBehind (w.foldl depthBehind depth) (.mark m)) (some (.mark m)) v) :
    Attached depth previous (w ++ .mark m :: v) := by
  induction w generalizing depth previous with
  | nil => exact ⟨fun hsign hd => absurd hd (hm hsign), h'⟩
  | cons l w ih => exact ⟨h.1, ih h.2 hm h'⟩

theorem Attached.of_unsigned (h : Attached depth previous w)
    (hw : w.head? ≠ some (.mark .minus) ∧ w.head? ≠ some (.mark .plus)) (p : Option Lexeme) :
    Attached depth p w := by
  cases w with
  | nil => trivial
  | cons l w =>
    refine ⟨?_, h.2⟩
    rintro (rfl | rfl)
    · exact absurd rfl hw.2
    · exact absurd rfl hw.1

/-- A phrase whose brackets are closed and whose signs are all attached. -/
def Whole (depth : Int) (previous : Option Lexeme) (w : List Lexeme) : Prop :=
  Attached depth previous w ∧ w.foldl depthBehind depth = depth

theorem Whole.join (h : Whole depth previous w) (hm : isSignLexeme (.mark m) → depth ≠ 0)
    (hdepth : depthBehind depth (.mark m) = depth) (h' : Whole depth (some (.mark m)) v) :
    Whole depth previous (w ++ .mark m :: v) := by
  refine ⟨h.1.join (by rwa [h.2]) ?_, ?_⟩
  · rw [h.2, hdepth]
    exact h'.1
  · rw [List.foldl_append, List.foldl_cons, h.2, hdepth, h'.2]

theorem Whole.bracket (h : Whole (depth + 1) (some (.mark .opening)) w) :
    Whole depth previous (.mark .opening :: w ++ [.mark .closing]) := by
  have hopening : depthBehind depth (.mark .opening) = depth + 1 := rfl
  have hclosing : depthBehind (depth + 1) (.mark .closing) = depth := Int.add_sub_cancel depth 1
  refine ⟨⟨?_, ?_⟩, ?_⟩
  · rintro (h | h) <;> cases h
  · rw [hopening]
    refine h.1.join ?_ trivial
    rintro (h | h) <;> cases h
  · rw [List.cons_append, List.foldl_cons, hopening, List.foldl_append, h.2, List.foldl_cons, hclosing]
    rfl

theorem Whole.cons {l : Lexeme} (hl : isSignLexeme l → depth = 0 → HoldsSign previous)
    (hdepth : depthBehind depth l = depth) (h : Whole depth (some l) w) :
    Whole depth previous (l :: w) := by
  refine ⟨⟨hl, ?_⟩, ?_⟩
  · rw [hdepth]
    exact h.1
  · rw [List.foldl_cons, hdepth, h.2]

theorem Whole.nil (depth : Int) (previous : Option Lexeme) : Whole depth previous [] :=
  ⟨trivial, rfl⟩

end

theorem not_isSignLexeme_name {s : List Char} : ¬isSignLexeme (.name s) := by
  rintro (h | h) <;> cases h

theorem not_isSignLexeme_number {s : List Char} : ¬isSignLexeme (.number s) := by
  rintro (h | h) <;> cases h

theorem holdsSign_of_product {m : Mark} {op : Binary} (h : Binary.ofProductMark? m = some op) :
    HoldsSign (some (.mark m)) := by
  rcases mark_of_product h with rfl | rfl <;> rfl

/-- Whether a phrase keeps its signs at a depth behind a lexeme. -/
def Admits (k : Phrase) (depth : Int) (previous : Option Lexeme) : Prop :=
  depth = 0 → k = .operand ∨ (k ≠ .sum ∧ HoldsSign previous)

theorem Admits.of_ne_zero {k : Phrase} {depth : Int} {previous : Option Lexeme} (h : depth ≠ 0) :
    Admits k depth previous :=
  fun h0 => absurd h0 h

theorem Admits.mono {k k' : Phrase} {depth : Int} {previous : Option Lexeme}
    (h : Admits k depth previous) (hk : k ≠ .operand) (hk' : k' ≠ .sum) : Admits k' depth previous :=
  fun h0 => .inr ⟨hk', ((h h0).resolve_left hk).2⟩

/-- Brackets lift a phrase above the depth where signs matter, and close again behind it. -/
theorem whole_of_derives {k : Phrase} {w : List Lexeme} {a : Expression.Tree Numeral}
    (h : Derives k w a) {depth : Int} (hd : 0 ≤ depth) {previous : Option Lexeme}
    (hp : Admits k depth previous) : Whole depth previous w := by
  have hinside : ∀ {d : Int}, 0 ≤ d → 0 ≤ d + 1 ∧ d + 1 ≠ 0 := by omega
  induction h generalizing depth previous with
  | number => exact .cons (fun h => absurd h not_isSignLexeme_number) rfl (.nil ..)
  | name => exact .cons (fun h => absurd h not_isSignLexeme_name) rfl (.nil ..)
  | group _ ih =>
    obtain ⟨hin, hne⟩ := hinside hd
    exact .bracket (ih hin (.of_ne_zero hne))
  | call _ _ ih =>
    obtain ⟨hin, hne⟩ := hinside hd
    exact .cons (fun h => absurd h not_isSignLexeme_name) rfl (.bracket (ih hin (.of_ne_zero hne)))
  | callTwo _ _ _ ih ih' =>
    obtain ⟨hin, hne⟩ := hinside hd
    refine .cons (fun h => absurd h not_isSignLexeme_name) rfl (.bracket ?_)
    exact .join (ih hin (.of_ne_zero hne)) (fun _ => hne) rfl (ih' hin (.of_ne_zero hne))
  | unsigned _ ih => exact ih hd fun _ => .inl rfl
  | plus _ ih | minus _ ih =>
    exact .cons (fun _ h0 => ((hp h0).resolve_left (by decide)).2) rfl (ih hd fun _ => .inl rfl)
  | base _ ih | factor _ ih => exact ih hd (hp.mono (by decide) (by decide))
  | raised _ _ ih ih' =>
    refine .join (ih hd (hp.mono (by decide) (by decide))) (fun h => ?_) rfl
      (ih' hd fun _ => .inr ⟨by decide, rfl⟩)
    rcases h with h | h <;> cases h
  | product hop _ _ ih ih' =>
    refine .join (ih hd (hp.mono (by decide) (by decide))) (fun h => ?_) ?_
      (ih' hd fun _ => .inr ⟨by decide, holdsSign_of_product hop⟩)
    · rcases mark_of_product hop with rfl | rfl <;> rcases h with h | h <;> cases h
    · rcases mark_of_product hop with rfl | rfl <;> rfl
  | summand _ ih =>
    have hne : depth ≠ 0 := fun h0 => ((hp h0).resolve_left (by decide)).1 rfl
    exact ih hd (.of_ne_zero hne)
  | sum hop _ _ ih ih' =>
    have hne : depth ≠ 0 := fun h0 => ((hp h0).resolve_left (by decide)).1 rfl
    refine .join (ih hd (.of_ne_zero hne)) (fun _ => hne) ?_ (ih' hd (.of_ne_zero hne))
    rcases mark_of_sum hop with rfl | rfl <;> rfl

end FieldPlot.Vectors
