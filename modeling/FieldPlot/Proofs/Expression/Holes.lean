import FieldPlot.Proofs.Expression.Enclosed
import FieldPlot.Proofs.Expression.Rules

/-! A closing bracket where an operand is missing. It is taken in place of the operand, so the tokens are read as
if a 0 stood there and the bracket were not written at all. -/

namespace FieldPlot.Expression

/-- `us` with a closing bracket in place of a 0 behind an operator, at one place at most. -/
inductive Holed : List Token → List Token → Prop
  | same {ts us : List Token} (h : ts.map Token.lexeme = us.map Token.lexeme) : Holed ts us
  | hole {i i' j j' : Nat} {m : Mark} {ts us : List Token} (hm : m.isOperator = true)
    (h : ts.map Token.lexeme = us.map Token.lexeme) :
    Holed (⟨.mark m, i⟩ :: ⟨.mark .closing, j⟩ :: ts) (⟨.mark m, i'⟩ :: ⟨.number ['0'], j'⟩ :: us)
  | cons {t u : Token} {ts us : List Token} (h : t.lexeme = u.lexeme) (hrest : Holed ts us) :
    Holed (t :: ts) (u :: us)

/-- The same for tokens that start with an operand: the 0 may be the first of them. -/
inductive HoledOperand : List Token → List Token → Prop
  | behind {ts us : List Token} (h : Holed ts us) : HoledOperand ts us
  | here {j j' : Nat} {ts us : List Token} (h : ts.map Token.lexeme = us.map Token.lexeme) :
    HoledOperand (⟨.mark .closing, j⟩ :: ts) (⟨.number ['0'], j'⟩ :: us)

namespace Holed

variable {ts us : List Token} {l : Lexeme} {i : Nat}

theorem of_lexemes {w x : List Lexeme} {m : Mark} (hm : m.isOperator = true)
    (hts : ts.map Token.lexeme = w ++ .mark m :: .mark .closing :: x)
    (hus : us.map Token.lexeme = w ++ .mark m :: .number ['0'] :: x) : Holed ts us := by
  induction w generalizing ts us with
  | nil =>
    obtain ⟨⟨_, i⟩, ts, rfl, rfl, hts'⟩ := List.map_eq_cons_iff.mp hts
    obtain ⟨⟨_, j⟩, ts, rfl, rfl, htail⟩ := List.map_eq_cons_iff.mp hts'
    obtain ⟨⟨_, i'⟩, us, rfl, rfl, hus'⟩ := List.map_eq_cons_iff.mp hus
    obtain ⟨⟨_, j'⟩, us, rfl, rfl, htail'⟩ := List.map_eq_cons_iff.mp hus'
    exact .hole hm (htail.trans htail'.symm)
  | cons l w ih =>
    obtain ⟨t, ts, rfl, ht, htail⟩ := List.map_eq_cons_iff.mp hts
    obtain ⟨u, us, rfl, hu, htail'⟩ := List.map_eq_cons_iff.mp hus
    exact .cons (ht.trans hu.symm) (ih htail htail')

theorem next (h : Holed ts (⟨l, i⟩ :: us)) : ∃ i' ts', ts = ⟨l, i'⟩ :: ts' ∧ HoledOperand ts' us := by
  cases h with
  | same h =>
    obtain ⟨⟨_, i'⟩, ts', rfl, rfl, htail⟩ := List.map_eq_cons_iff.mp h
    exact ⟨i', ts', rfl, .behind (.same htail)⟩
  | hole _ h => exact ⟨_, _, rfl, .here h⟩
  | @cons t _ _ _ h hrest =>
    obtain ⟨_, i'⟩ := t
    obtain rfl := h
    exact ⟨i', _, rfl, .behind hrest⟩

/-- Behind anything but an operator there is no 0 to be left out. -/
theorem skip (h : Holed ts (⟨l, i⟩ :: us)) (hl : ∀ m, l = .mark m → m.isOperator = false) :
    ∃ i' ts', ts = ⟨l, i'⟩ :: ts' ∧ Holed ts' us := by
  cases h with
  | same h =>
    obtain ⟨⟨_, i'⟩, ts', rfl, rfl, htail⟩ := List.map_eq_cons_iff.mp h
    exact ⟨i', ts', rfl, .same htail⟩
  | hole hm _ => exact absurd (hm.symm.trans (hl _ rfl)) (by decide)
  | @cons t _ _ _ h hrest =>
    obtain ⟨_, i'⟩ := t
    obtain rfl := h
    exact ⟨i', _, rfl, hrest⟩

theorem headMark?_eq (h : Holed ts us) : headMark? ts = headMark? us := by
  cases us with
  | nil =>
    cases h with
    | same h => rw [List.map_eq_nil_iff.mp h]
  | cons u us =>
    obtain ⟨l, i⟩ := u
    obtain ⟨i', ts', rfl, -⟩ := h.next
    exact headMark?_cons_congr (t := ⟨l, i'⟩) (u := ⟨l, i⟩) rfl ts' us

theorem done {op? : Mark → Option Binary} (h : Holed ts us) (hend : Done op? us) : Done op? ts := by
  rwa [Done, h.headMark?_eq]

theorem afterClosing (h : Holed ts us) : Holed (afterClosing ts) (afterClosing us) := by
  unfold Expression.afterClosing
  rw [h.headMark?_eq]
  split
  · rename_i hm
    obtain ⟨i, us, rfl⟩ := headMark?_eq_some.mp hm
    obtain ⟨i', ts, rfl, hrest⟩ := h.skip fun m hl => Lexeme.mark.inj hl ▸ rfl
    exact hrest
  · exact h

end Holed

namespace HoledOperand

variable {ts us : List Token}

theorem of_ne {l : Lexeme} {i : Nat} (h : HoledOperand ts (⟨l, i⟩ :: us)) (hl : l ≠ .number ['0']) :
    Holed ts (⟨l, i⟩ :: us) := by
  cases h with
  | behind h => exact h
  | here => exact absurd rfl hl

theorem headMark?_ne (h : HoledOperand ts us) {m : Mark} (hm : m ≠ .closing) (hne : headMark? us ≠ some m) :
    headMark? ts ≠ some m := by
  cases h with
  | behind h => rwa [h.headMark?_eq]
  | here => exact fun h => hm (Option.some.inj h).symm

end HoledOperand

/-! ### Reading on in place of the operand -/

/-- No issue tells of an operand that is missing in front of a token. -/
def NoneMissing (issues : List Issue) : Prop :=
  ∀ s i, Issue.missingBefore s i ∉ issues

theorem noneMissing_append {is is' : List Issue} : NoneMissing (is ++ is') ↔ NoneMissing is ∧ NoneMissing is' := by
  simp only [NoneMissing, List.mem_append, not_or, forall_and]

/-- `r` with the same tree, where a closing bracket may stand for an operand that is yet to come. -/
structure Reading.FilledBy (s r : Reading) : Prop where
  tree : s.tree = r.tree
  rest : Holed s.rest r.rest

namespace Reading.FilledBy

variable {s r s' r' : Reading}

theorem close (h : s.FilledBy r) (issue issue' : Issue) : (s.close issue).FilledBy (r.close issue') where
  tree := by rw [close_tree, close_tree, h.tree]
  rest := by
    rw [close_rest, close_rest]
    exact h.rest.afterClosing

theorem knownCall (h : s.FilledBy r) (f : Option Function) (name : List Char) (start start' : Nat)
    {tree tree' : Function → Tree Numeral} (htree : ∀ f, tree f = tree' f) :
    (s.knownCall f name start tree).FilledBy (r.knownCall f name start' tree') where
  tree := by cases f <;> simp [Reading.knownCall, htree]
  rest := by
    rw [knownCall_rest, knownCall_rest]
    exact h.rest

theorem join (h : s.FilledBy r) (h' : s'.FilledBy r') (op : Binary) : (s.join op s').FilledBy (r.join op r') where
  tree := by rw [Reading.join, Reading.join, h.tree, h'.tree]
  rest := h'.rest

theorem next {m : Mark} {i : Nat} {us : List Token} (h : s.FilledBy r) (hr : r.rest = ⟨.mark m, i⟩ :: us) :
    ∃ i' ts, s.rest = ⟨.mark m, i'⟩ :: ts ∧ HoledOperand ts us := by
  have hrest := h.rest
  rw [hr] at hrest
  exact hrest.next

end Reading.FilledBy

theorem NoneMissing.of_close {issue : Issue} {r : Reading} (h : NoneMissing (r.close issue).issues) :
    NoneMissing r.issues := by
  unfold Reading.close at h
  split at h
  · exact h
  · exact (noneMissing_append.mp h).1

theorem NoneMissing.of_knownCall {f : Option Function} {name : List Char} {start : Nat}
    {tree : Function → Tree Numeral} {r : Reading} (h : NoneMissing (r.knownCall f name start tree).issues) :
    NoneMissing r.issues := by
  cases f with
  | none => exact (noneMissing_append.mp h).1
  | some f => exact h

/-- With a closing bracket in place of a 0 the rules give the same tree, and leave what they left behind the 0. -/
theorem Takes.filled {n : Nat} {k : Phrase} {ts us : List Token} {r : Reading} (h : Takes n k us r)
    (hts : HoledOperand ts us) (hr : NoneMissing r.issues) : ∃ s, Takes n k ts s ∧ s.FilledBy r := by
  induction h generalizing ts with
  | missing =>
    cases hts with
    | behind h =>
      cases h with
      | same h =>
        obtain rfl := List.map_eq_nil_iff.mp h
        exact ⟨_, .missing, rfl, .same rfl⟩
  | stray => exact absurd List.mem_cons_self (hr _ _)
  | number hv =>
    cases hts with
    | behind h =>
      obtain ⟨_, _, rfl, hrest⟩ := h.skip fun _ hl => nomatch hl
      exact ⟨_, .number hv, rfl, hrest⟩
    | here h =>
      -- The bracket is the operand, and an operand that is missing is a 0.
      obtain rfl := Option.some.inj hv
      exact ⟨_, .stray (by decide), rfl, .same h⟩
  | malformed hv =>
    cases hts with
    | behind h =>
      obtain ⟨_, _, rfl, hrest⟩ := h.skip fun _ hl => nomatch hl
      exact ⟨_, .malformed hv, rfl, hrest⟩
    | here h => cases hv
  | name ha =>
    obtain ⟨_, _, rfl, hrest⟩ := (hts.of_ne nofun).skip fun _ hl => nomatch hl
    exact ⟨_, .name ha, rfl, hrest⟩
  | unknown ha hm =>
    obtain ⟨_, _, rfl, hrest⟩ := (hts.of_ne nofun).skip fun _ hl => nomatch hl
    exact ⟨_, .unknown ha (hrest.headMark?_eq ▸ hm), rfl, hrest⟩
  | group _ hend ih =>
    obtain ⟨_, _, rfl, hrest⟩ := (hts.of_ne nofun).skip fun _ hl => Lexeme.mark.inj hl ▸ rfl
    obtain ⟨s, hs, hfilled⟩ := ih (.behind hrest) hr.of_close
    exact ⟨_, .group hs (hfilled.rest.done hend), hfilled.close _ _⟩
  | call ha _ hend hc ih =>
    obtain ⟨_, _, rfl, hrest⟩ := (hts.of_ne nofun).skip fun _ hl => nomatch hl
    obtain ⟨_, _, rfl, harg⟩ := hrest.skip fun _ hl => Lexeme.mark.inj hl ▸ rfl
    obtain ⟨s, hs, hfilled⟩ := ih (.behind harg) hr.of_knownCall.of_close
    refine ⟨_, .call ha hs (hfilled.rest.done hend) (hfilled.rest.headMark?_eq ▸ hc), ?_⟩
    exact (hfilled.close _ _).knownCall _ _ _ _ fun f => by rw [hfilled.tree]
  | @callTwo _ _ _ _ _ _ _ r r' ha _ hcomma _ hend ih ih' =>
    obtain ⟨_, _, rfl, hrest⟩ := (hts.of_ne nofun).skip fun _ hl => nomatch hl
    obtain ⟨_, _, rfl, harg⟩ := hrest.skip fun _ hl => Lexeme.mark.inj hl ▸ rfl
    obtain ⟨hi, hi'⟩ := noneMissing_append.mp hr.of_knownCall.of_close
    obtain ⟨s, hs, hfilled⟩ := ih (.behind harg) hi
    obtain ⟨_, _, hs', hrest'⟩ := hfilled.next hcomma
    obtain ⟨s', hs'', hfilled'⟩ := ih' hrest' hi'
    have hboth : Reading.FilledBy { s' with issues := s.issues ++ s'.issues }
        { r' with issues := r.issues ++ r'.issues } := ⟨hfilled'.tree, hfilled'.rest⟩
    refine ⟨_, .callTwo ha hs hs' hs'' (hfilled'.rest.done hend), ?_⟩
    exact (hboth.close _ _).knownCall _ _ _ _ fun f => by rw [hfilled.tree, hfilled'.tree]
  | minus _ ih =>
    obtain ⟨_, _, rfl, hrest⟩ := (hts.of_ne nofun).next
    obtain ⟨s, hs, hfilled⟩ := ih hrest hr
    exact ⟨_, .minus hs, congrArg Tree.negate hfilled.tree, hfilled.rest⟩
  | plus _ ih =>
    obtain ⟨_, _, rfl, hrest⟩ := (hts.of_ne nofun).next
    obtain ⟨s, hs, hfilled⟩ := ih hrest hr
    exact ⟨_, .plus hs, hfilled⟩
  | unsigned hm hp _ ih =>
    obtain ⟨s, hs, hfilled⟩ := ih hts hr
    exact ⟨s, .unsigned (hts.headMark?_ne (by decide) hm) (hts.headMark?_ne (by decide) hp) hs, hfilled⟩
  | base _ hm ih =>
    obtain ⟨s, hs, hfilled⟩ := ih hts hr
    exact ⟨s, .base hs (hfilled.rest.headMark?_eq ▸ hm), hfilled⟩
  | raised _ hrest _ ih ih' =>
    obtain ⟨hi, hi'⟩ := noneMissing_append.mp hr
    obtain ⟨s, hs, hfilled⟩ := ih hts hi
    obtain ⟨_, _, hpower, hts'⟩ := hfilled.next hrest
    obtain ⟨s', hs', hfilled'⟩ := ih' hts' hi'
    exact ⟨_, .raised hs hpower hs', hfilled.join hfilled' .pow⟩
  | factor _ ih =>
    obtain ⟨s, hs, hfilled⟩ := ih hts hr
    exact ⟨s, .factor hs, hfilled⟩
  | product _ hrest hop _ ih ih' =>
    obtain ⟨hi, hi'⟩ := noneMissing_append.mp hr
    obtain ⟨s, hs, hfilled⟩ := ih hts hi
    obtain ⟨_, _, hmark, hts'⟩ := hfilled.next hrest
    obtain ⟨s', hs', hfilled'⟩ := ih' hts' hi'
    exact ⟨_, .product hs hmark hop hs', hfilled.join hfilled' _⟩
  | summand _ hend ih =>
    obtain ⟨s, hs, hfilled⟩ := ih hts hr
    exact ⟨s, .summand hs (hfilled.rest.done hend), hfilled⟩
  | sum _ hrest hop _ hend ih ih' =>
    obtain ⟨hi, hi'⟩ := noneMissing_append.mp hr
    obtain ⟨s, hs, hfilled⟩ := ih hts hi
    obtain ⟨_, _, hmark, hts'⟩ := hfilled.next hrest
    obtain ⟨s', hs', hfilled'⟩ := ih' hts' hi'
    exact ⟨_, .sum hs hmark hop hs' (hfilled'.rest.done hend), hfilled.join hfilled' _⟩

/-- Where the 0 is read, the closing bracket is read as the 0. -/
theorem Holed.readSum_tree {n : Nat} {ts us : List Token} {r : Reading} (h : Holed ts us)
    (hr : readSum n us = some r) (hnone : NoneMissing r.issues) :
    (readSum n ts).map Reading.tree = some r.tree := by
  obtain ⟨m, rfl, htakes, hend⟩ := readSum_takes n us r hr
  obtain ⟨s, hs, hfilled⟩ := htakes.filled (.behind h) hnone
  rw [readSum_eq_some_iff.mpr ⟨hs, hfilled.rest.done hend⟩, Option.map_some, hfilled.tree]

end FieldPlot.Expression
