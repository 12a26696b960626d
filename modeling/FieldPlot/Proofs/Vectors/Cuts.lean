import FieldPlot.Vectors.Decomposition
import Mathlib.Tactic.Common

/-! Where the terms of a text stand in it. A term begins behind nothing, behind a plus that is dropped or with a
minus that it keeps, and it ends in front of a sign or nothing. -/

namespace FieldPlot.Vectors

/-- A part of a text behind nothing, a plus or a minus that it starts with, and in front of nothing or a
sign. -/
def IsCut (piece s : List Char) : Prop :=
  ∃ front behind, s = front ++ piece ++ behind ∧
    (∀ c ∈ front.getLast?, c = '+' ∨ piece.head? = some '-') ∧ ∀ c ∈ behind.head?, c = '+' ∨ c = '-'

theorem splitFrom_fst (depth : Int) (p : Option Char) (s : List Char) :
    ∃ behind, s = (splitFrom depth p s).1 ++ behind ∧ ∀ c ∈ behind.head?, c = '+' ∨ c = '-' := by
  induction s generalizing depth p with
  | nil => exact ⟨[], rfl, by simp⟩
  | cons c s ih =>
    rw [splitFrom]
    dsimp only
    split
    · next hcut =>
      refine ⟨c :: s, rfl, ?_⟩
      simp only [Bool.and_eq_true, Bool.or_eq_true, decide_eq_true_eq] at hcut
      simpa using hcut.1.1
    · obtain ⟨behind, hs, hbehind⟩ := ih (depthAfter depth c) (some c)
      exact ⟨behind, congrArg (c :: ·) hs, hbehind⟩

theorem mem_splitFrom_snd {depth : Int} {p : Option Char} {piece s : List Char}
    (h : piece ∈ (splitFrom depth p s).2) : ∃ front behind, s = front ++ piece ++ behind ∧
      (front.getLast? = some '+' ∨ piece.head? = some '-') ∧ ∀ c ∈ behind.head?, c = '+' ∨ c = '-' := by
  induction s generalizing depth p with
  | nil => cases h
  | cons c s ih =>
    have hlater : piece ∈ (splitFrom (depthAfter depth c) (some c) s).2 → ∃ front behind,
        c :: s = front ++ piece ++ behind ∧ (front.getLast? = some '+' ∨ piece.head? = some '-') ∧
        ∀ c ∈ behind.head?, c = '+' ∨ c = '-' := by
      intro h
      obtain ⟨front, behind, hs, hfront, hbehind⟩ := ih h
      refine ⟨c :: front, behind, congrArg (c :: ·) hs, hfront.imp_left fun h => ?_, hbehind⟩
      rw [List.getLast?_cons, h]
      rfl
    rw [splitFrom] at h
    dsimp only at h
    split at h
    · next hcut =>
      simp only [Bool.and_eq_true, Bool.or_eq_true, decide_eq_true_eq] at hcut
      rcases List.mem_cons.mp h with rfl | h
      · obtain ⟨behind, hs, hbehind⟩ := splitFrom_fst (depthAfter depth c) (some c) s
        rcases hcut.1.1 with rfl | rfl
        · exact ⟨['+'], behind, congrArg ('+' :: ·) hs, .inl rfl, hbehind⟩
        · exact ⟨[], behind, congrArg ('-' :: ·) hs, .inr rfl, hbehind⟩
      · exact hlater h
    · exact hlater h

theorem isCut_of_mem_splitTerms {term s : List Char} (h : term ∈ splitTerms s) : IsCut term s := by
  rcases List.mem_cons.mp (List.mem_filter.mp h).1 with rfl | h
  · obtain ⟨behind, hs, hbehind⟩ := splitFrom_fst 0 none s
    exact ⟨[], behind, hs, by simp, hbehind⟩
  · obtain ⟨front, behind, hs, hfront, hbehind⟩ := mem_splitFrom_snd h
    refine ⟨front, behind, hs, fun c hc => hfront.imp_left fun h => ?_, hbehind⟩
    exact Option.some.inj (hc.symm.trans h)

theorem IsCut.sublist {piece s : List Char} (h : IsCut piece s) : piece.Sublist s := by
  obtain ⟨front, behind, rfl, -, -⟩ := h
  exact (List.sublist_append_right front piece).trans (List.sublist_append_left _ behind)

end FieldPlot.Vectors
