import FieldPlot.Proofs.Expression.Lexemes
import FieldPlot.Proofs.Vectors.Attached
import Mathlib.Data.List.TakeWhile

/-! Terms that the decomposition of a field leaves whole. A text is cut at signs outside of brackets, and
a term of the grammar has no such sign unless a character is passed over in front of it. -/

namespace FieldPlot.Vectors

open Expression

/-- Whether the scan of a text passes over a character. -/
def isPassedOver (c : Char) : Bool :=
  (Mark.ofChar? c).isNone && !isNumberChar c && !c.isAlpha

def isSignChar (c : Char) : Bool :=
  c = '+' || c = '-'

/-- Whether a sign outside of brackets follows a character that is passed over. -/
def hasLooseSign (depth : Int) (previous : Option Char) : List Char → Bool
  | [] => false
  | c :: s => (isSignChar c && depth = 0 && previous.any isPassedOver) ||
    hasLooseSign (depthAfter depth c) (some c) s

/-- Where no character is passed over, no sign is loose. -/
theorem hasLooseSign_of_scanned {s : List Char} (h : ∀ c ∈ s, isPassedOver c = false) (depth : Int)
    {p : Option Char} (hp : p.any isPassedOver = false) : hasLooseSign depth p s = false := by
  induction s generalizing depth p with
  | nil => rfl
  | cons c s ih =>
    have hrest := ih (fun d hd => h d (List.mem_cons_of_mem _ hd)) (depthAfter depth c) (p := some c)
      (h c List.mem_cons_self)
    rw [hasLooseSign, hp, hrest, Bool.and_false]
    rfl

/-- No term ends inside of the text. -/
def Uncut (depth : Int) (previous : Option Char) : List Char → Prop
  | [] => True
  | c :: s => (isSignChar c = true → depth = 0 → previous.any (!keepsSign ·) = false) ∧
    Uncut (depthAfter depth c) (some c) s

section

variable {depth : Int} {previous : Option Char} {s : List Char}

theorem getLast?_cons_or {β : Type} (c : β) (s : List β) (p : Option β) :
    (c :: s).getLast?.or p = s.getLast?.or (some c) := by
  cases s <;> simp [List.getLast?_cons]

theorem splitFrom_cut {c : Char} (hc : isSignChar c = true)
    (hp : previous.any (!keepsSign ·) = true) (s : List Char) :
    splitFrom 0 previous (c :: s) =
      ([], (if c = '-' then c :: (splitFrom 0 (some c) s).1 else (splitFrom 0 (some c) s).1) ::
        (splitFrom 0 (some c) s).2) := by
  have hdepth : depthAfter 0 c = 0 := by
    simp only [isSignChar, Bool.or_eq_true, decide_eq_true_eq] at hc
    rcases hc with rfl | rfl <;> rfl
  have hcut : ((c = '+' || c = '-') && (0 : Int) = 0 && previous.any (!keepsSign ·)) = true := by
    rw [hp]
    exact (Bool.and_true _).trans ((Bool.and_true _).trans hc)
  rw [splitFrom, hdepth]
  exact if_pos hcut

theorem splitFrom_keep {c : Char}
    (h : isSignChar c = true → depth = 0 → previous.any (!keepsSign ·) = false) (s : List Char) :
    splitFrom depth previous (c :: s) =
      (c :: (splitFrom (depthAfter depth c) (some c) s).1,
        (splitFrom (depthAfter depth c) (some c) s).2) := by
  have hcut : ¬((c = '+' || c = '-') && depth = 0 && previous.any (!keepsSign ·)) = true := by
    intro hcut
    simp only [Bool.and_eq_true, decide_eq_true_eq] at hcut
    have hkept := h hcut.1.1 hcut.1.2
    rw [hcut.2] at hkept
    cases hkept
  rw [splitFrom]
  exact if_neg hcut

theorem splitFrom_append (h : Uncut depth previous s) (rest : List Char) :
    splitFrom depth previous (s ++ rest) =
      (s ++ (splitFrom (s.foldl depthAfter depth) (s.getLast?.or previous) rest).1,
        (splitFrom (s.foldl depthAfter depth) (s.getLast?.or previous) rest).2) := by
  induction s generalizing depth previous with
  | nil => rfl
  | cons c s ih =>
    rw [List.cons_append, splitFrom_keep h.1, ih h.2, getLast?_cons_or]
    rfl

theorem Uncut.of_unsigned (h : Uncut depth previous s) (hs : ∀ c ∈ s.head?, isSignChar c = false)
    (p : Option Char) : Uncut depth p s := by
  cases s with
  | nil => trivial
  | cons c s =>
    refine ⟨fun hc => ?_, h.2⟩
    rw [hs c rfl] at hc
    cases hc

theorem Uncut.append {t : List Char} (h : Uncut depth previous s)
    (h' : Uncut (s.foldl depthAfter depth) (s.getLast?.or previous) t) :
    Uncut depth previous (s ++ t) := by
  induction s generalizing depth previous with
  | nil => exact h'
  | cons c s ih =>
    rw [getLast?_cons_or] at h'
    exact ⟨h.1, ih h.2 h'⟩

/-- A run of characters that are no marks has no signs and leaves the depth of brackets alone. -/
theorem uncut_run {run : List Char} (h : ∀ c ∈ run, Mark.ofChar? c = none) (depth : Int)
    (previous : Option Char) : Uncut depth previous run ∧ run.foldl depthAfter depth = depth := by
  induction run generalizing previous with
  | nil => exact ⟨trivial, rfl⟩
  | cons c run ih =>
    have hc := h c List.mem_cons_self
    have hsign : isSignChar c = false := by
      by_contra hsign
      simp only [isSignChar, Bool.not_eq_false, Bool.or_eq_true, decide_eq_true_eq] at hsign
      rcases hsign with rfl | rfl <;> cases hc
    have hdepth : depthAfter depth c = depth := by
      have hopening : c ≠ '(' := by rintro rfl; cases hc
      have hclosing : c ≠ ')' := by rintro rfl; cases hc
      rw [depthAfter, if_neg hopening, if_neg hclosing]
    obtain ⟨huncut, hfold⟩ := ih (fun d hd => h d (List.mem_cons_of_mem _ hd)) (some c)
    refine ⟨⟨fun hs => absurd hs (by simp [hsign]), ?_⟩, ?_⟩
    · rwa [hdepth]
    · rw [List.foldl_cons, hdepth, hfold]

theorem hasLooseSign_append {t : List Char} : hasLooseSign depth previous (s ++ t) =
    (hasLooseSign depth previous s ||
      hasLooseSign (s.foldl depthAfter depth) (s.getLast?.or previous) t) := by
  induction s generalizing depth previous with
  | nil => rfl
  | cons c s ih =>
    rw [List.cons_append, hasLooseSign, hasLooseSign, ih, getLast?_cons_or, Bool.or_assoc]
    rfl

end

theorem isSignLexeme_of_char {m : Mark} (h : isSignChar m.char = true) : isSignLexeme (.mark m) := by
  cases m <;> first | exact .inl rfl | exact .inr rfl | cases h

/-- What the character and the lexeme in front of a sign have to do with each other. -/
def Follows (p : Option Char) (l : Option Lexeme) : Prop :=
  ∀ c, p = some c → isPassedOver c = false → HoldsSign l → keepsSign c = true

theorem exists_run {q : Char → Bool} (hq : ∀ m : Mark, q m.char = false) {c : Char}
    (hc : Mark.ofChar? c = none) (s : List Char) :
    ∃ run, c :: s = run ++ s.dropWhile q ∧ ∀ d ∈ run, Mark.ofChar? d = none := by
  refine ⟨c :: s.takeWhile q, ?_, ?_⟩
  · rw [List.cons_append, List.takeWhile_append_dropWhile]
  · intro d hd
    rcases List.mem_cons.mp hd with rfl | hd
    · exact hc
    · exact ofChar?_eq_none hq (List.mem_takeWhile_imp hd)

/-- A run is scanned to one lexeme, which holds no sign. -/
theorem uncut_run_append {depth : Int} {p : Option Char} {l : Lexeme} {c : Char} {s : List Char}
    {q : Char → Bool} (hq : ∀ m : Mark, q m.char = false) (hc : Mark.ofChar? c = none)
    (hl : ¬HoldsSign (some l)) (hloose : hasLooseSign depth p (c :: s) = false)
    (hrest : ∀ r, Follows r (some l) → hasLooseSign depth r (s.dropWhile q) = false →
      Uncut depth r (s.dropWhile q)) : Uncut depth p (c :: s) := by
  obtain ⟨run, hsplit, hrun⟩ := exists_run hq hc s
  obtain ⟨huncut, hdepth⟩ := uncut_run hrun depth p
  rw [hsplit, hasLooseSign_append, hdepth, Bool.or_eq_false_iff] at hloose
  rw [hsplit]
  refine huncut.append ?_
  rw [hdepth]
  exact hrest _ (fun _ _ _ h => absurd h hl) hloose.2

/-- A text without loose signs is cut only where its lexemes are. -/
theorem uncut_of_attached {s : List Char} {start : Nat} {depth : Int} {p : Option Char}
    {l : Option Lexeme} (h : Attached depth l ((tokensFrom start s).map Token.lexeme))
    (hloose : hasLooseSign depth p s = false) (hp : Follows p l) : Uncut depth p s := by
  fun_induction tokensFrom start s generalizing depth p l with
  | case1 => trivial
  | case2 start c s m hm ih =>
    obtain rfl := eq_char_of_ofChar? hm
    rw [hasLooseSign, Bool.or_eq_false_iff] at hloose
    refine ⟨fun hsign h0 => ?_, ih h.2 hloose.2 ?_⟩
    · have hholds : HoldsSign l := h.1 (isSignLexeme_of_char hsign) h0
      cases p with
      | none => rfl
      | some q =>
        have hpassed : isPassedOver q = false := by simpa [hsign, h0] using hloose.1
        simp only [Option.any_some, hp q rfl hpassed hholds, Bool.not_true]
    · intro q hq _ hholds
      cases hq
      exact hholds
  | case3 start c s hm hc run =>
    rename_i ih
    exact uncut_run_append isNumberChar_mark hm id hloose fun r hr hrest => ih h.2 hrest hr
  | case4 start c s hm hc ha run =>
    rename_i ih
    exact uncut_run_append isAlphanum_mark hm id hloose fun r hr hrest => ih h.2 hrest hr
  | case5 start c s hm hc ha ih =>
    have hmarks : ∀ d ∈ [c], Mark.ofChar? d = none := by simpa using hm
    obtain ⟨⟨hsign, -⟩, hdepth⟩ := uncut_run hmarks depth p
    have hdepth' : depthAfter depth c = depth := hdepth
    rw [hasLooseSign, hdepth', Bool.or_eq_false_iff] at hloose
    refine ⟨hsign, ?_⟩
    rw [hdepth']
    refine ih h hloose.2 ?_
    intro q hq hpassed
    cases hq
    simp [isPassedOver, hm, hc, ha] at hpassed

theorem foldl_depthAfter (start : Nat) (s : List Char) (depth : Int) :
    s.foldl depthAfter depth = ((tokensFrom start s).map Token.lexeme).foldl depthBehind depth := by
  have hrun : ∀ {q : Char → Bool}, (∀ m : Mark, q m.char = false) → ∀ {c : Char},
      Mark.ofChar? c = none → ∀ s depth,
      (c :: s).foldl depthAfter depth = (s.dropWhile q).foldl depthAfter depth := by
    intro q hq c hc s depth
    obtain ⟨run, hsplit, hrun⟩ := exists_run hq hc s
    rw [hsplit, List.foldl_append, (uncut_run hrun depth none).2]
  fun_induction tokensFrom start s generalizing depth with
  | case1 => rfl
  | case2 start c s m hm ih =>
    obtain rfl := eq_char_of_ofChar? hm
    exact ih _
  | case3 start c s hm hc run =>
    rename_i ih
    rw [hrun isNumberChar_mark hm]
    exact ih _
  | case4 start c s hm hc ha run =>
    rename_i ih
    rw [hrun isAlphanum_mark hm]
    exact ih _
  | case5 start c s hm hc ha ih =>
    have hmarks : ∀ d ∈ [c], Mark.ofChar? d = none := by simpa using hm
    have hdepth : depthAfter depth c = depth := (uncut_run hmarks depth none).2
    rw [List.foldl_cons, hdepth]
    exact ih _

/-- A term of the grammar without loose signs is not cut, and closes its brackets. -/
theorem term_uncut {s : List Char} {a : Expression.Tree Numeral} (h : Derives .term (lexemes s) a)
    (hloose : hasLooseSign 0 none s = false) :
    Uncut 0 none s ∧ s.foldl depthAfter 0 = 0 := by
  obtain ⟨hattached, hdepth⟩ := whole_of_derives h le_rfl
    (fun _ => .inr ⟨by decide, trivial⟩ : Admits .term 0 none)
  refine ⟨uncut_of_attached hattached hloose (fun _ h => by cases h), ?_⟩
  rw [foldl_depthAfter 0]
  exact hdepth

end FieldPlot.Vectors
