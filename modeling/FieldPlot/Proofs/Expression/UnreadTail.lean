import FieldPlot.Expression.Double
import FieldPlot.Proofs.Expression.Rules
import FieldPlot.Proofs.Expression.WellFormed

/-! The tokens that are left over. A reading looks at the first of them at most, and takes it for no more than the end
of the text; so the text in front of it is read alike. -/

namespace FieldPlot.Expression

/-! ### Cutting off what is not read -/

section

variable {ts mid tail : List Token} {op? : Mark → Option Binary} {r : Reading}

theorem headMark?_append {m : Mark} (h : headMark? ts = some m) (us : List Token) :
    headMark? (ts ++ us) = some m := by
  obtain ⟨n, vs, rfl⟩ := headMark?_eq_some.mp h
  rfl

theorem Done.of_append (h : Done op? (mid ++ tail)) : Done op? mid := by
  cases hm : headMark? mid with
  | none => rw [Done, hm, Option.bind_none]
  | some m => rwa [Done, headMark?_append hm, ← hm] at h

/-- Whether a bracket is closed shows in front of what is cut off, as the closing bracket is read. -/
theorem Reading.exists_of_close (issue : Issue) (h : (r.close issue).rest = mid ++ tail) :
    ∃ mid', r.rest = mid' ++ tail ∧
      { r.close issue with rest := mid } = Reading.close issue { r with rest := mid' } := by
  by_cases hm : headMark? r.rest = some .closing
  · obtain ⟨i, us, hr⟩ := headMark?_eq_some.mp hm
    rw [Reading.close_closing issue hr] at h ⊢
    simp only at h
    refine ⟨⟨.mark .closing, i⟩ :: mid, by rw [hr, h, List.cons_append], ?_⟩
    rw [Reading.close_closing issue rfl]
  · rw [Reading.close_missing issue hm] at h ⊢
    simp only at h
    refine ⟨mid, h, ?_⟩
    rw [Reading.close_missing issue fun hmid => hm (h ▸ headMark?_append hmid tail)]

theorem Reading.join_rest (op : Binary) (r s : Reading) : (r.join op s).rest = s.rest := rfl

theorem Reading.knownCall_with_rest (f : Option Function) (name : List Char) (start : Nat)
    (tree : Function → Tree Numeral) (r : Reading) (ts : List Token) :
    { r.knownCall f name start tree with rest := ts } =
      Reading.knownCall f name start tree { r with rest := ts } := by
  cases f <;> rfl

end

/-- The end of what is left can be cut off: the tokens in front of it are taken for the same reading. -/
theorem Takes.cut {n : Nat} {k : Phrase} {ts mid tail : List Token} {r : Reading} (h : Takes n k ts r)
    (hr : r.rest = mid ++ tail) : ∃ us, ts = us ++ tail ∧ Takes n k us { r with rest := mid } := by
  induction h generalizing mid with
  | missing =>
    obtain ⟨rfl, rfl⟩ := List.append_eq_nil_iff.mp hr.symm
    exact ⟨[], rfl, .missing⟩
  | stray hm =>
    obtain rfl := hr
    exact ⟨_ :: mid, rfl, .stray hm⟩
  | number hv =>
    obtain rfl := hr
    exact ⟨_ :: mid, rfl, .number hv⟩
  | malformed hv =>
    obtain rfl := hr
    exact ⟨_ :: mid, rfl, .malformed hv⟩
  | name ha =>
    obtain rfl := hr
    exact ⟨_ :: mid, rfl, .name ha⟩
  | unknown ha hm =>
    obtain rfl := hr
    exact ⟨_ :: mid, rfl, .unknown ha fun h => hm (headMark?_append h tail)⟩
  | group _ hend ih =>
    obtain ⟨mid', hmid, hclose⟩ := Reading.exists_of_close _ hr
    obtain ⟨us, rfl, htakes⟩ := ih hmid
    rw [hclose]
    rw [hmid] at hend
    exact ⟨_ :: us, rfl, .group htakes hend.of_append⟩
  | call ha _ hend hc ih =>
    rw [Reading.knownCall_rest] at hr
    obtain ⟨mid', hmid, hclose⟩ := Reading.exists_of_close _ hr
    obtain ⟨us, rfl, htakes⟩ := ih hmid
    rw [Reading.knownCall_with_rest, hclose]
    rw [hmid] at hend hc
    exact ⟨_ :: _ :: us, rfl, .call ha htakes hend.of_append fun h => hc (headMark?_append h tail)⟩
  | callTwo ha _ hcomma _ hend ih ih' =>
    rw [Reading.knownCall_rest] at hr
    obtain ⟨mid', hmid, hclose⟩ := Reading.exists_of_close _ hr
    obtain ⟨vs, rfl, htakes'⟩ := ih' hmid
    obtain ⟨us, rfl, htakes⟩ := ih (hcomma.trans (List.cons_append ..).symm)
    rw [Reading.knownCall_with_rest, hclose]
    simp only at hmid
    rw [hmid] at hend
    exact ⟨_ :: _ :: us, rfl, .callTwo ha htakes rfl htakes' hend.of_append⟩
  | minus _ ih =>
    obtain ⟨us, rfl, htakes⟩ := ih hr
    exact ⟨_ :: us, rfl, .minus htakes⟩
  | plus _ ih =>
    obtain ⟨us, rfl, htakes⟩ := ih hr
    exact ⟨_ :: us, rfl, .plus htakes⟩
  | unsigned hm hp _ ih =>
    obtain ⟨us, rfl, htakes⟩ := ih hr
    exact ⟨us, rfl, .unsigned (fun h => hm (headMark?_append h tail)) (fun h => hp (headMark?_append h tail)) htakes⟩
  | base _ hm ih =>
    obtain ⟨us, rfl, htakes⟩ := ih hr
    rw [hr] at hm
    exact ⟨us, rfl, .base htakes fun h => hm (headMark?_append h tail)⟩
  | raised _ hpower _ ih ih' =>
    obtain ⟨vs, rfl, htakes'⟩ := ih' hr
    obtain ⟨us, rfl, htakes⟩ := ih (hpower.trans (List.cons_append ..).symm)
    exact ⟨us, rfl, .raised htakes rfl htakes'⟩
  | factor _ ih =>
    obtain ⟨us, rfl, htakes⟩ := ih hr
    exact ⟨us, rfl, .factor htakes⟩
  | product _ hmark hop _ ih ih' =>
    obtain ⟨vs, rfl, htakes'⟩ := ih' hr
    obtain ⟨us, rfl, htakes⟩ := ih (hmark.trans (List.cons_append ..).symm)
    exact ⟨us, rfl, .product htakes rfl hop htakes'⟩
  | summand _ hend ih =>
    obtain ⟨us, rfl, htakes⟩ := ih hr
    rw [hr] at hend
    exact ⟨us, rfl, .summand htakes hend.of_append⟩
  | sum _ hmark hop _ hend ih ih' =>
    obtain ⟨vs, rfl, htakes'⟩ := ih' hr
    obtain ⟨us, rfl, htakes⟩ := ih (hmark.trans (List.cons_append ..).symm)
    rw [Reading.join_rest] at hr
    rw [hr] at hend
    exact ⟨us, rfl, .sum htakes rfl hop htakes' hend.of_append⟩

/-! ### What is reported -/

def Issue.IsUnexpected : Issue → Prop
  | unexpected _ _ => True
  | _ => False

/-- The rules report no token as unexpected; only the end of the reading does. -/
theorem Takes.not_unexpected {n : Nat} {k : Phrase} {ts : List Token} {r : Reading} (h : Takes n k ts r) :
    ∀ issue ∈ r.issues, ¬issue.IsUnexpected := by
  have hclose {r : Reading} {issue : Issue} (hi : ¬issue.IsUnexpected) (h : ∀ i ∈ r.issues, ¬i.IsUnexpected) :
      ∀ i ∈ (r.close issue).issues, ¬i.IsUnexpected := by
    unfold Reading.close
    split
    · exact h
    · exact List.forall_mem_append.mpr ⟨h, List.forall_mem_singleton.mpr hi⟩
  have hknown {r : Reading} {f : Option Function} {name : List Char} {start : Nat}
      {tree : Function → Tree Numeral} (h : ∀ i ∈ r.issues, ¬i.IsUnexpected) :
      ∀ i ∈ (r.knownCall f name start tree).issues, ¬i.IsUnexpected := by
    cases f with
    | some f => exact h
    | none => exact List.forall_mem_append.mpr ⟨h, List.forall_mem_singleton.mpr id⟩
  induction h with
  | missing | stray | malformed | unknown => exact List.forall_mem_singleton.mpr id
  | number | name => exact fun _ hi => nomatch hi
  | group _ _ ih => exact hclose id ih
  | call _ _ _ _ ih => exact hknown (hclose id ih)
  | callTwo _ _ _ _ _ ih ih' => exact hknown (hclose id (List.forall_mem_append.mpr ⟨ih, ih'⟩))
  | minus _ ih | plus _ ih | unsigned _ _ _ ih | base _ _ ih | factor _ ih | summand _ _ ih => exact ih
  | raised _ _ _ ih ih' | product _ _ _ _ ih ih' | sum _ _ _ _ _ ih ih' =>
    exact List.forall_mem_append.mpr ⟨ih, ih'⟩

/-! ### Scanning the text in front of a token -/

theorem le_start_of_mem {start : Nat} {s : List Char} {t : Token} (h : t ∈ tokensFrom start s) :
    start ≤ t.start := by
  fun_induction tokensFrom start s with
  | case1 => cases h
  | case2 start c s m hm ih =>
    rcases List.mem_cons.mp h with rfl | h
    · exact le_rfl
    · exact (Nat.le_succ start).trans (ih h)
  | case3 start c s hm hc run ih | case4 start c s hm hc ha run ih =>
    rcases List.mem_cons.mp h with rfl | h
    · exact le_rfl
    · have hle := ih h
      omega
  | case5 start c s hm hc ha ih => exact (Nat.le_succ start).trans (ih h)

theorem take_sub_cons {start m : Nat} (h : start + 1 ≤ m) (c : Char) (s : List Char) :
    (c :: s).take (m - start) = c :: s.take (m - (start + 1)) := by
  rw [show m - start = m - (start + 1) + 1 by omega, List.take_succ_cons]

/-- A run that is not cut into ends where it did. -/
theorem take_run (p : Char → Bool) {s : List Char} {start m : Nat} (h : start + (s.takeWhile p).length ≤ m) :
    (s.take (m - start)).takeWhile p = s.takeWhile p ∧
      (s.take (m - start)).dropWhile p = (s.dropWhile p).take (m - (start + (s.takeWhile p).length)) := by
  induction s generalizing start with
  | nil => simp
  | cons c s ih =>
    by_cases hc : p c = true
    · have hlength : start + ((c :: s).takeWhile p).length = start + 1 + (s.takeWhile p).length := by
        rw [List.takeWhile_cons_of_pos hc, List.length_cons]
        omega
      rw [hlength] at h ⊢
      obtain ⟨hrun, hafter⟩ := ih h
      rw [take_sub_cons (by omega)]
      simp only [List.takeWhile_cons_of_pos hc, List.dropWhile_cons_of_pos hc, hrun, hafter, and_self]
    · rw [List.takeWhile_cons_of_neg hc, List.length_nil, Nat.add_zero]
      generalize m - start = n
      cases n <;> simp [hc]

/-- Scanning the text in front of a token gives the tokens in front of it. -/
theorem tokensFrom_take {start : Nat} {s : List Char} {t : Token} {us vs : List Token}
    (h : tokensFrom start s = us ++ t :: vs) : tokensFrom start (s.take (t.start - start)) = us := by
  have hmem {n : Nat} {x : List Char} {us : List Token} (h : tokensFrom n x = us ++ t :: vs) : n ≤ t.start :=
    le_start_of_mem (h ▸ List.mem_append_right us List.mem_cons_self)
  fun_induction tokensFrom start s generalizing us with
  | case1 => cases us <;> cases h
  | case2 start c s m hm ih =>
    cases us with
    | nil =>
      obtain ⟨rfl, -⟩ := List.cons.inj h
      simp [tokensFrom]
    | cons u us =>
      obtain ⟨rfl, hrest⟩ := List.cons.inj h
      rw [take_sub_cons (hmem hrest)]
      simp [tokensFrom, hm, ih hrest]
  | case3 start c s hm hc run =>
    rename_i ih
    cases us with
    | nil =>
      obtain ⟨rfl, -⟩ := List.cons.inj h
      simp [tokensFrom]
    | cons u us =>
      obtain ⟨rfl, hrest⟩ := List.cons.inj h
      obtain ⟨hrun, hafter⟩ := take_run isNumberChar (hmem hrest)
      rw [take_sub_cons (Nat.le_of_add_right_le (hmem hrest))]
      simp [tokensFrom, hm, hc, run, hrun, hafter, ih hrest]
  | case4 start c s hm hc ha run =>
    rename_i ih
    cases us with
    | nil =>
      obtain ⟨rfl, -⟩ := List.cons.inj h
      simp [tokensFrom]
    | cons u us =>
      obtain ⟨rfl, hrest⟩ := List.cons.inj h
      obtain ⟨hrun, hafter⟩ := take_run Char.isAlphanum (hmem hrest)
      rw [take_sub_cons (Nat.le_of_add_right_le (hmem hrest))]
      simp [tokensFrom, hm, hc, ha, run, hrun, hafter, ih hrest]
  | case5 start c s hm hc ha ih =>
    rw [take_sub_cons (hmem h)]
    simp [tokensFrom, hm, hc, ha, ih h]

/-! ### Evaluation -/

section

variable {α : Type} [Arithmetic α] {s : List Char} {p : Point α}

theorem evaluate_of_readSum {r : Reading} (h : readSum nestingLimit (tokens s) = some r) :
    evaluate s p = .ok ⟨Parsed.value ⟨r.tree, r.finish⟩ p, r.finish⟩ := by
  simp [evaluate, Parsed.ofChars?, Parsed.ofCharsWithin?, h]

/-- A token that is reported as unexpected is the first one that was left over: it is reported last, and the text in
front of it has the same value and every other issue. -/
theorem evaluate_before_unexpected {e : Evaluation α} {text : List Char} {i : Nat} (he : evaluate s p = .ok e)
    (hi : .unexpected text i ∈ e.issues) :
    ∃ issues, e.issues = issues ++ [.unexpected text i] ∧ (∃ t ∈ tokens s, t.start = i ∧ t.text = text) ∧
      evaluate (s.take i) p = .ok ⟨e.value, issues⟩ := by
  obtain ⟨parsed, hs, rfl⟩ := evaluate_eq_ok he
  obtain ⟨r, hr, rfl⟩ := Option.map_eq_some_iff.mp hs
  obtain ⟨htakes, hend⟩ := readSum_eq_some_iff.mp hr
  have hclean : .unexpected text i ∉ r.issues := fun h => htakes.not_unexpected _ h trivial
  cases hrest : r.rest with
  | nil =>
    have hfinish : r.finish = r.issues := by rw [Reading.finish, hrest]
    exact absurd (hfinish ▸ hi) hclean
  | cons t vs =>
    have hfinish : r.finish = r.issues ++ [.unexpected t.text t.start] := by rw [Reading.finish, hrest]
    simp only [hfinish, List.mem_append, List.mem_singleton, hclean, false_or, Issue.unexpected.injEq] at hi
    obtain ⟨rfl, rfl⟩ := hi
    have hsplit : r.rest = [] ++ t :: vs := hrest
    obtain ⟨us, htokens, htakes'⟩ := htakes.cut hsplit
    -- The tokens in front of `t` are read by themselves.
    have hscan : tokens (s.take t.start) = us := tokensFrom_take htokens
    have hread : readSum nestingLimit (tokens (s.take t.start)) = some { r with rest := [] } := by
      rw [hscan]
      exact readSum_eq_some_iff.mpr ⟨htakes', rfl⟩
    refine ⟨r.issues, hfinish, ⟨t, ?_, rfl, rfl⟩, evaluate_of_readSum hread⟩
    rw [htokens]
    exact List.mem_append_right us List.mem_cons_self

/-- The second power sign of `2^3^2` is left over. -/
theorem evaluate_before_unexpected_power :
    ∃ e, evaluate "2^3^2".toList (⟨0.0, 0.0, 0.0⟩ : Point Float) = .ok e ∧ .unexpected ['^'] 3 ∈ e.issues ∧
      ∃ issues, e.issues = issues ++ [.unexpected ['^'] 3] ∧
        (∃ t ∈ tokens "2^3^2".toList, t.start = 3 ∧ t.text = ['^']) ∧
        evaluate ("2^3^2".toList.take 3) (⟨0.0, 0.0, 0.0⟩ : Point Float) = .ok ⟨e.value, issues⟩ := by
  have hread : (readSum nestingLimit (tokens "2^3^2".toList)).map Reading.finish =
      some [.unexpected ['^'] 3] := by decide +kernel
  obtain ⟨r, hr, hfinish⟩ := Option.map_eq_some_iff.mp hread
  have he := evaluate_of_readSum (p := (⟨0.0, 0.0, 0.0⟩ : Point Float)) hr
  have hi : .unexpected ['^'] 3 ∈ r.finish := hfinish ▸ List.mem_singleton_self _
  exact ⟨_, he, hi, evaluate_before_unexpected he hi⟩

end

end FieldPlot.Expression
