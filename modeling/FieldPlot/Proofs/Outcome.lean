import Mathlib.Data.List.Forall2
import FieldPlot.Step

/-! What follows from the outcome of a computation: which parts of it have succeeded, and what a step
leaves behind. -/

namespace FieldPlot

variable {β γ σ : Type}

theorem bind_eq_ok {x : Except Fault β} {f : β → Except Fault γ} {c : γ} :
    (x >>= f) = .ok c ↔ ∃ b, x = .ok b ∧ f b = .ok c := by
  cases x with
  | error e => exact ⟨fun h => (nomatch h), fun ⟨_, h, _⟩ => (nomatch h)⟩
  | ok b => exact ⟨fun h => ⟨b, rfl, h⟩, fun ⟨_, h, hf⟩ => Except.ok.inj h ▸ hf⟩

theorem ok_bind (b : β) (f : β → Except Fault γ) : (.ok b >>= f) = f b :=
  rfl

/-- A computation that goes on with the result of either branch. -/
theorem branch_eq_ok {p : Prop} [Decidable p] {x y : Except Fault β} {f : β → Except Fault γ} {c : γ} :
    (if p then x >>= f else y >>= f) = .ok c ↔ ∃ b, (if p then x else y) = .ok b ∧ f b = .ok c := by
  split <;> exact bind_eq_ok

theorem pure_eq_ok {b c : β} : (pure b : Except Fault β) = .ok c ↔ b = c :=
  ⟨Except.ok.inj, congrArg Except.ok⟩

/-- What is only passed on has failed where the whole has. -/
theorem eq_error_of_map {x : Except Fault β} {f : β → γ} {e : Fault}
    (h : (do return f (← x)) = Except.error e) : x = .error e := by
  cases x with
  | error g => exact congrArg Except.error (Except.error.inj h)
  | ok b => cases h

theorem mapM_eq_ok {f : β → Except Fault γ} {l : List β} {r : List γ} :
    l.mapM f = .ok r ↔ List.Forall₂ (fun b c => f b = .ok c) l r := by
  induction l generalizing r with
  | nil => rw [List.mapM_nil, pure_eq_ok, List.forall₂_nil_left_iff, eq_comm]
  | cons b l ih =>
    simp only [List.mapM_cons, bind_eq_ok, pure_eq_ok, List.forall₂_cons_left_iff]
    constructor
    · rintro ⟨c, hc, r, hr, rfl⟩
      exact ⟨c, r, hc, ih.mp hr, rfl⟩
    · rintro ⟨c, r, hc, hr, rfl⟩
      exact ⟨c, hc, r, ih.mpr hr, rfl⟩

/-- A pass over a list whose every step is known. -/
theorem mapM_eq_map {f : β → Except Fault γ} {l : List β} (value : β → γ)
    (h : ∀ b ∈ l, f b = .ok (value b)) : l.mapM f = .ok (l.map value) :=
  mapM_eq_ok.mpr (List.forall₂_map_right_iff.mpr (List.forall₂_same.mpr h))

theorem flatMapM_eq_ok {f : β → Except Fault (List γ)} {l : List β} {r : List γ} :
    l.flatMapM f = .ok r ↔
      ∃ parts, List.Forall₂ (fun b part => f b = .ok part) l parts ∧ r = parts.flatten := by
  induction l generalizing r with
  | nil => simp [pure_eq_ok, @eq_comm _ []]
  | cons b l ih =>
    simp only [List.flatMapM_cons, bind_eq_ok, pure_eq_ok, List.forall₂_cons_left_iff]
    constructor
    · rintro ⟨part, hpart, rest, hrest, rfl⟩
      obtain ⟨parts, hparts, rfl⟩ := ih.mp hrest
      exact ⟨part :: parts, ⟨part, parts, hpart, hparts, rfl⟩, rfl⟩
    · rintro ⟨_, ⟨part, parts, hpart, hparts, rfl⟩, rfl⟩
      exact ⟨part, hpart, parts.flatten, ih.mpr ⟨parts, hparts, rfl⟩, rfl⟩

/-- A pass whose every step yields one entry or none. -/
theorem flatMapM_eq_filter {f : β → Except Fault (List γ)} {value : β → γ} {p : β → Prop} [DecidablePred p]
    {l : List β} (h : ∀ b ∈ l, f b = .ok (if p b then [value b] else [])) :
    l.flatMapM f = .ok ((l.filter p).map value) := by
  induction l with
  | nil => rfl
  | cons b l ih =>
    obtain ⟨hb, hl⟩ := List.forall_mem_cons.mp h
    rw [List.flatMapM_cons, hb, ok_bind, ih hl, ok_bind]
    by_cases hp : p b
    · simp only [hp, if_true, List.filter_cons, decide_true]
      rfl
    · simp only [hp, if_false, List.filter_cons, decide_false, Bool.false_eq_true]
      rfl

/-- A pass whose every step yields some entries of interest among others. -/
theorem flatMapM_filterMap {ι δ : Type} {f : β → Except Fault (List γ)} {g : γ → Option δ} {place : ι → β}
    {wanted : ι → List δ} {l : List ι}
    (h : ∀ i ∈ l, ∃ part, f (place i) = .ok part ∧ part.filterMap g = wanted i) :
    ∃ r, (l.map place).flatMapM f = .ok r ∧ r.filterMap g = l.flatMap wanted := by
  induction l with
  | nil => exact ⟨[], rfl, rfl⟩
  | cons i l ih =>
    obtain ⟨⟨part, hpart, hwanted⟩, hl⟩ := List.forall_mem_cons.mp h
    obtain ⟨rest, hrest, hrestWanted⟩ := ih hl
    refine ⟨part ++ rest, ?_, ?_⟩
    · rw [List.map_cons, List.flatMapM_cons, hpart, ok_bind, hrest]
      rfl
    · rw [List.filterMap_append, hwanted, hrestWanted, List.flatMap_cons]

theorem exists_of_mem_right {R : β → γ → Prop} {l : List β} {r : List γ} {c : γ}
    (h : List.Forall₂ R l r) (hc : c ∈ r) : ∃ b ∈ l, R b c := by
  induction h with
  | nil => cases hc
  | cons hb _ ih =>
    rcases List.mem_cons.mp hc with rfl | hc
    · exact ⟨_, List.mem_cons_self, hb⟩
    · obtain ⟨b, hmem, hR⟩ := ih hc
      exact ⟨b, List.mem_cons_of_mem _ hmem, hR⟩

def Returns (m : Except Fault β) : Prop :=
  ∃ b, m = .ok b

namespace Returns

theorem ok (b : β) : Returns (.ok b) :=
  ⟨b, rfl⟩

theorem bind {m : Except Fault β} {f : β → Except Fault γ} (hm : Returns m)
    (hf : ∀ b, m = .ok b → Returns (f b)) : Returns (m >>= f) := by
  obtain ⟨b, hb⟩ := hm
  obtain ⟨c, hc⟩ := hf b hb
  exact ⟨c, bind_eq_ok.mpr ⟨b, hb, hc⟩⟩

theorem bind_of_exists {P : β → Prop} {m : Except Fault β} {f : β → Except Fault γ}
    (hm : ∃ b, m = .ok b ∧ P b) (hf : ∀ b, P b → Returns (f b)) : Returns (m >>= f) := by
  obtain ⟨b, rfl, hb⟩ := hm
  exact hf b hb

/-- A computation that goes on with the result of either branch. -/
theorem branch {c : Prop} [Decidable c] {m m' : Except Fault β} {f : β → Except Fault γ}
    (hm : c → Returns m) (hm' : ¬c → Returns m') (hf : ∀ b, Returns (f b)) :
    Returns (if c then m >>= f else m' >>= f) := by
  split
  · next h => exact (hm h).bind fun b _ => hf b
  · next h => exact (hm' h).bind fun b _ => hf b

theorem mapM {f : β → Except Fault γ} {l : List β} (h : ∀ b ∈ l, Returns (f b)) : Returns (l.mapM f) := by
  induction l with
  | nil => exact ok []
  | cons b l ih =>
    obtain ⟨hb, hl⟩ := List.forall_mem_cons.mp h
    rw [List.mapM_cons]
    exact hb.bind fun _ _ => (ih hl).bind fun _ _ => ok _

theorem flatMapM {f : β → Except Fault (List γ)} {l : List β} (h : ∀ b ∈ l, Returns (f b)) :
    Returns (l.flatMapM f) := by
  induction l with
  | nil => exact ok []
  | cons b l ih =>
    obtain ⟨hb, hl⟩ := List.forall_mem_cons.mp h
    rw [List.flatMapM_cons]
    exact hb.bind fun _ _ => (ih hl).bind fun _ _ => ok _

end Returns

namespace Step

theorem andThen_of_fault {step : Step σ} (next : σ → Step σ) (h : step.fault ≠ none) :
    step.andThen next = step := by
  obtain ⟨f, hf⟩ := Option.ne_none_iff_exists'.mp h
  simp only [andThen, hf]

theorem andThen_state {step : Step σ} (next : σ → Step σ) (h : step.fault = none) :
    (step.andThen next).state = (next step.state).state := by
  simp only [andThen, h]

theorem andThen_fault_eq_none {step : Step σ} {next : σ → Step σ} :
    (step.andThen next).fault = none ↔ step.fault = none ∧ (next step.state).fault = none := by
  cases h : step.fault with
  | none => simp only [andThen, h, true_and]
  | some f => simp [andThen, h]

theorem andThen_fault_eq_some {step : Step σ} {next : σ → Step σ} {f : Fault} :
    (step.andThen next).fault = some f ↔
      step.fault = some f ∨ step.fault = none ∧ (next step.state).fault = some f := by
  cases h : step.fault <;> simp [andThen, h]

/-- What both parts of a step preserve is preserved, wherever the step has stopped. -/
theorem andThen_preserves {P : σ → Prop} {step : Step σ} {next : σ → Step σ} (hstep : P step.state)
    (hnext : ∀ s, P s → P (next s).state) : P (step.andThen next).state := by
  by_cases h : step.fault = none
  · rw [andThen_state next h]
    exact hnext _ hstep
  · rwa [andThen_of_fault next h]

theorem atomic_preserves {P : σ → Prop} {s : σ} {next : Except Fault σ} (hs : P s)
    (hnext : ∀ t, next = .ok t → P t) : P (atomic s next).state := by
  cases next with
  | error f => exact hs
  | ok t => exact hnext t rfl

theorem atomic_fault_eq_none {s : σ} {next : Except Fault σ} (h : (atomic s next).fault = none) :
    next = .ok (atomic s next).state := by
  cases next with
  | error f => cases h
  | ok t => rfl

theorem atomic_fault_eq_some {s : σ} {next : Except Fault σ} {f : Fault}
    (h : (atomic s next).fault = some f) : next = .error f ∧ (atomic s next).state = s := by
  cases next with
  | error g => exact ⟨congrArg Except.error (Option.some.inj h), rfl⟩
  | ok t => cases h

end Step

end FieldPlot
