import FieldPlot.Proofs.Scalar.Lawful
import FieldPlot.Colour.Gradient

/-! Gradients in exact numbers. A text with a colour in it is a gradient with stops, and a gradient with
stops has a colour everywhere. -/

namespace FieldPlot.Colour

variable {α : Type} [LawfulScalar α]

theorem mixChannel_returns (a b : ℤ) (t : α) : Returns (mixChannel a b t) :=
  Scalar.whole_returns _ _

theorem mixChars_returns (a b : List Char) (t : α) : Returns (mixChars a b t) :=
  .bind ((mixChannel_returns _ _ t).bind fun _ _ => (mixChannel_returns _ _ t).bind fun _ _ =>
    (mixChannel_returns _ _ t).bind fun _ _ => .ok _) fun _ _ => .ok _

theorem colourBetween_returns (t : α) {stops : List (Stop α)} (hstops : stops ≠ []) :
    Returns (colourBetween t stops) := by
  fun_induction colourBetween t stops with
  | case1 => exact absurd rfl hstops
  | case2 a => exact .ok _
  | case3 a b stops _ =>
    have hwidth := Scalar.larger_pos (Scalar.literal_pos 6 (m := 1) (by decide)) (b.position - a.position)
    exact (Scalar.divide_returns _ hwidth.ne').bind fun _ _ => mixChars_returns _ _ _
  | case4 a b stops _ ih => exact ih (List.cons_ne_nil b stops)

theorem colourAt_returns {stops : List (Stop α)} (hstops : stops ≠ []) (t : α) :
    Returns (colourAt stops t) :=
  colourBetween_returns _ hstops

theorem spread_returns (count order : ℕ) (stops : List (OpenStop α)) :
    ∃ placed, spread count order stops = .ok placed ∧ placed.length = stops.length := by
  fun_induction spread count order stops with
  | case1 => exact ⟨[], rfl, rfl⟩
  | case2 order colour position stops ih =>
    obtain ⟨placed, hplaced, hlength⟩ := ih
    rw [hplaced]
    exact ⟨_, rfl, congrArg Nat.succ hlength⟩
  | case3 order colour stops ih =>
    obtain ⟨placed, hplaced, hlength⟩ := ih
    -- A single stop without a position would leave no gap to divide by, hence the lower bound of 1.
    have hgaps : (Scalar.ofNat (max 1 (count - 1)) : α) ≠ 0 := by
      rw [Scalar.ofNat_eq, Nat.cast_ne_zero]
      omega
    rw [Scalar.divide_of_ne_zero hgaps, hplaced]
    exact ⟨_, rfl, congrArg Nat.succ hlength⟩

theorem padEnds_returns {stops : List (Stop α)} (hstops : stops ≠ []) :
    ∃ padded, padEnds stops = .ok padded ∧ padded ≠ [] := by
  rw [padEnds, List.head?_eq_some_head hstops, List.getLast?_eq_some_getLast hstops]
  exact ⟨_, rfl, by simp [hstops]⟩

/-- The colours and positions that are written in a gradient text. -/
def writtenStops (s : List Char) : List (List Char) :=
  ((splitAt ',' s).map Text.trim).filter (!·.isEmpty)

theorem readStops_returns {s : List Char} (hs : writtenStops s ≠ []) :
    ∃ stops : List (Stop α), readStops s = .ok stops ∧ stops ≠ [] := by
  unfold readStops
  split
  · exact ⟨_, rfl, List.cons_ne_nil _ _⟩
  · let stops : List (OpenStop α) := (writtenStops s).map OpenStop.ofChars
    obtain ⟨placed, hplaced, hlength⟩ := spread_returns (stops.filter (·.position.isNone)).length 0 stops
    -- Clamping and sorting lose no stop, so that there is a first and a last one to pad with.
    have hsorted : (placed.map fun s => { s with position := unitPosition s.position }).mergeSort
        (fun a b => a.position ≤ b.position) ≠ [] := by
      rw [← List.length_pos_iff, List.length_mergeSort, List.length_map, hlength, List.length_map]
      exact List.length_pos_iff.mpr hs
    obtain ⟨padded, hpadded, hne⟩ := padEnds_returns hsorted
    exact ⟨padded, bind_eq_ok.mpr ⟨placed, hplaced, hpadded⟩, hne⟩

end FieldPlot.Colour
