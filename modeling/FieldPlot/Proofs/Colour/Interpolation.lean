import FieldPlot.Proofs.Colour.Gradient
import FieldPlot.Proofs.Colour.Hexadecimal
import FieldPlot.Proofs.Scalar.Integral
import FieldPlot.Scalar.Double

/-! What a written gradient shows. Its stops reach from one end of the unit interval to the other, and the colour
at any point of it lies between the colours of the two stops around the point, channel by channel; at a stop it is
the stop's own. -/

namespace FieldPlot.Colour

/-- Each channel of `c` lies between those of `a` and `b`. -/
structure Rgb.Between (a b c : Rgb) : Prop where
  red : c.red ∈ Set.uIcc a.red b.red
  green : c.green ∈ Set.uIcc a.green b.green
  blue : c.blue ∈ Set.uIcc a.blue b.blue

theorem Rgb.Between.bytes {a b c : Rgb} (h : a.Between b c) (ha : a.Bytes) (hb : b.Bytes) : c.Bytes := by
  have hchannel {m n k : ℤ} (hk : k ∈ Set.uIcc m n) (hm : 0 ≤ m ∧ m ≤ 255) (hn : 0 ≤ n ∧ n ≤ 255) :
      0 ≤ k ∧ k ≤ 255 := by
    rcases Set.mem_uIcc.mp hk with hk | hk <;> omega
  exact ⟨hchannel h.red ha.red hb.red, hchannel h.green ha.green hb.green, hchannel h.blue ha.blue hb.blue⟩

/-! ### Mixing -/

section

variable {α : Type} [IntegralScalar α] {t : α}

/-- The channel `t` of the way from `a` to `b`, which is rounded. -/
def channelAt (a b : ℤ) (t : α) : ℤ :=
  Scalar.roundAt 0 ((a : α) + ((b - a : ℤ) : α) * t)

theorem mixChannel_eq (a b : ℤ) (t : α) : mixChannel a b t = .ok (channelAt a b t) := by
  rw [mixChannel, Scalar.round?, Scalar.whole_eq, LawfulScalar.ofInt_eq, LawfulScalar.ofInt_eq]
  rfl

theorem channelAt_mem (a b : ℤ) (ht : t ∈ Set.Icc 0 1) : channelAt a b t ∈ Set.uIcc a b := by
  obtain ⟨hzero, hone⟩ := ht
  rw [Set.mem_uIcc]
  rcases le_total a b with hab | hba
  · have hcast : (a : α) ≤ b := Int.cast_le.mpr hab
    refine .inl (Scalar.roundAt_mem ?_ ?_) <;> push_cast <;> nlinarith
  · have hcast : (b : α) ≤ a := Int.cast_le.mpr hba
    refine .inr (Scalar.roundAt_mem ?_ ?_) <;> push_cast <;> nlinarith

theorem channelAt_zero (a b : ℤ) : channelAt a b (0 : α) = a := by
  rw [channelAt, mul_zero, add_zero, Scalar.roundAt_intCast]

theorem channelAt_one (a b : ℤ) : channelAt a b (1 : α) = b := by
  rw [channelAt, mul_one, ← Int.cast_add, add_sub_cancel, Scalar.roundAt_intCast]

/-- The colour `t` of the way from `a` to `b`. -/
def Rgb.at (a b : Rgb) (t : α) : Rgb :=
  ⟨channelAt a.red b.red t, channelAt a.green b.green t, channelAt a.blue b.blue t⟩

theorem mixChars_eq (a b : List Char) (t : α) :
    mixChars a b t = .ok ((Rgb.ofChars a).at (Rgb.ofChars b) t).toChars := by
  rw [mixChars, Rgb.mix, mixChannel_eq, mixChannel_eq, mixChannel_eq]
  rfl

theorem Rgb.at_between (a b : Rgb) (ht : t ∈ Set.Icc 0 1) : a.Between b (a.at b t) :=
  ⟨channelAt_mem _ _ ht, channelAt_mem _ _ ht, channelAt_mem _ _ ht⟩

theorem Rgb.at_zero (a b : Rgb) : a.at b (0 : α) = a := by
  rw [Rgb.at, channelAt_zero, channelAt_zero, channelAt_zero]

theorem Rgb.at_one (a b : Rgb) : a.at b (1 : α) = b := by
  rw [Rgb.at, channelAt_one, channelAt_one, channelAt_one]

end

/-! ### Stops -/

/-- Stops in their order, from the one end of the unit interval to the other. -/
structure Spans {α : Type} [LawfulScalar α] (stops : List (Stop α)) : Prop where
  two_le_length : 2 ≤ stops.length
  sorted : stops.Pairwise fun a b => a.position ≤ b.position
  first : stops.head?.map (·.position) = some 0
  last : stops.getLast?.map (·.position) = some 1

section

variable {α : Type} [LawfulScalar α] {stops : List (Stop α)}

theorem Spans.mem_unit (h : Spans stops) {a : Stop α} (ha : a ∈ stops) : a.position ∈ Set.Icc 0 1 := by
  obtain ⟨first, hfirst, hzero⟩ := Option.map_eq_some_iff.mp h.first
  obtain ⟨last, hlast, hone⟩ := Option.map_eq_some_iff.mp h.last
  obtain ⟨rest, rfl⟩ := List.head?_eq_some_iff.mp hfirst
  obtain ⟨front, hfront⟩ := List.getLast?_eq_some_iff.mp hlast
  constructor
  · rcases List.mem_cons.mp ha with rfl | ha
    · exact hzero.ge
    · exact hzero ▸ (List.pairwise_cons.mp h.sorted).1 a ha
  · have hsorted := h.sorted
    rw [hfront] at ha hsorted
    rcases List.mem_append.mp ha with ha | ha
    · exact hone ▸ (List.pairwise_append.mp hsorted).2.2 a ha last (List.mem_singleton_self _)
    · rw [List.mem_singleton.mp ha, hone]

/-- A stop at 0, unless the first one is there. -/
def padFront (first : Stop α) : List (Stop α) :=
  if 0 < first.position then [⟨first.colour, 0⟩] else []

/-- A stop at 1, unless the last one is there. -/
def padBack (last : Stop α) : List (Stop α) :=
  if last.position < 1 then [⟨last.colour, 1⟩] else []

theorem mem_padFront {a first : Stop α} (ha : a ∈ padFront first) : a.position = 0 := by
  obtain ⟨-, ha⟩ := List.mem_ite_nil_right.mp ha
  rw [List.mem_singleton.mp ha]

theorem mem_padBack {a last : Stop α} (ha : a ∈ padBack last) : a.position = 1 := by
  obtain ⟨-, ha⟩ := List.mem_ite_nil_right.mp ha
  rw [List.mem_singleton.mp ha]

theorem padEnds_eq {first last : Stop α} (hfirst : stops.head? = some first) (hlast : stops.getLast? = some last) :
    padEnds stops = .ok (padFront first ++ stops ++ padBack last) := by
  rw [padEnds, hfirst, hlast, Scalar.literal_zero, Scalar.literal_one]
  rfl

theorem two_le_length_of_ends (hfirst : stops.head?.map (·.position) = some 0)
    (hlast : stops.getLast?.map (·.position) = some 1) : 2 ≤ stops.length := by
  match stops with
  | [] => cases hfirst
  | [a] => exact absurd (Option.some.inj (hfirst.symm.trans hlast)) zero_ne_one
  | a :: b :: stops => exact Nat.le_add_left _ _

theorem padEnds_spans (hne : stops ≠ []) (hunit : ∀ a ∈ stops, a.position ∈ Set.Icc 0 1)
    (hsorted : stops.Pairwise fun a b => a.position ≤ b.position) :
    ∃ padded, padEnds stops = .ok padded ∧ Spans padded := by
  obtain ⟨first, hfirst⟩ : ∃ a, stops.head? = some a := ⟨_, List.head?_eq_some_head hne⟩
  obtain ⟨last, hlast⟩ : ∃ a, stops.getLast? = some a := ⟨_, List.getLast?_eq_some_getLast hne⟩
  have hfirstUnit := hunit first (List.mem_of_head? hfirst)
  have hlastUnit := hunit last (List.mem_of_getLast? hlast)
  have hstart : (padFront first ++ stops ++ padBack last).head?.map (·.position) = some 0 := by
    unfold padFront
    split
    · rfl
    · next h => simp [hfirst, le_antisymm (not_lt.mp h) hfirstUnit.1]
  have hend : (padFront first ++ stops ++ padBack last).getLast?.map (·.position) = some 1 := by
    unfold padBack
    split
    · simp
    · next h => simp [hlast, le_antisymm hlastUnit.2 (not_lt.mp h)]
  refine ⟨_, padEnds_eq hfirst hlast, two_le_length_of_ends hstart hend, ?_, hstart, hend⟩
  have hfront : (padFront first ++ stops).Pairwise fun a b => a.position ≤ b.position := by
    refine List.pairwise_append.mpr ⟨?_, hsorted, fun a ha b hb => ?_⟩
    · exact List.pairwise_of_forall_mem_list fun a ha b hb => by rw [mem_padFront ha, mem_padFront hb]
    · rw [mem_padFront ha]
      exact (hunit b hb).1
  refine List.pairwise_append.mpr ⟨hfront, ?_, fun a ha b hb => ?_⟩
  · exact List.pairwise_of_forall_mem_list fun a ha b hb => by rw [mem_padBack ha, mem_padBack hb]
  · rw [mem_padBack hb]
    rcases List.mem_append.mp ha with ha | ha
    · exact (mem_padFront ha).trans_le zero_le_one
    · exact (hunit a ha).2

theorem unitPosition_mem (position : α) : unitPosition position ∈ Set.Icc (0 : α) 1 :=
  Scalar.clampUnit_mem _

theorem readStops_spans {s : List Char} (hs : writtenStops s ≠ []) :
    ∃ stops : List (Stop α), readStops s = .ok stops ∧ Spans stops := by
  unfold readStops
  split
  · next hempty =>
    rw [List.isEmpty_iff.mp hempty] at hs
    exact absurd (by decide) hs
  · let stops : List (OpenStop α) := (writtenStops s).map OpenStop.ofChars
    obtain ⟨placed, hplaced, hlength⟩ := spread_returns (stops.filter (·.position.isNone)).length 0 stops
    let moved := placed.map fun s : Stop α => { s with position := unitPosition s.position }
    let sorted := moved.mergeSort fun a b => a.position ≤ b.position
    have hne : sorted ≠ [] := by
      rw [← List.length_pos_iff, List.length_mergeSort, List.length_map, hlength, List.length_map]
      exact List.length_pos_iff.mpr hs
    have hunit : ∀ a ∈ sorted, a.position ∈ Set.Icc 0 1 := by
      intro a ha
      obtain ⟨b, -, rfl⟩ := List.mem_map.mp (List.mem_mergeSort.mp ha)
      exact unitPosition_mem b.position
    have hsorted : sorted.Pairwise fun a b => a.position ≤ b.position := by
      refine (List.pairwise_mergeSort (fun a b c hab hbc => ?_) (fun a b => ?_) moved).imp of_decide_eq_true
      · exact decide_eq_true ((of_decide_eq_true hab).trans (of_decide_eq_true hbc))
      · simpa using le_total a.position b.position
    obtain ⟨padded, hpadded, hspans⟩ := padEnds_spans hne hunit hsorted
    exact ⟨padded, bind_eq_ok.mpr ⟨placed, hplaced, hpadded⟩, hspans⟩

/-! ### Colours -/

theorem width_pos (width : α) : 0 < max 1e-6 width :=
  lt_max_of_lt_left (Scalar.literal_pos 6 (m := 1) (by decide))

/-- The width is kept away from 0, so that coinciding stops divide by no zero. -/
theorem share_eq (a width : α) : Scalar.divide a (Scalar.larger 1e-6 width) = .ok (a / max 1e-6 width) := by
  rw [Scalar.larger_eq_max, Scalar.divide_of_ne_zero (width_pos width).ne']

/-- Any point between the ends lies between two neighbours. -/
theorem colourBetween_eq {t : α} (hlength : 2 ≤ stops.length) (hfirst : ∀ a ∈ stops.head?, a.position ≤ t)
    (hlast : ∀ a ∈ stops.getLast?, t ≤ a.position) :
    ∃ before a b after, stops = before ++ a :: b :: after ∧ a.position ≤ t ∧ t ≤ b.position ∧
      colourBetween t stops = mixChars a.colour b.colour ((t - a.position) / max 1e-6 (b.position - a.position)) := by
  fun_induction colourBetween t stops with
  | case1 => simp at hlength
  | case2 a => simp at hlength
  | case3 a b stops h =>
    obtain ⟨ha, hb⟩ : a.position ≤ t ∧ t ≤ b.position := by simpa using h
    refine ⟨[], a, b, stops, rfl, ha, hb, ?_⟩
    rw [share_eq, ok_bind]
  | case4 a b stops h ih =>
    have ha : a.position ≤ t := hfirst a rfl
    have hb : ¬t ≤ b.position := by simpa [ha] using h
    have hstops : stops ≠ [] := by
      rintro rfl
      exact hb (hlast b rfl)
    obtain ⟨before, c, d, after, hsplit, hc, hd, hcolour⟩ := ih
      (Nat.succ_le_succ (List.length_pos_iff.mpr hstops)) (by simpa using (not_le.mp hb).le) (by simpa using hlast)
    exact ⟨a :: before, c, d, after, congrArg (a :: ·) hsplit, hc, hd, hcolour⟩

/-- At a stop the pair that it ends comes before the one that it begins. -/
theorem colourBetween_end {before after : List (Stop α)} {p a : Stop α}
    (hbefore : ∀ q ∈ before ++ [p], q.position < a.position) :
    colourBetween a.position (before ++ p :: a :: after) =
      mixChars p.colour a.colour ((a.position - p.position) / max 1e-6 (a.position - p.position)) := by
  induction before with
  | nil =>
    have hp : p.position < a.position := hbefore p (List.mem_singleton_self p)
    rw [List.nil_append, colourBetween, if_pos (by simp [hp.le]), share_eq, ok_bind]
  | cons q before ih =>
    obtain ⟨n, rest, hrest⟩ : ∃ n rest, before ++ p :: a :: after = n :: rest :=
      List.exists_cons_of_ne_nil (by simp)
    have hn : n ∈ before ++ [p] := by
      cases before with
      | nil => simpa using (List.cons.inj hrest).1.symm
      | cons m before => simp [← (List.cons.inj hrest).1]
    have hlt : n.position < a.position := hbefore n (List.mem_cons_of_mem q hn)
    rw [List.cons_append, hrest, colourBetween, if_neg (by simp [hlt]), ← hrest]
    exact ih fun r hr => hbefore r (List.mem_cons_of_mem q hr)

theorem colourAt_eq (stops : List (Stop α)) (t : α) : colourAt stops t = colourBetween (Scalar.clampUnit t) stops := by
  rw [colourAt, LawfulScalar.isFinite_eq, if_pos rfl]

end

section

variable {α : Type} [IntegralScalar α] {stops : List (Stop α)}

/-- At `t` a gradient has a colour, which is written in six digits and lies between those of two neighbouring
stops around `t`, as far as it is within the unit interval. -/
def MixedAt (stops : List (Stop α)) (t : α) : Prop :=
  ∃ before a b after text, stops = before ++ a :: b :: after ∧
    a.position ≤ Scalar.clampUnit t ∧ Scalar.clampUnit t ≤ b.position ∧ colourAt stops t = .ok text ∧
    IsColourText text ∧ (Rgb.ofChars a.colour).Between (Rgb.ofChars b.colour) (Rgb.ofChars text)

theorem Spans.mixedAt (h : Spans stops) (t : α) : MixedAt stops t := by
  obtain ⟨hzero, hone⟩ := Scalar.clampUnit_mem t
  obtain ⟨first, hfirst, hfirstPosition⟩ := Option.map_eq_some_iff.mp h.first
  obtain ⟨last, hlast, hlastPosition⟩ := Option.map_eq_some_iff.mp h.last
  obtain ⟨before, a, b, after, hsplit, ha, hb, hcolour⟩ := colourBetween_eq (t := Scalar.clampUnit t)
    h.two_le_length (by simpa [hfirst, hfirstPosition] using hzero) (by simpa [hlast, hlastPosition] using hone)
  have hwidth := width_pos (b.position - a.position)
  have hshare : (Scalar.clampUnit t - a.position) / max 1e-6 (b.position - a.position) ∈ Set.Icc 0 1 :=
    ⟨div_nonneg (sub_nonneg.mpr ha) hwidth.le,
      (div_le_one hwidth).mpr ((sub_le_sub_right hb a.position).trans (le_max_right _ _))⟩
  have hbetween := Rgb.at_between (Rgb.ofChars a.colour) (Rgb.ofChars b.colour) hshare
  have hbytes := hbetween.bytes (Rgb.ofChars_bytes _) (Rgb.ofChars_bytes _)
  refine ⟨before, a, b, after, _, hsplit, ha, hb, ?_, hbytes.isColourText, ?_⟩
  · rw [colourAt_eq, hcolour, mixChars_eq]
  · rw [hbytes.ofChars_toChars]
    exact hbetween

theorem Spans.colourAt_stop (h : Spans stops) {before after : List (Stop α)} {a : Stop α}
    (hsplit : stops = before ++ a :: after) (hgap : ∀ p ∈ before.getLast?, 1e-6 ≤ a.position - p.position) :
    colourAt stops a.position = .ok (Rgb.ofChars a.colour).toChars := by
  have hmem : a ∈ stops := by simp [hsplit]
  have hsmall : 0 < (1e-6 : α) := Scalar.literal_pos 6 (m := 1) (by decide)
  rw [colourAt_eq, Scalar.clampUnit_eq_self (h.mem_unit hmem)]
  obtain rfl | ⟨before, p, rfl⟩ := before.eq_nil_or_concat
  · obtain ⟨b, after, rfl⟩ : ∃ b rest, after = b :: rest := by
      refine List.exists_cons_of_ne_nil fun hafter => ?_
      have := h.two_le_length
      simp [hsplit, hafter] at this
    have hb : a.position ≤ b.position := by
      have hsorted := h.sorted
      rw [hsplit] at hsorted
      exact (List.pairwise_cons.mp hsorted).1 b List.mem_cons_self
    rw [hsplit, List.nil_append, colourBetween, if_pos (by simp [hb]), share_eq, ok_bind, sub_self, zero_div,
      mixChars_eq, Rgb.at_zero]
  · have hp : 1e-6 ≤ a.position - p.position := hgap p (by simp)
    have hlt : p.position < a.position := sub_pos.mp (hsmall.trans_le hp)
    have hbefore : ∀ q ∈ before ++ [p], q.position < a.position := by
      have hsorted := h.sorted
      rw [hsplit, List.concat_eq_append, List.append_assoc] at hsorted
      intro q hq
      rcases List.mem_append.mp hq with hq | hq
      · exact ((List.pairwise_append.mp hsorted).2.2 q hq p List.mem_cons_self).trans_lt hlt
      · rwa [List.mem_singleton.mp hq]
    rw [hsplit, List.concat_eq_append, List.append_assoc, List.singleton_append, colourBetween_end hbefore,
      max_eq_right hp, div_self (hsmall.trans_le hp).ne', mixChars_eq, Rgb.at_one]

theorem colourAt_of_not_finite (stops : List (Stop Float)) {t : Float} (ht : Scalar.isFinite t = false) :
    colourAt stops t = colourAt stops 0.0 := by
  have hzero : Scalar.isFinite (0.0 : Float) = true := by decide +kernel
  rw [colourAt, colourAt, ht, hzero]
  rfl

/-- Positions can be written in any way: whatever number each of them is read as, the stops are in order and a
stop that is not too close behind another one shows its own colour. That is the one whose six digits are written
at the stop. -/
theorem written_gradient_interpolates {s : List Char} (hs : writtenStops s ≠ []) :
    (∃ stops : List (Stop α), readStops s = .ok stops ∧ Spans stops ∧ (∀ t, MixedAt stops t) ∧
      (∀ a ∈ stops, ∀ c : Rgb, c.Bytes → a.colour = c.toChars → Rgb.ofChars a.colour = c) ∧
      ∀ before a after, stops = before ++ a :: after →
        (∀ p ∈ before.getLast?, 1e-6 ≤ a.position - p.position) →
        colourAt stops a.position = .ok (Rgb.ofChars a.colour).toChars) ∧
    ∀ (stops : List (Stop Float)) (t : Float), Scalar.isFinite t = false →
      colourAt stops t = colourAt stops 0.0 := by
  obtain ⟨stops, hstops, hspans⟩ := readStops_spans (α := α) hs
  have hdenoted : ∀ a ∈ stops, ∀ c : Rgb, c.Bytes → a.colour = c.toChars → Rgb.ofChars a.colour = c :=
    fun a _ c hc hwritten => hwritten ▸ hc.ofChars_toChars
  exact ⟨⟨stops, hstops, hspans, hspans.mixedAt, hdenoted, fun _ _ _ => hspans.colourAt_stop⟩,
    fun stops _ ht => colourAt_of_not_finite stops ht⟩

theorem written_gradient_interpolates_unsorted : ∃ stops : List (Stop ℚ),
    readStops ("#0F0@2, red, #00f@-1".toList) = .ok stops ∧ Spans stops ∧ ∀ t, MixedAt stops t :=
  have hs : writtenStops "#0F0@2, red, #00f@-1".toList ≠ [] := by decide
  have ⟨⟨stops, hstops, hspans, hmixed, _, _⟩, _⟩ := written_gradient_interpolates (α := ℚ) hs
  ⟨stops, hstops, hspans, hmixed⟩

end

end FieldPlot.Colour
