import Mathlib.Data.Int.Notation
import Mathlib.Data.Nat.Notation
import FieldPlot.Colour.Hex

/-! Colours as texts of six digits. Any text is read as three bytes, three bytes are written as six upper case
digits, and what is written is read back. -/

namespace FieldPlot.Colour

open Number (natOf readHex? plainChar plainChars isHexDigit dropUnderscores? dropHexMark splitSign)

/-- The digits that colours are written in. -/
def hexDigits : List Char :=
  ['0', '1', '2', '3', '4', '5', '6', '7', '8', '9', 'A', 'B', 'C', 'D', 'E', 'F']

/-- A number sign before six upper case hexadecimal digits. -/
def IsColourText (s : List Char) : Prop :=
  ∃ digits, s = '#' :: digits ∧ digits.length = 6 ∧ ∀ c ∈ digits, c ∈ hexDigits

/-- Three channels of a byte each. -/
structure Rgb.Bytes (c : Rgb) : Prop where
  red : 0 ≤ c.red ∧ c.red ≤ 255
  green : 0 ≤ c.green ∧ c.green ≤ 255
  blue : 0 ≤ c.blue ∧ c.blue ≤ 255

theorem Rgb.ofNumber_bytes (n : ℤ) : (Rgb.ofNumber n).Bytes := by
  constructor <;> simp only [Rgb.ofNumber] <;> omega

theorem Rgb.ofChars_bytes (s : List Char) : (Rgb.ofChars s).Bytes := by
  unfold Rgb.ofChars
  dsimp only
  split
  · exact Rgb.ofNumber_bytes _
  · exact ⟨by decide, by decide, by decide⟩

/-! ### Writing -/

/-- The digit of a number below 16. -/
def hexDigit (n : ℕ) : Char :=
  hexDigits.getD n '0'

theorem hexDigit_mem : ∀ n < 16, hexDigit n ∈ hexDigits := by
  decide

theorem channelChars_eq : ∀ n < 256, channelChars (Int.ofNat n) = [hexDigit (n / 16), hexDigit (n % 16)] := by
  decide +kernel

theorem channelChars_of_byte {n : ℤ} (h : 0 ≤ n ∧ n ≤ 255) :
    ∃ high low : ℕ, high < 16 ∧ low < 16 ∧ n = 16 * high + low ∧
      channelChars n = [hexDigit high, hexDigit low] := by
  obtain ⟨n, rfl⟩ := Int.eq_ofNat_of_zero_le h.1
  have hlt : n < 256 := by omega
  exact ⟨n / 16, n % 16, by omega, by omega, by omega, channelChars_eq n hlt⟩

theorem Rgb.Bytes.isColourText {c : Rgb} (h : c.Bytes) : IsColourText c.toChars := by
  obtain ⟨r, r', hr, hr', -, hred⟩ := channelChars_of_byte h.red
  obtain ⟨g, g', hg, hg', -, hgreen⟩ := channelChars_of_byte h.green
  obtain ⟨b, b', hb, hb', -, hblue⟩ := channelChars_of_byte h.blue
  rw [toChars, hred, hgreen, hblue]
  refine ⟨_, rfl, rfl, ?_⟩
  simp [hexDigit_mem, hr, hr', hg, hg', hb, hb']

/-! ### Reading what is written -/

/-- Characters that stand for themselves in a hexadecimal number. -/
structure Plain (c : Char) : Prop where
  plainChar_eq : plainChar c = c
  not_blank : Text.isBlank c = false
  isHexDigit_eq : isHexDigit c = true
  ne_underscore : c ≠ '_'
  ne_numberSign : c ≠ '#'
  ne_minus : c ≠ '-'
  ne_plus : c ≠ '+'
  ne_mark : c.toLower ≠ 'x'

theorem plain_of_mem {c : Char} (hc : c ∈ hexDigits) : Plain c := by
  have hall : (hexDigits.all fun c => decide (plainChar c = c ∧ Text.isBlank c = false ∧ isHexDigit c = true ∧
      c ≠ '_' ∧ c ≠ '#' ∧ c ≠ '-' ∧ c ≠ '+' ∧ c.toLower ≠ 'x')) = true := by decide
  obtain ⟨hchar, hblank, hdigit, hunderscore, hsign, hminus, hplus, hmark⟩ :=
    of_decide_eq_true (List.all_eq_true.mp hall c hc)
  exact ⟨hchar, hblank, hdigit, hunderscore, hsign, hminus, hplus, hmark⟩

theorem trimBoth_eq_self {p : Char → Bool} {s : List Char} (hs : ∀ c ∈ s, p c = false) :
    Text.trimBoth p s = s := by
  have hdrop : ∀ l : List Char, (∀ c ∈ l, p c = false) → l.dropWhile p = l := by
    intro l hl
    cases l with
    | nil => rfl
    | cons c l => rw [List.dropWhile_cons_of_neg (by simp [hl])]
  rw [Text.trimBoth, hdrop s hs, hdrop s.reverse (by simpa using hs), List.reverse_reverse]

theorem dropHexMark_eq_self {s : List Char} (hs : ∀ c ∈ s, c.toLower ≠ 'x') : dropHexMark s = s := by
  unfold dropHexMark
  split
  · rw [if_neg (hs _ (by simp))]
  · rw [if_neg (hs _ (by simp))]
  · rfl

theorem dropUnderscores?_eq_some {s : List Char} (hs : ∀ c ∈ s, c ≠ '_') (isDigit : Char → Bool) (after : Bool) :
    dropUnderscores? isDigit after s = some s := by
  induction s generalizing after with
  | nil => rfl
  | cons c s ih =>
    have hc : c ≠ '_' := hs c List.mem_cons_self
    unfold dropUnderscores?
    split
    · next heq => cases heq
    · next heq => exact absurd (List.cons.inj heq).1 hc
    · next d rest _ heq =>
      obtain ⟨rfl, rfl⟩ := List.cons.inj heq
      rw [ih fun d hd => hs d (List.mem_cons_of_mem _ hd)]
      rfl

theorem splitSign_eq_self {s : List Char} (hs : ∀ c ∈ s, c ≠ '-' ∧ c ≠ '+') : splitSign s = (false, s) := by
  unfold splitSign
  split
  · exact absurd rfl (hs '-' List.mem_cons_self).1
  · exact absurd rfl (hs '+' List.mem_cons_self).2
  · rfl

theorem readHex?_of_plain {s : List Char} (hne : s ≠ []) (hs : ∀ c ∈ s, Plain c) :
    readHex? s = some (natOf 16 s : ℤ) := by
  have htrim : plainChars s = s := by
    rw [plainChars, List.map_congr_left fun c hc => (hs c hc).plainChar_eq, List.map_id']
    exact trimBoth_eq_self fun c hc => by rw [Text.isNumericBlank, (hs c hc).not_blank, Bool.false_and]
  rw [readHex?, htrim, splitSign_eq_self fun c hc => ⟨(hs c hc).ne_minus, (hs c hc).ne_plus⟩]
  dsimp only
  rw [dropHexMark_eq_self fun c hc => (hs c hc).ne_mark, dropUnderscores?_eq_some fun c hc => (hs c hc).ne_underscore]
  simpa using ⟨hne, fun c hc => (hs c hc).isHexDigit_eq⟩

theorem hexDigit_value : ∀ n < 16, (if (hexDigit n).isDigit then (hexDigit n).toNat - '0'.toNat
    else (hexDigit n).toLower.toNat - 'a'.toNat + 10) = n := by
  decide

theorem Rgb.Bytes.ofChars_toChars {c : Rgb} (h : c.Bytes) : Rgb.ofChars c.toChars = c := by
  obtain ⟨r, r', hr, hr', hredValue, hred⟩ := channelChars_of_byte h.red
  obtain ⟨g, g', hg, hg', hgreenValue, hgreen⟩ := channelChars_of_byte h.green
  obtain ⟨b, b', hb, hb', hblueValue, hblue⟩ := channelChars_of_byte h.blue
  let digits := [hexDigit r, hexDigit r', hexDigit g, hexDigit g', hexDigit b, hexDigit b']
  have hplain : ∀ c ∈ digits, Plain c := by
    simp [digits, plain_of_mem, hexDigit_mem, hr, hr', hg, hg', hb, hb']
  have htext : c.toChars = '#' :: digits := by
    rw [toChars, hred, hgreen, hblue]
    rfl
  have htrim : Text.trim ('#' :: digits) = '#' :: digits :=
    trimBoth_eq_self (List.forall_mem_cons.mpr ⟨by decide, fun c hc => (hplain c hc).not_blank⟩)
  have hdrop : ('#' :: digits).dropWhile (· = '#') = digits := by
    rw [List.dropWhile_cons_of_pos (by decide), List.dropWhile_cons_of_neg]
    simpa using (hplain _ List.mem_cons_self).ne_numberSign
  have hvalue : natOf 16 digits = (16 * r + r') * 65536 + (16 * g + g') * 256 + (16 * b + b') := by
    simp only [natOf, digits, List.foldl, hexDigit_value _ hr, hexDigit_value _ hr', hexDigit_value _ hg,
      hexDigit_value _ hg', hexDigit_value _ hb, hexDigit_value _ hb']
    omega
  unfold ofChars
  dsimp only
  rw [htext, htrim, hdrop, if_neg (show digits.length ≠ 3 from (by decide : 6 ≠ 3)),
    readHex?_of_plain (List.cons_ne_nil _ _) hplain, hvalue]
  cases c
  simp only [ofNumber, Rgb.mk.injEq]
  dsimp only at hredValue hgreenValue hblueValue
  omega

end FieldPlot.Colour
