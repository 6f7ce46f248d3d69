import Mathlib.Tactic.Positivity
import Mathlib.Tactic.Ring
import TemplateLexer.Numeral.Shortest
import TemplateLexer.Proofs.Grammar

/-! The text of a number reads back as the number. Rounding finds a magnitude again from any multiple
of its units, so the last grid of the search always answers; the grids before it are asked. -/
namespace TemplateLexer

namespace Binary64

theorem leadingBit_eq : leadingBit = 2 ^ 52 := by decide

theorem roundHalfEven_mul (n : Nat) {den : Nat} (pos : 0 < den) :
    roundHalfEven (n * den) den = n := by
  simp [roundHalfEven, Nat.mul_div_cancel n pos, pos]

theorem log2_small {magnitude : Nat} (small : magnitude < leadingBit) : magnitude.log2 < 52 := by
  by_cases zero : magnitude = 0
  · simp [zero]
  · rwa [Nat.log2_lt zero, ← leadingBit_eq]

theorem log2_shifted {fraction shift : Nat} (less : fraction < leadingBit) :
    ((leadingBit + fraction) <<< shift).log2 = 52 + shift := by
  have pos : 0 < 2 ^ shift := Nat.two_pow_pos shift
  rw [leadingBit_eq] at less ⊢
  rw [Nat.shiftLeft_eq, Nat.log2_eq_iff (by positivity)]
  constructor
  · rw [Nat.pow_add]
    exact Nat.mul_le_mul_right _ (by omega)
  · calc (2 ^ 52 + fraction) * 2 ^ shift < (2 ^ 52 * 2) * 2 ^ shift :=
          Nat.mul_lt_mul_of_pos_right (by omega) pos
      _ = 2 ^ (52 + shift + 1) := by ring

theorem nearest_eq (num den : Nat) : nearest num den =
    min (((num / den).log2 - 52) * leadingBit +
      roundHalfEven num (den <<< ((num / den).log2 - 52))) infinity := rfl

theorem nearest_units {magnitude k : Nat} (finite : magnitude < infinity) (pos : 0 < k) :
    nearest (units magnitude * k) k = magnitude := by
  rw [nearest_eq, Nat.mul_div_cancel _ pos]
  by_cases small : magnitude < leadingBit
  · have scale : magnitude.log2 - 52 = 0 := by
      have := log2_small small
      omega
    simp [units, small, scale, roundHalfEven_mul magnitude pos, Nat.le_of_lt finite]
  · have normal : 1 ≤ magnitude / leadingBit :=
      (Nat.le_div_iff_mul_le (by decide)).mpr (by omega)
    have less : magnitude % leadingBit < leadingBit := Nat.mod_lt _ (by decide)
    have divided := Nat.div_add_mod magnitude leadingBit
    obtain ⟨exponent, high⟩ : ∃ exponent, magnitude / leadingBit = exponent + 1 :=
      ⟨_, (Nat.sub_add_cancel normal).symm⟩
    rw [high, Nat.mul_succ] at divided
    have value : units magnitude = (leadingBit + magnitude % leadingBit) <<< exponent := by
      simp [units, small, high]
    have scaled : units magnitude * k =
        (leadingBit + magnitude % leadingBit) * (k <<< exponent) := by
      rw [value, Nat.shiftLeft_eq, Nat.shiftLeft_eq]
      ring
    have scale : (units magnitude).log2 - 52 = exponent := by
      rw [value, log2_shifted less]
      omega
    have steps : 0 < k <<< exponent := by
      rw [Nat.shiftLeft_eq]
      positivity
    rw [scale, scaled, roundHalfEven_mul _ steps, Nat.min_eq_left]
    · rw [Nat.mul_comm exponent]; omega
    · rw [Nat.mul_comm exponent]; omega

theorem tenTo_pos (n : Nat) : 0 < Decimal.tenTo n := Nat.pow_pos (by decide)

theorem shiftLeft_fives (n k : Nat) : (n * Nat.pow 5 k) <<< k = n * Decimal.tenTo k := by
  rw [Nat.shiftLeft_eq, Nat.mul_assoc]
  exact congrArg (n * ·) (Nat.mul_pow 5 2 k).symm

theorem gridPoint_zero (index : Nat) : gridPoint 0 index = ⟨index, leastExponent⟩ := by
  rw [gridPoint, Nat.zero_sub, Nat.sub_zero]
  simp [Decimal.tenTo]

theorem magnitudeOfDecimal_finest {magnitude : Nat} (finite : magnitude < infinity) :
    magnitudeOfDecimal (gridPoint 0 (fineUnits magnitude)) = magnitude := by
  rw [gridPoint_zero, magnitudeOfDecimal, fineUnits, shiftLeft_fives]
  exact nearest_units finite (tenTo_pos leastExponent)

/-- The shortest decimal reads back. -/
theorem magnitudeOfDecimal_shortest {magnitude : Nat} (finite : magnitude < infinity) :
    magnitudeOfDecimal (shortest magnitude) = magnitude := by
  unfold shortest
  split
  next zero => subst zero; rfl
  · apply firstOnGrids_induction (p := fun d => magnitudeOfDecimal d = magnitude) _
      (magnitudeOfDecimal_finest finite)
    intro j d picked
    simpa [readsBack] using accepted_of_chooseAccepted picked

end Binary64

namespace Decimal

theorem allDigits_digits (d : Decimal) : AllDigits d.digits := by
  intro c member
  rcases List.mem_append.mp member with zero | digit
  · rw [List.eq_of_mem_replicate zero]
    rfl
  · exact Nat.isDigit_of_mem_toDigits (by decide) (by decide) digit

theorem places_lt_length_digits (d : Decimal) : d.places < d.digits.length := by
  rw [digits, List.length_leftpad]
  omega

theorem ofDigitChars_digits (d : Decimal) : Nat.ofDigitChars 10 d.digits 0 = d.coefficient := by
  rw [digits, List.leftpad, Nat.ofDigitChars_append, Nat.ofDigitChars_replicate_zero, Nat.mul_zero,
    Nat.ofDigitChars_ten_toDigits]

/-- The text of a decimal is written as numbers are, and stands for the decimal itself. -/
theorem spells_text (d : Decimal) : Spells d.text (.number (.ofDecimal d)) := by
  have digits := d.allDigits_digits
  have enough := d.places_lt_length_digits
  unfold text
  split
  next none =>
    have value : ofDigits d.digits [] = d := by
      rw [ofDigits, List.append_nil, ofDigitChars_digits, List.length_nil, ← none]
    have spells := Spells.whole (List.ne_nil_of_length_pos (Nat.zero_lt_of_lt enough)) digits
    rwa [value] at spells
  · dsimp only
    generalize cut : d.digits.length - d.places = split
    have value : ofDigits (d.digits.take split) (d.digits.drop split) = d := by
      rw [ofDigits, List.take_append_drop, ofDigitChars_digits, List.length_drop, ← cut,
        Nat.sub_sub_self (Nat.le_of_lt enough)]
    have nonempty : d.digits.take split ≠ [] := by
      apply List.ne_nil_of_length_pos
      rw [List.length_take]
      omega
    have spells : Spells (d.digits.take split ++ '.' :: d.digits.drop split) _ :=
      .decimal nonempty (fun c member => digits c (List.mem_of_mem_take member))
        (fun c member => digits c (List.mem_of_mem_drop member))
    rwa [value] at spells

end Decimal

namespace Binary64

theorem text_of_finite {x : Binary64} (positive : x.negative = false)
    (finite : x.magnitude < infinity) : x.text = (shortest x.magnitude).text := by
  have number : x.isNaN = false := by simpa [isNaN] using Nat.le_of_lt finite
  have bounded : x.isInfinite = false := by simpa [isInfinite] using Nat.ne_of_lt finite
  simp [text, number, bounded, positive]

theorem spells_text {x : Binary64} (positive : x.negative = false)
    (finite : x.magnitude < infinity) :
    Spells x.text (.number x) := by
  have same : ofDecimal (shortest x.magnitude) = x := by
    obtain ⟨negative, magnitude, less⟩ := x
    cases positive
    simp [ofDecimal, magnitudeOfDecimal_shortest finite]
  have spells := (shortest x.magnitude).spells_text
  rwa [same, ← text_of_finite positive finite] at spells

theorem text_of_infinite {x : Binary64} (positive : x.negative = false) (infinite : x.isInfinite) :
    x.text = ['i', 'n', 'f'] := by
  have number : x.isNaN = false := by
    have : x.magnitude = infinity := by simpa [isInfinite] using infinite
    simp [isNaN, this]
  simp [text, number, infinite, positive]

end Binary64

end TemplateLexer
