/-
# What packed numbers stand for

A packed number is a number of binary steps since the epoch. Unpacking it
rounds twice: to steps of the rounding digits, and from these to microseconds.
The quotient is rounded to twenty-eight digits before that, but these are so
many that the decimal steps are the ones of the exact quotient. Up to six
digits the second rounding changes nothing. Both keep the order, so packed
numbers sort like what they stand for, even where a fraction is rounded up into
the next second; and neither moves a time by more than half of what it rounds
to.

A packed number that is not negative stands for a duration that is not
negative, and whole seconds come back as they were.

Key definitions: `Timestamp.exactMicros`, `Timestamp.decimalSteps`.
Key theorems: `Timestamp.halfUp_decimal`, `Timestamp.decimalSteps_eq_halfUp`,
`Timestamp.unpackMicros_eq_decimalSteps`, `Timestamp.decimalSteps_micros_error`,
`Timestamp.unpackMicros_sub_decimalSteps`, `Timestamp.unpackMicros_mono`,
`Timestamp.unpackMicros_seconds`.
-/
import ChronoId.Timestamp
import ChronoId.Proofs.Rounding

namespace ChronoId
namespace Timestamp

open Rounding

theorem fractionMicros_nonneg (bits digits : Nat) {steps : Int} (h : 0 ≤ steps) :
    0 ≤ fractionMicros bits digits steps := by
  have hquotient : 0 ≤ decimal ((steps : Rat) / (Nat.pow 2 bits : Nat)) :=
    decimal_nonneg (div_nonneg (by exact_mod_cast h) (Nat.cast_nonneg _))
  have hunit : (0 : Rat) ≤ (Nat.pow 10 digits : Nat) := Nat.cast_nonneg _
  have hfraction := halfUp_nonneg (mul_nonneg hquotient hunit)
  have hnanos := halfUp_nonneg (mul_nonneg (div_nonneg (Int.cast_nonneg hfraction) hunit)
    (by norm_num : (0 : Rat) ≤ 1000000000))
  simp only [fractionMicros]
  omega

theorem fractionMicros_zero (bits digits : Nat) : fractionMicros bits digits 0 = 0 := by
  simp only [fractionMicros, Int.cast_zero, zero_div, decimal, significant_zero, zero_mul, halfUp_zero]
  rfl

theorem unpackMicros_nonneg (bits digits packed : Nat) : 0 ≤ unpackMicros bits digits packed := by
  unfold unpackMicros
  split
  · positivity
  · have hpow : ((Nat.pow 2 bits : Nat) : Int) ≠ 0 := by
      rw [Nat.pow_eq]
      positivity
    have hsteps := fractionMicros_nonneg bits digits (Int.emod_nonneg (packed : Int) hpow)
    have hseconds : 0 ≤ (packed : Int) / (Nat.pow 2 bits : Nat) := by positivity
    omega

/-- Whole seconds are unpacked as they are. -/
theorem unpackMicros_seconds (bits digits : Nat) (seconds : Int) :
    unpackMicros bits digits (seconds * 2 ^ bits) = seconds * 1000000 := by
  unfold unpackMicros
  split
  · next h => rw [h, pow_zero, mul_one]
  · have hpow : (2 : Int) ^ bits ≠ 0 := by positivity
    rw [Nat.pow_eq, Nat.cast_pow, Nat.cast_ofNat, Int.mul_ediv_cancel _ hpow, Int.mul_emod_left,
      fractionMicros_zero, add_zero]

/-! ### The digits of the quotient

The quotient is rounded to twenty-eight digits before it is rounded to decimal
steps. If it is halfway between two steps it has few digits, and otherwise it
is further from halfway than the twenty-eight digits are from it.
-/

section Quotient

variable {bits digits steps : Nat}

/-- Twice the decimal steps and one, in binary steps: the numerator whose
quotient by `2 ^ (bits + 1)` is the number of decimal steps, rounded half
up. -/
def decimalNumerator (bits digits steps : Nat) : Nat := steps * 10 ^ digits * 2 + 2 ^ bits

theorem quotient_add_half : (steps : Rat) / 2 ^ bits * 10 ^ digits + 1 / 2 =
    (decimalNumerator bits digits steps : Rat) / (2 ^ (bits + 1) : Nat) := by
  rw [decimalNumerator]
  push_cast
  rw [pow_succ]
  field_simp

theorem two_pow_dvd_decimalNumerator (h : digits < bits) :
    2 ^ (digits + 1) ∣ decimalNumerator bits digits steps := by
  have hten : (10 : Nat) ^ digits = 2 ^ digits * 5 ^ digits := by rw [← Nat.mul_pow]
  obtain ⟨k, rfl⟩ := Nat.exists_eq_add_of_lt h
  refine ⟨steps * 5 ^ digits + 2 ^ k, ?_⟩
  rw [decimalNumerator, hten]
  ring

/-- A quotient halfway between two decimal steps has few decimal places. -/
theorem decimal_of_tie (hd : digits ≤ 9) (hs : steps < 2 ^ bits)
    (h : decimalNumerator bits digits steps % 2 ^ (bits + 1) = 0) :
    decimal ((steps : Rat) / 2 ^ bits) = steps / 2 ^ bits := by
  obtain ⟨K, hK⟩ := Nat.dvd_of_mod_eq_zero h
  rw [decimalNumerator, pow_succ] at hK
  have hpos : 0 < K := by
    have hpow : 0 < 2 ^ bits := by positivity
    apply Nat.pos_of_ne_zero
    rintro rfl
    omega
  have hodd : (2 * K - 1) * 2 ^ bits = 2 * (steps * 10 ^ digits) := by
    have hcomm : 2 ^ bits * 2 * K = 2 * K * 2 ^ bits := by ring
    rw [Nat.sub_mul, one_mul]
    omega
  have hshape : (steps : Rat) / 2 ^ bits = (((2 * K - 1) * 5 : Nat) : Rat) / 10 ^ (digits + 1) := by
    have hodd' : ((2 * K - 1 : Nat) : Rat) * 2 ^ bits = 2 * (steps * 10 ^ digits) := by
      exact_mod_cast hodd
    rw [div_eq_div_iff (by positivity) (by positivity), pow_succ]
    push_cast
    linarith
  have hten : 10 ^ digits ≤ 10 ^ 9 := Nat.pow_le_pow_right (by norm_num) hd
  have hlt : 2 * K - 1 < 2 * 10 ^ digits := by
    have hmul : (2 * K - 1) * 2 ^ bits < 2 * 10 ^ digits * 2 ^ bits := by
      rw [hodd]
      have := Nat.mul_lt_mul_of_pos_right hs (by positivity : 0 < 10 ^ digits)
      linarith
    exact Nat.lt_of_mul_lt_mul_right hmul
  rw [hshape]
  exact decimal_places (by omega) _

/-- Away from the ties the quotient is further from one than its twenty-eight
digits are from it. -/
theorem decimal_error_lt_gap (hb : bits ≤ 62) (hd : digits ≤ 9) (hs : steps < 2 ^ bits) :
    |decimal ((steps : Rat) / 2 ^ bits) * 10 ^ digits + 1 / 2 -
      (decimalNumerator bits digits steps : Rat) / (2 ^ (bits + 1) : Nat)| <
        ((2 ^ (digits + 1) : Nat) : Rat) / (2 ^ (bits + 1) : Nat) := by
  have hlt : (steps : Rat) / 2 ^ bits < 1 := by
    rw [div_lt_one (by positivity)]
    exact_mod_cast hs
  have herr := decimal_error (by positivity) hlt
  have hten : (0 : Rat) < 10 ^ digits := by positivity
  have hsplit : decimal ((steps : Rat) / 2 ^ bits) * 10 ^ digits + 1 / 2 -
      ((steps : Rat) / 2 ^ bits * 10 ^ digits + 1 / 2) =
      (decimal ((steps : Rat) / 2 ^ bits) - (steps : Rat) / 2 ^ bits) * 10 ^ digits := by ring
  rw [← quotient_add_half, hsplit, abs_mul, abs_of_pos hten]
  have hfive : (5 : Rat) ^ digits * 2 ^ bits < 10 ^ 28 := by
    calc (5 : Rat) ^ digits * 2 ^ bits ≤ 5 ^ 9 * 2 ^ 62 := by gcongr <;> norm_num
      _ < 10 ^ 28 := by norm_num
  calc |decimal ((steps : Rat) / 2 ^ bits) - (steps : Rat) / 2 ^ bits| * 10 ^ digits
      ≤ 1 / 10 ^ 28 * 10 ^ digits := mul_le_mul_of_nonneg_right herr hten.le
    _ = 2 ^ digits / 2 ^ bits * (5 ^ digits * 2 ^ bits / 10 ^ 28) := by
        rw [show (10 : Rat) ^ digits = 2 ^ digits * 5 ^ digits by rw [← mul_pow]; norm_num]
        field_simp
    _ < 2 ^ digits / 2 ^ bits * 1 :=
        mul_lt_mul_of_pos_left ((div_lt_one (by norm_num)).mpr hfive) (by positivity)
    _ = ((2 ^ (digits + 1) : Nat) : Rat) / (2 ^ (bits + 1) : Nat) := by
        push_cast
        rw [pow_succ, pow_succ]
        field_simp

/-- The twenty-eight digits of the quotient do not change the decimal steps that
it is rounded to. -/
theorem halfUp_decimal (hb : bits ≤ 62) (hd : digits ≤ 9) (hs : steps < 2 ^ bits) :
    halfUp (decimal ((steps : Rat) / 2 ^ bits) * 10 ^ digits) =
      halfUp ((steps : Rat) / 2 ^ bits * 10 ^ digits) := by
  rcases Nat.lt_or_ge digits bits with hlt | hge
  · by_cases hr : decimalNumerator bits digits steps % 2 ^ (bits + 1) = 0
    · rw [decimal_of_tie hd hs hr]
    · have hdenominator : 2 ^ (digits + 1) ∣ 2 ^ (bits + 1) := Nat.pow_dvd_pow 2 (by omega)
      rw [halfUp, halfUp, quotient_add_half, floor_natCast_div]
      exact floor_eq_of_gap (two_pow_dvd_decimalNumerator hlt) hdenominator (by positivity) hr
        (decimal_error_lt_gap hb hd hs)
  · rw [decimal_exact (by omega) hs]

theorem halfUp_decimal_emod (hb : bits ≤ 62) (hd : digits ≤ 9) (packed : Int) :
    halfUp (decimal (((packed % 2 ^ bits : Int) : Rat) / 2 ^ bits) * 10 ^ digits) =
      halfUp (((packed % 2 ^ bits : Int) : Rat) / 2 ^ bits * 10 ^ digits) := by
  have hlt : packed % 2 ^ bits < 2 ^ bits := Int.emod_lt_of_pos _ (by positivity)
  obtain ⟨steps, hsteps⟩ := Int.eq_ofNat_of_zero_le
    (Int.emod_nonneg packed (by positivity : (2 : Int) ^ bits ≠ 0))
  rw [hsteps] at hlt ⊢
  exact halfUp_decimal hb hd (by exact_mod_cast hlt)

end Quotient

/-! ### Decimal steps -/

/-- The microseconds of a packed number, before they are rounded. -/
def exactMicros (bits : Nat) (packed : Int) : Rat := packed * 1000000 / 2 ^ bits

/-- The steps of `1 / 10 ^ digits` seconds that a packed number is rounded
to. -/
def decimalSteps (bits digits : Nat) (packed : Int) : Int :=
  packed / 2 ^ bits * 10 ^ digits +
    halfUp (decimal (((packed % 2 ^ bits : Int) : Rat) / 2 ^ bits) * 10 ^ digits)

section Steps

variable {bits digits : Nat} {packed : Int}

/-- Nanoseconds need no rounding, and what is left is that to
microseconds. -/
theorem fractionMicros_eq (hd : digits ≤ 9) (steps : Int) : fractionMicros bits digits steps =
    (halfUp (decimal ((steps : Rat) / 2 ^ bits) * 10 ^ digits) * 10 ^ (9 - digits) + 500) / 1000 := by
  set k := halfUp (decimal ((steps : Rat) / 2 ^ bits) * 10 ^ digits) with hk
  have hnanos : (k : Rat) / 10 ^ digits * 1000000000 = ((k * 10 ^ (9 - digits) : Int) : Rat) := by
    have hten : (1000000000 : Rat) = 10 ^ digits * 10 ^ (9 - digits) := by
      rw [← pow_add, Nat.add_sub_cancel' hd]
      norm_num
    rw [hten]
    push_cast
    field_simp
  simp only [fractionMicros, Nat.pow_eq, Nat.cast_pow, Nat.cast_ofNat, ← hk, hnanos, halfUp_intCast]

theorem unpackMicros_eq_add (hb : bits ≠ 0) (hd : digits ≤ 9) (packed : Int) :
    unpackMicros bits digits packed = packed / 2 ^ bits * 1000000 +
      (halfUp (decimal (((packed % 2 ^ bits : Int) : Rat) / 2 ^ bits) * 10 ^ digits) *
        10 ^ (9 - digits) + 500) / 1000 := by
  rw [unpackMicros, if_neg hb, Nat.pow_eq, Nat.cast_pow, Nat.cast_ofNat, fractionMicros_eq hd]

theorem unpackMicros_eq_decimalSteps (hb : bits ≠ 0) (hd : digits ≤ 9) :
    unpackMicros bits digits packed =
      (decimalSteps bits digits packed * 10 ^ (9 - digits) + 500) / 1000 := by
  have hten : (10 : Int) ^ digits * 10 ^ (9 - digits) = 1000000000 := by
    rw [← pow_add, Nat.add_sub_cancel' hd]
    norm_num
  rw [unpackMicros_eq_add hb hd, decimalSteps, add_mul, mul_assoc, hten]
  omega

/-- Up to six digits the steps are whole microseconds. -/
theorem unpackMicros_eq_mul (hb : bits ≠ 0) (hd : digits ≤ 6) :
    unpackMicros bits digits packed = decimalSteps bits digits packed * 10 ^ (6 - digits) := by
  have hpow : (10 : Int) ^ (9 - digits) = 10 ^ (6 - digits) * 1000 := by
    rw [show 9 - digits = 6 - digits + 3 by omega, pow_add]
    norm_num
  rw [unpackMicros_eq_decimalSteps hb (by omega), hpow, ← mul_assoc]
  omega

/-- The packed number is its seconds and its fraction. -/
theorem packed_div_eq : (packed : Rat) / 2 ^ bits =
    ((packed / 2 ^ bits : Int) : Rat) + ((packed % 2 ^ bits : Int) : Rat) / 2 ^ bits := by
  have hsplit : (packed : Rat) =
      2 ^ bits * ((packed / 2 ^ bits : Int) : Rat) + ((packed % 2 ^ bits : Int) : Rat) := by
    exact_mod_cast (Int.mul_ediv_add_emod packed (2 ^ bits)).symm
  conv_lhs => rw [hsplit]
  field_simp

/-- The decimal steps are those of the packed number as a whole, rounded half
up. -/
theorem decimalSteps_eq_halfUp (hb : bits ≤ 62) (hd : digits ≤ 9) (packed : Int) :
    decimalSteps bits digits packed = halfUp ((packed : Rat) / 2 ^ bits * 10 ^ digits) := by
  rw [decimalSteps, halfUp_decimal_emod hb hd, ← halfUp_intCast_add, @packed_div_eq bits packed]
  push_cast
  rw [add_mul]

/-! ### How far unpacking rounds -/

/-- The decimal steps are off by half of one, in microseconds. -/
theorem decimalSteps_micros_error (hb : bits ≤ 62) (hd : digits ≤ 9) (packed : Int) :
    |(decimalSteps bits digits packed : Rat) * (1000000 / 10 ^ digits) - exactMicros bits packed| ≤
      500000 / 10 ^ digits := by
  have hunit : (0 : Rat) < 1000000 / 10 ^ digits := by positivity
  have hround := halfUp_error ((packed : Rat) / 2 ^ bits * 10 ^ digits)
  have hsplit : (decimalSteps bits digits packed : Rat) * (1000000 / 10 ^ digits) -
      exactMicros bits packed =
      ((decimalSteps bits digits packed : Rat) - (packed : Rat) / 2 ^ bits * 10 ^ digits) *
        (1000000 / 10 ^ digits) := by
    rw [exactMicros]
    field_simp
  rw [hsplit, abs_mul, abs_of_pos hunit, decimalSteps_eq_halfUp hb hd]
  calc |(halfUp ((packed : Rat) / 2 ^ bits * 10 ^ digits) : Rat) -
          (packed : Rat) / 2 ^ bits * 10 ^ digits| * (1000000 / 10 ^ digits)
      ≤ 1 / 2 * (1000000 / 10 ^ digits) := mul_le_mul_of_nonneg_right hround hunit.le
    _ = 500000 / 10 ^ digits := by ring

/-- Microseconds are off the decimal steps by half of one. -/
theorem unpackMicros_sub_decimalSteps (hb : bits ≠ 0) (hd : digits ≤ 9) (packed : Int) :
    |(unpackMicros bits digits packed : Rat) -
      (decimalSteps bits digits packed : Rat) * (1000000 / 10 ^ digits)| ≤ 1 / 2 := by
  rw [unpackMicros_eq_decimalSteps hb hd]
  set nanos := decimalSteps bits digits packed * 10 ^ (9 - digits) with hnanos
  have hscale : (decimalSteps bits digits packed : Rat) * (1000000 / 10 ^ digits) = nanos / 1000 := by
    have hten : (1000000000 : Rat) = 10 ^ digits * 10 ^ (9 - digits) := by
      rw [← pow_add, Nat.add_sub_cancel' hd]
      norm_num
    have hmicro : (1000000 : Rat) = 10 ^ digits * 10 ^ (9 - digits) / 1000 := by
      rw [← hten]
      norm_num
    rw [hnanos, hmicro]
    push_cast
    field_simp
  have hlow : (nanos + 500) / 1000 * 1000 ≤ nanos + 500 := by omega
  have hhigh : nanos - 500 ≤ (nanos + 500) / 1000 * 1000 := by omega
  have hlow' : (((nanos + 500) / 1000 : Int) : Rat) * 1000 ≤ nanos + 500 := by exact_mod_cast hlow
  have hhigh' : (nanos : Rat) - 500 ≤ (((nanos + 500) / 1000 : Int) : Rat) * 1000 := by
    exact_mod_cast hhigh
  rw [hscale, abs_le]
  constructor <;> linarith

/-- Up to six digits nothing is rounded to microseconds. -/
theorem unpackMicros_eq_decimalSteps_mul (hb : bits ≠ 0) (hd : digits ≤ 6) (packed : Int) :
    (unpackMicros bits digits packed : Rat) =
      (decimalSteps bits digits packed : Rat) * (1000000 / 10 ^ digits) := by
  have hten : (1000000 : Rat) = 10 ^ digits * 10 ^ (6 - digits) := by
    rw [← pow_add, Nat.add_sub_cancel' hd]
    norm_num
  rw [unpackMicros_eq_mul hb hd, hten]
  push_cast
  field_simp

end Steps

/-! ### Unpacking keeps the order -/

theorem decimalSteps_mono {bits digits : Nat} (hb : bits ≤ 62) (hd : digits ≤ 9) {p q : Int}
    (h : p ≤ q) : decimalSteps bits digits p ≤ decimalSteps bits digits q := by
  have hcast : (p : Rat) ≤ q := by exact_mod_cast h
  rw [decimalSteps_eq_halfUp hb hd, decimalSteps_eq_halfUp hb hd]
  apply halfUp_mono
  gcongr

/-- The larger packed number stands for no earlier time. -/
theorem unpackMicros_mono {bits digits : Nat} (hb : bits ≤ 62) (hd : 0 < bits → digits ≤ 9)
    {p q : Int} (h : p ≤ q) : unpackMicros bits digits p ≤ unpackMicros bits digits q := by
  by_cases hzero : bits = 0
  · simp only [unpackMicros, if_pos hzero]
    omega
  · have hd' := hd (Nat.pos_of_ne_zero hzero)
    have hnanos : decimalSteps bits digits p * 10 ^ (9 - digits) ≤
        decimalSteps bits digits q * 10 ^ (9 - digits) :=
      mul_le_mul_of_nonneg_right (decimalSteps_mono hb hd' h) (by positivity)
    rw [unpackMicros_eq_decimalSteps hzero hd', unpackMicros_eq_decimalSteps hzero hd']
    omega

end Timestamp
end ChronoId
