/-
# How far a round trip moves a time

A time is rounded to binary steps when it is packed, and to decimal steps and
then to microseconds when it is unpacked. Each rounding moves it by at most
half of what it rounds to, and so the round trip moves it by at most half a
step of each. Neither the doubles nor the twenty-eight digits add to that. The
digits never change a decimal step. The doubles round as exact numbers would up
to thirty-eight bits, and beyond them they are off by so much less than a
microsecond that whole microseconds do not show it.

A limit that is no smaller than either step, in whole microseconds, is never
exceeded.

Key theorems: `Timestamp.packMicros_error_of_le`,
`Timestamp.packMicros_error_of_ge`, `Timestamp.roundTrip_error`,
`Timestamp.roundTrip_seconds`, `Timestamp.roundTrip_le_limit`.
-/
import ChronoId.Proofs.Packing
import ChronoId.Proofs.Unpacking

namespace ChronoId
namespace Timestamp

open Rounding

/-! ### What packing rounds -/

section Packing

variable {bits : Nat}

/-- Up to thirty-eight bits packing rounds to the nearest step. -/
theorem packMicros_error_of_le (hb : 1 ≤ bits) (hb' : bits ≤ 38) (m : Nat) :
    |exactMicros bits (packMicros bits m) - m| ≤ 500000 / 2 ^ bits := by
  have hpow : (0 : Rat) < 2 ^ bits := by positivity
  have hlow : packMicros bits m * 2000000 ≤ halfUpNumerator bits m := by
    rw [packMicros_eq_halfUp hb hb']
    exact Nat.div_mul_le_self _ _
  have hhigh : halfUpNumerator bits m < (packMicros bits m + 1) * 2000000 := by
    rw [packMicros_eq_halfUp hb hb']
    omega
  unfold halfUpNumerator at hlow hhigh
  have hlow' : (packMicros bits m : Rat) * 2000000 ≤ m * 2 ^ bits * 2 + 1000000 := by
    exact_mod_cast hlow
  have hhigh' : (m : Rat) * 2 ^ bits * 2 + 1000000 < (packMicros bits m + 1) * 2000000 := by
    exact_mod_cast hhigh
  have hsplit : exactMicros bits (packMicros bits m) - m =
      ((packMicros bits m : Rat) * 1000000 - m * 2 ^ bits) / 2 ^ bits := by
    rw [exactMicros, Int.cast_natCast]
    field_simp
  rw [hsplit, abs_div, abs_of_pos hpow, div_le_div_iff_of_pos_right hpow, abs_le]
  constructor <;> linarith

/-- From twenty bits on the subseconds are off the exact steps by half of one
and the error of a double. -/
theorem subseconds_error {m : Nat} (hb : 20 ≤ bits) (hm : m < 1000000) :
    |(subseconds bits (m * 1000) : Rat) - exactSteps bits m| ≤ 1 / 2 + 2 ^ bits / 2 ^ 53 := by
  have herr := abs_le.mp (steps_error_of_ge hm hb)
  obtain ⟨hlow, hhigh⟩ := floor_bounds (double (double (exactSteps bits m) + 1 / 2))
  rw [subseconds_eq_floor, abs_le]
  constructor <;> linarith [herr.1, herr.2]

/-- The seconds of a packed number count as such. -/
theorem exactMicros_packMicros (hb : bits ≠ 0) (m : Nat) : exactMicros bits (packMicros bits m) - m =
    ((subseconds bits (m % 1000000 * 1000) : Rat) - exactSteps bits (m % 1000000)) *
      (1000000 / 2 ^ bits) := by
  have hm : (m : Rat) = 1000000 * (m / 1000000 : Nat) + (m % 1000000 : Nat) := by
    exact_mod_cast (Nat.div_add_mod m 1000000).symm
  have hpacked : ((packMicros bits m : Nat) : Rat) =
      (m / 1000000 : Nat) * 2 ^ bits + subseconds bits (m % 1000000 * 1000) := by
    have hcast : (((subseconds bits (m % 1000000 * 1000)).toNat : Nat) : Rat) =
        subseconds bits (m % 1000000 * 1000) := by
      exact_mod_cast Int.toNat_of_nonneg (subseconds_nonneg bits (m % 1000000))
    rw [packMicros, if_neg hb, Elapsed.seconds, Elapsed.nanos, Nat.pow_eq, Nat.cast_add, hcast]
    push_cast
    rfl
  rw [exactMicros, Int.cast_natCast, hpacked, exactSteps]
  conv_lhs => rw [hm]
  field_simp
  ring

/-- From twenty-nine bits on packing keeps a thousandth of a microsecond. -/
theorem packMicros_error_of_ge (hb : 29 ≤ bits) (m : Nat) :
    |exactMicros bits (packMicros bits m) - m| ≤ 1 / 1000 := by
  have hm : m % 1000000 < 1000000 := Nat.mod_lt _ (by norm_num)
  have herr := subseconds_error (by omega : 20 ≤ bits) hm
  have hpow : (2 : Rat) ^ 29 ≤ 2 ^ bits := pow_le_pow_right₀ (by norm_num) hb
  have hpos : (0 : Rat) < 2 ^ bits := by positivity
  have hunit : (0 : Rat) < 1000000 / 2 ^ bits := by positivity
  rw [exactMicros_packMicros (by omega), abs_mul, abs_of_pos hunit]
  calc |(subseconds bits (m % 1000000 * 1000) : Rat) - exactSteps bits (m % 1000000)| *
          (1000000 / 2 ^ bits)
      ≤ (1 / 2 + 2 ^ bits / 2 ^ 53) * (1000000 / 2 ^ bits) :=
        mul_le_mul_of_nonneg_right herr hunit.le
    _ = 500000 / 2 ^ bits + 1000000 / 2 ^ 53 := by
        field_simp
        ring
    _ ≤ 500000 / 2 ^ 29 + 1000000 / 2 ^ 53 := by gcongr
    _ ≤ 1 / 1000 := by norm_num

/-- From any number of bits up to twenty-eight on, packing keeps within half of
their step. -/
theorem packMicros_error {k : Nat} (hk : 1 ≤ k) (hk' : k ≤ 28) (hb : k ≤ bits) (m : Nat) :
    |exactMicros bits (packMicros bits m) - m| ≤ 500000 / 2 ^ k := by
  rcases Nat.lt_or_ge bits 29 with hlt | hge
  · calc |exactMicros bits (packMicros bits m) - m| ≤ 500000 / 2 ^ bits :=
          packMicros_error_of_le (by omega) (by omega) m
      _ ≤ 500000 / 2 ^ k :=
          div_le_div_of_nonneg_left (by norm_num) (by positivity) (pow_le_pow_right₀ (by norm_num) hb)
  · calc |exactMicros bits (packMicros bits m) - m| ≤ 1 / 1000 := packMicros_error_of_ge hge m
      _ ≤ 500000 / 2 ^ 28 := by norm_num
      _ ≤ 500000 / 2 ^ k :=
          div_le_div_of_nonneg_left (by norm_num) (by positivity) (pow_le_pow_right₀ (by norm_num) hk')

end Packing

/-! ### The round trip -/

section RoundTrip

variable {bits digits : Nat} {m u : Nat}

/-- Without bits the fraction of the second is dropped. -/
theorem roundTrip_seconds (hu : unpackMicros 0 digits (packMicros 0 m) = u) :
    u ≤ m ∧ m < u + 1000000 := by
  rw [packMicros_zero_bits, unpackMicros, if_pos rfl] at hu
  omega

/-- Up to twenty-eight bits the errors of the three roundings add up. -/
theorem roundTrip_error_of_le (hb : 1 ≤ bits) (hb' : bits ≤ 28) (hd : digits ≤ 9)
    (hu : unpackMicros bits digits (packMicros bits m) = u) :
    |(u : Rat) - m| ≤ 500000 / 2 ^ bits + 500000 / 10 ^ digits + 1 / 2 := by
  have hpack := abs_le.mp (packMicros_error_of_le hb (by omega) m)
  have hsteps := abs_le.mp (decimalSteps_micros_error (by omega : bits ≤ 62) hd (packMicros bits m))
  have hmicros := abs_le.mp (unpackMicros_sub_decimalSteps (by omega : bits ≠ 0) hd (packMicros bits m))
  rw [hu, Int.cast_natCast] at hmicros
  rw [abs_le]
  constructor <;> linarith [hpack.1, hpack.2, hsteps.1, hsteps.2, hmicros.1, hmicros.2]

/-- From twenty-nine bits on the decimal steps are all that counts. -/
theorem roundTrip_error_of_ge (hb : 29 ≤ bits) (hb' : bits ≤ 62) (hd : digits ≤ 9)
    (hu : unpackMicros bits digits (packMicros bits m) = u) :
    |(u : Rat) - m| ≤ 500000 / 10 ^ digits + 1 / 2 := by
  have hpack := abs_le.mp (packMicros_error_of_ge hb m)
  have hsteps := abs_le.mp (decimalSteps_micros_error hb' hd (packMicros bits m))
  have hpos : (0 : Rat) < 500000 / 10 ^ digits := by positivity
  rcases Nat.lt_or_ge digits 7 with hlt | hge
  · -- the decimal steps are whole microseconds
    have hexact := unpackMicros_eq_decimalSteps_mul (by omega : bits ≠ 0) (by omega : digits ≤ 6)
      (packMicros bits m)
    rw [hu, Int.cast_natCast] at hexact
    rw [hexact, abs_le]
    constructor <;> linarith [hpack.1, hpack.2, hsteps.1, hsteps.2]
  · -- less than one whole microsecond is none
    have hmicros := abs_le.mp
      (unpackMicros_sub_decimalSteps (by omega : bits ≠ 0) hd (packMicros bits m))
    have hsmall : (500000 : Rat) / 10 ^ digits ≤ 500000 / 10 ^ 7 :=
      div_le_div_of_nonneg_left (by norm_num) (by positivity) (pow_le_pow_right₀ (by norm_num) hge)
    rw [hu, Int.cast_natCast] at hmicros
    have hlt : |(((u : Int) - m : Int) : Rat)| < 1 := by
      push_cast
      rw [abs_lt]
      constructor <;> linarith [hpack.1, hpack.2, hsteps.1, hsteps.2, hmicros.1, hmicros.2]
    have hzero : (u : Int) - m = 0 := Int.abs_lt_one_iff.mp (by exact_mod_cast hlt)
    have hsame : (u : Rat) - m = 0 := by exact_mod_cast hzero
    rw [hsame, abs_zero]
    linarith

/-- A round trip moves a time by at most half a step of each rounding: of the
bits, of the digits and of the microseconds. -/
theorem roundTrip_error (hb : 0 < bits) (hb' : bits ≤ 62) (hd : digits ≤ 9)
    (hu : unpackMicros bits digits (packMicros bits m) = u) :
    |(u : Rat) - m| ≤ 500000 / 2 ^ bits + 500000 / 10 ^ digits + 1 / 2 := by
  rcases Nat.lt_or_ge bits 29 with hlt | hge
  · exact roundTrip_error_of_le hb (by omega) hd hu
  · have herr := roundTrip_error_of_ge hge hb' hd hu
    have hpos : (0 : Rat) ≤ 500000 / 2 ^ bits := by positivity
    linarith

/-- A number of microseconds that reaches both steps reaches every drift. -/
theorem roundTrip_le_limit {limit : Nat} (hb : 0 < bits) (hb' : bits ≤ 62) (hd : digits ≤ 9)
    (hsubseconds : 1000000 ≤ limit * 2 ^ bits) (hrounding : 1000000 ≤ limit * 10 ^ digits)
    (hu : unpackMicros bits digits (packMicros bits m) = u) : max m u - min m u ≤ limit := by
  have herr := abs_le.mp (roundTrip_error hb hb' hd hu)
  have hstep : (1000000 : Rat) / 2 ^ bits ≤ limit := by
    rw [div_le_iff₀ (by positivity)]
    exact_mod_cast hsubseconds
  have hunit : (1000000 : Rat) / 10 ^ digits ≤ limit := by
    rw [div_le_iff₀ (by positivity)]
    exact_mod_cast hrounding
  have hhalfstep : (500000 : Rat) / 2 ^ bits = 1000000 / 2 ^ bits / 2 := by ring
  have hhalfunit : (500000 : Rat) / 10 ^ digits = 1000000 / 10 ^ digits / 2 := by ring
  rw [hhalfstep, hhalfunit] at herr
  -- twice the drift is at most twice the limit and one
  have hlow : (2 : Rat) * m ≤ 2 * u + 2 * limit + 1 := by linarith [herr.1]
  have hhigh : (2 : Rat) * u ≤ 2 * m + 2 * limit + 1 := by linarith [herr.2]
  have hlow' : 2 * m ≤ 2 * u + 2 * limit + 1 := by exact_mod_cast hlow
  have hhigh' : 2 * u ≤ 2 * m + 2 * limit + 1 := by exact_mod_cast hhigh
  omega

end RoundTrip
end Timestamp
end ChronoId
