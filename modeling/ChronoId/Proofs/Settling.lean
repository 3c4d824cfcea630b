/-
# Round trips settle

A time that has been packed and unpacked comes back from a second round trip
as it is. If the binary steps are the coarser ones, the decimal rounding stays
within half a binary step, so the time is packed into the same number again.
If the decimal steps are the coarser ones, packing stays within half a decimal
step, so unpacking finds the same decimal step again. With seven digits or more
it is the microseconds that have to be found again. Twenty bits with seven
digits are the one pair for which the distances alone do not decide: there the
first round trip may move a time by a microsecond, to one that no longer does
so. With every other pair of twenty bits and seven digits or more a microsecond
comes back from the first round trip.

Key theorems: `Timestamp.packMicros_eq_of_near`,
`Timestamp.packMicros_roundTrip_of_coarse`, `Timestamp.roundTrip_of_grid`,
`Timestamp.roundTrip_twenty_seven`, `Timestamp.roundTrip_micros`,
`Timestamp.roundTrip_settles`.
-/
import ChronoId.Proofs.Drift
import Mathlib.Data.Nat.Prime.Basic

namespace ChronoId
namespace Timestamp

open Rounding

section Settling

variable {bits digits m u : Nat}

/-! ### The binary steps are coarser -/

/-- Within less than half a step of a packed number lies what is packed into
it. -/
theorem packMicros_eq_of_near (hb : 1 ≤ bits) (hb' : bits ≤ 38) {p : Nat}
    (h : |(u : Rat) - exactMicros bits p| < 500000 / 2 ^ bits) : packMicros bits u = p := by
  have hpow : (0 : Rat) < 2 ^ bits := by positivity
  have hsplit : (u : Rat) - exactMicros bits p = ((u : Rat) * 2 ^ bits - p * 1000000) / 2 ^ bits := by
    rw [exactMicros, Int.cast_natCast]
    field_simp
  rw [hsplit, abs_div, abs_of_pos hpow, div_lt_div_iff_of_pos_right hpow, abs_lt] at h
  have hlow : (p : Rat) * 1000000 < u * 2 ^ bits + 500000 := by linarith [h.1]
  have hhigh : (u : Rat) * 2 ^ bits < p * 1000000 + 500000 := by linarith [h.2]
  have hlow' : p * 1000000 < u * 2 ^ bits + 500000 := by exact_mod_cast hlow
  have hhigh' : u * 2 ^ bits < p * 1000000 + 500000 := by exact_mod_cast hhigh
  rw [packMicros_eq_halfUp hb hb', halfUpNumerator]
  apply Nat.div_eq_of_lt_le <;> omega

/-- What is unpacked to up to six digits lies within half a decimal step, and
so within half a binary one. -/
theorem packMicros_roundTrip_of_coarse (hb : 1 ≤ bits) (hd : digits ≤ 6) (h : 2 ^ bits < 10 ^ digits)
    (hu : unpackMicros bits digits (packMicros bits m) = u) :
    packMicros bits u = packMicros bits m := by
  have hlt : bits < 20 := by
    by_contra hge
    have htwo : 2 ^ 20 ≤ 2 ^ bits := Nat.pow_le_pow_right (by norm_num) (not_lt.mp hge)
    have hten : 10 ^ digits ≤ 10 ^ 6 := Nat.pow_le_pow_right (by norm_num) hd
    omega
  have hsteps := decimalSteps_micros_error (by omega : bits ≤ 62) (by omega : digits ≤ 9) (packMicros bits m)
  rw [← unpackMicros_eq_decimalSteps_mul (by omega) hd, hu, Int.cast_natCast] at hsteps
  apply packMicros_eq_of_near hb (by omega)
  calc |(u : Rat) - exactMicros bits (packMicros bits m)| ≤ 500000 / 10 ^ digits := hsteps
    _ < 500000 / 2 ^ bits :=
        div_lt_div_of_pos_left (by norm_num) (by positivity) (by exact_mod_cast h)

/-- Nineteen bits leave more room than microseconds and tenths of them
take. -/
theorem packMicros_roundTrip_of_micros (hb : 1 ≤ bits) (hb' : bits ≤ 19) (hd : 7 ≤ digits)
    (hd' : digits ≤ 9) (hu : unpackMicros bits digits (packMicros bits m) = u) :
    packMicros bits u = packMicros bits m := by
  have hsteps := abs_le.mp (decimalSteps_micros_error (by omega : bits ≤ 62) hd' (packMicros bits m))
  have hmicros := abs_le.mp (unpackMicros_sub_decimalSteps (by omega : bits ≠ 0) hd' (packMicros bits m))
  have hunit : (500000 : Rat) / 10 ^ digits ≤ 500000 / 10 ^ 7 :=
    div_le_div_of_nonneg_left (by norm_num) (by positivity) (pow_le_pow_right₀ (by norm_num) hd)
  have hstep : (500000 : Rat) / 2 ^ 19 ≤ 500000 / 2 ^ bits :=
    div_le_div_of_nonneg_left (by norm_num) (by positivity) (pow_le_pow_right₀ (by norm_num) hb')
  rw [hu, Int.cast_natCast] at hmicros
  apply packMicros_eq_of_near hb (by omega)
  rw [abs_lt]
  constructor <;> linarith [hsteps.1, hsteps.2, hmicros.1, hmicros.2]

/-! ### The decimal steps are coarser -/

/-- What lies less than a decimal step from a number of them is unpacked to
that number. -/
theorem unpackMicros_of_near (hb : bits ≠ 0) (hd : digits ≤ 6) {k p : Int}
    (h : |(decimalSteps bits digits p : Rat) * (1000000 / 10 ^ digits) -
      k * (1000000 / 10 ^ digits)| < 1000000 / 10 ^ digits) :
    unpackMicros bits digits p = k * 10 ^ (6 - digits) := by
  have hunit : (0 : Rat) < 1000000 / 10 ^ digits := by positivity
  rw [← sub_mul, abs_mul, abs_of_pos hunit, mul_lt_iff_lt_one_left hunit] at h
  have hzero : decimalSteps bits digits p - k = 0 := Int.abs_lt_one_iff.mp (by exact_mod_cast h)
  rw [unpackMicros_eq_mul hb hd, sub_eq_zero.mp hzero]

/-- No power of two is a power of ten. -/
theorem ten_pow_ne_two_pow (hd : digits ≠ 0) : 10 ^ digits ≠ 2 ^ bits := by
  intro h
  have hfive : 5 ∣ 2 ^ bits := h ▸ (Dvd.dvd.pow (by norm_num : 5 ∣ 10) hd)
  have := Nat.Prime.dvd_of_dvd_pow Nat.prime_five hfive
  omega

/-- Packing keeps within half a decimal step that is no finer than a binary one,
so whole decimal steps come back as they were. -/
theorem roundTrip_of_grid (hb : 1 ≤ bits) (hb' : bits ≤ 62) (hd : 1 ≤ digits) (hd' : digits ≤ 6)
    (h : 10 ^ digits ≤ 2 ^ bits) {k : Int} (hu : (u : Int) = k * 10 ^ (6 - digits)) :
    unpackMicros bits digits (packMicros bits u) = u := by
  have hsteps : (u : Rat) = k * (1000000 / 10 ^ digits) := by
    have hten : (1000000 : Rat) = 10 ^ digits * 10 ^ (6 - digits) := by
      rw [← pow_add, Nat.add_sub_cancel' hd']
      norm_num
    have hcast : (u : Rat) = k * 10 ^ (6 - digits) := by exact_mod_cast hu
    rw [hcast, hten]
    field_simp
  have hone : (1 : Rat) ≤ 1000000 / 10 ^ digits := by
    rw [le_div_iff₀ (by positivity), one_mul]
    calc (10 : Rat) ^ digits ≤ 10 ^ 6 := pow_le_pow_right₀ (by norm_num) hd'
      _ = 1000000 := by norm_num
  have hhalf : (500000 : Rat) / 10 ^ digits = 1000000 / 10 ^ digits / 2 := by ring
  have hunpack := abs_le.mp
    (decimalSteps_micros_error hb' (by omega : digits ≤ 9) (packMicros bits u))
  rw [hu]
  apply unpackMicros_of_near (by omega) hd'
  rw [← hsteps, abs_lt]
  rcases Nat.lt_or_ge bits 29 with hlt | hge
  · have hpack := abs_le.mp (packMicros_error_of_le hb (by omega) u)
    have hfiner : 10 ^ digits < 2 ^ bits := lt_of_le_of_ne h (ten_pow_ne_two_pow (by omega))
    have hstep : (500000 : Rat) / 2 ^ bits < 500000 / 10 ^ digits :=
      div_lt_div_of_pos_left (by norm_num) (by positivity) (by exact_mod_cast hfiner)
    constructor <;> linarith [hpack.1, hpack.2, hunpack.1, hunpack.2]
  · have hpack := abs_le.mp (packMicros_error_of_ge hge u)
    constructor <;> linarith [hpack.1, hpack.2, hunpack.1, hunpack.2]

/-- Up to six digits, what has been unpacked is a whole number of decimal
steps. -/
theorem roundTrip_of_fine (hb : 1 ≤ bits) (hb' : bits ≤ 62) (hd : 1 ≤ digits) (hd' : digits ≤ 6)
    (h : 10 ^ digits ≤ 2 ^ bits) (hu : unpackMicros bits digits (packMicros bits m) = u) :
    unpackMicros bits digits (packMicros bits u) = u := by
  rw [unpackMicros_eq_mul (by omega) hd'] at hu
  exact roundTrip_of_grid hb hb' hd hd' h hu.symm

/-! ### Microseconds are coarser than both -/

/-- What lies less than a microsecond off is the same. -/
theorem eq_of_near {v : Int} (h : |(v : Rat) - u| < 1) : v = u := by
  have hzero : v - u = 0 := Int.abs_lt_one_iff.mp (by exact_mod_cast h)
  omega

section TwentySeven

/-- With twenty bits and seven digits a decimal step lies within half of one of
its binary step; a half goes up. -/
theorem decimalSteps_twenty_seven (p : Nat) :
    -1048576 < decimalSteps 20 7 p * 2097152 - p * 20000000 ∧
      decimalSteps 20 7 p * 2097152 - p * 20000000 ≤ 1048576 := by
  have hsteps : decimalSteps 20 7 p = halfUp (((p : Int) : Rat) / 2 ^ 20 * 10 ^ 7) :=
    decimalSteps_eq_halfUp (by norm_num) (by norm_num) p
  obtain ⟨hlow, hhigh⟩ := floor_bounds ((p : Rat) / 2 ^ 20 * 10 ^ 7 + 1 / 2)
  rw [Int.cast_natCast] at hsteps
  rw [← halfUp, ← hsteps] at hlow hhigh
  have hlow' : (decimalSteps 20 7 p : Rat) * 2097152 - p * 20000000 ≤ 1048576 := by linarith
  have hhigh' : (-1048576 : Rat) < decimalSteps 20 7 p * 2097152 - p * 20000000 := by linarith
  exact ⟨by exact_mod_cast hhigh', by exact_mod_cast hlow'⟩

theorem packMicros_twenty (n : Nat) : packMicros 20 n * 2000000 ≤ n * 2097152 + 1000000 ∧
    n * 2097152 + 1000000 < packMicros 20 n * 2000000 + 2000000 := by
  have hpacked : packMicros 20 n = (n * 2 ^ 20 * 2 + 1000000) / 2000000 :=
    packMicros_eq_halfUp (by norm_num) (by norm_num) n
  omega

theorem unpackMicros_twenty_seven (p : Int) :
    unpackMicros 20 7 p = (decimalSteps 20 7 p * 100 + 500) / 1000 := by
  rw [unpackMicros_eq_decimalSteps (by norm_num) (by norm_num)]
  norm_num

theorem moved_twenty_seven_iff (m : Nat) : 9 / 20 ≤ exactMicros 20 (packMicros 20 m) - m ↔
    m * 20971520 + 9437184 ≤ packMicros 20 m * 20000000 := by
  rw [le_sub_iff_add_le, exactMicros, le_div_iff₀ (by norm_num), Int.cast_natCast]
  constructor
  · intro h
    have h' : (m : Rat) * 20971520 + 9437184 ≤ packMicros 20 m * 20000000 := by linarith
    exact_mod_cast h'
  · intro h
    have h' : (m : Rat) * 20971520 + 9437184 ≤ packMicros 20 m * 20000000 := by exact_mod_cast h
    linarith

/-- Twenty bits with seven digits: what packing moves up by nine twentieths of a
microsecond is unpacked to the next one, and all else to itself. -/
theorem roundTrip_twenty_seven (m : Nat) : unpackMicros 20 7 (packMicros 20 m) =
    if 9 / 20 ≤ exactMicros 20 (packMicros 20 m) - m then (m : Int) + 1 else m := by
  have hsteps := decimalSteps_twenty_seven (packMicros 20 m)
  have hpack := packMicros_twenty m
  rw [unpackMicros_twenty_seven]
  by_cases hmoved : 9 / 20 ≤ exactMicros 20 (packMicros 20 m) - m
  · rw [if_pos hmoved]
    rw [moved_twenty_seven_iff] at hmoved
    omega
  · rw [if_neg hmoved]
    rw [moved_twenty_seven_iff] at hmoved
    omega

/-- Twenty bits with seven digits: a time that was moved by a microsecond lies
on the other side of its binary step, and is not moved again. -/
theorem roundTrip_of_twenty_seven (hu : unpackMicros 20 7 (packMicros 20 m) = u) :
    unpackMicros 20 7 (packMicros 20 u) = u := by
  have hm := roundTrip_twenty_seven m
  rw [hu] at hm
  by_cases hmoved : 9 / 20 ≤ exactMicros 20 (packMicros 20 m) - m
  · rw [if_pos hmoved] at hm
    obtain rfl : u = m + 1 := by exact_mod_cast hm
    rw [roundTrip_twenty_seven, if_neg]
    have hpack := packMicros_twenty m
    have hnext := packMicros_twenty (m + 1)
    rw [moved_twenty_seven_iff] at hmoved ⊢
    -- one binary step is too little between the two, and two are too much
    rcases Nat.lt_or_ge (packMicros 20 m + 1) (packMicros 20 (m + 1)) with htwo | hone
    · omega
    · omega
  · rw [if_neg hmoved] at hm
    obtain rfl : u = m := by exact_mod_cast hm
    exact hu

end TwentySeven

/-- From twenty bits and seven digits on packing and the decimal steps
together keep within half a microsecond, but for one pair. -/
theorem roundTrip_micros (hb : 20 ≤ bits) (hb' : bits ≤ 62) (hd : 7 ≤ digits) (hd' : digits ≤ 9)
    (hpair : ¬ (bits = 20 ∧ digits = 7)) (m : Nat) :
    unpackMicros bits digits (packMicros bits m) = m := by
  have hunpack := abs_le.mp (decimalSteps_micros_error hb' hd' (packMicros bits m))
  have hmicros := abs_le.mp (unpackMicros_sub_decimalSteps (by omega : bits ≠ 0) hd' (packMicros bits m))
  have hunit {k : Nat} (hk : k ≤ digits) : (500000 : Rat) / 10 ^ digits ≤ 500000 / 10 ^ k :=
    div_le_div_of_nonneg_left (by norm_num) (by positivity) (pow_le_pow_right₀ (by norm_num) hk)
  apply eq_of_near
  rw [abs_lt]
  -- half a step of twenty bits leaves little of half a microsecond, and eight digits need less
  rcases Nat.lt_or_ge bits 21 with hlt | hmore
  · have hpack := abs_le.mp (packMicros_error (by norm_num) (by norm_num) hb m)
    have height := hunit (by omega : 8 ≤ digits)
    constructor <;> linarith [hpack.1, hpack.2, hunpack.1, hunpack.2, hmicros.1, hmicros.2]
  · have hpack := abs_le.mp (packMicros_error (by norm_num) (by norm_num) hmore m)
    have hseven := hunit hd
    constructor <;> linarith [hpack.1, hpack.2, hunpack.1, hunpack.2, hmicros.1, hmicros.2]

theorem roundTrip_of_micros (hb : 20 ≤ bits) (hb' : bits ≤ 62) (hd : 7 ≤ digits) (hd' : digits ≤ 9)
    (hu : unpackMicros bits digits (packMicros bits m) = u) :
    unpackMicros bits digits (packMicros bits u) = u := by
  by_cases hpair : bits = 20 ∧ digits = 7
  · obtain ⟨rfl, rfl⟩ := hpair
    exact roundTrip_of_twenty_seven hu
  · exact roundTrip_micros hb hb' hd hd' hpair u

/-! ### Every pair of steps -/

/-- A second round trip changes nothing. -/
theorem roundTrip_settles (hb' : bits ≤ 62) (hd : 0 < bits → 1 ≤ digits ∧ digits ≤ 9)
    (hu : unpackMicros bits digits (packMicros bits m) = u) :
    unpackMicros bits digits (packMicros bits u) = u := by
  rcases Nat.eq_zero_or_pos bits with rfl | hb
  · rw [packMicros_zero_bits, unpackMicros, if_pos rfl] at hu ⊢
    omega
  obtain ⟨hlow, hhigh⟩ := hd hb
  have hrepacked (h : packMicros bits u = packMicros bits m) :
      unpackMicros bits digits (packMicros bits u) = u := by rw [h, hu]
  rcases Nat.lt_or_ge digits 7 with hsix | hseven
  · rcases Nat.lt_or_ge (2 ^ bits) (10 ^ digits) with hcoarse | hfine
    · exact hrepacked (packMicros_roundTrip_of_coarse hb (by omega) hcoarse hu)
    · exact roundTrip_of_fine hb hb' hlow (by omega) hfine hu
  · rcases Nat.lt_or_ge bits 20 with hlt | hge
    · exact hrepacked (packMicros_roundTrip_of_micros hb (by omega) hseven hhigh hu)
    · exact roundTrip_of_micros hge hb' hseven hhigh hu

end Settling
end Timestamp
end ChronoId
