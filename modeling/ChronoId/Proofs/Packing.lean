/-
# Packed timestamps keep the order of time

Microseconds are packed by way of doubles. Up to thirty-eight bits the doubles
do no harm: the exact number of steps, if it is not an integer and a half, is
further from one than the doubles are from it, so the packed number is the
exact one, rounded half up. From twenty bits on the steps of two microseconds
are more than one apart, and the doubles cannot make them one. Together they
keep the order of any two timestamps, and keep apart what is a step apart.

Key definitions: `Timestamp.exactSteps`.
Key theorems: `Timestamp.packMicros_eq_halfUp`, `Timestamp.packMicros_lt_of_lt`,
`Timestamp.packMicros_mono`, `Timestamp.packMicros_lt`.
-/
import ChronoId.Timestamp
import ChronoId.Proofs.Rounding

namespace ChronoId

namespace Rounding

/-- The error of a double below a power of two, as a part of that power. -/
theorem double_error_of_lt_pow {q : Rat} {k : Nat} (hq : 0 ≤ q) (h : q < 2 ^ k) :
    |double q - q| ≤ 2 ^ k / 2 ^ 54 := by
  have herr := double_error (k := k) hq (by rwa [zpow_natCast])
  rw [zpow_sub₀ (by norm_num), zpow_natCast] at herr
  exact_mod_cast herr

end Rounding

namespace Timestamp

open Rounding

/-- The steps of `m` microseconds, before they are rounded. -/
def exactSteps (bits m : Nat) : Rat := m * 2 ^ bits / 1000000

/-- Dividing first and scaling by a power of two later rounds only once. -/
theorem subseconds_eq_floor (bits m : Nat) :
    subseconds bits (m * 1000) = (double (double (exactSteps bits m) + 1 / 2)).floor := by
  have hq : (0 : Rat) ≤ (m : Rat) / 1000000 := by positivity
  have hfraction : ((m * 1000 : Nat) : Rat) / 1000000000 = (m : Rat) / 1000000 := by
    push_cast
    ring
  have hsteps : double ((m : Rat) / 1000000) * ((Nat.pow 2 bits : Nat) : Rat) =
      double (exactSteps bits m) := by
    rw [Nat.pow_eq, Nat.cast_pow, Nat.cast_ofNat, ← zpow_natCast, ← double_mul_zpow hq, exactSteps,
      zpow_natCast]
    congr 1
    ring
  have hnonneg : (0 : Rat) ≤ exactSteps bits m := by unfold exactSteps; positivity
  simp only [subseconds, hfraction, hsteps, double_double hnonneg]

theorem exactSteps_nonneg (bits m : Nat) : 0 ≤ exactSteps bits m := by
  unfold exactSteps
  positivity

theorem subseconds_nonneg (bits m : Nat) : 0 ≤ subseconds bits (m * 1000) := by
  rw [subseconds_eq_floor, Rat.le_floor_iff]
  exact double_nonneg (add_nonneg (double_nonneg (exactSteps_nonneg bits m)) (by norm_num))

/-! ### What the doubles are off -/

section Error

variable (bits : Nat) {m : Nat}

theorem one_le_two_pow : (1 : Rat) ≤ 2 ^ bits := one_le_pow₀ (by norm_num)

/-- Less than a second leaves a microsecond's share of the steps. -/
theorem exactSteps_le (hm : m < 1000000) : exactSteps bits m ≤ 2 ^ bits * (999999 / 1000000) := by
  have hm' : (m : Rat) ≤ 999999 := by exact_mod_cast Nat.le_of_lt_succ hm
  have hpos : (0 : Rat) ≤ 2 ^ bits := by positivity
  have := mul_le_mul_of_nonneg_right hm' hpos
  unfold exactSteps
  linarith

theorem exactSteps_add_le {n : Nat} (h : m < n) :
    exactSteps bits m + 2 ^ bits / 1000000 ≤ exactSteps bits n := by
  have hcast : (m : Rat) + 1 ≤ n := by exact_mod_cast h
  have := mul_le_mul_of_nonneg_right hcast (by positivity : (0 : Rat) ≤ 2 ^ bits)
  rw [exactSteps, exactSteps]
  linarith

theorem double_exactSteps_error (hm : m < 1000000) :
    |double (exactSteps bits m) - exactSteps bits m| ≤ 2 ^ bits / 2 ^ 54 := by
  have hle := exactSteps_le bits hm
  have hone := one_le_two_pow bits
  exact double_error_of_lt_pow (exactSteps_nonneg bits m) (by linarith)

/-- How far two roundings move the steps and a half, if they and the half stay
below a power of two. -/
theorem steps_error (hm : m < 1000000) {k : Nat}
    (hlt : exactSteps bits m + 1 / 2 + 2 ^ bits / 2 ^ 54 < 2 ^ k) :
    |double (double (exactSteps bits m) + 1 / 2) - (exactSteps bits m + 1 / 2)| ≤
      2 ^ bits / 2 ^ 54 + 2 ^ k / 2 ^ 54 := by
  have hfirst := abs_le.mp (double_exactSteps_error bits hm)
  have hnonneg : 0 ≤ double (exactSteps bits m) + 1 / 2 :=
    add_nonneg (double_nonneg (exactSteps_nonneg bits m)) (by norm_num)
  have hsum : double (exactSteps bits m) + 1 / 2 < 2 ^ k := by linarith [hfirst.2]
  have hsecond := abs_le.mp (double_error_of_lt_pow hnonneg hsum)
  rw [abs_le]
  constructor <;> linarith [hfirst.1, hfirst.2, hsecond.1, hsecond.2]

end Error

section Steps

variable {bits m : Nat}

/-! ### Few bits: the exact steps, rounded half up -/

/-- Twice the steps and one, in microseconds: the numerator whose quotient by
two million is the number of steps, rounded half up. -/
def halfUpNumerator (bits m : Nat) : Nat := m * 2 ^ bits * 2 + 1000000

theorem exactSteps_add_half : exactSteps bits m + 1 / 2 = (halfUpNumerator bits m : Rat) / 2000000 := by
  rw [exactSteps, halfUpNumerator]
  push_cast
  ring

/-- Rounding an integer and a half needs no more digits than a double has. -/
theorem steps_of_tie {K : Nat} (hK : K ≤ 2 ^ 52) (hpos : 0 < K)
    (h : exactSteps bits m + 1 / 2 = K) :
    (double (double (exactSteps bits m) + 1 / 2)).floor = K := by
  have hx : exactSteps bits m = ((2 * K - 1 : Nat) : Rat) * 2 ^ (-1 : Int) := by
    rw [Nat.cast_sub (by omega)]
    push_cast
    rw [zpow_neg_one]
    linarith
  have hfirst : double (exactSteps bits m) = exactSteps bits m := by
    rw [hx]
    exact double_exact (by omega) _
  have hsecond : double (K : Rat) = K := by
    have := double_exact (show K < 2 ^ 53 by omega) 0
    rwa [zpow_zero, mul_one] at this
  rw [hfirst, h, hsecond]
  exact_mod_cast Rat.floor_intCast (K : Int)

theorem two_dvd_halfUpNumerator : 2 ∣ halfUpNumerator bits m :=
  ⟨m * 2 ^ bits + 500000, by unfold halfUpNumerator; ring⟩

theorem sixtyFour_dvd_halfUpNumerator (hb : 5 ≤ bits) : 64 ∣ halfUpNumerator bits m := by
  obtain ⟨k, rfl⟩ := Nat.exists_eq_add_of_le hb
  exact ⟨m * 2 ^ k + 15625, by unfold halfUpNumerator; ring⟩

/-- Nineteen bits leave the half room below the next power of two. -/
theorem steps_error_of_le (hm : m < 1000000) (hb : bits ≤ 19) :
    |double (double (exactSteps bits m) + 1 / 2) - (exactSteps bits m + 1 / 2)| ≤ 2 ^ 21 / 2 ^ 54 := by
  have hle := exactSteps_le bits hm
  have hone := one_le_two_pow bits
  have hpow : (2 : Rat) ^ bits ≤ 2 ^ 19 := pow_le_pow_right₀ (by norm_num) hb
  have herr := steps_error bits hm (k := bits + 1)
    (by rw [pow_succ 2 bits]; linarith)
  rw [pow_succ 2 bits] at herr
  linarith

/-- From twenty bits on the last microsecond of a second is more than half a
step from its end. -/
theorem steps_error_of_ge (hm : m < 1000000) (hb : 20 ≤ bits) :
    |double (double (exactSteps bits m) + 1 / 2) - (exactSteps bits m + 1 / 2)| ≤
      2 ^ bits / 2 ^ 53 := by
  have hle := exactSteps_le bits hm
  have hpow : (2 : Rat) ^ 20 ≤ 2 ^ bits := pow_le_pow_right₀ (by norm_num) hb
  have herr := steps_error bits hm (k := bits) (by linarith)
  linarith

/-- Up to thirty-eight bits the doubles give the exact steps, rounded half
up. -/
theorem subseconds_eq_halfUp (hb : 1 ≤ bits) (hb' : bits ≤ 38) (hm : m < 1000000) :
    subseconds bits (m * 1000) = ((halfUpNumerator bits m / 2000000 : Nat) : Int) := by
  have hpow : (2 : Rat) ^ bits ≤ 2 ^ 38 := pow_le_pow_right₀ (by norm_num) hb'
  rw [subseconds_eq_floor]
  by_cases hr : halfUpNumerator bits m % 2000000 = 0
  · have hsplit := Nat.div_add_mod (halfUpNumerator bits m) 2000000
    rw [hr, add_zero] at hsplit
    have hK : exactSteps bits m + 1 / 2 = ((halfUpNumerator bits m / 2000000 : Nat) : Rat) := by
      rw [exactSteps_add_half, div_eq_iff (by norm_num), mul_comm]
      exact_mod_cast hsplit.symm
    refine steps_of_tie ?_ ?_ hK
    · have hle := exactSteps_le bits hm
      have : ((halfUpNumerator bits m / 2000000 : Nat) : Rat) ≤ (2 : Rat) ^ 52 := by
        rw [← hK]
        linarith
      exact_mod_cast this
    · have : 0 < halfUpNumerator bits m := by unfold halfUpNumerator; omega
      omega
  have hnear {E : Rat} {g : Nat} (hg : E < (g : Rat) / 2000000)
      (herr : |double (double (exactSteps bits m) + 1 / 2) - (exactSteps bits m + 1 / 2)| ≤ E) :
      |double (double (exactSteps bits m) + 1 / 2) - (halfUpNumerator bits m : Rat) / (2000000 : Nat)| <
        (g : Rat) / (2000000 : Nat) := by
    rw [exactSteps_add_half] at herr
    exact lt_of_le_of_lt herr hg
  rcases Nat.lt_or_ge bits 20 with hlt | hge
  · exact floor_eq_of_gap two_dvd_halfUpNumerator (by norm_num) (by norm_num) hr
      (hnear (by norm_num) (steps_error_of_le hm (by omega)))
  · refine floor_eq_of_gap (sixtyFour_dvd_halfUpNumerator (by omega)) (by norm_num) (by norm_num) hr
      (hnear ?_ (steps_error_of_ge hm hge))
    -- 2 ^ (38 - 53) is just below 64 parts in two million
    push_cast
    linarith

/-! ### Many bits: microseconds stay apart -/

theorem subseconds_lt_of_lt (hb : 20 ≤ bits) {n : Nat} (h : m < n) (hn : n < 1000000) :
    subseconds bits (m * 1000) < subseconds bits (n * 1000) := by
  have hpow : (2 : Rat) ^ 20 ≤ 2 ^ bits := pow_le_pow_right₀ (by norm_num) hb
  have hstep := exactSteps_add_le bits h
  have hm' := abs_le.mp (steps_error_of_ge (lt_trans h hn) hb)
  have hn' := abs_le.mp (steps_error_of_ge hn hb)
  rw [subseconds_eq_floor, subseconds_eq_floor, ← Int.add_one_le_iff, Rat.le_floor_iff]
  push_cast
  have := Rat.floor_le (double (double (exactSteps bits m) + 1 / 2))
  linarith [hm'.2, hn'.1]

/-- The field of subseconds is never full. -/
theorem subseconds_lt_two_pow (hb : 20 ≤ bits) (hm : m < 1000000) :
    subseconds bits (m * 1000) < 2 ^ bits := by
  have hpow : (2 : Rat) ^ 20 ≤ 2 ^ bits := pow_le_pow_right₀ (by norm_num) hb
  have hle := exactSteps_le bits hm
  have herr := abs_le.mp (steps_error_of_ge hm hb)
  rw [subseconds_eq_floor, Rat.floor_lt_iff]
  push_cast
  linarith [herr.2]

end Steps

/-! ### Packed numbers -/

theorem packMicros_zero_bits (micros : Nat) : packMicros 0 micros = micros / 1000000 := rfl

/-- Up to thirty-eight bits the packed number is the exact number of steps
since the epoch, rounded half up, with the carry into the seconds. -/
theorem packMicros_eq_halfUp {bits : Nat} (hb : 1 ≤ bits) (hb' : bits ≤ 38) (micros : Nat) :
    packMicros bits micros = halfUpNumerator bits micros / 2000000 := by
  have hm : micros % 1000000 < 1000000 := Nat.mod_lt _ (by norm_num)
  have hsplit : halfUpNumerator bits micros =
      halfUpNumerator bits (micros % 1000000) + 2000000 * (micros / 1000000 * 2 ^ bits) := by
    conv_lhs => rw [← Nat.div_add_mod micros 1000000]
    unfold halfUpNumerator
    ring
  rw [packMicros, if_neg (by omega), Elapsed.seconds, Elapsed.nanos,
    subseconds_eq_halfUp hb hb' hm, Int.toNat_natCast, Nat.pow_eq, hsplit,
    Nat.add_mul_div_left _ _ (by norm_num)]
  ring

-- At forty bits the doubles round a number of steps that is just below a half up.
example : packMicros 40 512518 = halfUpNumerator 40 512518 / 2000000 + 1 := by decide +kernel

/-- From twenty bits on every microsecond has a packed number of its own. -/
theorem packMicros_lt_of_lt {bits m n : Nat} (hb : 20 ≤ bits) (h : m < n) :
    packMicros bits m < packMicros bits n := by
  have hm : m % 1000000 < 1000000 := Nat.mod_lt _ (by norm_num)
  have hn : n % 1000000 < 1000000 := Nat.mod_lt _ (by norm_num)
  have hfull := subseconds_lt_two_pow hb hm
  have hfull' : (subseconds bits (m % 1000000 * 1000)).toNat < 2 ^ bits := by
    rw [Int.toNat_lt (subseconds_nonneg bits _)]
    exact_mod_cast hfull
  rw [packMicros, packMicros, if_neg (by omega), if_neg (by omega), Nat.pow_eq, Elapsed.seconds,
    Elapsed.seconds, Elapsed.nanos, Elapsed.nanos]
  rcases Nat.lt_or_eq_of_le (Nat.div_le_div_right (c := 1000000) h.le) with hsec | hsec
  · have := Nat.mul_le_mul_right (2 ^ bits) (Nat.succ_le_of_lt hsec)
    rw [Nat.succ_mul] at this
    omega
  · rw [hsec]
    have hlt : m % 1000000 < n % 1000000 := by omega
    have := subseconds_lt_of_lt hb hlt hn
    have hnonneg := subseconds_nonneg bits (m % 1000000)
    omega

theorem halfUpNumerator_mono {bits m n : Nat} (h : m ≤ n) :
    halfUpNumerator bits m ≤ halfUpNumerator bits n := by
  have := Nat.mul_le_mul_right (2 ^ bits) h
  unfold halfUpNumerator
  omega

/-- Packing keeps the order of time. -/
theorem packMicros_mono (bits : Nat) {m n : Nat} (h : m ≤ n) :
    packMicros bits m ≤ packMicros bits n := by
  rcases Nat.eq_zero_or_pos bits with rfl | hb
  · rw [packMicros_zero_bits, packMicros_zero_bits]
    exact Nat.div_le_div_right h
  rcases Nat.lt_or_ge bits 20 with hlt | hge
  · rw [packMicros_eq_halfUp hb (by omega), packMicros_eq_halfUp hb (by omega)]
    exact Nat.div_le_div_right (halfUpNumerator_mono h)
  · rcases Nat.lt_or_eq_of_le h with hlt | rfl
    · exact (packMicros_lt_of_lt hge hlt).le
    · exact le_rfl

/-- What is at least a step apart is packed apart. -/
theorem packMicros_lt (bits : Nat) {m n : Nat} (h : m * 2 ^ bits + 1000000 ≤ n * 2 ^ bits) :
    packMicros bits m < packMicros bits n := by
  rcases Nat.eq_zero_or_pos bits with rfl | hb
  · rw [packMicros_zero_bits, packMicros_zero_bits]
    omega
  rcases Nat.lt_or_ge bits 20 with hlt | hge
  · rw [packMicros_eq_halfUp hb (by omega), packMicros_eq_halfUp hb (by omega)]
    have : halfUpNumerator bits m + 2000000 ≤ halfUpNumerator bits n := by
      unfold halfUpNumerator
      omega
    omega
  · exact packMicros_lt_of_lt hge (Nat.lt_of_mul_lt_mul_right (a := 2 ^ bits) (by omega))

end Timestamp
end ChronoId
