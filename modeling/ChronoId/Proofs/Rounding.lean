/-
# How far rounding moves a number

Rounding to significant digits moves a number by at most half a unit of its
last place, leaves alone what has no more digits than are kept, and commutes
with the powers of the base. The unit follows from the exponent of the leading
digit, which is the only one whose power has the number between itself and the
next. A fraction whose parts have much in common is far enough from the
integers for a small error not to matter.

Key theorems: `Rounding.floor_eq_of_gap`, `Rounding.magnitude_spec`,
`Rounding.significant_error`, `Rounding.significant_exact`,
`Rounding.significant_mul_zpow`, `Rounding.double_error`,
`Rounding.double_exact`, `Rounding.double_double`, `Rounding.decimal_places`,
`Rounding.decimal_exact`.
-/
import ChronoId.Rounding
import ChronoId.Proofs.Positional
import Mathlib.Algebra.Order.Field.Power
import Mathlib.Data.Rat.Floor
import Mathlib.Tactic.FieldSimp
import Mathlib.Tactic.GCongr
import Mathlib.Tactic.Linarith
import Mathlib.Tactic.NormNum
import Mathlib.Tactic.Positivity

namespace ChronoId
namespace Rounding

/-! ### To the nearest integer -/

theorem floor_bounds (q : Rat) : (q.floor : Rat) ≤ q ∧ q < (q.floor : Rat) + 1 := by
  have h := Rat.lt_floor_add_one q
  push_cast at h
  exact ⟨Rat.floor_le q, h⟩

theorem floor_eq_of_bounds {q : Rat} {k : Int} (hlow : (k : Rat) ≤ q) (hhigh : q < k + 1) :
    q.floor = k := by
  have h1 : k ≤ q.floor := Rat.le_floor_iff.mpr hlow
  have h2 : q.floor < k + 1 := Rat.floor_lt_iff.mpr (by exact_mod_cast hhigh)
  omega

theorem floor_intCast_div (n : Int) (d : Nat) : ((n : Rat) / d).floor = n / d :=
  Rat.floor_intCast_div_natCast n d

theorem floor_natCast_div (n d : Nat) : ((n : Rat) / d).floor = ((n / d : Nat) : Int) := by
  rw [Int.natCast_ediv]
  exact floor_intCast_div n d

/-- A remainder that is not zero is no smaller than the share that both sides
have in common. -/
theorem gap_le {g n d : Nat} (hn : g ∣ n) (hd : g ∣ d) (hpos : 0 < d) (hr : n % d ≠ 0) :
    g ≤ n % d ∧ n % d + g ≤ d := by
  have hdvd : g ∣ n % d := (Nat.dvd_mod_iff hd).mpr hn
  have hlt := Nat.mod_lt n hpos
  refine ⟨Nat.le_of_dvd (Nat.pos_of_ne_zero hr) hdvd, ?_⟩
  have := Nat.le_of_dvd (by omega) (Nat.dvd_sub hd hdvd)
  omega

/-- A fraction that is no integer is at least the common share of its parts away
from one, so what is nearer to it than that lies between the same integers. -/
theorem floor_eq_of_gap {g n d : Nat} {q : Rat} (hn : g ∣ n) (hd : g ∣ d) (hpos : 0 < d)
    (hr : n % d ≠ 0) (h : |q - (n : Rat) / d| < (g : Rat) / d) :
    q.floor = ((n / d : Nat) : Int) := by
  obtain ⟨hlow, hhigh⟩ := gap_le hn hd hpos hr
  have hnear := abs_lt.mp h
  have hdpos : (0 : Rat) < d := by exact_mod_cast hpos
  have hsplit : (n : Rat) / d = (n / d : Nat) + ((n % d : Nat) : Rat) / d := by
    have hn' : (n : Rat) = d * (n / d : Nat) + (n % d : Nat) := by
      exact_mod_cast (Nat.div_add_mod n d).symm
    conv_lhs => rw [hn']
    field_simp
  have hlow' : (g : Rat) / d ≤ ((n % d : Nat) : Rat) / d :=
    div_le_div_of_nonneg_right (by exact_mod_cast hlow) hdpos.le
  have hhigh' : ((n % d : Nat) : Rat) / d + (g : Rat) / d ≤ 1 := by
    rw [← add_div, div_le_one hdpos]
    exact_mod_cast hhigh
  apply floor_eq_of_bounds
  · rw [Int.cast_natCast]
    linarith [hnear.1]
  · rw [Int.cast_natCast]
    linarith [hnear.2]

theorem halfEven_error (q : Rat) : |(halfEven q : Rat) - q| ≤ 1 / 2 := by
  obtain ⟨hlow, hhigh⟩ := floor_bounds q
  rw [halfEven, abs_le]
  split
  · next h =>
    have : q - q.floor ≤ 1 / 2 := by
      rcases h with h | ⟨h, -⟩
      · exact h.le
      · exact h.le
    constructor <;> linarith
  · next h =>
    have : 1 / 2 ≤ q - q.floor := not_lt.mp fun hlt => h (Or.inl hlt)
    push_cast
    constructor <;> linarith

theorem halfEven_intCast (k : Int) : halfEven (k : Rat) = k := by
  have hrest : (k : Rat) - ((k : Rat).floor : Rat) < 1 / 2 := by
    rw [Rat.floor_intCast, sub_self]
    norm_num
  rw [halfEven, if_pos (Or.inl hrest), Rat.floor_intCast]

/-- No rounding leaves what an integer bounds. -/
theorem halfEven_le {q : Rat} {k : Int} (h : q ≤ k) : halfEven q ≤ k := by
  have herr := abs_le.mp (halfEven_error q)
  have : (halfEven q : Rat) < (k : Rat) + 1 := by linarith [herr.2]
  exact Int.lt_add_one_iff.mp (by exact_mod_cast this)

theorem le_halfEven {q : Rat} {k : Int} (h : (k : Rat) ≤ q) : k ≤ halfEven q := by
  have herr := abs_le.mp (halfEven_error q)
  have : (k : Rat) < (halfEven q : Rat) + 1 := by linarith [herr.1]
  exact Int.lt_add_one_iff.mp (by exact_mod_cast this)

theorem halfEven_nonneg {q : Rat} (h : 0 ≤ q) : 0 ≤ halfEven q :=
  le_halfEven (by rwa [Int.cast_zero])

theorem halfUp_error (q : Rat) : |(halfUp q : Rat) - q| ≤ 1 / 2 := by
  obtain ⟨hlow, hhigh⟩ := floor_bounds (q + 1 / 2)
  rw [halfUp, abs_le]
  constructor <;> linarith

theorem halfUp_intCast (k : Int) : halfUp (k : Rat) = k :=
  floor_eq_of_bounds (by linarith) (by linarith)

theorem halfUp_intCast_add (k : Int) (q : Rat) : halfUp (k + q) = k + halfUp q := by
  obtain ⟨hlow, hhigh⟩ := floor_bounds (q + 1 / 2)
  rw [halfUp, halfUp]
  apply floor_eq_of_bounds
  · push_cast
    linarith
  · push_cast
    linarith

theorem halfUp_mono {p q : Rat} (h : p ≤ q) : halfUp p ≤ halfUp q := by
  rw [halfUp, halfUp, Rat.le_floor_iff]
  exact (Rat.floor_le _).trans (add_le_add_left h _)

theorem halfUp_nonneg {q : Rat} (h : 0 ≤ q) : 0 ≤ halfUp q := by
  rw [halfUp, Rat.le_floor_iff]
  exact add_nonneg h (by norm_num)

theorem halfUp_zero : halfUp 0 = 0 :=
  floor_eq_of_bounds (by norm_num) (by norm_num)

/-! ### The leading digit -/

/-- The power of the base above all but the last of the digits of `n`. -/
theorem pow_le_of_length_digits {base n : Nat} (hb : 2 ≤ base) (hn : 0 < n) :
    base ^ ((Positional.digits base n).length - 1) ≤ n := by
  by_contra h
  have hpos := Positional.length_digits_pos base n
  by_cases hone : (Positional.digits base n).length = 1
  · rw [hone, Nat.sub_self, pow_zero] at h
    omega
  · have := (Positional.length_digits_le_iff hb (by omega)).mpr (not_le.mp h)
    omega

theorem lt_pow_length_digits {base : Nat} (hb : 2 ≤ base) (n : Nat) :
    n < base ^ (Positional.digits base n).length :=
  (Positional.length_digits_le_iff hb (Positional.length_digits_pos base n)).mp le_rfl

section Base

variable {base : Nat} (hb : 2 ≤ base)
include hb

theorem base_pos : (0 : Rat) < base := by
  exact_mod_cast (by omega : 0 < base)

theorem one_lt_base : (1 : Rat) < base := by
  exact_mod_cast (by omega : 1 < base)

theorem zpow_base_pos (e : Int) : (0 : Rat) < (base : Rat) ^ e := zpow_pos (base_pos hb) e

/-- The lengths of numerator and denominator leave two candidates for the
leading exponent. -/
theorem length_bounds {q : Rat} (hq : 0 < q) :
    (base : Rat) ^ (((Positional.digits base q.num.natAbs).length : Int)
        - ((Positional.digits base q.den).length : Int) - 1) < q ∧
      q < (base : Rat) ^ (((Positional.digits base q.num.natAbs).length : Int)
        - ((Positional.digits base q.den).length : Int) + 1) := by
  have hnum : 0 < q.num := Rat.num_pos.mpr hq
  have hnumabs : 0 < q.num.natAbs := Int.natAbs_pos.mpr hnum.ne'
  have hden : (0 : Rat) < q.den := by exact_mod_cast q.den_pos
  have hq' : q = (q.num.natAbs : Rat) / q.den := by
    have habs : ((q.num.natAbs : Int) : Rat) = (q.num : Rat) := by
      rw [Int.natAbs_of_nonneg hnum.le]
    rw [← Int.cast_natCast, habs, Rat.num_div_den]
  set a := (Positional.digits base q.num.natAbs).length with ha
  set d := (Positional.digits base q.den).length with hd
  have hapos : 0 < a := Positional.length_digits_pos _ _
  have hdpos : 0 < d := Positional.length_digits_pos _ _
  have hnumlow : (base : Rat) ^ ((a : Int) - 1) ≤ q.num.natAbs := by
    have h := pow_le_of_length_digits hb hnumabs
    rw [← ha] at h
    have hcast : ((a : Int) - 1) = ((a - 1 : Nat) : Int) := by omega
    rw [hcast, zpow_natCast]
    exact_mod_cast h
  have hnumhigh : (q.num.natAbs : Rat) < (base : Rat) ^ (a : Int) := by
    have h := lt_pow_length_digits hb q.num.natAbs
    rw [← ha] at h
    rw [zpow_natCast]
    exact_mod_cast h
  have hdenlow : (base : Rat) ^ ((d : Int) - 1) ≤ q.den := by
    have h := pow_le_of_length_digits hb q.den_pos
    rw [← hd] at h
    have hcast : ((d : Int) - 1) = ((d - 1 : Nat) : Int) := by omega
    rw [hcast, zpow_natCast]
    exact_mod_cast h
  have hdenhigh : (q.den : Rat) < (base : Rat) ^ (d : Int) := by
    have h := lt_pow_length_digits hb q.den
    rw [← hd] at h
    rw [zpow_natCast]
    exact_mod_cast h
  have hne := (base_pos hb).ne'
  constructor
  · rw [hq', lt_div_iff₀ hden]
    calc (base : Rat) ^ ((a : Int) - d - 1) * q.den
        < (base : Rat) ^ ((a : Int) - d - 1) * (base : Rat) ^ (d : Int) :=
          mul_lt_mul_of_pos_left hdenhigh (zpow_base_pos hb _)
      _ = (base : Rat) ^ ((a : Int) - 1) := by rw [← zpow_add₀ hne]; congr 1; ring
      _ ≤ q.num.natAbs := hnumlow
  · rw [hq', div_lt_iff₀ hden]
    calc (q.num.natAbs : Rat) < (base : Rat) ^ (a : Int) := hnumhigh
      _ = (base : Rat) ^ ((a : Int) - d + 1) * (base : Rat) ^ ((d : Int) - 1) := by
          rw [← zpow_add₀ hne]; congr 1; ring
      _ ≤ (base : Rat) ^ ((a : Int) - d + 1) * q.den :=
          mul_le_mul_of_nonneg_left hdenlow (zpow_base_pos hb _).le

/-- The leading exponent is the one whose power has the number between itself
and the next. -/
theorem magnitude_spec {q : Rat} (hq : 0 < q) :
    (base : Rat) ^ magnitude base q ≤ q ∧ q < (base : Rat) ^ (magnitude base q + 1) := by
  obtain ⟨hlow, hhigh⟩ := length_bounds hb hq
  simp only [magnitude]
  split
  · next h => exact ⟨hlow.le, by rwa [sub_add_cancel]⟩
  · next h => exact ⟨not_lt.mp h, hhigh⟩

theorem magnitude_lt_of_lt_zpow {q : Rat} (hq : 0 < q) {k : Int} (h : q < (base : Rat) ^ k) :
    magnitude base q < k :=
  (zpow_lt_zpow_iff_right₀ (one_lt_base hb)).mp (lt_of_le_of_lt (magnitude_spec hb hq).1 h)

theorem le_magnitude_of_zpow_le {q : Rat} (hq : 0 < q) {k : Int} (h : (base : Rat) ^ k ≤ q) :
    k ≤ magnitude base q :=
  Int.lt_add_one_iff.mp
    ((zpow_lt_zpow_iff_right₀ (one_lt_base hb)).mp (lt_of_le_of_lt h (magnitude_spec hb hq).2))

theorem magnitude_mul_zpow {q : Rat} (hq : 0 < q) (k : Int) :
    magnitude base (q * (base : Rat) ^ k) = magnitude base q + k := by
  have hk := zpow_base_pos hb k
  have hne := (base_pos hb).ne'
  obtain ⟨hlow, hhigh⟩ := magnitude_spec hb hq
  have hle : magnitude base q + k ≤ magnitude base (q * (base : Rat) ^ k) :=
    le_magnitude_of_zpow_le hb (mul_pos hq hk) <| by
      rw [zpow_add₀ hne]
      exact mul_le_mul_of_nonneg_right hlow hk.le
  have hlt : magnitude base (q * (base : Rat) ^ k) < magnitude base q + 1 + k :=
    magnitude_lt_of_lt_zpow hb (mul_pos hq hk) <| by
      rw [zpow_add₀ hne (magnitude base q + 1)]
      exact mul_lt_mul_of_pos_right hhigh hk
  omega

/-! ### To significant digits -/

omit hb in
theorem significant_zero (places : Nat) : significant base places 0 = 0 := if_pos rfl

omit hb in
theorem significant_of_pos (places : Nat) {q : Rat} (hq : 0 < q) : significant base places q =
    (halfEven (q / (base : Rat) ^ (magnitude base q - ((places : Int) - 1))) : Rat)
      * (base : Rat) ^ (magnitude base q - ((places : Int) - 1)) :=
  if_neg hq.ne'

theorem significant_nonneg (places : Nat) {q : Rat} (hq : 0 ≤ q) : 0 ≤ significant base places q := by
  rcases hq.eq_or_lt with rfl | hpos
  · rw [significant_zero]
  rw [significant_of_pos places hpos]
  have hunit := zpow_base_pos hb (magnitude base q - ((places : Int) - 1))
  have hhalf := halfEven_nonneg (div_pos hpos hunit).le
  exact mul_nonneg (by exact_mod_cast hhalf) hunit.le

/-- A number below a power of the base moves by at most half a unit of the
last place that it can have. -/
theorem significant_error (places : Nat) {q : Rat} {k : Int} (hq : 0 ≤ q)
    (h : q < (base : Rat) ^ k) :
    |significant base places q - q| ≤ (base : Rat) ^ (k - places) / 2 := by
  rcases hq.eq_or_lt with rfl | hpos
  · rw [significant_zero, sub_self, abs_zero]
    exact (half_pos (zpow_base_pos hb _)).le
  rw [significant_of_pos places hpos]
  set unit := (base : Rat) ^ (magnitude base q - ((places : Int) - 1)) with hunit
  have hupos : 0 < unit := zpow_base_pos hb _
  have hule : unit ≤ (base : Rat) ^ (k - places) := by
    have hm := magnitude_lt_of_lt_zpow hb hpos h
    exact zpow_le_zpow_right₀ (one_lt_base hb).le (by omega)
  have hsplit : (halfEven (q / unit) : Rat) * unit - q =
      ((halfEven (q / unit) : Rat) - q / unit) * unit := by
    field_simp
  rw [hsplit, abs_mul, abs_of_pos hupos]
  calc |(halfEven (q / unit) : Rat) - q / unit| * unit ≤ 1 / 2 * unit :=
        mul_le_mul_of_nonneg_right (halfEven_error _) hupos.le
    _ ≤ (base : Rat) ^ (k - places) / 2 := by linarith

/-- What has no more digits than are kept stays as it is. -/
theorem significant_exact {places m : Nat} (hm : m < base ^ places) (j : Int) :
    significant base places (m * (base : Rat) ^ j) = m * (base : Rat) ^ j := by
  rcases Nat.eq_zero_or_pos m with rfl | hpos
  · rw [Nat.cast_zero, zero_mul, significant_zero]
  have hne := (base_pos hb).ne'
  have hq : 0 < (m : Rat) * (base : Rat) ^ j :=
    mul_pos (by exact_mod_cast hpos) (zpow_base_pos hb j)
  rw [significant_of_pos places hq]
  set e := magnitude base (m * (base : Rat) ^ j) - ((places : Int) - 1) with he
  have hej : e ≤ j := by
    have hlt : (m : Rat) * (base : Rat) ^ j < (base : Rat) ^ ((places : Int) + j) := by
      rw [zpow_add₀ hne, zpow_natCast]
      exact mul_lt_mul_of_pos_right (by exact_mod_cast hm) (zpow_base_pos hb j)
    have := magnitude_lt_of_lt_zpow hb hq hlt
    omega
  -- in units of the last place the number is an integer
  have hint : (m : Rat) * (base : Rat) ^ j / (base : Rat) ^ e =
      ((m * (base : Int) ^ (j - e).toNat : Int) : Rat) := by
    push_cast
    rw [mul_div_assoc, ← zpow_sub₀ hne, ← zpow_natCast, Int.toNat_of_nonneg (by omega)]
  rw [hint, halfEven_intCast, ← hint, div_mul_cancel₀ _ (zpow_base_pos hb e).ne']

theorem significant_pow (places : Nat) (hp : 0 < places) (j : Int) :
    significant base places ((base : Rat) ^ j) = (base : Rat) ^ j := by
  have hone : 1 < base ^ places := Nat.one_lt_pow (by omega) (by omega)
  have h := significant_exact hb hone j
  rwa [Nat.cast_one, one_mul] at h

theorem significant_mul_zpow (places : Nat) {q : Rat} (hq : 0 ≤ q) (k : Int) :
    significant base places (q * (base : Rat) ^ k) = significant base places q * (base : Rat) ^ k := by
  rcases hq.eq_or_lt with rfl | hpos
  · rw [zero_mul, significant_zero, zero_mul]
  have hne := (base_pos hb).ne'
  have hk := zpow_base_pos hb k
  rw [significant_of_pos places hpos, significant_of_pos places (mul_pos hpos hk),
    magnitude_mul_zpow hb hpos k]
  have hunit : (base : Rat) ^ (magnitude base q + k - ((places : Int) - 1)) =
      (base : Rat) ^ (magnitude base q - ((places : Int) - 1)) * (base : Rat) ^ k := by
    rw [← zpow_add₀ hne]
    congr 1
    ring
  rw [hunit, mul_div_mul_right _ _ hk.ne', mul_assoc]

/-- Rounding twice is rounding once. -/
theorem significant_significant {places : Nat} (hp : 0 < places) {q : Rat} (hq : 0 ≤ q) :
    significant base places (significant base places q) = significant base places q := by
  rcases hq.eq_or_lt with rfl | hpos
  · rw [significant_zero, significant_zero]
  rw [significant_of_pos places hpos]
  set e := magnitude base q - ((places : Int) - 1) with he
  have hepos := zpow_base_pos hb e
  have hne := (base_pos hb).ne'
  have hnonneg : 0 ≤ halfEven (q / (base : Rat) ^ e) := halfEven_nonneg (div_pos hpos hepos).le
  have hle : halfEven (q / (base : Rat) ^ e) ≤ ((base ^ places : Nat) : Int) := by
    refine halfEven_le ?_
    rw [div_le_iff₀ hepos]
    push_cast
    rw [← zpow_natCast, ← zpow_add₀ hne]
    refine (magnitude_spec hb hpos).2.le.trans (zpow_le_zpow_right₀ (one_lt_base hb).le ?_)
    omega
  obtain ⟨m, hm⟩ := Int.eq_ofNat_of_zero_le hnonneg
  rw [hm, Int.cast_natCast]
  rw [hm] at hle
  rcases Nat.lt_or_eq_of_le (by exact_mod_cast hle : m ≤ base ^ places) with hlt | rfl
  · exact significant_exact hb hlt e
  · -- all digits were nines and carried
    rw [Nat.cast_pow, ← zpow_natCast, ← zpow_add₀ hne]
    exact significant_pow hb places hp _

end Base

/-! ### Doubles -/

theorem double_error {q : Rat} {k : Int} (hq : 0 ≤ q) (h : q < 2 ^ k) :
    |double q - q| ≤ 2 ^ (k - 54) := by
  have herr := significant_error (le_refl 2) 53 hq (by exact_mod_cast h)
  have hhalf : ((2 : Nat) : Rat) ^ (k - (53 : Nat)) / 2 = 2 ^ (k - 54) := by
    rw [show k - ((53 : Nat) : Int) = (k - 54) + 1 by push_cast; ring, zpow_add₀ (by norm_num)]
    norm_num
  rw [hhalf] at herr
  exact herr

theorem double_nonneg {q : Rat} (hq : 0 ≤ q) : 0 ≤ double q :=
  significant_nonneg (le_refl 2) 53 hq

theorem double_exact {m : Nat} (hm : m < 2 ^ 53) (j : Int) :
    double (m * 2 ^ j) = m * 2 ^ j := by
  exact_mod_cast significant_exact (le_refl 2) hm j

theorem double_mul_zpow {q : Rat} (hq : 0 ≤ q) (k : Int) : double (q * 2 ^ k) = double q * 2 ^ k := by
  exact_mod_cast significant_mul_zpow (le_refl 2) 53 hq k

theorem double_double {q : Rat} (hq : 0 ≤ q) : double (double q) = double q :=
  significant_significant (le_refl 2) (by omega) hq

/-! ### Decimals -/

theorem decimal_nonneg {q : Rat} (h : 0 ≤ q) : 0 ≤ decimal q :=
  significant_nonneg (by norm_num) 28 h

/-- A fraction moves by at most half a unit of the twenty-eighth place. -/
theorem decimal_error {q : Rat} (hq : 0 ≤ q) (h : q < 1) : |decimal q - q| ≤ 1 / 10 ^ 28 := by
  have herr := significant_error (show 2 ≤ 10 by norm_num) 28 (k := 0) hq (by rwa [zpow_zero])
  refine herr.trans ?_
  norm_num

/-- Twenty-eight decimal places are kept. -/
theorem decimal_places {m : Nat} (hm : m < 10 ^ 28) (places : Nat) :
    decimal ((m : Rat) / 10 ^ places) = m / 10 ^ places := by
  have hshape : (m : Rat) / 10 ^ places = m * ((10 : Nat) : Rat) ^ (-(places : Int)) := by
    rw [zpow_neg, zpow_natCast, Nat.cast_ofNat, div_eq_mul_inv]
  rw [decimal, hshape]
  exact significant_exact (by norm_num) hm _

/-- Twenty-eight binary places have no more decimal ones. -/
theorem decimal_exact {bits steps : Nat} (hb : bits ≤ 28) (hs : steps < 2 ^ bits) :
    decimal ((steps : Rat) / 2 ^ bits) = steps / 2 ^ bits := by
  have hlt : steps * 5 ^ bits < 10 ^ 28 := by
    calc steps * 5 ^ bits < 2 ^ bits * 5 ^ bits := Nat.mul_lt_mul_of_pos_right hs (by positivity)
      _ = 10 ^ bits := by rw [← Nat.mul_pow]
      _ ≤ 10 ^ 28 := Nat.pow_le_pow_right (by norm_num) hb
  have hshape : (steps : Rat) / 2 ^ bits = ((steps * 5 ^ bits : Nat) : Rat) / 10 ^ bits := by
    have hten : (10 : Rat) ^ bits = 2 ^ bits * 5 ^ bits := by rw [← mul_pow]; norm_num
    push_cast
    rw [hten]
    field_simp
  rw [hshape]
  exact decimal_places hlt bits

end Rounding
end ChronoId
