/-
# What the weighted sum of digits detects

A code that ends with its check digit has a weighted sum that is a multiple of
ten, and the check digit's own place is not doubled. Digits that are different
count differently in a place of either kind, and never by ten or more, so the
sum tells a digit from any other in its place. Two neighbours and the same two
the other way round differ by what doubling adds to each, and that is the same
modulo ten for zero and nine only.

Key definitions: `Mod10.total`.
Key theorems: `Mod10.total_substituted`, `Mod10.total_swapped`,
`Mod10.eq_of_swapped_zeros`, `Mod10.checkDigit_verdict`.
-/
import ChronoId.Proofs.CheckDigit

namespace ChronoId
namespace Mod10

/-! ### What a digit counts -/

theorem weigh_lt (doubled : Bool) {d : Nat} (hd : d < 10) : weigh doubled d < 10 := by
  cases doubled
  · exact hd
  · simp only [weigh, ↓reduceIte]
    split <;> omega

theorem weigh_inj {doubled : Bool} : ∀ {d}, d < 10 → ∀ {e}, e < 10 →
    weigh doubled d = weigh doubled e → d = e := by
  cases doubled <;> decide

/-- Doubling adds the same to two digits, modulo ten, if they are the same, or
zero and nine. -/
theorem weigh_swap (doubled : Bool) : ∀ {d}, d < 10 → ∀ {e}, e < 10 →
    ((weigh doubled d + weigh (!doubled) e) % 10 = (weigh doubled e + weigh (!doubled) d) % 10 ↔
      d = e ∨ d = 0 ∧ e = 9 ∨ d = 9 ∧ e = 0) := by
  cases doubled <;> decide +kernel

/-! ### The sum of a code -/

/-- What stands in front decides only which places are doubled behind it. -/
theorem exists_weightedSum_append : ∀ (doubled : Bool) (ds : List Nat), ∃ doubled', ∀ es,
    weightedSum doubled (ds ++ es) = weightedSum doubled ds + weightedSum doubled' es
  | doubled, [] => ⟨doubled, fun es => (Nat.zero_add _).symm⟩
  | doubled, d :: ds => by
    obtain ⟨doubled', h⟩ := exists_weightedSum_append (!doubled) ds
    exact ⟨doubled', fun es => by rw [List.cons_append, weightedSum, h, weightedSum, Nat.add_assoc]⟩

/-- The weighted sum of a code whose last digit is its check digit. -/
def total (ds : List Nat) : Nat := weightedSum false ds.reverse

theorem total_concat (ds : List Nat) (d : Nat) :
    total (ds ++ [d]) = d + weightedSum true ds.reverse := by
  rw [total, List.reverse_concat]
  rfl

/-- The sum vanishes only if every digit does. -/
theorem total_eq_zero_iff {ds : List Nat} : total ds = 0 ↔ ∀ d ∈ ds, d = 0 := by
  rw [total, weightedSum_eq_zero_iff]
  simp only [List.mem_reverse]

section Slips

variable {as bs : List Nat} {a b : Nat}

/-- The sum tells a digit from any other in its place, also modulo ten. -/
theorem total_substituted (ha : a < 10) (hb : b < 10)
    (h : total (as ++ a :: bs) % 10 = total (as ++ b :: bs) % 10) : a = b := by
  obtain ⟨doubled, hsum⟩ := exists_weightedSum_append false bs.reverse
  simp only [total, List.reverse_append, List.reverse_cons, List.append_assoc,
    List.singleton_append, hsum, weightedSum] at h
  have hwa := weigh_lt doubled ha
  have hwb := weigh_lt doubled hb
  have hw : weigh doubled a = weigh doubled b := by omega
  exact weigh_inj ha hb hw

/-- The sum tells two neighbours from the same two the other way round, unless
they are zero and nine. -/
theorem total_swapped (ha : a < 10) (hb : b < 10) :
    total (as ++ a :: b :: bs) % 10 = total (as ++ b :: a :: bs) % 10 ↔
      a = b ∨ a = 0 ∧ b = 9 ∨ a = 9 ∧ b = 0 := by
  obtain ⟨doubled, hsum⟩ := exists_weightedSum_append false bs.reverse
  have hswap := weigh_swap doubled hb ha
  simp only [total, List.reverse_append, List.reverse_cons, List.append_assoc,
    hsum, List.cons_append, List.nil_append, weightedSum]
  omega

/-- Two neighbours that are different cannot be put in an order that leaves only
zeros in front of the check digit. -/
theorem eq_of_swapped_zeros (ha : a < 10) (hb : b < 10)
    (h : total (as ++ a :: b :: bs) % 10 = 0)
    (hz : ∀ e ∈ (as ++ b :: a :: bs).dropLast, e = 0) : a = b := by
  rcases List.eq_nil_or_concat bs with rfl | ⟨bs, last, rfl⟩
  · -- The check digit was moved: a zero took the place of `a`, and the sum shows it.
    rw [List.append_cons, List.dropLast_concat] at hz
    simp only [List.forall_mem_append, List.forall_mem_singleton] at hz
    obtain ⟨has, rfl⟩ := hz
    have hzeros : total (as ++ [0, 0]) = 0 := by
      rw [total_eq_zero_iff]
      simpa only [List.forall_mem_append, List.forall_mem_cons, true_and] using ⟨has, nofun⟩
    exact total_substituted ha hb (h.trans (by rw [hzeros]))
  · rw [List.concat_eq_append, ← List.cons_append, ← List.cons_append, ← List.append_assoc,
      List.dropLast_concat] at hz
    simp only [List.forall_mem_append, List.forall_mem_cons] at hz
    rw [hz.2.1, hz.2.2.1]

end Slips

/-! ### Check digits -/

/-- A digit behind a payload is its check digit if the sum of both is a multiple
of ten. There is none if all digits of the payload are zero. -/
theorem checkDigit_verdict {ds : List Nat} {d : Nat} (hd : d < 10) :
    (checkDigit ds).map (fun k => decide (k % 10 = d)) =
      if ∀ e ∈ ds, e = 0 then .error (.input .zeroSum)
      else .ok (decide (total (ds ++ [d]) % 10 = 0)) := by
  have hsum := weightedSum_eq_zero_iff true ds.reverse
  simp only [List.mem_reverse] at hsum
  rw [total_concat]
  simp only [checkDigit, hsum]
  split
  · rfl
  · refine congrArg Except.ok (decide_eq_decide.mpr ?_)
    omega

end Mod10
end ChronoId
