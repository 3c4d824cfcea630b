/-
# Positional numerals

A natural number and its digits in a base, most significant first. Zero has
the single digit zero; every other number starts with a digit that is not
zero, so the digits are the shortest ones with that value.

Key definitions: `Positional.digits`, `Positional.value`.
Key theorems: `Positional.value_digits`, `Positional.digits_lt`,
`Positional.digits_ne_nil`.
-/

namespace ChronoId
namespace Positional

/-- The digits of `n` in `base`, most significant first. There are no bases
below two: there the number is its own only digit. -/
def digits (base n : Nat) : List Nat :=
  if base < 2 ∨ n < base then [n] else digits base (n / base) ++ [n % base]
termination_by n
decreasing_by
  rename_i h
  have h2 : 2 ≤ base := by omega
  exact Nat.div_lt_self (by omega) h2

/-- The number that `ds`, most significant first, stands for in `base`. -/
def value (base : Nat) (ds : List Nat) : Nat :=
  ds.foldl (fun v d => v * base + d) 0

theorem digits_of_lt {base n : Nat} (h : n < base) : digits base n = [n] := by
  rw [digits, if_pos (Or.inr h)]

theorem digits_of_le {base n : Nat} (hb : 2 ≤ base) (h : base ≤ n) :
    digits base n = digits base (n / base) ++ [n % base] := by
  rw [digits, if_neg (by omega)]

theorem value_append_singleton (base : Nat) (ds : List Nat) (d : Nat) :
    value base (ds ++ [d]) = value base ds * base + d := by
  simp [value, List.foldl_append]

/-- Reading the digits of a number gives the number back. -/
theorem value_digits (base n : Nat) : value base (digits base n) = n := by
  fun_induction digits base n with
  | case1 n => simp [value]
  | case2 n h ih =>
    rw [value_append_singleton, ih]
    exact Nat.div_add_mod' n base

theorem digits_ne_nil (base n : Nat) : digits base n ≠ [] := by
  rw [digits]
  split <;> simp

/-- Every digit is below the base. -/
theorem digits_lt {base n : Nat} (hb : 2 ≤ base) : ∀ d ∈ digits base n, d < base := by
  fun_induction digits base n with
  | case1 n h =>
    intro d hd
    simp only [List.mem_singleton] at hd
    omega
  | case2 n h ih =>
    intro d hd
    rcases List.mem_append.mp hd with hd | hd
    · exact ih d hd
    · simp only [List.mem_singleton] at hd
      rw [hd]
      exact Nat.mod_lt _ (by omega)

end Positional
end ChronoId
