/-
# Values and lengths of positional numerals

Read from the right, the digits of a number are Mathlib's `Nat.digits` and
the value of digits is `Nat.ofDigits`; what is known of those is stated here
of numerals that are read from the left. A digit in front counts the power of
the base that the digits behind it leave free, so digits of one length have
different values unless they are the same, and the digits of a number are the
only ones with its value that do not start with a superfluous zero.

Key theorems: `Positional.value_cons`, `Positional.value_lt_pow`,
`Positional.length_digits_le_iff`, `Positional.digits_value`.
-/
import ChronoId.Positional
import Mathlib.Data.Nat.Digits.Lemmas

namespace ChronoId
namespace Positional

theorem value_nil (base : Nat) : value base [] = 0 := rfl

theorem value_eq_ofDigits (base : Nat) (ds : List Nat) :
    value base ds = Nat.ofDigits base ds.reverse := by
  induction ds using List.reverseRecOn with
  | nil => rfl
  | append_singleton ds d ih =>
    rw [value_append_singleton, ih, List.reverse_concat, Nat.ofDigits_cons]
    ring

theorem digits_zero {base : Nat} (hb : 2 ≤ base) : digits base 0 = [0] :=
  digits_of_lt (by omega)

theorem digits_eq_reverse {base n : Nat} (hb : 2 ≤ base) (hn : n ≠ 0) :
    digits base n = (Nat.digits base n).reverse := by
  fun_induction digits base n with
  | case1 n h => rw [Nat.digits_of_lt base n hn (by omega), List.reverse_singleton]
  | case2 n h ih =>
    have hq : n / base ≠ 0 := (Nat.div_pos (by omega) (by omega)).ne'
    rw [ih hq, Nat.digits_eq_cons_digits_div (by omega) hn, List.reverse_cons]

/-- A digit in front counts a power of the base. -/
theorem value_cons (base d : Nat) (ds : List Nat) :
    value base (d :: ds) = d * base ^ ds.length + value base ds := by
  rw [value_eq_ofDigits, value_eq_ofDigits, List.reverse_cons, Nat.ofDigits_append,
    Nat.ofDigits_singleton, List.length_reverse]
  ring

theorem value_replicate_append (base k : Nat) (ds : List Nat) :
    value base (List.replicate k 0 ++ ds) = value base ds := by
  rw [value_eq_ofDigits, value_eq_ofDigits, List.reverse_append, List.reverse_replicate,
    Nat.ofDigits_append_replicate_zero]

theorem value_lt_pow {base : Nat} (hb : 2 ≤ base) {ds : List Nat} (hds : ∀ d ∈ ds, d < base) :
    value base ds < base ^ ds.length := by
  rw [value_eq_ofDigits, ← List.length_reverse]
  exact Nat.ofDigits_lt_base_pow_length (by omega) fun d hd => hds d (List.mem_reverse.mp hd)

/-- Digits of one length are known by their value. -/
theorem value_inj {base : Nat} (hb : 2 ≤ base) {ds es : List Nat} (hlen : ds.length = es.length)
    (hds : ∀ d ∈ ds, d < base) (hes : ∀ e ∈ es, e < base) (h : value base ds = value base es) :
    ds = es := by
  rw [value_eq_ofDigits, value_eq_ofDigits] at h
  have hr : ds.reverse = es.reverse :=
    Nat.ofDigits_inj_of_len_eq (by omega) (by simp [hlen])
      (fun d hd => hds d (List.mem_reverse.mp hd)) (fun e he => hes e (List.mem_reverse.mp he)) h
  exact List.reverse_injective hr

theorem length_digits_pos (base n : Nat) : 0 < (digits base n).length :=
  List.length_pos_iff.mpr (digits_ne_nil base n)

/-- A number has at most `k` digits if it is below the power of the base. -/
theorem length_digits_le_iff {base n k : Nat} (hb : 2 ≤ base) (hk : 0 < k) :
    (digits base n).length ≤ k ↔ n < base ^ k := by
  by_cases hn : n = 0
  · subst hn
    rw [digits_zero hb]
    exact ⟨fun _ => Nat.pow_pos (by omega), fun _ => hk⟩
  · rw [digits_eq_reverse hb hn, List.length_reverse, Nat.digits_length_le_iff (by omega)]

/-- A number has one digit more than its logarithm. -/
theorem length_digits {base n : Nat} (hb : 2 ≤ base) : (digits base n).length = Nat.log base n + 1 := by
  by_cases hn : n = 0
  · subst hn
    rw [digits_zero hb, Nat.log_zero_right, List.length_singleton]
  · rw [digits_eq_reverse hb hn, List.length_reverse, Nat.length_digits base n hb hn]

theorem length_digits_mono {base m n : Nat} (hb : 2 ≤ base) (h : m ≤ n) :
    (digits base m).length ≤ (digits base n).length := by
  rw [length_digits hb, length_digits hb]
  exact Nat.succ_le_succ (Nat.log_mono_right h)

/-- The first digit of a number is zero only if the number is. -/
theorem ne_zero_of_digits_eq_cons {base n d : Nat} {ds : List Nat} (hn : n ≠ 0)
    (h : digits base n = d :: ds) : d ≠ 0 := by
  fun_induction digits base n generalizing ds with
  | case1 n _ =>
    obtain ⟨rfl, -⟩ := List.cons.inj h
    exact hn
  | case2 n hbase ih =>
    have hq : n / base ≠ 0 := (Nat.div_pos (by omega) (by omega)).ne'
    obtain ⟨e, es, hes⟩ := List.exists_cons_of_ne_nil (digits_ne_nil base (n / base))
    rw [hes, List.cons_append] at h
    obtain ⟨rfl, -⟩ := List.cons.inj h
    exact ih hq hes

/-- Digits are those of their value unless they start with a superfluous
zero. -/
theorem digits_value {base d : Nat} {ds : List Nat} (hb : 2 ≤ base)
    (hlt : ∀ e ∈ d :: ds, e < base) (hd : d ≠ 0) : digits base (value base (d :: ds)) = d :: ds := by
  have hpos : 0 < value base (d :: ds) := by
    have hpow : 0 < base ^ ds.length := Nat.pow_pos (by omega)
    rw [value_cons]
    exact Nat.add_pos_left (Nat.mul_pos (Nat.pos_of_ne_zero hd) hpow) _
  rw [digits_eq_reverse hb hpos.ne', value_eq_ofDigits, Nat.digits_ofDigits base (by omega),
    List.reverse_reverse]
  · exact fun e he => hlt e (List.mem_reverse.mp he)
  · intro hne
    rw [List.getLast_reverse]
    exact hd

end Positional
end ChronoId
