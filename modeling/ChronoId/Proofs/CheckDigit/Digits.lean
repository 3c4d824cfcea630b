/-
# Digits as characters

A character is one of the digits `0` to `9` exactly if it stands for a number
below ten, so a text of such characters is a list of digits, and a number is
written with them.

Key theorems: `Text.exists_digits`, `Text.spanDigits_append`,
`Mod10.decimalValue_eq_ok_iff`, `Natural.write_append_digit`.
-/
import ChronoId.CheckDigit.Mod10
import ChronoId.Proofs.Positional

namespace ChronoId

namespace Text

theorem isDigit_asciiDigit : ∀ {d : Nat}, d < 10 → (asciiDigit d).isDigit = true := by decide

theorem asciiDigit?_asciiDigit : ∀ {d : Nat}, d < 10 → asciiDigit? (asciiDigit d) = some d := by
  decide

theorem toNat_asciiDigit : ∀ {d : Nat}, d < 10 → (asciiDigit d).toNat = 48 + d := by decide

theorem isBlank_asciiDigit : ∀ {d : Nat}, d < 10 → isBlank (asciiDigit d) = false := by decide

theorem asciiDigit_inj {d e : Nat} (hd : d < 10) (he : e < 10) (h : asciiDigit d = asciiDigit e) :
    d = e := by
  have := congrArg Char.toNat h
  rw [toNat_asciiDigit hd, toNat_asciiDigit he] at this
  omega

theorem asciiDigit_eq_zero_iff : ∀ {d : Nat}, d < 10 → (asciiDigit d = '0' ↔ d = 0) := by decide

/-- A digit is the character of its value. -/
theorem exists_asciiDigit {c : Char} (h : c.isDigit = true) : ∃ d < 10, c = asciiDigit d := by
  rw [Char.isDigit_iff_toNat] at h
  change 48 ≤ c.toNat ∧ c.toNat ≤ 57 at h
  refine ⟨c.toNat - 48, by omega, Char.toNat_inj.mp ?_⟩
  rw [toNat_asciiDigit (by omega)]
  omega

theorem exists_digits : ∀ {cs : List Char}, (∀ c ∈ cs, c.isDigit = true) →
    ∃ ds : List Nat, (∀ d ∈ ds, d < 10) ∧ cs = ds.map asciiDigit
  | [], _ => ⟨[], by simp, rfl⟩
  | c :: cs, h => by
    obtain ⟨d, hd, rfl⟩ := exists_asciiDigit (h c List.mem_cons_self)
    obtain ⟨ds, hds, rfl⟩ := exists_digits fun e he => h e (List.mem_cons_of_mem _ he)
    exact ⟨d :: ds, by simpa [hd] using hds, rfl⟩

/-! ### The digits in front of a text -/

theorem spanDigits_of_none {c : Char} (h : asciiDigit? c = none) (cs : List Char) :
    spanDigits (c :: cs) = ([], c :: cs) := by
  simp [spanDigits, h]

theorem spanDigits_of_some {c : Char} {d : Nat} (h : asciiDigit? c = some d) (cs : List Char) :
    spanDigits (c :: cs) = (d :: (spanDigits cs).1, (spanDigits cs).2) := by
  simp [spanDigits, h]

theorem length_spanDigits (cs : List Char) :
    (spanDigits cs).1.length + (spanDigits cs).2.length = cs.length := by
  induction cs with
  | nil => rfl
  | cons c cs ih =>
    cases h : asciiDigit? c with
    | none => simp [spanDigits_of_none h]
    | some d =>
      simp only [spanDigits_of_some h, List.length_cons]
      omega

/-- Digits are read back if no digit stands behind them. -/
theorem spanDigits_append {ds : List Nat} (hds : ∀ d ∈ ds, d < 10) {rest : List Char}
    (hrest : spanDigits rest = ([], rest)) :
    spanDigits (ds.map asciiDigit ++ rest) = (ds, rest) := by
  induction ds with
  | nil => exact hrest
  | cons d ds ih =>
    have hd : asciiDigit? (asciiDigit d) = some d := asciiDigit?_asciiDigit (hds d (by simp))
    rw [List.map_cons, List.cons_append, spanDigits_of_some hd,
      ih fun e he => hds e (List.mem_cons_of_mem _ he)]

end Text

theorem Natural.isDigit_of_mem_write {n : Nat} {c : Char} (h : c ∈ Natural.write n) :
    c.isDigit = true := by
  obtain ⟨d, hd, rfl⟩ := List.mem_map.mp h
  exact Text.isDigit_asciiDigit (Positional.digits_lt (by omega) d hd)

theorem Natural.write_ne_nil (n : Nat) : Natural.write n ≠ [] := by
  rw [Natural.write, ne_eq, List.map_eq_nil_iff]
  exact Positional.digits_ne_nil 10 n

/-- A number of two or more digits is written as the number without the last one,
and the last one. -/
theorem Natural.write_append_digit {n d : Nat} (hn : n ≠ 0) (hd : d < 10) :
    Natural.write (n * 10 + d) = Natural.write n ++ [Text.asciiDigit d] := by
  have hdiv : (n * 10 + d) / 10 = n := by omega
  have hmod : (n * 10 + d) % 10 = d := by omega
  rw [Natural.write, Positional.digits_of_le (by norm_num) (by omega), hdiv, hmod, List.map_append,
    List.map_singleton, Natural.write]

theorem Natural.write_of_lt {d : Nat} (hd : d < 10) : Natural.write d = [Text.asciiDigit d] := by
  rw [Natural.write, Positional.digits_of_lt hd, List.map_singleton]

theorem Natural.write_inj {m n : Nat} (h : Natural.write m = Natural.write n) : m = n := by
  have hdigits : ∀ k, (Natural.write k).map (fun c => c.toNat - 48) = Positional.digits 10 k := by
    intro k
    rw [Natural.write, List.map_map]
    apply (List.map_congr_left _).trans (List.map_id _)
    intro d hd
    have hd := Text.toNat_asciiDigit (Positional.digits_lt (by norm_num) d hd)
    show (Text.asciiDigit d).toNat - 48 = d
    omega
  rw [← Positional.value_digits 10 m, ← hdigits m, h, hdigits n, Positional.value_digits]

/-- Only the digits have a value. -/
theorem Mod10.decimalValue_eq_ok_iff {c : Char} {d : Nat} :
    Mod10.decimalValue c = .ok d ↔ d < 10 ∧ c = Text.asciiDigit d := by
  constructor
  · intro h
    unfold decimalValue Text.asciiDigit? at h
    by_cases hc : c.isDigit = true
    · obtain ⟨e, he, rfl⟩ := Text.exists_asciiDigit hc
      rw [if_pos hc, Text.toNat_asciiDigit he] at h
      have hde : 48 + e - 48 = d := Except.ok.inj h
      rw [Nat.add_sub_cancel_left] at hde
      exact ⟨hde ▸ he, hde ▸ rfl⟩
    · rw [if_neg hc] at h
      cases h
  · rintro ⟨hd, rfl⟩
    rw [decimalValue, Text.asciiDigit?_asciiDigit hd]

end ChronoId
