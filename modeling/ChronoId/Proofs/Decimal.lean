/-
# How decimal numbers are read

A decimal number is read in four steps: its sign, its digits, its fraction and
its exponent. Each of them leaves what it does not take, so that of a whole
number exactly the sign and the digits are taken, and a number is read back
from its digits where nothing behind them belongs to it.

Key definitions: `Decimal.readBody?`.
Key theorems: `Decimal.read?_eq`, `Decimal.length_of_read?`,
`Decimal.read?_write_natural`.
-/
import ChronoId.Proofs.CheckDigit.Digits
import ChronoId.Proofs.Readers
import ChronoId.Text.Decimal

namespace ChronoId

namespace Decimal

variable {cs rest : List Char} {ds : List Nat}

/-! ### What a step takes -/

theorem someDigits?_eq_some_iff :
    someDigits? cs = some (ds, rest) ↔ Text.spanDigits cs = (ds, rest) ∧ ds ≠ [] := by
  unfold someDigits?
  split
  · next h =>
    rw [h]
    exact ⟨nofun, fun ⟨heq, hne⟩ => absurd (Prod.mk.inj heq).1.symm hne⟩
  · next hne h =>
    rw [h, Option.some.injEq]
    refine ⟨fun heq => ⟨heq, ?_⟩, And.left⟩
    rintro rfl
    exact hne (Prod.mk.inj heq).1

theorem length_of_someDigits? (h : someDigits? cs = some (ds, rest)) :
    ds.length + rest.length = cs.length ∧ 0 < ds.length := by
  obtain ⟨hspan, hne⟩ := someDigits?_eq_some_iff.mp h
  have hlength := Text.length_spanDigits cs
  rw [hspan] at hlength
  exact ⟨hlength, List.length_pos_iff.mpr hne⟩

theorem length_of_wholeDigits? (h : wholeDigits? cs = some (ds, rest)) :
    ds.length + rest.length = cs.length ∧ 0 < ds.length := by
  unfold wholeDigits? at h
  split at h
  · cases h
    simp [Nat.add_comm]
  · exact length_of_someDigits? h

theorem length_of_fractionDigits? (h : fractionDigits? cs = some (ds, rest)) :
    rest.length ≤ cs.length ∧ (ds = [] → rest = cs) := by
  unfold fractionDigits? at h
  split at h
  · obtain ⟨hlength, hpos⟩ := length_of_someDigits? h
    refine ⟨by simp only [List.length_cons]; omega, ?_⟩
    rintro rfl
    cases hpos
  · cases h
    exact ⟨Nat.le_refl _, fun _ => rfl⟩

theorem length_of_exponent? {e : Option Int} (h : exponent? cs = some (e, rest)) :
    rest.length ≤ cs.length ∧ (e = none → rest = cs) := by
  unfold exponent? at h
  split at h
  · cases h
    exact ⟨Nat.le_refl _, fun _ => rfl⟩
  split at h
  · split at h
    all_goals
      obtain ⟨⟨ds, after⟩, hdigits, h⟩ := Option.map_eq_some_iff.mp h
      obtain ⟨hlength, -⟩ := length_of_someDigits? hdigits
      cases h
      exact ⟨by simp only [List.length_cons]; omega, nofun⟩
  · cases h
    exact ⟨Nat.le_refl _, fun _ => rfl⟩

/-! ### A number step by step -/

theorem wholeDigits?_eq (cs : List Char) :
    wholeDigits? cs = Reader.onChar '0' (fun rest => some ([0], rest)) someDigits? cs := by
  unfold wholeDigits?
  split
  · rw [Reader.onChar_cons]
  · next h => rw [Reader.onChar_of_ne h]

theorem fractionDigits?_eq (cs : List Char) :
    fractionDigits? cs = Reader.onChar '.' someDigits? (fun cs => some ([], cs)) cs := by
  unfold fractionDigits?
  split
  · rw [Reader.onChar_cons]
  · next h => rw [Reader.onChar_of_ne h]

/-- A number with its sign. -/
def signed (negative : Bool) (n : Nat) : Int := if negative then -(n : Int) else n

/-- The digits of an exponent behind its sign, and the rest. -/
def signedDigits? (negative : Bool) : List Char → Option (Option Int × List Char) :=
  Reader.andThen someDigits? fun ds cs => some (some (signed negative (Positional.value 10 ds)), cs)

/-- The exponent behind its letter, and the rest. -/
def behindLetter? : List Char → Option (Option Int × List Char) :=
  Reader.onChar '-' (signedDigits? true)
    (Reader.onChar '+' (signedDigits? false) (signedDigits? false))

theorem exponent?_eq (cs : List Char) : exponent? cs =
    Reader.onChar 'e' behindLetter?
      (Reader.onChar 'E' behindLetter? fun cs => some (none, cs)) cs := by
  unfold exponent?
  split
  · rfl
  · next c cs =>
    split
    · next hletter =>
      have hbehind : Reader.onChar 'e' behindLetter?
          (Reader.onChar 'E' behindLetter? fun cs => some (none, cs)) (c :: cs) =
            behindLetter? cs := by
        rcases hletter with rfl | rfl
        · rw [Reader.onChar_cons]
        · rw [Reader.onChar_of_ne (by simp), Reader.onChar_cons]
      rw [hbehind, behindLetter?]
      split
      · next cs =>
        rw [Reader.onChar_cons, signedDigits?, Reader.andThen]
        cases someDigits? cs <;> rfl
      · next cs =>
        rw [Reader.onChar_of_ne (by simp), Reader.onChar_cons, signedDigits?, Reader.andThen]
        cases someDigits? cs <;> rfl
      · next h h' =>
        rw [Reader.onChar_of_ne h, Reader.onChar_of_ne h', signedDigits?, Reader.andThen]
        cases someDigits? cs <;> rfl
    · next hletter =>
      rw [not_or] at hletter
      rw [Reader.onChar_of_ne (by simp [hletter.1]), Reader.onChar_of_ne (by simp [hletter.2])]

/-- The number behind its sign, and the rest. -/
def readBody? (negative : Bool) : List Char → Option (Decimal × List Char) :=
  Reader.andThen wholeDigits? fun whole => Reader.andThen fractionDigits? fun fraction =>
    Reader.andThen exponent? fun exponent cs => some (⟨negative, whole, fraction, exponent⟩, cs)

theorem read?_eq (cs : List Char) :
    read? cs = Reader.onChar '-' (readBody? true) (readBody? false) cs := by
  unfold read?
  split
  next negative body hsign =>
  split at hsign
  · cases hsign
    rw [Reader.onChar_cons]
    rfl
  · next h =>
    cases hsign
    rw [Reader.onChar_of_ne h]
    rfl

/-! ### What a number takes -/

theorem length_of_readBody? {negative : Bool} {d : Decimal}
    (h : readBody? negative cs = some (d, rest)) : d.negative = negative ∧
      rest.length < cs.length ∧ (d.isWhole = true → d.whole.length + rest.length = cs.length) := by
  obtain ⟨⟨whole, p⟩, hwhole, h⟩ := Option.bind_eq_some_iff.mp h
  obtain ⟨⟨fraction, q⟩, hfraction, h⟩ := Option.bind_eq_some_iff.mp h
  obtain ⟨⟨exponent, r⟩, hexponent, h⟩ := Option.bind_eq_some_iff.mp h
  cases h
  obtain ⟨hw, hpos⟩ := length_of_wholeDigits? hwhole
  obtain ⟨hf, hf'⟩ := length_of_fractionDigits? hfraction
  obtain ⟨he, he'⟩ := length_of_exponent? hexponent
  simp only at hw hf hf' he he' ⊢
  refine ⟨trivial, by omega, fun hint => ?_⟩
  simp only [isWhole, Bool.and_eq_true, List.isEmpty_iff, Option.isNone_iff_eq_none] at hint
  rw [he' hint.2, hf' hint.1]
  omega

/-- Of a whole number, nothing is taken but the sign and the digits. -/
theorem length_of_read? {d : Decimal} (h : read? cs = some (d, rest)) :
    rest.length < cs.length ∧
      (d.isWhole = true → d.negative.toNat + d.whole.length + rest.length = cs.length) := by
  rw [read?_eq] at h
  rcases Reader.onChar_cases '-' (readBody? true) (readBody? false) cs with
    ⟨after, hminus, heq⟩ | heq
  · obtain ⟨hneg, hlt, hwhole⟩ := length_of_readBody? (heq ▸ h)
    rw [hneg, hminus, List.length_cons, Bool.toNat_true]
    exact ⟨by omega, fun hint => by have := hwhole hint; omega⟩
  · obtain ⟨hneg, hlt, hwhole⟩ := length_of_readBody? (heq ▸ h)
    rw [hneg, Bool.toNat_false]
    exact ⟨hlt, fun hint => by have := hwhole hint; omega⟩

/-! ### A natural number -/

/-- The first digit of a number that has more than one is not a zero. -/
theorem wholeDigits?_write (n : Nat) (hrest : Text.spanDigits rest = ([], rest)) :
    wholeDigits? (Natural.write n ++ rest) = some (Positional.digits 10 n, rest) := by
  have hspan : Text.spanDigits (Natural.write n ++ rest) = (Positional.digits 10 n, rest) :=
    Text.spanDigits_append (fun d hd => Positional.digits_lt (by norm_num) d hd) hrest
  have hsome : someDigits? (Natural.write n ++ rest) = some (Positional.digits 10 n, rest) :=
    someDigits?_eq_some_iff.mpr ⟨hspan, Positional.digits_ne_nil 10 n⟩
  rcases Nat.eq_zero_or_pos n with rfl | hn
  · rw [Natural.write, Positional.digits_zero (by norm_num)]
    rfl
  · unfold wholeDigits?
    split
    · next after hzero =>
      obtain ⟨d, ds, hds⟩ := List.exists_cons_of_ne_nil (Positional.digits_ne_nil 10 n)
      have hd : d < 10 :=
        Positional.digits_lt (by norm_num) d (by rw [hds]; exact List.mem_cons_self)
      rw [Natural.write, hds, List.map_cons, List.cons_append] at hzero
      exact absurd ((Text.asciiDigit_eq_zero_iff hd).mp (List.cons.inj hzero).1)
        (Positional.ne_zero_of_digits_eq_cons hn.ne' hds)
    · exact hsome

/-- A natural number is read back from its digits, if nothing behind them belongs
to a number. -/
theorem read?_write_natural (n : Nat) (hdigits : Text.spanDigits rest = ([], rest))
    (hfraction : fractionDigits? rest = some ([], rest))
    (hexponent : exponent? rest = some (none, rest)) :
    read? (Natural.write n ++ rest) = some (⟨false, Positional.digits 10 n, [], none⟩, rest) := by
  have hminus : ∀ after, Natural.write n ++ rest ≠ '-' :: after := by
    intro after hminus
    obtain ⟨c, cs, hcs⟩ := List.exists_cons_of_ne_nil (Natural.write_ne_nil n)
    have hc : c.isDigit = true :=
      Natural.isDigit_of_mem_write (by rw [hcs]; exact List.mem_cons_self)
    rw [hcs] at hminus
    obtain ⟨rfl, -⟩ := List.cons.inj hminus
    cases hc
  rw [read?_eq, Reader.onChar_of_ne hminus, readBody?]
  simp only [Reader.andThen, wholeDigits?_write n hdigits, hfraction, hexponent,
    Option.bind_eq_bind, Option.bind_some]

end Decimal
end ChronoId
