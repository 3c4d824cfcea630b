/-
# The texts that a numeral system reads and writes

Numbers and texts are related in both directions. A number in range has one
text without a superfluous zero, never longer than the text of the largest
number, and it is read back. A text is read exactly if it is not empty, has
symbols only and is worth a number in range, where its worth is that of
Mathlib's `Nat.ofDigits`: the bound on the significant characters refuses
nothing that the bound on the worth would take. What was read has the text that
it was read from, without the zeros in front, and padding brings these back
wherever there is room for the text.

Key theorems: `Numeral.head?_write_eq_zero_iff`, `Numeral.padded_value`,
`Numeral.decode_eq_ok_iff_ofDigits`, `Numeral.pad_of_decode`,
`Numeral.decode_language`.
-/
import ChronoId.Proofs.Numeral

namespace ChronoId
namespace Numeral

variable (n : Numeral) {s : String} {v : Nat}

/-- Only the numeral of zero starts with a zero. -/
theorem head?_write_eq_zero_iff : (n.write v).head? = some n.zero ↔ v = 0 := by
  constructor
  · intro h
    by_contra hv
    obtain ⟨d, ds, hds⟩ := List.exists_cons_of_ne_nil (Positional.digits_ne_nil n.radix v)
    have hd : d < n.radix := Positional.digits_lt n.two_le_radix d (by rw [hds]; simp)
    have hzero : n.symbol d = n.zero := by simpa [write, hds] using h
    have hidx : d = n.symbols.idxOf n.zero := by rw [← hzero, n.idxOf_symbol hd]
    exact Positional.ne_zero_of_digits_eq_cons hv hds (hidx.trans n.idxOf_zero)
  · intro h
    rw [h, n.write_zero]
    rfl

/-- No number in range has a longer numeral than the largest one. -/
theorem length_write_le_maxLength (h : v ≤ maxValue) : (n.write v).length ≤ n.maxLength :=
  n.length_write_mono h

theorem value_eq_ofDigits (cs : List Char) :
    n.value cs = Nat.ofDigits n.radix (cs.reverse.map n.symbols.idxOf) := by
  rw [value, Positional.value_eq_ofDigits, List.map_reverse]

/-- The numeral of what a text is worth is not longer than the text. -/
theorem length_write_value_le {cs : List Char} (hne : cs ≠ []) (hcs : ∀ c ∈ cs, c ∈ n.symbols) :
    (n.write (n.value cs)).length ≤ cs.length :=
  (n.length_write_le_iff (List.length_pos_iff.mpr hne)).mpr (n.value_lt_pow hcs)

/-- A text is the numeral of what it is worth, with zeros in front. -/
theorem padded_value {cs : List Char} (hne : cs ≠ []) (hcs : ∀ c ∈ cs, c ∈ n.symbols) :
    n.padded cs.length (n.value cs) = cs := by
  apply n.value_inj
  · exact n.length_padded (n.length_write_value_le hne hcs)
  · exact fun c hc => n.mem_padded hc
  · exact hcs
  · exact n.value_padded _ _

theorem decode_eq_ok_iff_ofDigits : n.decode s = .ok v ↔ s ≠ "" ∧ (∀ c ∈ s.toList, c ∈ n.symbols) ∧
    Nat.ofDigits n.radix (s.toList.reverse.map n.symbols.idxOf) = v ∧ v ≤ maxValue := by
  rw [decode_eq_ok_iff, ← value_eq_ofDigits, ne_eq, ne_eq, String.toList_eq_nil_iff]

/-- What was read has a numeral, which the text is with zeros in front. -/
theorem encode_of_decode (h : n.decode s = .ok v) : ∃ e, n.encode v = .ok e ∧
    e.length ≤ s.length ∧ s.toList = List.replicate (s.length - e.length) n.zero ++ e.toList := by
  obtain ⟨hne, hcs, rfl, hv⟩ := n.decode_eq_ok_iff.mp h
  refine ⟨_, n.encode_eq_ok_iff.mpr ⟨hv, rfl⟩, ?_, ?_⟩
  · rw [String.length_ofList]
    exact n.length_write_value_le hne hcs
  · rw [String.length_ofList, String.toList_ofList]
    exact (n.padded_value hne hcs).symm

section Host

variable [Host]

/-- What was read is padded back exactly if there is room for the zeros. -/
theorem pad_of_decode {e : String} (h : n.decode s = .ok v) (he : n.encode v = .ok e) :
    n.pad e s.length = .ok s ↔ s.length - e.length ≤ Host.memory := by
  obtain ⟨hne, hcs, rfl, -⟩ := n.decode_eq_ok_iff.mp h
  obtain ⟨-, rfl⟩ := n.encode_eq_ok_iff.mp he
  rw [pad_write_eq_ok_iff, String.length_ofList]
  refine and_iff_left ?_
  show s = String.ofList (n.padded s.toList.length _)
  rw [n.padded_value hne hcs, String.ofList_toList]

/-- What a numeral system writes and reads. A number in range has a text that is
read back, starts with a zero for zero only and has at most as many characters
as that of the largest number. A text is read exactly if it is not empty, has
symbols only and is worth a number in range, which is the number read; it is
that number's text with zeros in front, and padding gives it back on every host
that has room for it, and beyond that exactly if there is room for the zeros.
Every other text is rejected. -/
theorem decode_language (n : Numeral) :
    (∀ v ≤ maxValue, ∃ s, n.encode v = .ok s ∧ n.decode s = .ok v ∧
      (s.toList.head? = some n.zero ↔ v = 0) ∧ s.length ≤ n.maxLength) ∧
    (∀ s v, n.decode s = .ok v ↔ s ≠ "" ∧ (∀ c ∈ s.toList, c ∈ n.symbols) ∧
      Nat.ofDigits n.radix (s.toList.reverse.map n.symbols.idxOf) = v ∧ v ≤ maxValue) ∧
    (∀ s v, n.decode s = .ok v → ∃ e, n.encode v = .ok e ∧ e.length ≤ s.length ∧
      s.toList = List.replicate (s.length - e.length) n.zero ++ e.toList ∧
      (s.length ≤ Host.memory → n.pad e s.length = .ok s) ∧
      (n.pad e s.length = .ok s ↔ s.length - e.length ≤ Host.memory)) ∧
    ∀ s, (∀ v, n.decode s ≠ .ok v) → ∃ fault, n.decode s = .error (.input fault) := by
  refine ⟨?_, fun s v => n.decode_eq_ok_iff_ofDigits, ?_, ?_⟩
  · intro v hv
    refine ⟨_, n.encode_eq_ok_iff.mpr ⟨hv, rfl⟩, n.decode_write hv, ?_, ?_⟩
    · rw [String.toList_ofList]
      exact n.head?_write_eq_zero_iff
    · rw [String.length_ofList]
      exact n.length_write_le_maxLength hv
  · intro s v h
    obtain ⟨e, he, hle, hs⟩ := n.encode_of_decode h
    have hpad := n.pad_of_decode h he
    exact ⟨e, he, hle, hs, fun hroom => hpad.mpr ((Nat.sub_le _ _).trans hroom), hpad⟩
  · intro s hs
    cases h : n.decode s with
    | ok v => exact absurd h (hs v)
    | error e =>
      obtain ⟨fault, rfl⟩ := n.decode_error h
      exact ⟨fault, rfl⟩

end Host

section Ample

attribute [local instance] Host.ample

/-- The largest number is read with a zero in front, which padding brings back,
and the next number is rejected though its numeral is no longer. -/
theorem decode_language_decimal :
    decimal.decode "09223372036854775807" = .ok maxValue ∧
      (∃ e, decimal.encode maxValue = .ok e ∧ decimal.pad e 20 = .ok "09223372036854775807") ∧
      ∃ fault, decimal.decode "9223372036854775808" = .error (.input fault) := by
  obtain ⟨-, hread, hpad, hrejected⟩ := decode_language decimal
  have hmax : decimal.decode "09223372036854775807" = .ok maxValue :=
    (hread _ _).mpr ⟨by decide, by simp [decimal, ofChecked], rfl, le_rfl⟩
  obtain ⟨e, he, -, -, hback, -⟩ := hpad _ _ hmax
  refine ⟨hmax, ⟨e, he, hback (by decide)⟩, hrejected _ ?_⟩
  intro v hv
  obtain ⟨-, -, hvalue, hle⟩ := (hread _ _).mp hv
  have hnext : v = maxValue + 1 := hvalue.symm
  omega

end Ample

end Numeral
end ChronoId
