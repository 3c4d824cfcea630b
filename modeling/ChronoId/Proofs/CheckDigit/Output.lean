/-
# What the check digit algorithms give

Luhn, ISIN and Verhoeff make a number of one digit, and SHA-256 one of 256 bits,
so the number is written with no more characters than an algorithm declares.
Verhoeff finds a number for all decimal digits in ASCII and nothing else, Luhn
for those that are not all zeros, and SHA-256 for every text in UTF-8; what is
left is refused.

Key definitions: `Algorithm.bound`, `CheckDigit.Numeric`, `CheckDigit.NumericBytes`.
Key theorems: `Sha256.digestNumber_lt`, `Algorithm.number_lt`,
`Algorithm.returns_or_refuses`, `Algorithm.compute_output`.
-/
import ChronoId.Proofs.CheckDigit.Function
import ChronoId.Proofs.CheckDigit.Isin

namespace ChronoId

/-! ### Numbers -/

/-- The eight words of a digest make a number of 256 bits. -/
theorem Sha256.digestNumber_lt (message : List UInt8) : digestNumber message < 2 ^ 256 := by
  have hvalue : digestNumber message =
      Positional.value 4294967296 ((digest message).map UInt32.toNat) := by
    rw [Positional.value, List.foldl_map]
    rfl
  have hwords : ∀ d ∈ (digest message).map UInt32.toNat, d < 4294967296 := by
    rw [List.forall_mem_map]
    intro w _
    exact w.toNat_lt
  have hlength : ((digest message).map UInt32.toNat).length = 8 := by
    rw [List.length_map]
    rfl
  have hlt := Positional.value_lt_pow (by norm_num) hwords
  rw [hlength] at hlt
  rw [hvalue]
  calc Positional.value 4294967296 ((digest message).map UInt32.toNat) < 4294967296 ^ 8 := hlt
    _ = 2 ^ 256 := by norm_num

/-- No number is written with a zero in front, but zero itself. -/
theorem Natural.write_of_head? {m : Nat} (h : (Natural.write m).head? = some '0') :
    Natural.write m = ['0'] := by
  obtain ⟨d, ds, hds⟩ := List.exists_cons_of_ne_nil (Positional.digits_ne_nil 10 m)
  have hd : d < 10 := Positional.digits_lt (by norm_num) d (hds ▸ List.mem_cons_self)
  have hzero : d = 0 := by
    rw [Natural.write, hds] at h
    exact (Text.asciiDigit_eq_zero_iff hd).mp (Option.some.inj h)
  by_contra hne
  have hm : m ≠ 0 := by
    rintro rfl
    exact hne (Natural.write_of_lt (by norm_num))
  exact Positional.ne_zero_of_digits_eq_cons hm hds hzero

theorem Natural.length_write_mono {m n : Nat} (h : m ≤ n) :
    (Natural.write m).length ≤ (Natural.write n).length := by
  rw [Natural.write, Natural.write, List.length_map, List.length_map]
  exact Positional.length_digits_mono (by norm_num) h

/-! ### Digits -/

namespace CheckDigit

/-- A text of decimal digits, at least one. -/
def Numeric (code : List Char) : Prop := code ≠ [] ∧ ∀ c ∈ code, c.isDigit = true

/-- Decimal digits in ASCII, at least one. -/
def NumericBytes (source : ByteArray) : Prop :=
  source.data.toList ≠ [] ∧ ∀ b ∈ source.data.toList, 48 ≤ b.toNat ∧ b.toNat ≤ 57

variable {code : List Char} {source : ByteArray}

theorem Numeric.exists_digits (h : Numeric code) :
    ∃ ds : List Nat, ds ≠ [] ∧ (∀ d ∈ ds, d < 10) ∧ code = ds.map Text.asciiDigit := by
  obtain ⟨ds, hds, rfl⟩ := Text.exists_digits h.2
  exact ⟨ds, by simpa using h.1, hds, rfl⟩

theorem numeric_digits {ds : List Nat} (hne : ds ≠ []) (h : ∀ d ∈ ds, d < 10) :
    Numeric (ds.map Text.asciiDigit) := by
  refine ⟨by simpa using hne, ?_⟩
  rw [List.forall_mem_map]
  exact fun d hd => Text.isDigit_asciiDigit (h d hd)

end CheckDigit

/-! ### What is refused -/

namespace Mod10

open CheckDigit

variable {code : List Char}

theorem decimalValue_of_not_isDigit {c : Char} (h : ¬ c.isDigit = true) :
    decimalValue c = .error (.input (.notDigit c)) := by
  rw [decimalValue, Text.asciiDigit?, if_neg h]

/-- A character that is no digit is refused. -/
theorem exists_fault_of_mapM (h : ¬ ∀ c ∈ code, c.isDigit = true) :
    ∃ fault, code.mapM decimalValue = .error (.input fault) := by
  induction code with
  | nil => simp at h
  | cons c code ih =>
    rw [List.mapM_cons]
    by_cases hc : c.isDigit = true
    · obtain ⟨d, hd, rfl⟩ := Text.exists_asciiDigit hc
      obtain ⟨fault, hfault⟩ := ih fun hrest => h (List.forall_mem_cons.mpr ⟨hc, hrest⟩)
      rw [decimalValue_eq_ok_iff.mpr ⟨hd, rfl⟩, hfault]
      exact ⟨fault, rfl⟩
    · rw [decimalValue_of_not_isDigit hc]
      exact ⟨_, rfl⟩

theorem luhn_lt {k : Nat} (h : luhn code = .ok k) : k < 10 := by
  rcases eq_or_ne code [] with rfl | hne
  · cases h
  · rw [luhn_of_ne_nil hne, bind_eq_ok_iff] at h
    obtain ⟨ds, -, h⟩ := h
    exact checkDigit_lt h

theorem isin_lt {k : Nat} (h : isin code = .ok k) : k < 10 := by
  rcases eq_or_ne code [] with rfl | hne
  · cases h
  · rw [isin_of_ne_nil hne, bind_eq_ok_iff] at h
    obtain ⟨values, -, h⟩ := h
    exact checkDigit_lt h

theorem exists_luhn (h : Numeric code) (hnonzero : ∃ c ∈ code, c ≠ '0') :
    ∃ k, luhn code = .ok k := by
  obtain ⟨ds, hne, hds, rfl⟩ := h.exists_digits
  rw [luhn_digits hne hds]
  rcases checkDigit_cases ds with ⟨hok, -⟩ | ⟨-, hzero⟩
  · exact hok
  · obtain ⟨c, hc, hne⟩ := hnonzero
    exact absurd ((Algorithm.forall_asciiDigit_eq_zero_iff hds).mpr hzero c hc) hne

theorem exists_fault_of_luhn (h : ¬ (Numeric code ∧ ∃ c ∈ code, c ≠ '0')) :
    ∃ fault, luhn code = .error (.input fault) := by
  rcases eq_or_ne code [] with rfl | hne
  · exact ⟨.noCode, rfl⟩
  by_cases hdigits : ∀ c ∈ code, c.isDigit = true
  · obtain ⟨ds, hne', hds, rfl⟩ := Numeric.exists_digits ⟨hne, hdigits⟩
    rw [luhn_digits hne' hds]
    rcases checkDigit_cases ds with ⟨-, hnot⟩ | ⟨herror, -⟩
    · rw [← Algorithm.forall_asciiDigit_eq_zero_iff hds] at hnot
      push Not at hnot
      exact absurd ⟨⟨hne, hdigits⟩, hnot⟩ h
    · exact ⟨.zeroSum, herror⟩
  · obtain ⟨fault, hfault⟩ := exists_fault_of_mapM hdigits
    rw [luhn_of_ne_nil hne, hfault]
    exact ⟨fault, rfl⟩

end Mod10

namespace Verhoeff

open CheckDigit

variable {code : List Char}

/-- A character that is no digit is refused, in whatever place. -/
theorem exists_fault_of_accumulate (h : ¬ ∀ c ∈ code, c.isDigit = true) (sum place : Nat) :
    ∃ fault, accumulate sum place code = .error (.input fault) := by
  -- every digit before it changes the sum and the place
  induction code generalizing sum place with
  | nil => simp at h
  | cons c code ih =>
    rw [accumulate]
    by_cases hc : c.isDigit = true
    · obtain ⟨d, hd, rfl⟩ := Text.exists_asciiDigit hc
      rw [Mod10.decimalValue_eq_ok_iff.mpr ⟨hd, rfl⟩, bind_ok]
      exact ih (fun hrest => h (List.forall_mem_cons.mpr ⟨hc, hrest⟩)) _ _
    · rw [Mod10.decimalValue_of_not_isDigit hc]
      exact ⟨_, rfl⟩

theorem exists_checkDigit (h : Numeric code) : ∃ k < 10, checkDigit code = .ok k := by
  obtain ⟨ds, hne, hds, rfl⟩ := h.exists_digits
  have hr : ∀ d ∈ ds.reverse, d < 10 := fun d hd => hds d (List.mem_reverse.mp hd)
  exact ⟨_, inverse_lt (product_lt 1 hr), checkDigit_digits hne hds⟩

theorem exists_fault_of_checkDigit (h : ¬ Numeric code) :
    ∃ fault, checkDigit code = .error (.input fault) := by
  rcases eq_or_ne code [] with rfl | hne
  · exact ⟨.noCode, rfl⟩
  have hdigits : ¬ ∀ c ∈ code.reverse, c.isDigit = true := fun hall =>
    h ⟨hne, fun c hc => hall c (List.mem_reverse.mpr hc)⟩
  obtain ⟨fault, hfault⟩ := exists_fault_of_accumulate hdigits 0 1
  rw [checkDigit_of_ne_nil hne, hfault]
  exact ⟨fault, rfl⟩

end Verhoeff

namespace Algorithm

open CheckDigit

/-- What every number of an algorithm is below. -/
def bound : Algorithm → Nat
  | .sha256 => 2 ^ 256
  | _ => 10

variable {a : Algorithm} {code : List Char} {source : ByteArray} {m : Nat}

theorem number_lt (h : a.number code = .ok m) : m < a.bound := by
  cases a with
  | luhn => exact Mod10.luhn_lt h
  | isin => exact Mod10.isin_lt h
  | verhoeff =>
    by_cases hcode : Numeric code
    · obtain ⟨k, hk, hok⟩ := Verhoeff.exists_checkDigit hcode
      cases Except.ok.inj (hok.symm.trans h)
      exact hk
    · obtain ⟨fault, hfault⟩ := Verhoeff.exists_fault_of_checkDigit hcode
      cases hfault.symm.trans h
  | sha256 =>
    cases Except.ok.inj h
    exact Sha256.digestNumber_lt _

theorem exists_number_of_compute {out : List Char} (h : a.compute source = .ok out) :
    ∃ m < a.bound, out = Natural.write m := by
  rcases exists_toUTF8_or source with ⟨code, rfl⟩ | hutf8
  · rw [compute_toUTF8] at h
    cases hm : a.number code.toList with
    | error e =>
      rw [hm] at h
      cases h
    | ok m =>
      rw [hm] at h
      exact ⟨m, number_lt hm, (Except.ok.inj h).symm⟩
  · rw [compute_of_not_isValidUTF8 a hutf8] at h
    cases h

/-- The largest number of an algorithm is as long as the algorithm declares. -/
theorem length_write_bound (a : Algorithm) :
    (Natural.write (a.bound - 1)).length = a.maxOutputLength := by
  have hone : (Natural.write (10 - 1)).length = 1 := by
    rw [Natural.write_of_lt (by norm_num), List.length_singleton]
  cases a with
  | sha256 => rfl
  | _ => exact hone

/-! ### What has a number -/

/-- An algorithm that finds a number for some texts and refuses the others takes
the UTF-8 of the first and refuses every other source. -/
theorem returns_or_refuses {P : List Char → Prop} (hok : ∀ code, P code → ∃ k, a.number code = .ok k)
    (hfault : ∀ code, ¬ P code → ∃ fault, a.number code = .error (.input fault))
    (source : ByteArray) :
    ((∃ out, a.compute source = .ok out) ↔
        ∃ code : String, source = code.toUTF8 ∧ P code.toList) ∧
      ((∃ fault, a.compute source = .error (.input fault)) ↔
        ¬ ∃ code : String, source = code.toUTF8 ∧ P code.toList) := by
  by_cases h : ∃ code : String, source = code.toUTF8 ∧ P code.toList
  · have hreturns : ∃ out, a.compute source = .ok out := by
      obtain ⟨code, rfl, hcode⟩ := h
      obtain ⟨k, hk⟩ := hok _ hcode
      exact ⟨Natural.write k, by rw [compute_toUTF8, hk]; rfl⟩
    obtain ⟨out, hout⟩ := hreturns
    rw [hout]
    exact ⟨⟨fun _ => h, fun _ => ⟨out, rfl⟩⟩, ⟨nofun, fun hnot => absurd h hnot⟩⟩
  · have hrefuses : ∃ fault, a.compute source = .error (.input fault) := by
      rcases exists_toUTF8_or source with ⟨code, rfl⟩ | hutf8
      · obtain ⟨fault, hk⟩ := hfault _ fun hcode => h ⟨code, rfl, hcode⟩
        exact ⟨fault, by rw [compute_toUTF8, hk]; rfl⟩
      · exact ⟨.notUtf8, compute_of_not_isValidUTF8 a hutf8⟩
    obtain ⟨fault, hfault⟩ := hrefuses
    rw [hfault]
    exact ⟨⟨nofun, fun hcode => absurd hcode h⟩, ⟨fun _ => h, fun _ => ⟨fault, rfl⟩⟩⟩

end Algorithm

namespace CheckDigit

/-! ### Bytes -/

section Bytes

variable {ds : List Nat} {source : ByteArray}

theorem toList_toUTF8_digits (h : ∀ d ∈ ds, d < 10) :
    (String.ofList (ds.map Text.asciiDigit)).toUTF8.data.toList =
      ds.map fun d => UInt8.ofNat (48 + d) := by
  have hascii : ∀ c ∈ ds.map Text.asciiDigit, c.toNat < 128 := by
    rw [List.forall_mem_map]
    intro d hd
    rw [Text.toNat_asciiDigit (h d hd)]
    have := h d hd
    omega
  rw [toList_toUTF8 hascii, List.map_map]
  apply List.map_congr_left
  intro d hd
  rw [Function.comp_apply, Text.toNat_asciiDigit (h d hd)]

theorem toNat_digit {d : Nat} (hd : d < 10) : (UInt8.ofNat (48 + d)).toNat = 48 + d := by
  rw [UInt8.toNat_ofNat']
  omega

/-- Bytes that are digits are the UTF-8 of these digits. -/
theorem NumericBytes.exists_digits (h : NumericBytes source) : ∃ ds : List Nat,
    ds ≠ [] ∧ (∀ d ∈ ds, d < 10) ∧ source = (String.ofList (ds.map Text.asciiDigit)).toUTF8 := by
  obtain ⟨hne, hbytes⟩ := h
  have hds : ∀ d ∈ source.data.toList.map (·.toNat - 48), d < 10 := by
    rw [List.forall_mem_map]
    intro b hb
    have := hbytes b hb
    omega
  refine ⟨_, by simpa using hne, hds, ByteArray.ext (Array.toList_inj.mp ?_)⟩
  rw [toList_toUTF8_digits hds, List.map_map]
  refine ((List.map_congr_left fun b hb => ?_).trans (List.map_id _)).symm
  obtain ⟨hlow, -⟩ := hbytes b hb
  rw [Function.comp_apply, Nat.add_sub_cancel' hlow, UInt8.ofNat_toNat, id_eq]

theorem numericBytes_toUTF8 (hne : ds ≠ []) (h : ∀ d ∈ ds, d < 10) :
    NumericBytes (String.ofList (ds.map Text.asciiDigit)).toUTF8 := by
  rw [NumericBytes, toList_toUTF8_digits h, List.forall_mem_map]
  refine ⟨by simpa using hne, ?_⟩
  intro d hd
  rw [toNat_digit (h d hd)]
  have := h d hd
  omega

/-- A zero is the byte forty-eight. -/
theorem exists_byte_ne_iff (h : ∀ d ∈ ds, d < 10) :
    (∃ b ∈ (String.ofList (ds.map Text.asciiDigit)).toUTF8.data.toList, b.toNat ≠ 48) ↔
      ∃ c ∈ ds.map Text.asciiDigit, c ≠ '0' := by
  simp only [toList_toUTF8_digits h, List.mem_map, exists_exists_and_eq_and]
  refine exists_congr fun d => and_congr_right fun hd => not_congr ?_
  rw [toNat_digit (h d hd), Text.asciiDigit_eq_zero_iff (h d hd)]
  omega

theorem numericBytes_iff :
    NumericBytes source ↔ ∃ code : String, source = code.toUTF8 ∧ Numeric code.toList := by
  constructor
  · intro h
    obtain ⟨ds, hne, hds, hsource⟩ := h.exists_digits
    refine ⟨_, hsource, ?_⟩
    rw [String.toList_ofList]
    exact numeric_digits hne hds
  · rintro ⟨code, rfl, hcode⟩
    obtain ⟨ds, hne, hds, heq⟩ := hcode.exists_digits
    rw [← String.ofList_toList (s := code), heq]
    exact numericBytes_toUTF8 hne hds

theorem numericBytes_nonzero_iff :
    (NumericBytes source ∧ ∃ b ∈ source.data.toList, b.toNat ≠ 48) ↔
      ∃ code : String, source = code.toUTF8 ∧ Numeric code.toList ∧ ∃ c ∈ code.toList, c ≠ '0' := by
  constructor
  · rintro ⟨h, hnonzero⟩
    obtain ⟨ds, hne, hds, rfl⟩ := h.exists_digits
    rw [exists_byte_ne_iff hds] at hnonzero
    refine ⟨_, rfl, ?_⟩
    rw [String.toList_ofList]
    exact ⟨numeric_digits hne hds, hnonzero⟩
  · rintro ⟨code, rfl, hcode, hnonzero⟩
    obtain ⟨ds, hne, hds, heq⟩ := hcode.exists_digits
    rw [heq, ← exists_byte_ne_iff hds] at hnonzero
    rw [← String.ofList_toList (s := code), heq]
    exact ⟨numericBytes_toUTF8 hne hds, hnonzero⟩

end Bytes

end CheckDigit

namespace Algorithm

open CheckDigit

/-! ### All algorithms -/

section Output

variable (source : ByteArray)

theorem compute_verhoeff_iff :
    ((∃ out, verhoeff.compute source = .ok out) ↔ NumericBytes source) ∧
      ((∃ fault, verhoeff.compute source = .error (.input fault)) ↔ ¬ NumericBytes source) := by
  rw [numericBytes_iff]
  apply returns_or_refuses
  · intro code hcode
    obtain ⟨k, -, hk⟩ := Verhoeff.exists_checkDigit hcode
    exact ⟨k, hk⟩
  · intro code hcode
    exact Verhoeff.exists_fault_of_checkDigit hcode

theorem compute_luhn_iff :
    ((∃ out, luhn.compute source = .ok out) ↔
        NumericBytes source ∧ ∃ b ∈ source.data.toList, b.toNat ≠ 48) ∧
      ((∃ fault, luhn.compute source = .error (.input fault)) ↔
        ¬ (NumericBytes source ∧ ∃ b ∈ source.data.toList, b.toNat ≠ 48)) := by
  rw [numericBytes_nonzero_iff]
  apply returns_or_refuses (P := fun code => Numeric code ∧ ∃ c ∈ code, c ≠ '0')
  · intro code hcode
    exact Mod10.exists_luhn hcode.1 hcode.2
  · intro code hcode
    exact Mod10.exists_fault_of_luhn hcode

theorem compute_sha256_iff :
    (∃ out, sha256.compute source = .ok out) ↔ source.IsValidUTF8 := by
  constructor
  · rintro ⟨out, hout⟩
    by_contra hutf8
    rw [compute_of_not_isValidUTF8 sha256 hutf8] at hout
    cases hout
  · intro hutf8
    obtain ⟨code, rfl⟩ := (exists_toUTF8_or source).resolve_right (not_not.mpr hutf8)
    exact ⟨_, compute_toUTF8 sha256 code⟩

/-- What an algorithm gives is a number below its bound, in ASCII digits without a
zero in front and with no more of them than the algorithm declares. Verhoeff
takes the bytes of decimal digits, Luhn those that are not all zeros, and both
refuse all else; SHA-256 takes every text in UTF-8. -/
theorem compute_output :
    (∀ (a : Algorithm) (out : List Char), a.compute source = .ok out →
      (∀ c ∈ out, c.isDigit = true) ∧ (out.head? = some '0' → out = ['0']) ∧
        1 ≤ out.length ∧ out.length ≤ a.maxOutputLength ∧ ∃ m < a.bound, out = Natural.write m) ∧
    ((∃ out, verhoeff.compute source = .ok out) ↔ NumericBytes source) ∧
    ((∃ fault, verhoeff.compute source = .error (.input fault)) ↔ ¬ NumericBytes source) ∧
    ((∃ out, luhn.compute source = .ok out) ↔
      NumericBytes source ∧ ∃ b ∈ source.data.toList, b.toNat ≠ 48) ∧
    ((∃ fault, luhn.compute source = .error (.input fault)) ↔
      ¬ (NumericBytes source ∧ ∃ b ∈ source.data.toList, b.toNat ≠ 48)) ∧
    ((∃ out, sha256.compute source = .ok out) ↔ source.IsValidUTF8) := by
  obtain ⟨hverhoeff, hverhoeff'⟩ := compute_verhoeff_iff source
  obtain ⟨hluhn, hluhn'⟩ := compute_luhn_iff source
  refine ⟨?_, hverhoeff, hverhoeff', hluhn, hluhn', compute_sha256_iff source⟩
  intro a out hout
  obtain ⟨m, hm, rfl⟩ := exists_number_of_compute hout
  have hpos := List.length_pos_iff.mpr (Natural.write_ne_nil m)
  have hle := Natural.length_write_mono (Nat.le_sub_one_of_lt hm)
  rw [a.length_write_bound] at hle
  exact ⟨fun c hc => Natural.isDigit_of_mem_write hc, Natural.write_of_head?, hpos, hle, m, hm, rfl⟩

end Output

/-- Of two zeros Verhoeff makes one digit and Luhn none, and SHA-256 makes no more
digits than it declares. -/
theorem compute_output_zeros :
    (∃ d < 10, verhoeff.compute "00".toUTF8 = .ok [Text.asciiDigit d]) ∧
      (∃ fault, luhn.compute "00".toUTF8 = .error (.input fault)) ∧
      ∃ out, sha256.compute "00".toUTF8 = .ok out ∧ 1 ≤ out.length ∧
        out.length ≤ sha256.maxOutputLength := by
  obtain ⟨houtput, hverhoeff, -, -, hluhn, hsha256⟩ := compute_output "00".toUTF8
  have hbytes : "00".toUTF8.data.toList = [48, 48] := rfl
  have hnumeric : NumericBytes "00".toUTF8 := by
    rw [NumericBytes, hbytes]
    simp
  obtain ⟨out, hout⟩ := hverhoeff.mpr hnumeric
  obtain ⟨-, -, -, -, d, hd, rfl⟩ := houtput _ _ hout
  rw [Natural.write_of_lt hd] at hout
  obtain ⟨digits, hdigits⟩ := hsha256.mpr "00".isValidUTF8
  obtain ⟨-, -, hpos, hle, -⟩ := houtput _ _ hdigits
  refine ⟨⟨d, hd, hout⟩, hluhn.mpr ?_, digits, hdigits, hpos, hle⟩
  rintro ⟨-, hnonzero⟩
  rw [hbytes] at hnonzero
  simp at hnonzero

end Algorithm
end ChronoId
