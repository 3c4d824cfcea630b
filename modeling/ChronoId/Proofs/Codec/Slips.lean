/-
# Slips in decimal identifiers

An identifier over the ten digits with Verhoeff's check digit is a decimal
code that ends with its check digit, and so no other identifier differs from
it in one character, or in the order of two neighbours. The one exception is
the sequence zero: the digit that stands for it is checked but not written, so
the code has a zero that the text has not. What changes one character leaves
it there, and is noticed as well; what swaps the last two characters moves one
of them across it.

Only the length tells whether the sequence is zero, and neither slip changes
the length. A changed or swapped digit in front of the sequence may be a
superfluous zero, and then the text is not written at all.

Key definitions: `Codec.IsDecimal`.
Key theorems: `Codec.Written.eq_of_substituted`, `Codec.Written.eq_of_swapped`,
`Codec.decode_slip`.
-/
import ChronoId.Proofs.Codec.RoundTrip

namespace ChronoId

/-! ### Decimal numerals -/

namespace Numeral

theorem isDigit_of_mem_decimal : ∀ c ∈ decimal.symbols, c.isDigit = true := List.all_eq_true.mp rfl

theorem symbol_decimal : ∀ d < 10, decimal.symbol d = Text.asciiDigit d := by decide

theorem write_decimal (v : Nat) : decimal.write v = Natural.write v :=
  List.map_congr_left fun d hd => symbol_decimal d (Positional.digits_lt (by norm_num) d hd)

end Numeral

/-- The default settings with the ten digits for the alphabet. -/
def Settings.decimal : Settings := ⟨{ alphabet := .text "0123456789" }, rfl⟩

namespace Codec

variable {c : Codec}

/-- A codec of decimal identifiers with Verhoeff's check digit. -/
structure IsDecimal (c : Codec) : Prop where
  alphabet : c.settings.alphabet = .text "0123456789"
  checkDigitAlphabet : c.settings.checkDigitAlphabet = .text "0123456789"
  algorithm : c.settings.checkDigitAlgorithm = .verhoeff

theorem IsDecimal.uses [Host] {n : Numeral} (hc : c.IsDecimal) (h : c.Uses n) : c.Uses Numeral.decimal := by
  have hn : n = Numeral.decimal := h.eq_of_alphabet hc.alphabet rfl
  rwa [← hn]

theorem isDecimal_decimal (h : c.settings = Settings.decimal) : c.IsDecimal := by
  constructor <;> rw [h] <;> rfl

theorem exists_build_decimal [Host] (epoch : Instant) :
    ∃ c, (build (.ready Settings.decimal) none (some epoch)).result = .ok c ∧
      c.settings = Settings.decimal ∧ c.timestamps =
        ⟨Numeral.decimal.encoder, 9, 11, .int 3, epoch, by decide, by decide, by decide⟩ ∧
      c.Uses Numeral.decimal :=
  exists_build_of_numbers rfl rfl rfl rfl rfl rfl rfl

/-! ### Texts as checked codes -/

section Checked

variable {x : String} {stamp : List Char} {s d : Nat}

/-- The check digit of digits makes them a checked code. -/
theorem IsDecimal.compute_eq_ok_iff (hc : c.IsDecimal) {code : List Char} (hne : code ≠ [])
    (hcode : ∀ ch ∈ code, ch.isDigit = true) (hd : d < 10) :
    c.checksum.compute (.text (String.ofList code)) = .ok (Text.asciiDigit d) ↔
      Verhoeff.Checked (code ++ [Text.asciiDigit d]) := by
  have h := CheckDigit.compute_verhoeff_eq_ok_iff (s := String.ofList code)
    (by rwa [String.toList_ofList]) (by rwa [String.toList_ofList]) hd
  rw [String.toList_ofList] at h
  rwa [Checksum.compute, checksum, hc.checkDigitAlphabet, hc.algorithm]

/-- A stamp and a sequence are a checked code with their digit. -/
theorem Written.checked (hc : c.IsDecimal) (hw : c.Written Numeral.decimal x stamp s d) :
    Verhoeff.Checked (stamp ++ Natural.write s ++ [Text.asciiDigit d]) := by
  have hdigits : ∀ ch ∈ stamp ++ Natural.write s, ch.isDigit = true := by
    rw [List.forall_mem_append]
    exact ⟨fun ch hch => Numeral.isDigit_of_mem_decimal ch (hw.symbols ch hch),
      fun ch => Natural.isDigit_of_mem_write⟩
  have hne : stamp ++ Natural.write s ≠ [] :=
    List.append_ne_nil_of_right_ne_nil _ (Natural.write_ne_nil s)
  rw [← hc.compute_eq_ok_iff hne hdigits hw.digit_lt, ← Numeral.write_decimal]
  exact hw.checks

/-- The text of a sequence that is not zero is its checked code. -/
theorem Written.toList_of_ne_zero (hw : c.Written Numeral.decimal x stamp s d) (hs : s ≠ 0) :
    x.toList = stamp ++ Natural.write s ++ [Text.asciiDigit d] := by
  rw [hw.text, String.toList_ofList, Numeral.write_decimal,
    Natural.write_append_digit hs hw.digit_lt, List.append_assoc]

/-- The text of the sequence zero is a stamp and its digit. -/
theorem Written.toList_of_zero (hw : c.Written Numeral.decimal x stamp 0 d) :
    x.toList = stamp ++ [Text.asciiDigit d] := by
  rw [hw.text, String.toList_ofList, Numeral.write_decimal, Nat.zero_mul, Nat.zero_add,
    Natural.write_of_lt hw.digit_lt]

/-- Of the sequence zero there is one digit behind the stamp. -/
theorem Written.sequence_eq_zero_iff (hw : c.Written Numeral.decimal x stamp s d) :
    s = 0 ↔ x.length = c.timestamps.width + 1 := by
  have hd := hw.digit_lt
  have hlen := Numeral.decimal.length_write_le_iff (v := s * 10 + d) (by norm_num : 0 < 1)
  have hpos := List.length_pos_of_ne_nil (Numeral.decimal.write_ne_nil (s * 10 + d))
  have hradix : Numeral.decimal.radix = 10 := rfl
  rw [hradix] at hlen
  rw [hw.length_eq]
  omega

end Checked

/-! ### Slips -/

section Slips

variable {x x' : String} {stamp stamp' : List Char} {s s' d d' : Nat} {as bs : List Char} {a b : Char}

/-- Of two texts of one length both have the sequence zero, or neither. -/
theorem Written.sequence_eq_zero_congr (hw : c.Written Numeral.decimal x stamp s d)
    (hw' : c.Written Numeral.decimal x' stamp' s' d') (h : x.toList.length = x'.toList.length) :
    s = 0 ↔ s' = 0 := by
  rw [String.length_toList, String.length_toList] at h
  rw [hw.sequence_eq_zero_iff, hw'.sequence_eq_zero_iff, h]

/-- Texts that differ in one character at most are the same. -/
theorem Written.eq_of_substituted (hc : c.IsDecimal) (hw : c.Written Numeral.decimal x stamp s d)
    (hw' : c.Written Numeral.decimal x' stamp' s' d') (hx : x.toList = as ++ a :: bs)
    (hx' : x'.toList = as ++ b :: bs) : a = b := by
  have hzero := hw.sequence_eq_zero_congr hw' (by simp [hx, hx'])
  have hchecked := hw.checked hc
  have hchecked' := hw'.checked hc
  by_cases hs : s = 0
  · have hs' := hzero.mp hs
    subst hs hs'
    rw [hw.toList_of_zero] at hx
    rw [hw'.toList_of_zero] at hx'
    rw [Natural.write_of_lt (by norm_num), List.append_assoc] at hchecked hchecked'
    exact hchecked.eq_of_substituted_beside hchecked' hx hx'
  · have hs' := mt hzero.mpr hs
    rw [← hw.toList_of_ne_zero hs, hx] at hchecked
    rw [← hw'.toList_of_ne_zero hs', hx'] at hchecked'
    exact hchecked.eq_of_substituted hchecked'

/-- Texts that differ in the order of two neighbours at most are the same. -/
theorem Written.eq_of_swapped (hc : c.IsDecimal) (hw : c.Written Numeral.decimal x stamp s d)
    (hs : s ≠ 0) (hw' : c.Written Numeral.decimal x' stamp' s' d') (hx : x.toList = as ++ a :: b :: bs)
    (hx' : x'.toList = as ++ b :: a :: bs) : a = b := by
  have hs' := mt (hw.sequence_eq_zero_congr hw' (by simp [hx, hx'])).mpr hs
  have hchecked := hw.checked hc
  have hchecked' := hw'.checked hc
  rw [← hw.toList_of_ne_zero hs, hx] at hchecked
  rw [← hw'.toList_of_ne_zero hs', hx'] at hchecked'
  exact hchecked.eq_of_swapped hchecked'

end Slips

/-- What is read instead of a decimal identifier after a slip is rejected: after
one of its characters has been changed, and, unless its sequence is zero, after
two neighbours that are different have been swapped. -/
theorem decode_slip [Host] {source : Settings.Source} {shared : Option Instant} {c : Codec}
    (h : (build source none shared).result = .ok c) (hc : c.IsDecimal) {x : String} {y : Identifier}
    (hx : (c.decode (.text x)).result = .ok (some y)) :
    (∀ as a bs b, x.toList = as ++ a :: bs → b ≠ a →
      (c.decode (.text (String.ofList (as ++ b :: bs)))).result = .ok none) ∧
    (1 ≤ y.sequence → ∀ as a b bs, x.toList = as ++ a :: b :: bs → a ≠ b →
      (c.decode (.text (String.ofList (as ++ b :: a :: bs)))).result = .ok none) := by
  obtain ⟨n, hn⟩ := exists_uses_of_build h
  have hdecimal := hc.uses hn
  obtain ⟨stamp, s, d, hw, -, -, hs⟩ :=
    written_of_decodeText hdecimal (decode_eq_some_iff.mp hx)
  constructor
  · intro as a bs b hsplit hne
    apply decode_eq_none hdecimal
    intro y' hy'
    obtain ⟨stamp', s', d', hw', -⟩ := written_of_decodeText hdecimal hy'
    exact hne (hw.eq_of_substituted hc hw' hsplit String.toList_ofList).symm
  · intro hpos as a b bs hsplit hne
    apply decode_eq_none hdecimal
    intro y' hy'
    obtain ⟨stamp', s', d', hw', -⟩ := written_of_decodeText hdecimal hy'
    exact hne (hw.eq_of_swapped hc (by omega) hw' hsplit String.toList_ofList)

section Ample

attribute [local instance] Host.ample

/-- The epoch and the sequence one make an identifier of nine zeros, a one and a
four. A two for the one is noticed, and so is the one in front of the last
zero. -/
theorem decode_slip_epoch : ∃ c y,
    (build (.ready Settings.decimal) none (some .start)).result = .ok c ∧ c.IsDecimal ∧
      (c.decode (.text "00000000014")).result = .ok (some y) ∧ 1 ≤ y.sequence ∧
      (c.decode (.text "00000000024")).result = .ok none ∧
      (c.decode (.text "00000000104")).result = .ok none := by
  obtain ⟨c, hc, hsettings, htimestamps, hn⟩ := exists_build_decimal .start
  have hdecimal := isDecimal_decimal hsettings
  have hvalue : Numeral.decimal.value (List.replicate 9 '0') = 0 :=
    Numeral.decimal.value_replicate_append 9 []
  have hwrite : Numeral.decimal.write (1 * 10 + 4) = ['1', '4'] := by
    rw [Numeral.write_decimal, Natural.write_append_digit (by decide) (by decide),
      Natural.write_of_lt (by decide)]
    rfl
  have hw : c.Written Numeral.decimal "00000000014" (List.replicate 9 '0') 1 4 :=
    { text := by
        rw [hwrite]
        rfl
      size := by
        rw [htimestamps]
        rfl
      symbols := by
        intro ch hch
        rw [List.eq_of_mem_replicate hch]
        exact Numeral.decimal.zero_mem
      number_le := by
        rw [hvalue]
        exact Nat.zero_le _
      sequence_le := by decide
      digit_lt := by decide
      checks := by
        rw [Numeral.write_decimal, Natural.write_of_lt (by decide),
          hdecimal.compute_eq_ok_iff (by decide) (List.all_eq_true.mp rfl) (by decide)]
        rfl }
  have hdecode := decode_eq_some_iff.mpr (hw.decodeText hn (t := .start) (by
    rw [hvalue, Nat.cast_zero, TimestampCodec.unpack_zero, htimestamps]))
  obtain ⟨hsubstituted, hswapped⟩ := decode_slip hc hdecimal hdecode
  exact ⟨c, _, hc, hdecimal, hdecode, le_rfl,
    hsubstituted (List.replicate 9 '0') '1' ['4'] '2' rfl (by decide),
    hswapped le_rfl (List.replicate 8 '0') '0' '1' ['4'] rfl (by decide)⟩

end Ample

/-- With the sequence zero, the digit in front of the check digit and the check
digit itself can change places unnoticed: between them a zero is checked. -/
example : Verhoeff.Checked "00000001009".toList ∧ Verhoeff.Checked "00000001900".toList :=
  ⟨rfl, rfl⟩

end Codec
end ChronoId
