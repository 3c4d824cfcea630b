/-
# The alphabets whose numerals sort like numbers

A numeral system that promises the order of numbers can be made of the sorted
alphabets only. They keep the promise: padded to one width, numerals have one
length, and texts of one length compare like their values. No other alphabet
would keep it: two symbols in the wrong order are themselves the numerals of
two numbers in the right one, which need no padding and so stand on every host.

Key definitions: `Numeral.promising`, `Numeral.PadsTo`.
Key theorems: `Numeral.exists_ofAlphabet_iff_pairwise`,
`Numeral.padded_lt_padded_iff`, `Numeral.pairwise_of_symbols`,
`Numeral.ofAlphabet_ordered_iff`.
-/
import ChronoId.Proofs.Numeral
import Mathlib.Data.String.Basic

namespace ChronoId
namespace Numeral

variable {n : Numeral} {a b v width : Nat} {x y : String}

/-! ### The promise -/

/-- The numeral system of the same symbols that promises the order. -/
def promising (n : Numeral) (hs : n.symbols.Pairwise (· < ·)) : Numeral :=
  { n with retainsSortOrder := true, sorted := fun _ => hs }

/-- The promise can be made of the sorted alphabets. -/
theorem exists_ofAlphabet_iff_pairwise {alphabet : Value} (h : ofAlphabet? alphabet false = .ok n) :
    (∃ m, ofAlphabet? alphabet true = .ok m) ↔ n.symbols.Pairwise (· < ·) := by
  obtain ⟨rfl, -⟩ := ofAlphabet?_eq_ok_iff.mp h
  constructor
  · rintro ⟨m, hm⟩
    obtain ⟨halphabet, hpromise⟩ := ofAlphabet?_eq_ok_iff.mp hm
    have hsymbols : n.symbols = m.symbols := String.ofList_inj.mp (Value.text.inj halphabet)
    rw [hsymbols]
    exact m.sorted hpromise
  · intro hs
    exact ⟨n.promising hs, (n.promising hs).ofAlphabet?_alphabet⟩

/-! ### Padded numerals -/

/-- Over a sorted alphabet numerals compare like their numbers, once they are
padded to one width. -/
theorem padded_lt_padded_iff (hs : n.symbols.Pairwise (· < ·)) (ha : (n.write a).length ≤ width)
    (hb : (n.write b).length ≤ width) :
    String.ofList (n.padded width a) < String.ofList (n.padded width b) ↔ a < b := by
  have hlen : (n.padded width a).length = (n.padded width b).length :=
    (n.length_padded ha).trans (n.length_padded hb).symm
  have hvalues : n.padded width a < n.padded width b ↔
      n.value (n.padded width a) < n.value (n.padded width b) :=
    (n.promising hs).lt_iff_value_lt rfl hlen (fun _ => n.mem_padded) fun _ => n.mem_padded
  rw [String.lt_iff_toList_lt, String.toList_ofList, String.toList_ofList, hvalues,
    n.value_padded, n.value_padded]

/-- The numeral of a digit is its symbol, which needs no zero in front. -/
theorem padded_symbol {d : Nat} (hd : d < n.radix) : n.padded 1 d = [n.symbol d] := by
  rw [padded, n.write_of_lt hd]
  rfl

theorem length_write_symbol {d : Nat} (hd : d < n.radix) : (n.write d).length = 1 :=
  congrArg List.length (n.write_of_lt hd)

theorem symbol_le_maxValue {d : Nat} (hd : d < n.radix) : d ≤ maxValue :=
  hd.le.trans (n.le_maxSymbols.trans (by decide))

/-- An alphabet is sorted if its symbols compare like their digits. -/
theorem pairwise_of_symbols (h : ∀ a b, a < b → b < n.radix →
    String.ofList [n.symbol a] < String.ofList [n.symbol b]) : n.symbols.Pairwise (· < ·) := by
  rw [List.pairwise_iff_getElem]
  intro i j hi hj hlt
  have htexts := h i j hlt hj
  rw [String.lt_iff_toList_lt, String.toList_ofList, String.toList_ofList,
    List.cons_lt_cons_iff] at htexts
  rw [← n.symbol_eq_getElem hi, ← n.symbol_eq_getElem hj]
  exact htexts.resolve_right fun htail => List.lt_irrefl [] htail.2

section Host

variable [Host]

/-- `x` is what the numeral of `v` is padded to in a width that has room for
it. -/
def PadsTo (n : Numeral) (v width : Nat) (x : String) : Prop :=
  ∃ e, n.encode v = .ok e ∧ e.length ≤ width ∧ n.pad e width = .ok x

theorem padsTo_iff : n.PadsTo v width x ↔ v ≤ maxValue ∧ (n.write v).length ≤ width ∧
    width - (n.write v).length ≤ Host.memory ∧ x = String.ofList (n.padded width v) := by
  constructor
  · rintro ⟨e, he, hlen, hx⟩
    obtain ⟨hv, rfl⟩ := n.encode_eq_ok_iff.mp he
    rw [String.length_ofList] at hlen
    obtain ⟨hroom, rfl⟩ := n.pad_write_eq_ok_iff.mp hx
    exact ⟨hv, hlen, hroom, rfl⟩
  · rintro ⟨hv, hlen, hroom, rfl⟩
    refine ⟨_, n.encode_eq_ok_iff.mpr ⟨hv, rfl⟩, ?_, n.pad_write_eq_ok_iff.mpr ⟨hroom, rfl⟩⟩
    rwa [String.length_ofList]

/-- A digit is a number in range, whose numeral fits everywhere. -/
theorem padsTo_symbol {d : Nat} (hd : d < n.radix) : n.PadsTo d 1 (String.ofList [n.symbol d]) := by
  have hlen := length_write_symbol hd
  have hroom : 1 - (n.write d).length ≤ Host.memory := by rw [hlen]; exact Nat.zero_le _
  exact padsTo_iff.mpr
    ⟨symbol_le_maxValue hd, hlen.le, hroom, congrArg String.ofList (padded_symbol hd).symm⟩

/-! ### The order is promised where it is kept -/

/-- An alphabet that makes a numeral system without the promise of order makes
one with it exactly if any two numbers in range compare like their numerals with
zeros in front, in every width from the longer of the two on. The same holds of
what the system itself pads to such a width, which is that text wherever there
is room for the zeros. -/
theorem ofAlphabet_ordered_iff {alphabet : Value} {n : Numeral}
    (h : (ofAlphabet alphabet false).result = .ok n) :
    ((∃ m, (ofAlphabet alphabet true).result = .ok m) ↔
      ∀ a ≤ maxValue, ∀ b ≤ maxValue, ∀ width, (n.write a).length ≤ width →
        (n.write b).length ≤ width →
          (a < b ↔ String.ofList (n.padded width a) < String.ofList (n.padded width b))) ∧
    ((∃ m, (ofAlphabet alphabet true).result = .ok m) ↔
      ∀ a b width x y, n.PadsTo a width x → n.PadsTo b width y → (a < b ↔ x < y)) ∧
    ∀ v ≤ maxValue, ∀ width, (n.write v).length ≤ width → ∀ x, n.PadsTo v width x ↔
      width - (n.write v).length ≤ Host.memory ∧ x = String.ofList (n.padded width v) := by
  rw [ofAlphabet_result] at h
  simp only [ofAlphabet_result, exists_ofAlphabet_iff_pairwise h]
  refine ⟨⟨?_, ?_⟩, ⟨?_, ?_⟩, ?_⟩
  · exact fun hs a _ b _ width ha hb => (padded_lt_padded_iff hs ha hb).symm
  · refine fun horder => pairwise_of_symbols fun a b hab hb => ?_
    have ha := hab.trans hb
    have htexts := horder a (symbol_le_maxValue ha) b (symbol_le_maxValue hb) 1
      (length_write_symbol ha).le (length_write_symbol hb).le
    rw [padded_symbol ha, padded_symbol hb] at htexts
    exact htexts.mp hab
  · intro hs a b width x y hx hy
    obtain ⟨-, ha, -, rfl⟩ := padsTo_iff.mp hx
    obtain ⟨-, hb, -, rfl⟩ := padsTo_iff.mp hy
    exact (padded_lt_padded_iff hs ha hb).symm
  · refine fun horder => pairwise_of_symbols fun a b hab hb => ?_
    exact (horder a b 1 _ _ (padsTo_symbol (hab.trans hb)) (padsTo_symbol hb)).mp hab
  · intro v hv width hlen x
    rw [padsTo_iff, and_iff_right hv, and_iff_right hlen]

end Host

section Ample

attribute [local instance] Host.ample

/-- The decimal digits in descending order: nine, the numeral of zero, is behind
eight, the numeral of one, and so they make no system with the promise. -/
theorem ofAlphabet_ordered_iff_descending : ∃ n,
    (ofAlphabet (.text "9876543210") false).result = .ok n ∧
      n.PadsTo 0 1 "9" ∧ n.PadsTo 1 1 "8" ∧
      ¬ ∃ m, (ofAlphabet (.text "9876543210") true).result = .ok m := by
  let n := ofChecked "9876543210".toList false (by decide) (by decide) (by decide) (by decide)
  have hn : (ofAlphabet (.text "9876543210") false).result = .ok n := by
    rw [ofAlphabet_result]
    exact ofAlphabet?_eq_ok_iff.mpr ⟨rfl, rfl⟩
  have hzero : n.PadsTo 0 1 "9" := padsTo_symbol (by decide)
  have hone : n.PadsTo 1 1 "8" := padsTo_symbol (by decide)
  refine ⟨n, hn, hzero, hone, fun hm => ?_⟩
  have horder := (ofAlphabet_ordered_iff hn).2.1.mp hm 0 1 1 _ _ hzero hone
  exact absurd (horder.mp Nat.zero_lt_one) (by decide)

end Ample

end Numeral
end ChronoId
