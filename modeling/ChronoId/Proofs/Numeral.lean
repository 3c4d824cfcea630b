/-
# Numerals, their values and their order

A numeral system writes each number in one way, without a superfluous zero,
and what it reads is exactly a text of its symbols whose value is in range:
the limit on the number of significant digits refuses nothing more. Texts of
one length are known by their values, and if the alphabet is sorted they
compare like them. A numeral system is the one of its own alphabet.

Key definitions: `Numeral.padded`.
Key theorems: `Numeral.value_write`, `Numeral.significant_eq_write`,
`Numeral.decode_eq_ok_iff`, `Numeral.lt_iff_value_lt`,
`Numeral.pad_write_eq_ok_iff`, `Numeral.ofAlphabet?_eq_ok_iff`.
-/
import ChronoId.Numeral
import ChronoId.Proofs.Positional
import ChronoId.Proofs.Results
import Mathlib.Data.List.GetD
import Mathlib.Data.List.TakeWhile

namespace ChronoId
namespace Numeral

variable (n : Numeral)

/-- The numeral of `v` with zeros in front up to `width` characters. -/
def padded (width v : Nat) : List Char :=
  List.replicate (width - (n.write v).length) n.zero ++ n.write v

/-! ### Symbols and digits -/

theorem two_le_radix : 2 ≤ n.radix := n.two_le

theorem symbol_eq_getElem {d : Nat} (hd : d < n.symbols.length) : n.symbol d = n.symbols[d] := by
  rw [symbol, List.getD_eq_getElem _ _ hd]

theorem symbol_zero : n.symbol 0 = n.zero :=
  n.symbol_eq_getElem (by have := n.two_le; omega)

theorem symbol_mem {d : Nat} (hd : d < n.radix) : n.symbol d ∈ n.symbols := by
  rw [n.symbol_eq_getElem hd]
  exact List.getElem_mem hd

theorem zero_mem : n.zero ∈ n.symbols := by
  rw [← n.symbol_zero]
  exact n.symbol_mem (by have := n.two_le_radix; omega)

theorem idxOf_symbol {d : Nat} (hd : d < n.radix) : n.symbols.idxOf (n.symbol d) = d := by
  rw [n.symbol_eq_getElem hd]
  exact n.nodup.idxOf_getElem d hd

theorem idxOf_zero : n.symbols.idxOf n.zero = 0 := by
  rw [← n.symbol_zero]
  exact n.idxOf_symbol (by have := n.two_le_radix; omega)

theorem symbol_idxOf {c : Char} (hc : c ∈ n.symbols) : n.symbol (n.symbols.idxOf c) = c := by
  rw [n.symbol_eq_getElem (List.idxOf_lt_length_of_mem hc)]
  exact List.getElem_idxOf _

/-- The digits of symbols are below the radix. -/
theorem idxOf_lt_of_mem {cs : List Char} (hcs : ∀ c ∈ cs, c ∈ n.symbols) :
    ∀ d ∈ cs.map n.symbols.idxOf, d < n.radix := by
  intro d hd
  obtain ⟨c, hc, rfl⟩ := List.mem_map.mp hd
  exact List.idxOf_lt_length_of_mem (hcs c hc)

theorem map_symbol_idxOf {cs : List Char} (hcs : ∀ c ∈ cs, c ∈ n.symbols) :
    (cs.map n.symbols.idxOf).map n.symbol = cs := by
  rw [List.map_map]
  exact (List.map_congr_left fun c hc => n.symbol_idxOf (hcs c hc)).trans (List.map_id' cs)

theorem map_idxOf_symbol {ds : List Nat} (hds : ∀ d ∈ ds, d < n.radix) :
    (ds.map n.symbol).map n.symbols.idxOf = ds := by
  rw [List.map_map]
  exact (List.map_congr_left fun d hd => n.idxOf_symbol (hds d hd)).trans (List.map_id' ds)

/-! ### Values -/

theorem value_nil : n.value [] = 0 := rfl

theorem value_cons (c : Char) (cs : List Char) :
    n.value (c :: cs) = n.symbols.idxOf c * n.radix ^ cs.length + n.value cs := by
  simp only [value, List.map_cons, Positional.value_cons, List.length_map]

theorem value_lt_pow {cs : List Char} (hcs : ∀ c ∈ cs, c ∈ n.symbols) :
    n.value cs < n.radix ^ cs.length := by
  have h := Positional.value_lt_pow n.two_le_radix (n.idxOf_lt_of_mem hcs)
  rwa [List.length_map] at h

theorem value_replicate_append (k : Nat) (cs : List Char) :
    n.value (List.replicate k n.zero ++ cs) = n.value cs := by
  rw [value, List.map_append, List.map_replicate, n.idxOf_zero, Positional.value_replicate_append,
    value]

/-- Texts of one length are known by their values. -/
theorem value_inj {cs ds : List Char} (hlen : cs.length = ds.length)
    (hcs : ∀ c ∈ cs, c ∈ n.symbols) (hds : ∀ d ∈ ds, d ∈ n.symbols)
    (h : n.value cs = n.value ds) : cs = ds := by
  have hmap : cs.map n.symbols.idxOf = ds.map n.symbols.idxOf :=
    Positional.value_inj n.two_le_radix (by simpa using hlen) (n.idxOf_lt_of_mem hcs)
      (n.idxOf_lt_of_mem hds) h
  rw [← n.map_symbol_idxOf hcs, ← n.map_symbol_idxOf hds, hmap]

/-! ### Written numbers -/

theorem mem_write {v : Nat} {c : Char} (hc : c ∈ n.write v) : c ∈ n.symbols := by
  obtain ⟨d, hd, rfl⟩ := List.mem_map.mp hc
  exact n.symbol_mem (Positional.digits_lt n.two_le_radix d hd)

theorem write_ne_nil (v : Nat) : n.write v ≠ [] := by
  rw [write, ne_eq, List.map_eq_nil_iff]
  exact Positional.digits_ne_nil _ _

theorem write_of_lt {v : Nat} (hv : v < n.radix) : n.write v = [n.symbol v] := by
  rw [write, Positional.digits_of_lt hv, List.map_singleton]

theorem write_zero : n.write 0 = [n.zero] := by
  have hpos : 0 < n.radix := by
    have := n.two_le_radix
    omega
  rw [n.write_of_lt hpos, n.symbol_zero]

/-- The value of a written number is the number. -/
theorem value_write (v : Nat) : n.value (n.write v) = v := by
  rw [value, write, n.map_idxOf_symbol (Positional.digits_lt n.two_le_radix)]
  exact Positional.value_digits _ _

theorem write_inj {v w : Nat} (h : n.write v = n.write w) : v = w := by
  rw [← n.value_write v, h, n.value_write]

/-- What is written has one character more than the logarithm. -/
theorem length_write (v : Nat) : (n.write v).length = Nat.log n.radix v + 1 := by
  rw [write, List.length_map]
  exact Positional.length_digits n.two_le_radix

theorem length_write_mono {v w : Nat} (h : v ≤ w) : (n.write v).length ≤ (n.write w).length := by
  rw [write, write, List.length_map, List.length_map]
  exact Positional.length_digits_mono n.two_le_radix h

/-- A number is written with `k` characters at most if it is below the power of
the radix. -/
theorem length_write_le_iff {v k : Nat} (hk : 0 < k) :
    (n.write v).length ≤ k ↔ v < n.radix ^ k := by
  rw [write, List.length_map]
  exact Positional.length_digits_le_iff n.two_le_radix hk

/-- A text that does not start with a zero is how its value is written. -/
theorem write_value {c : Char} {cs : List Char} (hcs : ∀ e ∈ c :: cs, e ∈ n.symbols)
    (hc : c ≠ n.zero) : n.write (n.value (c :: cs)) = c :: cs := by
  have hne : n.symbols.idxOf c ≠ 0 := by
    intro h
    have := n.symbol_idxOf (hcs c List.mem_cons_self)
    rw [h, n.symbol_zero] at this
    exact hc this.symm
  have hd := n.idxOf_lt_of_mem hcs
  have hmap := n.map_symbol_idxOf hcs
  rw [List.map_cons] at hd hmap
  rw [write, value, List.map_cons, Positional.digits_value n.two_le_radix hd hne, hmap]

/-! ### Reading -/

/-- What is left of zeros in front has no other value. -/
theorem value_significant {cs : List Char} : n.value (n.significant cs) = n.value cs := by
  have hsplit := List.takeWhile_append_dropWhile (p := (· = n.zero)) (l := cs)
  have hrep : cs.takeWhile (· = n.zero) =
      List.replicate (cs.takeWhile (· = n.zero)).length n.zero :=
    List.eq_replicate_iff.mpr ⟨rfl, fun c hc => by simpa using List.mem_takeWhile_imp hc⟩
  have hdrop : n.value (cs.dropWhile (· = n.zero)) = n.value cs := by
    conv_rhs => rw [← hsplit, hrep]
    exact (n.value_replicate_append _ _).symm
  unfold significant
  split
  · next h =>
    rw [h] at hdrop
    rw [← hdrop, value_cons, value_nil, n.idxOf_zero, Nat.zero_mul]
  · next h => rw [← h, hdrop]

/-- Without zeros in front, a text of symbols is how its value is written. -/
theorem significant_eq_write {cs : List Char} (hcs : ∀ c ∈ cs, c ∈ n.symbols) :
    n.significant cs = n.write (n.value cs) := by
  rw [← n.value_significant, significant]
  split
  · next h => rw [value_cons, value_nil, n.idxOf_zero, Nat.zero_mul, n.write_zero]
  · next c rest h =>
    have hmem : ∀ e ∈ c :: rest, e ∈ n.symbols := fun e he =>
      hcs e ((List.dropWhile_suffix _).subset (h ▸ he))
    have hne : c ≠ n.zero := by
      have := List.head_dropWhile_not (· = n.zero) (l := cs) (by rw [h]; exact List.cons_ne_nil _ _)
      simpa [h] using this
    exact (n.write_value hmem hne).symm

theorem mem_significant {cs : List Char} {c : Char} (hc : c ∈ cs) :
    c ∈ n.significant cs ∨ c = n.zero := by
  by_cases hz : c = n.zero
  · exact Or.inr hz
  · left
    rw [← List.takeWhile_append_dropWhile (p := (· = n.zero)) (l := cs)] at hc
    rcases List.mem_append.mp hc with h | h
    · exact absurd (by simpa using List.mem_takeWhile_imp h) hz
    · unfold significant
      split
      · next h' => rw [h'] at h; cases h
      · next h' => rwa [h'] at h

theorem find?_significant_eq_none {cs : List Char} :
    (n.significant cs).find? (!n.symbols.contains ·) = none ↔
      ∀ c ∈ n.significant cs, c ∈ n.symbols := by
  simp [List.find?_eq_none]

theorem mem_symbols_of_significant {cs : List Char} (h : ∀ c ∈ n.significant cs, c ∈ n.symbols) :
    ∀ c ∈ cs, c ∈ n.symbols := fun c hc =>
  (n.mem_significant hc).elim (h c) fun hz => hz ▸ n.zero_mem

/-- What is read is a text of symbols whose value is in range, with any
number of zeros in front. -/
theorem decode_eq_ok_iff {s : String} {v : Nat} : n.decode s = .ok v ↔
    s.toList ≠ [] ∧ (∀ c ∈ s.toList, c ∈ n.symbols) ∧ n.value s.toList = v ∧ v ≤ maxValue := by
  unfold decode
  by_cases hs : s.toList = []
  · simp [hs]
  rw [if_neg (by simpa using hs)]
  by_cases hmem : ∀ c ∈ s.toList, c ∈ n.symbols
  · have hsig := n.significant_eq_write hmem
    have hnone := n.find?_significant_eq_none.mpr fun c hc => n.mem_write (hsig ▸ hc)
    simp only [hnone, n.value_significant]
    by_cases hv : n.value s.toList ≤ maxValue
    · have hlen : ¬ n.maxLength < (n.significant s.toList).length := by
        rw [hsig, maxLength]
        exact not_lt.mpr (n.length_write_mono hv)
      rw [if_neg hlen, if_pos hv, Except.ok.injEq]
      exact ⟨fun h => ⟨hs, hmem, h, h ▸ hv⟩, fun h => h.2.2.1⟩
    · rw [if_neg hv]
      refine ⟨fun h => ?_, fun ⟨_, _, h1, h2⟩ => absurd (h1 ▸ h2) hv⟩
      split at h <;> cases h
  · refine ⟨fun h => absurd (n.mem_symbols_of_significant ?_) hmem, fun h => absurd h.2.1 hmem⟩
    rw [← n.find?_significant_eq_none]
    simp only at h
    split at h
    · cases h
    · split at h
      · cases h
      · assumption

theorem encode_eq_ok_iff {v : Nat} {s : String} :
    n.encode v = .ok s ↔ v ≤ maxValue ∧ s = String.ofList (n.write v) := by
  unfold encode
  by_cases hv : v ≤ maxValue
  · rw [if_pos hv, Except.ok.injEq]
    exact ⟨fun h => ⟨hv, h.symm⟩, fun h => h.2.symm⟩
  · rw [if_neg hv]
    exact ⟨nofun, fun h => absurd h.1 hv⟩

theorem encode_error {v : Nat} {e : Error} (h : n.encode v = .error e) : ∃ f, e = .input f := by
  unfold encode at h
  split at h
  · cases h
  · exact ⟨_, (Except.error.inj h).symm⟩

theorem decode_error {s : String} {e : Error} (h : n.decode s = .error e) : ∃ f, e = .input f := by
  unfold decode at h
  split at h
  · exact ⟨_, (Except.error.inj h).symm⟩
  · simp only at h
    split at h
    · exact ⟨_, (Except.error.inj h).symm⟩
    · split at h
      · exact ⟨_, (Except.error.inj h).symm⟩
      · split at h
        · cases h
        · exact ⟨_, (Except.error.inj h).symm⟩

theorem decode_write {v : Nat} (hv : v ≤ maxValue) :
    n.decode (String.ofList (n.write v)) = .ok v := by
  rw [decode_eq_ok_iff, String.toList_ofList]
  exact ⟨n.write_ne_nil v, fun c hc => n.mem_write hc, n.value_write v, hv⟩

/-! ### Order -/

/-- A symbol before another has the smaller digit. -/
theorem idxOf_lt_of_lt (hs : n.retainsSortOrder = true) {c d : Char} (hc : c ∈ n.symbols)
    (hd : d ∈ n.symbols) (h : n.symbols.idxOf c < n.symbols.idxOf d) : c < d := by
  have hi := List.idxOf_lt_length_of_mem hc
  have hj := List.idxOf_lt_length_of_mem hd
  have := List.pairwise_iff_getElem.mp (n.sorted hs) _ _ hi hj h
  rwa [List.getElem_idxOf hi, List.getElem_idxOf hj] at this

theorem lt_iff_idxOf_lt (hs : n.retainsSortOrder = true) {c d : Char} (hc : c ∈ n.symbols)
    (hd : d ∈ n.symbols) : c < d ↔ n.symbols.idxOf c < n.symbols.idxOf d := by
  refine ⟨fun h => ?_, n.idxOf_lt_of_lt hs hc hd⟩
  rcases Nat.lt_trichotomy (n.symbols.idxOf c) (n.symbols.idxOf d) with hlt | heq | hgt
  · exact hlt
  · exact absurd ((List.idxOf_inj hc).mp heq) (Char.ne_of_lt h)
  · exact absurd h (Char.lt_asymm (n.idxOf_lt_of_lt hs hd hc hgt))

/-- Over a sorted alphabet, texts of one length compare like their values. -/
theorem lt_iff_value_lt (hs : n.retainsSortOrder = true) : ∀ {cs ds : List Char},
    cs.length = ds.length → (∀ c ∈ cs, c ∈ n.symbols) → (∀ d ∈ ds, d ∈ n.symbols) →
    (cs < ds ↔ n.value cs < n.value ds)
  | [], [], _, _, _ => by simp [value_nil]
  | c :: cs, d :: ds, hlen, hcs, hds => by
    have hcs' : ∀ e ∈ cs, e ∈ n.symbols := fun e he => hcs e (List.mem_cons_of_mem _ he)
    have hds' : ∀ e ∈ ds, e ∈ n.symbols := fun e he => hds e (List.mem_cons_of_mem _ he)
    have hlen' : cs.length = ds.length := by simpa using hlen
    have hc := hcs c List.mem_cons_self
    have hd := hds d List.mem_cons_self
    have ih := lt_iff_value_lt hs hlen' hcs' hds'
    have hvc := n.value_lt_pow hcs'
    have hvd := n.value_lt_pow hds'
    rw [List.cons_lt_cons_iff, ih, value_cons, value_cons, hlen', n.lt_iff_idxOf_lt hs hc hd]
    rw [hlen'] at hvc
    constructor
    · rintro (h | ⟨rfl, h⟩)
      · -- the smaller leading digit leaves a whole power of room
        have := Nat.mul_le_mul_right (n.radix ^ ds.length) (Nat.succ_le_of_lt h)
        rw [Nat.succ_mul] at this
        omega
      · omega
    · intro h
      rcases Nat.lt_trichotomy (n.symbols.idxOf c) (n.symbols.idxOf d) with hlt | heq | hgt
      · exact Or.inl hlt
      · rw [heq] at h
        exact Or.inr ⟨(List.idxOf_inj hc).mp heq, by omega⟩
      · have := Nat.mul_le_mul_right (n.radix ^ ds.length) (Nat.succ_le_of_lt hgt)
        rw [Nat.succ_mul] at this
        omega

/-- Written numbers compare by their lengths first. -/
theorem write_lt_of_length_eq (hs : n.retainsSortOrder = true) {v w : Nat} (h : v < w)
    (hlen : (n.write v).length = (n.write w).length) : n.write v < n.write w := by
  rw [n.lt_iff_value_lt hs hlen (fun _ => n.mem_write) (fun _ => n.mem_write), n.value_write,
    n.value_write]
  exact h

/-! ### Padding -/

theorem mem_padded {width v : Nat} {c : Char} (hc : c ∈ n.padded width v) : c ∈ n.symbols := by
  rcases List.mem_append.mp hc with h | h
  · exact List.eq_of_mem_replicate h ▸ n.zero_mem
  · exact n.mem_write h

theorem value_padded (width v : Nat) : n.value (n.padded width v) = v := by
  rw [padded, value_replicate_append, value_write]

theorem length_padded {width v : Nat} (h : (n.write v).length ≤ width) :
    (n.padded width v).length = width := by
  rw [padded, List.length_append, List.length_replicate]
  omega

section Host

variable [Host]

theorem zeros_of_le {count : Nat} (h : count ≤ Host.memory) :
    n.zeros count = .ok (List.replicate count n.zero) := by
  rw [zeros, if_neg (not_lt.mpr (h.trans Host.memory_le)), if_neg (not_lt.mpr h)]

theorem zeros_of_lt {count : Nat} (h : Host.memory < count) :
    n.zeros count = .error (if Text.maxLength < count then .textTooLong else .outOfMemory) := by
  rw [zeros, if_pos h]
  split <;> rfl

theorem pad_write (width v : Nat) : n.pad (String.ofList (n.write v)) width =
    (n.zeros (width - (n.write v).length)).map fun zs => String.ofList (zs ++ n.write v) := by
  have hcount : ((width : Int) - ((n.write v).length : Int)).toNat = width - (n.write v).length := by
    omega
  rw [pad, String.toList_ofList, hcount]
  cases n.zeros (width - (n.write v).length) <;> rfl

/-- Padding succeeds if there is room for the zeros. -/
theorem pad_write_eq_ok_iff {width v : Nat} {s : String} :
    n.pad (String.ofList (n.write v)) width = .ok s ↔
      width - (n.write v).length ≤ Host.memory ∧ s = String.ofList (n.padded width v) := by
  rw [pad_write]
  by_cases h : width - (n.write v).length ≤ Host.memory
  · rw [n.zeros_of_le h]
    exact ⟨fun hs => ⟨h, (Except.ok.inj hs).symm⟩, fun hs => congrArg Except.ok hs.2.symm⟩
  · rw [n.zeros_of_lt (not_le.mp h)]
    exact ⟨nofun, fun hs => absurd hs.1 h⟩

/-- Padding fails only for want of room. -/
theorem pad_write_eq_error_iff {width v : Nat} {e : Error} :
    n.pad (String.ofList (n.write v)) width = .error e ↔ Host.memory < width - (n.write v).length ∧
      e = if Text.maxLength < width - (n.write v).length then .textTooLong else .outOfMemory := by
  rw [pad_write]
  by_cases h : width - (n.write v).length ≤ Host.memory
  · rw [n.zeros_of_le h]
    exact ⟨nofun, fun he => absurd he.1 (not_lt.mpr h)⟩
  · rw [n.zeros_of_lt (not_le.mp h)]
    exact ⟨fun he => ⟨not_le.mp h, (Except.error.inj he).symm⟩,
      fun he => congrArg Except.error he.2.symm⟩

end Host

/-! ### Alphabets -/

/-- A numeral system is that of its own alphabet. -/
theorem ofAlphabet?_alphabet : ofAlphabet? (.text n.alphabet) n.retainsSortOrder = .ok n := by
  have hs : n.alphabet.toList = n.symbols := String.toList_ofList
  have hsize : 2 ≤ n.alphabet.toList.length ∧ n.alphabet.toList.length ≤ maxSymbols := by
    rw [hs]
    exact ⟨n.two_le, n.le_maxSymbols⟩
  have hblank : n.alphabet.toList.all (!Text.isBlank ·) = true := by
    rw [hs]
    simpa using n.noBlank
  have hnodup : Symbols.distinct n.alphabet.toList = true := by
    rw [hs]
    exact (Symbols.distinct_iff _).mpr n.nodup
  have hsorted : (!n.retainsSortOrder || Symbols.ascending n.alphabet.toList) = true := by
    rw [hs]
    cases h : n.retainsSortOrder
    · rfl
    · exact (Symbols.ascending_iff _).mpr (n.sorted h)
  simp only [ofAlphabet?, dif_pos hsize, dif_pos hblank, dif_pos hnodup, dif_pos hsorted, ofChecked,
    Except.ok.injEq]
  cases n
  simp only [mk.injEq, and_true]
  exact hs

/-- The numeral system of an alphabet has that alphabet, and promises what was
asked of it. -/
theorem ofAlphabet?_eq_ok_iff {v : Value} {b : Bool} {n : Numeral} :
    ofAlphabet? v b = .ok n ↔ v = .text n.alphabet ∧ n.retainsSortOrder = b := by
  refine ⟨fun h => ?_, fun ⟨hv, hb⟩ => hv ▸ hb ▸ n.ofAlphabet?_alphabet⟩
  unfold ofAlphabet? at h
  split at h
  · next s =>
    simp only at h
    split at h
    · split at h
      · split at h
        · split at h
          · cases h
            exact ⟨congrArg Value.text (String.ofList_toList).symm, rfl⟩
          · cases h
        · cases h
      · cases h
    · cases h
  · cases h

/-- What is no alphabet is a fault of the configuration. -/
theorem ofAlphabet?_error {v : Value} {b : Bool} {e : Error} (h : ofAlphabet? v b = .error e) :
    ∃ f, e = .configuration f := by
  unfold ofAlphabet? at h
  split at h
  · simp only at h
    split at h
    · split at h
      · split at h
        · split at h
          · cases h
          · exact ⟨_, (Except.error.inj h).symm⟩
        · exact ⟨_, (Except.error.inj h).symm⟩
      · exact ⟨_, (Except.error.inj h).symm⟩
    · exact ⟨_, (Except.error.inj h).symm⟩
  · exact ⟨_, (Except.error.inj h).symm⟩

/-- The line in the journal is left by what has succeeded. -/
theorem ofAlphabet_result (v : Value) (b : Bool) : (ofAlphabet v b).result = ofAlphabet? v b := by
  rw [ofAlphabet, Logged.result_bind, Logged.result_liftM]
  cases ofAlphabet? v b <;> rfl

end Numeral
end ChronoId
