/-
# What ISIN's check digit takes

The check digit of ISINs takes the ASCII digits and letters, and it takes the
kelvin sign as well, because that is in lower case what `k` is. Another letter,
the capital I with a dot, becomes two characters in lower case, and it is
neither given a value nor refused. All else is refused, and so is a code of
zeros only.

Key definitions: `Mod10.Counts`, `Mod10.lowerCase`, `Mod10.IsCode`,
`Mod10.Expands`.
Key theorems: `Mod10.IsCode.exists_isin`, `Mod10.exists_fault_of_isin`,
`Mod10.isin_lowerCase`, `Algorithm.compute_isin`.
-/
import ChronoId.Proofs.CheckDigit
import ChronoId.Proofs.Results

namespace ChronoId
namespace Mod10

/-! ### Characters -/

/-- Whether a character has a value: an ASCII letter or digit, or the kelvin
sign. -/
def Counts (c : Char) : Prop := c.isAlphanum = true ∨ c = kelvinSign

instance (c : Char) : Decidable (Counts c) := inferInstanceAs (Decidable (_ ∨ _))

/-- The lower case of a character that counts. -/
def lowerCase (c : Char) : Char := if c = kelvinSign then 'k' else c.toLower

/-- The error of a character that does not count. -/
def refusal (c : Char) : Error :=
  if c = dottedI then .letterExpands else .input (.notAlphanumeric c)

theorem isLower_iff {c : Char} : c.isLower = true ↔ 97 ≤ c.toNat ∧ c.toNat ≤ 122 :=
  Bool.and_eq_true_iff.trans (and_congr decide_eq_true_iff decide_eq_true_iff)

theorem isUpper_iff {c : Char} : c.isUpper = true ↔ 65 ≤ c.toNat ∧ c.toNat ≤ 90 :=
  decide_eq_true_iff

theorem isAlphanum_eq (c : Char) : c.isAlphanum = (c.isUpper || c.isLower || c.isDigit) := rfl

theorem toNat_toLower {c : Char} (h : c.isUpper = true) : c.toLower.toNat = c.toNat + 32 := by
  have hall : ∀ n < 91, 65 ≤ n → (Char.ofNat n).toLower.toNat = n + 32 := by decide
  obtain ⟨hlow, hhigh⟩ := isUpper_iff.mp h
  have hc := hall c.toNat (by omega) hlow
  rwa [Char.ofNat_toNat] at hc

theorem toLower_of_not_isUpper {c : Char} (h : ¬ c.isUpper = true) : c.toLower = c :=
  dif_neg fun hupper => h (isUpper_iff.mpr hupper)

/-- What counts has a value, and only the digit zero has the value zero. -/
theorem alphanumericValue_of_counts {c : Char} (h : Counts c) :
    ∃ n, alphanumericValue c = .ok n ∧ (n = 0 ↔ c = '0') := by
  unfold alphanumericValue
  split
  · next hdigit =>
    obtain ⟨d, hd, rfl⟩ := Text.exists_asciiDigit hdigit
    refine ⟨_, rfl, ?_⟩
    rw [Text.asciiDigit_eq_zero_iff hd, Text.toNat_asciiDigit hd]
    exact (by omega : 48 + d - 48 = 0 ↔ d = 0)
  · next hdigit =>
    have hzero : c ≠ '0' := by
      rintro rfl
      exact hdigit rfl
    simp only [hzero, iff_false]
    split
    · exact ⟨_, rfl, by omega⟩
    · split
      · exact ⟨_, rfl, by omega⟩
      · next hlower hupper =>
        have hkelvin : c = kelvinSign := h.resolve_left
          (by simpa [isAlphanum_eq, hdigit, hlower] using hupper)
        rw [if_pos hkelvin]
        exact ⟨_, rfl, by decide⟩

theorem alphanumericValue_of_not_counts {c : Char} (h : ¬ Counts c) :
    alphanumericValue c = .error (refusal c) := by
  simp only [Counts, isAlphanum_eq, Bool.or_eq_true, not_or] at h
  obtain ⟨⟨⟨hupper, hlower⟩, hdigit⟩, hkelvin⟩ := h
  rw [alphanumericValue, if_neg hdigit, if_neg hlower, if_neg hupper, if_neg hkelvin, refusal]
  split <;> rfl

/-- The value of a letter does not depend on its case. -/
theorem alphanumericValue_lowerCase (c : Char) :
    alphanumericValue (lowerCase c) = alphanumericValue c := by
  unfold lowerCase
  split
  · next hkelvin =>
    rw [hkelvin]
    rfl
  · by_cases hupper : c.isUpper = true
    · have hlow := toNat_toLower hupper
      obtain ⟨hge, hle⟩ := isUpper_iff.mp hupper
      have hlower : c.toLower.isLower = true := isLower_iff.mpr (by omega)
      have hdigit : ∀ d : Char, 65 ≤ d.toNat → ¬ d.isDigit = true := by
        intro d hd
        rw [Char.isDigit_iff_toNat]
        exact fun h => absurd (hd.trans h.2) (by decide)
      have hnot : ¬ c.isLower = true := fun h => absurd (isLower_iff.mp h) (by omega)
      rw [alphanumericValue, if_neg (hdigit _ (by omega)), if_pos hlower, alphanumericValue,
        if_neg (hdigit c hge), if_neg hnot, if_pos hupper, hlow]
      exact congrArg Except.ok (by
        show c.toNat + 32 - 97 + 10 = c.toNat - 65 + 10
        omega)
    · rw [toLower_of_not_isUpper hupper]

/-! ### Codes -/

/-- A code that has a check digit: all of its characters count, and one of them
is not a zero. -/
structure IsCode (code : List Char) : Prop where
  counts : ∀ c ∈ code, Counts c
  nonzero : ∃ c ∈ code, c ≠ '0'

/-- Whether the first character of a code that does not count is the one that
becomes two in lower case. -/
def Expands (code : List Char) : Prop :=
  ∃ front rest, code = front ++ dottedI :: rest ∧ ∀ c ∈ front, Counts c

section Codes

variable {code front rest : List Char} {c : Char} {values : List Nat}

theorem exists_values : ∀ {code : List Char}, (∀ c ∈ code, Counts c) →
    ∃ values, code.mapM alphanumericValue = .ok values ∧
      ((∀ n ∈ values, n = 0) ↔ ∀ c ∈ code, c = '0')
  | [], _ => ⟨[], rfl, by simp⟩
  | c :: code, h => by
    rw [List.forall_mem_cons] at h
    obtain ⟨n, hn, hzero⟩ := alphanumericValue_of_counts h.1
    obtain ⟨values, hvalues, hzeros⟩ := exists_values h.2
    refine ⟨n :: values, ?_, ?_⟩
    · rw [List.mapM_cons, hn, hvalues]
      rfl
    · rw [List.forall_mem_cons, List.forall_mem_cons, hzero, hzeros]

/-- The first character that does not count decides. -/
theorem mapM_of_not_counts : ∀ {front : List Char}, (∀ d ∈ front, Counts d) → ¬ Counts c →
    (front ++ c :: rest).mapM alphanumericValue = .error (refusal c)
  | [], _, hc => by
    rw [List.nil_append, List.mapM_cons, alphanumericValue_of_not_counts hc]
    rfl
  | d :: front, h, hc => by
    rw [List.forall_mem_cons] at h
    obtain ⟨n, hn, -⟩ := alphanumericValue_of_counts h.1
    rw [List.cons_append, List.mapM_cons, hn, mapM_of_not_counts h.2 hc]
    rfl

theorem exists_first_not_counts (h : ¬ ∀ c ∈ code, Counts c) :
    ∃ front c rest, code = front ++ c :: rest ∧ (∀ d ∈ front, Counts d) ∧ ¬ Counts c := by
  have hfind : code.find? (fun c => decide ¬ Counts c) ≠ none := by
    simpa [List.find?_eq_none] using h
  obtain ⟨c, hc⟩ := Option.ne_none_iff_exists'.mp hfind
  obtain ⟨hcount, front, rest, rfl, hfront⟩ := List.find?_eq_some_iff_append.mp hc
  exact ⟨front, c, rest, rfl, by simpa using hfront, by simpa using hcount⟩

theorem forall_digits_eq_zero_iff :
    (∀ d ∈ values.flatMap (Positional.digits 10), d = 0) ↔ ∀ n ∈ values, n = 0 := by
  simp only [List.mem_flatMap]
  constructor
  · intro h n hn
    by_contra hne
    obtain ⟨d, ds, hds⟩ := List.exists_cons_of_ne_nil (Positional.digits_ne_nil 10 n)
    exact Positional.ne_zero_of_digits_eq_cons hne hds
      (h d ⟨n, hn, by rw [hds]; exact List.mem_cons_self⟩)
  · rintro h d ⟨n, hn, hd⟩
    rw [h n hn, Positional.digits_zero (by norm_num)] at hd
    exact List.mem_singleton.mp hd

theorem checkDigit_lt {ds : List Nat} {d : Nat} (h : checkDigit ds = .ok d) : d < 10 := by
  simp only [checkDigit] at h
  split at h
  · cases h
  · cases h
    exact Nat.mod_lt _ (by norm_num)

theorem IsCode.ne_nil (h : IsCode code) : code ≠ [] := by
  obtain ⟨c, hc, -⟩ := h.nonzero
  exact List.ne_nil_of_mem hc

theorem IsCode.exists_isin (h : IsCode code) : ∃ d < 10, isin code = .ok d := by
  obtain ⟨values, hvalues, hzeros⟩ := exists_values h.counts
  rw [isin_of_ne_nil h.ne_nil, hvalues, bind_ok]
  rcases checkDigit_cases (values.flatMap (Positional.digits 10)) with ⟨⟨d, hd⟩, -⟩ | ⟨-, hzero⟩
  · exact ⟨d, checkDigit_lt hd, hd⟩
  · rw [forall_digits_eq_zero_iff, hzeros] at hzero
    obtain ⟨c, hc, hne⟩ := h.nonzero
    exact absurd (hzero c hc) hne

theorem Expands.isin_eq (h : Expands code) : isin code = .error .letterExpands := by
  obtain ⟨front, rest, rfl, hfront⟩ := h
  rw [isin_of_ne_nil (by simp), mapM_of_not_counts hfront (by decide)]
  rfl

/-- Any other code is refused. -/
theorem exists_fault_of_isin (hcode : ¬ IsCode code) (hexpands : ¬ Expands code) :
    ∃ fault, isin code = .error (.input fault) := by
  rcases eq_or_ne code [] with rfl | hne
  · exact ⟨.noCode, rfl⟩
  rw [isin_of_ne_nil hne]
  by_cases hcounts : ∀ c ∈ code, Counts c
  · -- Nothing but zeros is left.
    have hall : ∀ c ∈ code, c = '0' := by
      intro c hc
      by_contra hne
      exact hcode ⟨hcounts, c, hc, hne⟩
    obtain ⟨values, hvalues, hzeros⟩ := exists_values hcounts
    rw [hvalues, bind_ok]
    rcases checkDigit_cases (values.flatMap (Positional.digits 10)) with ⟨-, hnot⟩ | ⟨herror, -⟩
    · rw [forall_digits_eq_zero_iff, hzeros] at hnot
      exact absurd hall hnot
    · exact ⟨.zeroSum, herror⟩
  · obtain ⟨front, c, rest, rfl, hfront, hc⟩ := exists_first_not_counts hcounts
    have hdotted : c ≠ dottedI := by
      rintro rfl
      exact hexpands ⟨front, rest, rfl, hfront⟩
    rw [mapM_of_not_counts hfront hc, refusal, if_neg hdotted]
    exact ⟨.notAlphanumeric c, rfl⟩

/-- The check digit of a code does not depend on the case of its letters. -/
theorem isin_lowerCase (code : List Char) : isin (code.map lowerCase) = isin code := by
  have hvalues : (code.map lowerCase).mapM alphanumericValue = code.mapM alphanumericValue := by
    rw [List.mapM_map]
    exact congrArg (code.mapM ·) (funext alphanumericValue_lowerCase)
  rw [isin, isin, List.isEmpty_map, hvalues]

end Codes

end Mod10

namespace Algorithm

open Mod10

section Isin

variable {code code' : String} {source : ByteArray}

theorem exists_compute_of_isCode (h : IsCode code.toList) :
    ∃ d < 10, isin.compute code.toUTF8 = .ok [Text.asciiDigit d] := by
  obtain ⟨d, hd, hisin⟩ := h.exists_isin
  refine ⟨d, hd, ?_⟩
  rw [compute_toUTF8, number, hisin, Except.map, Natural.write_of_lt hd]

theorem compute_of_expands (h : Expands code.toList) :
    isin.compute code.toUTF8 = .error .letterExpands := by
  rw [compute_toUTF8, number, h.isin_eq]
  rfl

theorem exists_fault_of_compute
    (h : ∀ code : String, source = code.toUTF8 → ¬ IsCode code.toList ∧ ¬ Expands code.toList) :
    ∃ fault, isin.compute source = .error (.input fault) := by
  rcases exists_toUTF8_or source with ⟨code, rfl⟩ | hutf8
  · obtain ⟨hcode, hexpands⟩ := h code rfl
    obtain ⟨fault, hfault⟩ := exists_fault_of_isin hcode hexpands
    exact ⟨fault, by rw [compute_toUTF8, number, hfault]; rfl⟩
  · exact ⟨.notUtf8, compute_of_not_isValidUTF8 isin hutf8⟩

/-- A source is the text of a code, or a text whose first character that does
not count becomes two in lower case, or neither. -/
theorem code_or_expands_or (source : ByteArray) :
    (∃ code : String, source = code.toUTF8 ∧ IsCode code.toList) ∨
      (∃ code : String, source = code.toUTF8 ∧ Expands code.toList) ∨
        ∀ code : String, source = code.toUTF8 → ¬ IsCode code.toList ∧ ¬ Expands code.toList := by
  by_cases hcode : ∃ code : String, source = code.toUTF8 ∧ IsCode code.toList
  · exact Or.inl hcode
  by_cases hexpands : ∃ code : String, source = code.toUTF8 ∧ Expands code.toList
  · exact Or.inr (Or.inl hexpands)
  · exact Or.inr (Or.inr fun code hsource =>
      ⟨fun h => hcode ⟨code, hsource, h⟩, fun h => hexpands ⟨code, hsource, h⟩⟩)

/-- Only the text of a code has a check digit. -/
theorem exists_isCode_of_compute {d : Nat} (h : isin.compute source = .ok [Text.asciiDigit d]) :
    ∃ code : String, source = code.toUTF8 ∧ IsCode code.toList := by
  rcases code_or_expands_or source with hcode | ⟨code, rfl, hexpands⟩ | hother
  · exact hcode
  · rw [compute_of_expands hexpands] at h
    cases h
  · obtain ⟨fault, hfault⟩ := exists_fault_of_compute hother
    rw [hfault] at h
    cases h

theorem exists_expands_of_compute (h : isin.compute source = .error .letterExpands) :
    ∃ code : String, source = code.toUTF8 ∧ Expands code.toList := by
  rcases code_or_expands_or source with ⟨code, rfl, hcode⟩ | hexpands | hother
  · obtain ⟨d, -, hd⟩ := exists_compute_of_isCode hcode
    rw [hd] at h
    cases h
  · exact hexpands
  · obtain ⟨fault, hfault⟩ := exists_fault_of_compute hother
    rw [hfault] at h
    cases h

/-- What is refused is neither the text of a code nor one that expands. -/
theorem not_isCode_of_compute {fault : InputFault}
    (h : isin.compute code.toUTF8 = .error (.input fault)) :
    ¬ IsCode code.toList ∧ ¬ Expands code.toList := by
  constructor
  · intro hcode
    obtain ⟨d, -, hd⟩ := exists_compute_of_isCode hcode
    rw [hd] at h
    cases h
  · intro hexpands
    rw [compute_of_expands hexpands] at h
    cases h

theorem compute_of_lowerCase (h : code.toList.map lowerCase = code'.toList.map lowerCase) :
    isin.compute code.toUTF8 = isin.compute code'.toUTF8 := by
  rw [compute_toUTF8, compute_toUTF8, number, number, ← isin_lowerCase, h, isin_lowerCase]

end Isin

/-- ISIN's check digit is one digit for the text of a code in UTF-8: ASCII
letters, digits and kelvin signs that are not all zeros. The text whose first
other character is the capital I with a dot has no check digit and is not
refused either, and every other source is refused. The case of letters does not
matter. -/
theorem compute_isin (source : ByteArray) :
    ((∃ d < 10, isin.compute source = .ok [Text.asciiDigit d]) ↔
      ∃ code : String, source = code.toUTF8 ∧ IsCode code.toList) ∧
    (isin.compute source = .error .letterExpands ↔
      ∃ code : String, source = code.toUTF8 ∧ Expands code.toList) ∧
    ((∃ fault, isin.compute source = .error (.input fault)) ↔
      ∀ code : String, source = code.toUTF8 → ¬ IsCode code.toList ∧ ¬ Expands code.toList) ∧
    ∀ code code' : String, source = code.toUTF8 →
      code.toList.map lowerCase = code'.toList.map lowerCase →
      isin.compute source = isin.compute code'.toUTF8 := by
  refine ⟨⟨?_, ?_⟩, ⟨exists_expands_of_compute, ?_⟩, ⟨?_, exists_fault_of_compute⟩, ?_⟩
  · rintro ⟨d, -, hd⟩
    exact exists_isCode_of_compute hd
  · rintro ⟨code, rfl, hcode⟩
    exact exists_compute_of_isCode hcode
  · rintro ⟨code, rfl, hexpands⟩
    exact compute_of_expands hexpands
  · rintro ⟨fault, hfault⟩ code rfl
    exact not_isCode_of_compute hfault
  · rintro code code' rfl h
    exact compute_of_lowerCase h

/-- The kelvin sign has the check digit of the letter. A digit and the capital I
with a dot have none, and a hyphen is refused. -/
theorem compute_isin_kelvinSign :
    (∃ d < 10, isin.compute "\u212a".toUTF8 = .ok [Text.asciiDigit d]) ∧
      isin.compute "\u212a".toUTF8 = isin.compute "K".toUTF8 ∧
      isin.compute "1\u0130".toUTF8 = .error .letterExpands ∧
      ∃ fault, isin.compute "US-03".toUTF8 = .error (.input fault) := by
  have hkelvin : ∀ c ∈ [kelvinSign], Counts c := List.forall_mem_singleton.mpr (by decide)
  have hone : ∀ c ∈ ['1'], Counts c := List.forall_mem_singleton.mpr (by decide)
  obtain ⟨hdigit, -, -, hcase⟩ := compute_isin "\u212a".toUTF8
  obtain ⟨-, hexpands, -, -⟩ := compute_isin "1\u0130".toUTF8
  obtain ⟨-, -, hrefused, -⟩ := compute_isin "US-03".toUTF8
  refine ⟨hdigit.mpr ⟨"\u212a", rfl, hkelvin, kelvinSign, by decide, by decide⟩,
    hcase _ _ rfl rfl, hexpands.mpr ⟨"1\u0130", rfl, ['1'], [], rfl, hone⟩,
    hrefused.mpr fun code hcode => ?_⟩
  obtain rfl : "US-03" = code := String.toByteArray_inj.mp hcode
  refine ⟨fun h => absurd (h.counts '-' (by decide)) (by decide), ?_⟩
  rintro ⟨front, rest, h, -⟩
  have hmem : dottedI ∈ "US-03".toList := by
    rw [h]
    simp
  exact absurd hmem (by decide)

end Algorithm
end ChronoId
