/-
# What the check digit engine answers

Whatever the payload, an algorithm is asked once, about a code of digits. Verhoeff
and SHA-256 therefore choose a character of the alphabet for every payload, and
Luhn and ISIN for every payload but those whose code is all zeros. The letters
that ISIN takes never reach it, and on digits it finds Luhn's number, so that the
engine cannot tell the two apart. A text that ends with a character is verified
by the same question about what stands in front.

Key theorems: `CheckDigit.compute_of_isTarget`, `CheckDigit.isValid_push`,
`CheckDigit.compute_isin_eq_luhn`, `CheckDigit.isValid_isin_eq_luhn`,
`CheckDigit.compute_or_zeroSum`.
-/
import ChronoId.Proofs.CheckDigit
import ChronoId.Proofs.Results

namespace ChronoId

/-- Of digits ISIN makes the same number as Luhn. -/
theorem Algorithm.number_isin_eq_luhn {code : List Char} (h : ∀ c ∈ code, c.isDigit = true) :
    isin.number code = luhn.number code := by
  obtain ⟨ds, hds, rfl⟩ := Text.exists_digits h
  by_cases hne : ds = []
  · rw [hne]
    rfl
  · simp only [number, Mod10.isin_digits hne hds, Mod10.luhn_digits hne hds]

namespace CheckDigit

variable {payload alphabet : String}

/-! ### One question -/

/-- With a usable alphabet a payload that is not empty gets to the method. -/
theorem compute_of_isTarget (hpayload : payload ≠ "") (h : IsTarget alphabet) (method : Method) :
    ∃ t : Target, t.symbols = alphabet.toList ∧
      compute (.text payload) method (.text alphabet) = computeText payload.toList method t := by
  obtain ⟨t, ht, hsymbols⟩ := h.exists_target
  have hempty : payload.toList.isEmpty = false := by simpa using hpayload
  refine ⟨t, hsymbols, ?_⟩
  unfold compute
  simp only [hempty, Bool.false_eq_true, ↓reduceIte, ht]

theorem asked_of_isTarget (hpayload : payload ≠ "") (h : IsTarget alphabet) (a : Algorithm) :
    (compute (.text payload) (.algorithm a) (.text alphabet)).asked =
      [String.ofList (code payload.toList)] := by
  obtain ⟨t, -, ht⟩ := compute_of_isTarget hpayload h (.algorithm a)
  rw [ht]
  rfl

/-- A character behind a payload is right if it is the payload's check
character. -/
theorem isValid_push (c : Char) (hpayload : payload ≠ "") (method : Method) (alphabet : Value) :
    isValid (.text (payload.push c)) method alphabet =
      ⟨(compute (.text payload) method alphabet).asked,
        (compute (.text payload) method alphabet).result.map (· == c)⟩ := by
  have hpush : payload.push c = String.ofList (payload.toList ++ [c]) := by
    rw [← String.toList_push, String.ofList_toList]
  have hne : payload.toList ≠ [] := by simpa using hpayload
  rw [hpush, isValid_eq_compute c hne, String.ofList_toList]

/-! ### Luhn and ISIN -/

theorem ask_isin_eq_luhn (payload : List Char) :
    ask (.algorithm .isin) (code payload) = ask (.algorithm .luhn) (code payload) := by
  simp only [ask, Algorithm.number_isin_eq_luhn isDigit_of_mem_code]

/-- ISIN and Luhn find the same check character, or fail alike, whatever the
payload and the alphabet are. -/
theorem compute_isin_eq_luhn (payload alphabet : Value) :
    compute payload (.algorithm .isin) alphabet = compute payload (.algorithm .luhn) alphabet := by
  cases payload with
  | text s => simp only [compute, computeText, ask_isin_eq_luhn]
  | _ => rfl

theorem isValid_isin_eq_luhn (value alphabet : Value) :
    isValid value (.algorithm .isin) alphabet = isValid value (.algorithm .luhn) alphabet := by
  cases value with
  | text s => simp only [isValid, compute_isin_eq_luhn]
  | _ => rfl

/-! ### All answers -/

/-- For a payload that is not empty and an alphabet that is not blank and has no
character twice, every algorithm is asked about the payload's code, and once.
Verhoeff and SHA-256 choose a character of the alphabet. Luhn and ISIN reject a
code of zeros and choose a character for any other. Behind the payload, the
chosen character is right and no other is; where none was chosen, every character
meets the same rejection. -/
theorem compute_or_zeroSum (hpayload : payload ≠ "") (h : IsTarget alphabet) (a : Algorithm) :
    ∃ result, compute (.text payload) (.algorithm a) (.text alphabet) =
        ⟨[String.ofList (code payload.toList)], result⟩ ∧
      (a = .verhoeff ∨ a = .sha256 → ∃ c ∈ alphabet.toList, result = .ok c) ∧
      (a = .luhn ∨ a = .isin →
        (∀ c ∈ code payload.toList, c = '0') ∧ result = .error (.input .zeroSum) ∨
          (∃ c ∈ code payload.toList, c ≠ '0') ∧ ∃ c ∈ alphabet.toList, result = .ok c) ∧
      ∀ c, isValid (.text (payload.push c)) (.algorithm a) (.text alphabet) =
        ⟨[String.ofList (code payload.toList)], result.map (· == c)⟩ := by
  have hasked := asked_of_isTarget hpayload h a
  have hne : payload.toList ≠ [] := by simpa using hpayload
  have hcases := compute_cases_of_isTarget a hne h
  refine ⟨_, by rw [← hasked], ?_, ?_, ?_⟩
  · intro ha
    have hnot : ¬ a.Rejects (code payload.toList) := by
      rcases ha with rfl | rfl
      · exact Algorithm.not_rejects_verhoeff _
      · exact Algorithm.not_rejects_sha256 _
    exact (hcases.resolve_right fun hr => hnot hr.2).1
  · intro ha
    rcases hcases with ⟨hchosen, hnot⟩ | ⟨hrejected, -, hzeros⟩
    · refine Or.inr ⟨?_, hchosen⟩
      by_contra hall
      push Not at hall
      exact hnot ⟨ha, hall⟩
    · exact Or.inl ⟨hzeros, hrejected⟩
  · intro c
    rw [isValid_push c hpayload, hasked]

/-- A payload of the character with code point zero has the code of the digit
zero: Luhn rejects it, with any character behind it, and Verhoeff does not. -/
theorem compute_or_zeroSum_nul : IsTarget "abc" ∧
    compute (.text "\x00") (.algorithm .luhn) (.text "abc") =
      ⟨["0"], .error (.input .zeroSum)⟩ ∧
    isValid (.text "\x00b") (.algorithm .luhn) (.text "abc") =
      ⟨["0"], .error (.input .zeroSum)⟩ ∧
    ∃ c ∈ "abc".toList,
      compute (.text "\x00") (.algorithm .verhoeff) (.text "abc") = ⟨["0"], .ok c⟩ := by
  have htarget : IsTarget "abc" := ⟨⟨'a', by decide, by decide⟩, by decide⟩
  have hcode : code "\x00".toList = ['0'] :=
    (code_singleton rfl).trans (Natural.write_of_lt (by decide))
  have hnul : "\x00" ≠ "" := by decide
  obtain ⟨luhn, hluhn, -, hrejected, hvalid⟩ := compute_or_zeroSum hnul htarget .luhn
  obtain ⟨verhoeff, hverhoeff, hchosen, -⟩ := compute_or_zeroSum hnul htarget .verhoeff
  have hzero : ¬ ∃ c ∈ code "\x00".toList, c ≠ '0' := by
    rw [hcode]
    simp
  obtain ⟨-, rfl⟩ := (hrejected (Or.inl rfl)).resolve_right fun h => hzero h.1
  obtain ⟨c, hc, rfl⟩ := hchosen (Or.inl rfl)
  rw [hcode] at hluhn hverhoeff hvalid
  exact ⟨htarget, hluhn, hvalid 'b', c, hc, hverhoeff⟩

end CheckDigit
end ChronoId
