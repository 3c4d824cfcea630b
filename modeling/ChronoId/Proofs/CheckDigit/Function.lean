/-
# Check digits from a function of the caller's

A caller may bring a function that finds the integer. It is asked once, about
the code of the payload, and what it answers in ASCII may have a sign and any
zeros in front. The absolute value chooses the character of the alphabet, except
that an answer of more digits than the reader takes is no integer to the engine.

Key definitions: `Integer.Sign`, `Integer.Spelling`.
Key theorems: `Integer.readAscii?_spelling`, `CheckDigit.readAnswer?_toUTF8`,
`CheckDigit.compute_function`.
-/
import ChronoId.Proofs.CheckDigit.Engine

namespace ChronoId

/-! ### Spellings of an integer -/

namespace Integer

/-- What may stand in front of the digits. -/
inductive Sign where
  | none
  | plus
  | minus

/-- A sign or none, and one or more digits. -/
structure Spelling where
  sign : Sign
  digits : List Nat
  ne_nil : digits ≠ []
  lt_ten : ∀ d ∈ digits, d < 10

/-- A sign as it is written. -/
def Sign.text : Sign → List Char
  | .none => []
  | .plus => ['+']
  | .minus => ['-']

namespace Spelling

variable (w : Spelling)

/-- The characters of a spelling. -/
def text : List Char := w.sign.text ++ w.digits.map Text.asciiDigit

/-- The integer that is spelled. -/
def toInt : Int :=
  match w.sign with
  | .minus => -(Positional.value 10 w.digits : Int)
  | _ => Positional.value 10 w.digits

/-- The same digit one or more times. -/
def repeated (d count : Nat) (hd : d < 10) (hcount : 0 < count) : Spelling where
  sign := .none
  digits := List.replicate count d
  ne_nil := by
    rw [ne_eq, List.replicate_eq_nil_iff]
    omega
  lt_ten := fun e he => List.eq_of_mem_replicate he ▸ hd

theorem text_ne_nil : w.text ≠ [] := by
  simp [text, w.ne_nil]

theorem toNat_lt {c : Char} (hc : c ∈ w.text) : c.toNat < 128 := by
  rcases List.mem_append.mp hc with hsign | hdigit
  · cases h : w.sign <;> simp [h, Sign.text] at hsign <;> rw [hsign] <;> decide
  · obtain ⟨d, hd, rfl⟩ := List.mem_map.mp hdigit
    have hlt := w.lt_ten d hd
    rw [Text.toNat_asciiDigit hlt]
    omega

end Spelling

/-! ### Reading -/

theorem moreDigits_digits : ∀ {ds : List Nat}, (∀ d ∈ ds, d < 10) →
    moreDigits (ds.map Text.asciiDigit) = (ds, [])
  | [], _ => rfl
  | d :: ds, h => by
    rw [List.forall_mem_cons] at h
    rw [List.map_cons, moreDigits.eq_def]
    simp only [Text.asciiDigit?_asciiDigit h.1, moreDigits_digits h.2]

/-- Digits are a number unless there are too many of them. -/
theorem readUnsigned?_digits {ds : List Nat} (hne : ds ≠ []) (h : ∀ d ∈ ds, d < 10) :
    readUnsigned? (ds.map Text.asciiDigit) =
      if ds.length ≤ maxDigits then some (Positional.value 10 ds) else none := by
  have hrun : digitRun? (ds.map Text.asciiDigit) = some (ds, []) := by
    obtain ⟨d, ds, rfl⟩ := List.exists_cons_of_ne_nil hne
    rw [List.forall_mem_cons] at h
    rw [List.map_cons, digitRun?, Text.asciiDigit?_asciiDigit h.1, moreDigits_digits h.2]
    rfl
  simp only [readUnsigned?, hrun, List.all_nil, Bool.true_and, decide_eq_true_eq]

/-- No blank and no sign is a digit. -/
theorem readAscii?_digits {ds : List Nat} (hne : ds ≠ []) (h : ∀ d ∈ ds, d < 10) :
    readAscii? (ds.map Text.asciiDigit) =
      (readUnsigned? (ds.map Text.asciiDigit)).map Int.ofNat := by
  have hplain : ∀ d < 10, Text.isAsciiSpace (Text.asciiDigit d) = false ∧
      Text.asciiDigit d ≠ '-' ∧ Text.asciiDigit d ≠ '+' := by
    decide
  obtain ⟨d, ds, rfl⟩ := List.exists_cons_of_ne_nil hne
  obtain ⟨hspace, hminus, hplus⟩ := hplain d (h d List.mem_cons_self)
  rw [readAscii?, List.map_cons, List.dropWhile_cons_of_neg (by simp [hspace])]
  split
  · next heq => exact absurd (List.cons.inj heq).1 hminus
  · next heq => exact absurd (List.cons.inj heq).1 hplus
  · rfl

/-- An integer is read from any of its spellings that has not too many digits. -/
theorem readAscii?_spelling (w : Spelling) :
    readAscii? w.text = if w.digits.length ≤ maxDigits then some w.toInt else none := by
  have hread := readUnsigned?_digits w.ne_nil w.lt_ten
  unfold Spelling.text Spelling.toInt
  cases w.sign with
  | none =>
    show readAscii? (w.digits.map Text.asciiDigit) = _
    rw [readAscii?_digits w.ne_nil w.lt_ten, hread]
    split <;> rfl
  | plus =>
    show (readUnsigned? (w.digits.map Text.asciiDigit)).map Int.ofNat = _
    rw [hread]
    split <;> rfl
  | minus =>
    show (readUnsigned? (w.digits.map Text.asciiDigit)).map (fun n => -(n : Int)) = _
    rw [hread]
    split <;> rfl

end Integer

namespace CheckDigit

/-! ### Bytes -/

variable {cs : List Char} {payload alphabet : String}

/-- ASCII characters are written in UTF-8 as themselves. -/
theorem toList_toUTF8 (h : ∀ c ∈ cs, c.toNat < 128) :
    (String.ofList cs).toUTF8.data.toList = cs.map fun c => UInt8.ofNat c.toNat := by
  have hchar : ∀ c ∈ cs, String.utf8EncodeChar c = [UInt8.ofNat c.toNat] := by
    intro c hc
    have hsize : c.utf8Size = 1 := by
      rw [Char.utf8Size_eq_one_iff, UInt32.le_iff_toNat_le]
      exact Nat.le_of_lt_succ (h c hc)
    rw [String.utf8EncodeChar_eq_singleton hsize]
    rfl
  rw [String.toUTF8_eq_toByteArray, String.toByteArray_ofList, List.utf8Encode,
    List.data_toByteArray, List.map_eq_flatMap]
  exact List.flatMap_congr hchar

/-- An answer in ASCII is read as the text that it is. -/
theorem readAnswer?_toUTF8 (h : ∀ c ∈ cs, c.toNat < 128) :
    readAnswer? (String.ofList cs).toUTF8 = Integer.readAscii? cs := by
  have hbyte : ∀ c ∈ cs, (UInt8.ofNat c.toNat).toNat = c.toNat := by
    intro c hc
    have := h c hc
    rw [UInt8.toNat_ofNat']
    omega
  have hascii : (cs.map fun c => UInt8.ofNat c.toNat).all (· < 128) = true := by
    simp only [List.all_map, List.all_eq_true, Function.comp_apply, decide_eq_true_eq]
    intro c hc
    rw [UInt8.lt_iff_toNat_lt, hbyte c hc]
    exact h c hc
  have hback : (cs.map fun c => UInt8.ofNat c.toNat).map (fun b => Char.ofNat b.toNat) = cs := by
    rw [List.map_map]
    refine (List.map_congr_left fun c hc => ?_).trans (List.map_id' cs)
    show Char.ofNat (UInt8.ofNat c.toNat).toNat = c
    rw [hbyte c hc, Char.ofNat_toNat]
  rw [readAnswer?, toList_toUTF8 h, if_pos hascii, hback]

/-! ### The engine -/

/-- A function that answers with a spelling gives the integer that is spelled,
if the digits are not too many. -/
theorem ask_function {code : List Char} {f : ByteArray → ByteArray} {w : Integer.Spelling}
    (hf : f (String.ofList code).toUTF8 = (String.ofList w.text).toUTF8) :
    ask (.function f) code = ⟨[String.ofList code],
      if w.digits.length ≤ Integer.maxDigits then .ok w.toInt
      else .error (.input (.checkDigitNotInteger (String.ofList w.text).toUTF8))⟩ := by
  have hempty : (String.ofList w.text).toUTF8.isEmpty = false := by
    have hsize : (String.ofList w.text).toUTF8.data.toList.length ≠ 0 := by
      rw [toList_toUTF8 fun c hc => w.toNat_lt hc, List.length_map]
      exact fun hzero => w.text_ne_nil (List.length_eq_zero_iff.mp hzero)
    exact beq_false_of_ne hsize
  have hread : readAnswer? (String.ofList w.text).toUTF8 =
      if w.digits.length ≤ Integer.maxDigits then some w.toInt else none := by
    rw [readAnswer?_toUTF8 fun c hc => w.toNat_lt hc, Integer.readAscii?_spelling]
  unfold ask
  simp only [hf, hempty, hread, Bool.false_eq_true, ↓reduceIte]
  by_cases h : w.digits.length ≤ Integer.maxDigits
  · simp only [if_pos h]
  · simp only [if_neg h]

/-- A payload matters only through its code. -/
theorem compute_congr {payload' : String} (hpayload : payload ≠ "") (hpayload' : payload' ≠ "")
    (h : code payload'.toList = code payload.toList) (method : Method) (alphabet : Value) :
    compute (.text payload') method alphabet = compute (.text payload) method alphabet := by
  have hempty : payload.toList.isEmpty = false := by simpa using hpayload
  have hempty' : payload'.toList.isEmpty = false := by simpa using hpayload'
  simp only [compute, hempty, hempty', computeText, h]

/-- A function is asked once, about the code of the payload, and the payload
matters in no other way. Where its answer spells an integer with digits that are
not too many, the absolute value modulo the size of the alphabet chooses the
character. An answer of more digits is refused as no integer. -/
theorem compute_function (hpayload : payload ≠ "") (h : IsTarget alphabet)
    {f : ByteArray → ByteArray} {w : Integer.Spelling}
    (hf : f (String.ofList (code payload.toList)).toUTF8 = (String.ofList w.text).toUTF8) :
    (∃ result, compute (.text payload) (.function f) (.text alphabet) =
        ⟨[String.ofList (code payload.toList)], result⟩ ∧
      (w.digits.length ≤ Integer.maxDigits →
        ∃ c, alphabet.toList[w.toInt.natAbs % alphabet.length]? = some c ∧ result = .ok c) ∧
      (Integer.maxDigits < w.digits.length →
        result = .error (.input (.checkDigitNotInteger (String.ofList w.text).toUTF8)))) ∧
    ∀ payload', payload' ≠ "" → code payload'.toList = code payload.toList →
      compute (.text payload') (.function f) (.text alphabet) =
        compute (.text payload) (.function f) (.text alphabet) := by
  refine ⟨?_, fun payload' hpayload' hcode => compute_congr hpayload hpayload' hcode _ _⟩
  obtain ⟨t, hsymbols, ht⟩ := compute_of_isTarget hpayload h (.function f)
  rw [ht, computeText, ask_function hf]
  refine ⟨_, rfl, ?_, ?_⟩
  · intro hsize
    rw [if_pos hsize]
    refine ⟨t.symbol w.toInt.natAbs, ?_, rfl⟩
    rw [← String.length_toList, ← hsymbols]
    exact List.getElem?_eq_getElem _
  · intro hsize
    rw [if_neg (not_le.mpr hsize)]
    rfl

/-- Of three characters minus ten chooses the second one, for the digit one as
for the character of that code point. An answer of 4301 ones is refused. -/
theorem compute_function_minusTen : IsTarget "abc" ∧
    compute (.text "1") (.function fun _ => "-10".toUTF8) (.text "abc") = ⟨["1"], .ok 'b'⟩ ∧
    compute (.text "\x01") (.function fun _ => "-10".toUTF8) (.text "abc") = ⟨["1"], .ok 'b'⟩ ∧
    compute (.text "1") (.function fun _ => (String.ofList (List.replicate 4301 '1')).toUTF8)
        (.text "abc") =
      ⟨["1"], .error (.input (.checkDigitNotInteger
        (String.ofList (List.replicate 4301 '1')).toUTF8))⟩ := by
  have htarget : IsTarget "abc" := ⟨⟨'a', by decide, by decide⟩, by decide⟩
  have hcode : code "\x01".toList = code "1".toList :=
    (code_singleton rfl).trans (Natural.write_of_lt (by decide))
  let minusTen : Integer.Spelling := ⟨.minus, [1, 0], by decide, by decide⟩
  let ones := Integer.Spelling.repeated 1 4301 (by decide) (by decide)
  have hones : ones.text = List.replicate 4301 '1' := List.map_replicate
  have hsize : ones.digits.length = 4301 := List.length_replicate
  have hten : minusTen.toInt = -10 := rfl
  have hone : "1" ≠ "" := by decide
  obtain ⟨⟨result, hresult, hchosen, -⟩, hsame⟩ := compute_function
    (f := fun _ => "-10".toUTF8) (w := minusTen) hone htarget rfl
  obtain ⟨c, hc, rfl⟩ := hchosen (by decide)
  obtain ⟨⟨refusal, hrefusal, -, hlong⟩, -⟩ := compute_function
    (f := fun _ => (String.ofList (List.replicate 4301 '1')).toUTF8) (w := ones) hone htarget
    (by rw [hones])
  obtain rfl := hlong (hsize ▸ by decide)
  rw [hten] at hc
  cases hc
  refine ⟨htarget, hresult, (hsame _ (by decide) hcode).trans hresult, ?_⟩
  rw [hrefusal, hones]
  rfl

end CheckDigit
end ChronoId
