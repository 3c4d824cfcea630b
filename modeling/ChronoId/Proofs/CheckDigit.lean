/-
# What the check digit algorithms reject

The engine hands every payload to an algorithm as a code of decimal digits.
Verhoeff and SHA-256 find a number for each such code, Luhn and ISIN for each
that is not all zeros: their weighted sum of digits vanishes only if every
digit does. Over a target alphabet of digits the check character is a digit.

Key definitions: `Algorithm.Rejects`, `CheckDigit.IsTarget`.
Key theorems: `CheckDigit.isDigit_of_mem_code`, `Mod10.weightedSum_eq_zero_iff`,
`Algorithm.number_cases`, `CheckDigit.compute_cases_of_isTarget`,
`CheckDigit.isValid_eq_compute`, `CheckDigit.compute_verhoeff_eq_ok_iff`.
-/
import ChronoId.CheckDigit.Engine
import ChronoId.Proofs.CheckDigit.Verhoeff
import ChronoId.Settings.Basic

namespace ChronoId

/-! ### The algorithms on codes of digits -/

/-- Whether an algorithm finds no number for a code of digits. -/
def Algorithm.Rejects (a : Algorithm) (code : List Char) : Prop :=
  (a = .luhn ∨ a = .isin) ∧ ∀ c ∈ code, c = '0'

instance (a : Algorithm) (code : List Char) : Decidable (a.Rejects code) :=
  inferInstanceAs (Decidable (_ ∧ _))

namespace Mod10

theorem weigh_eq_zero_iff (doubled : Bool) {d : Nat} : weigh doubled d = 0 ↔ d = 0 := by
  cases doubled
  · rfl
  · simp only [weigh, ↓reduceIte]
    split <;> omega

/-- The weighted sum vanishes only if every digit does. -/
theorem weightedSum_eq_zero_iff : ∀ (doubled : Bool) (ds : List Nat),
    weightedSum doubled ds = 0 ↔ ∀ d ∈ ds, d = 0
  | _, [] => by simp [weightedSum]
  | doubled, d :: ds => by
    rw [weightedSum, Nat.add_eq_zero_iff, weigh_eq_zero_iff, weightedSum_eq_zero_iff]
    simp

theorem checkDigit_cases (ds : List Nat) :
    (∃ d, checkDigit ds = .ok d) ∧ ¬ (∀ d ∈ ds, d = 0) ∨
      checkDigit ds = .error (.input .zeroSum) ∧ ∀ d ∈ ds, d = 0 := by
  have hsum := weightedSum_eq_zero_iff true ds.reverse
  simp only [List.mem_reverse] at hsum
  simp only [checkDigit]
  by_cases h : weightedSum true ds.reverse = 0
  · right
    rw [if_pos h]
    exact ⟨rfl, hsum.mp h⟩
  · left
    rw [if_neg h]
    exact ⟨⟨_, rfl⟩, fun hz => h (hsum.mpr hz)⟩

theorem mapM_decimalValue : ∀ {ds : List Nat}, (∀ d ∈ ds, d < 10) →
    (ds.map Text.asciiDigit).mapM decimalValue = .ok ds
  | [], _ => rfl
  | d :: ds, h => by
    have ih := mapM_decimalValue fun e he => h e (List.mem_cons_of_mem d he)
    have hd : decimalValue (Text.asciiDigit d) = .ok d :=
      decimalValue_eq_ok_iff.mpr ⟨h d List.mem_cons_self, rfl⟩
    rw [List.map_cons, List.mapM_cons, hd, ih]
    rfl

theorem alphanumericValue_asciiDigit {d : Nat} (hd : d < 10) :
    alphanumericValue (Text.asciiDigit d) = .ok d := by
  rw [alphanumericValue, if_pos (Text.isDigit_asciiDigit hd), Text.toNat_asciiDigit hd]
  exact congrArg Except.ok (Nat.add_sub_cancel_left 48 d)

theorem mapM_alphanumericValue : ∀ {ds : List Nat}, (∀ d ∈ ds, d < 10) →
    (ds.map Text.asciiDigit).mapM alphanumericValue = .ok ds
  | [], _ => rfl
  | d :: ds, h => by
    have ih := mapM_alphanumericValue fun e he => h e (List.mem_cons_of_mem d he)
    rw [List.map_cons, List.mapM_cons, alphanumericValue_asciiDigit (h d List.mem_cons_self), ih]
    rfl

theorem flatMap_digits : ∀ {ds : List Nat}, (∀ d ∈ ds, d < 10) →
    ds.flatMap (Positional.digits 10) = ds
  | [], _ => rfl
  | d :: ds, h => by
    rw [List.flatMap_cons, Positional.digits_of_lt (h d List.mem_cons_self),
      flatMap_digits fun e he => h e (List.mem_cons_of_mem d he), List.singleton_append]

theorem luhn_of_ne_nil {code : List Char} (h : code ≠ []) :
    luhn code = code.mapM decimalValue >>= checkDigit := by
  have hempty : code.isEmpty = false := by simpa using h
  rw [luhn, hempty]
  rfl

theorem isin_of_ne_nil {code : List Char} (h : code ≠ []) :
    isin code = code.mapM alphanumericValue >>= fun values =>
      checkDigit (values.flatMap (Positional.digits 10)) := by
  have hempty : code.isEmpty = false := by simpa using h
  rw [isin, hempty]
  rfl

theorem luhn_digits {ds : List Nat} (hne : ds ≠ []) (h : ∀ d ∈ ds, d < 10) :
    luhn (ds.map Text.asciiDigit) = checkDigit ds := by
  rw [luhn_of_ne_nil (by simpa using hne), mapM_decimalValue h]
  rfl

theorem isin_digits {ds : List Nat} (hne : ds ≠ []) (h : ∀ d ∈ ds, d < 10) :
    isin (ds.map Text.asciiDigit) = checkDigit ds := by
  rw [isin_of_ne_nil (by simpa using hne), mapM_alphanumericValue h]
  exact congrArg checkDigit (flatMap_digits h)

end Mod10

namespace Algorithm

/-- Of a text in UTF-8 an algorithm writes its number. -/
theorem compute_toUTF8 (a : Algorithm) (code : String) :
    a.compute code.toUTF8 = (a.number code.toList).map Natural.write := by
  have hread : String.fromUTF8? code.toUTF8 = some code := dif_pos code.isValidUTF8
  rw [compute, hread]

theorem compute_of_not_isValidUTF8 (a : Algorithm) {source : ByteArray}
    (h : ¬ source.IsValidUTF8) : a.compute source = .error (.input .notUtf8) := by
  have hread : String.fromUTF8? source = none := dif_neg h
  rw [compute, hread]

/-- Bytes are a text in UTF-8, or no algorithm takes them. -/
theorem exists_toUTF8_or (source : ByteArray) :
    (∃ code : String, source = code.toUTF8) ∨ ¬ source.IsValidUTF8 := by
  by_cases h : source.IsValidUTF8
  · exact Or.inl ⟨String.fromUTF8 source h, rfl⟩
  · exact Or.inr h

theorem forall_asciiDigit_eq_zero_iff {ds : List Nat} (h : ∀ d ∈ ds, d < 10) :
    (∀ c ∈ ds.map Text.asciiDigit, c = '0') ↔ ∀ d ∈ ds, d = 0 := by
  rw [List.forall_mem_map]
  exact forall₂_congr fun d hd => Text.asciiDigit_eq_zero_iff (h d hd)

theorem not_rejects_verhoeff (code : List Char) : ¬ Algorithm.verhoeff.Rejects code := by
  simp [Rejects]

theorem not_rejects_sha256 (code : List Char) : ¬ Algorithm.sha256.Rejects code := by
  simp [Rejects]

/-- For a code of digits an algorithm finds a number unless it rejects it for
its sum of zero. -/
theorem number_cases (a : Algorithm) {code : List Char} (hne : code ≠ [])
    (h : ∀ c ∈ code, c.isDigit = true) :
    (∃ k, a.number code = .ok k) ∧ ¬ a.Rejects code ∨
      a.number code = .error (.input .zeroSum) ∧ a.Rejects code := by
  obtain ⟨ds, hds, rfl⟩ := Text.exists_digits h
  have hne' : ds ≠ [] := by simpa using hne
  have hzero := forall_asciiDigit_eq_zero_iff hds
  cases a with
  | luhn =>
    simp only [number, Mod10.luhn_digits hne' hds, Rejects, hzero, true_or, true_and]
    exact Mod10.checkDigit_cases ds
  | isin =>
    simp only [number, Mod10.isin_digits hne' hds, Rejects, hzero, or_true, true_and]
    exact Mod10.checkDigit_cases ds
  | verhoeff => exact Or.inl ⟨⟨_, Verhoeff.checkDigit_digits hne' hds⟩, not_rejects_verhoeff _⟩
  | sha256 => exact Or.inl ⟨⟨_, rfl⟩, not_rejects_sha256 _⟩

end Algorithm

/-! ### The engine -/

namespace CheckDigit

/-- The algorithms are asked about decimal digits only. -/
theorem isDigit_of_mem_code {payload : List Char} : ∀ c ∈ code payload, c.isDigit = true := by
  intro c hc
  unfold code at hc
  split at hc
  · next h => exact List.all_eq_true.mp h c hc
  · obtain ⟨e, -, he⟩ := List.mem_flatMap.mp hc
    exact Natural.isDigit_of_mem_write he

theorem code_ne_nil {payload : List Char} (h : payload ≠ []) : code payload ≠ [] := by
  unfold code
  split
  · exact h
  · obtain ⟨c, cs, rfl⟩ := List.exists_cons_of_ne_nil h
    rw [List.flatMap_cons]
    exact List.append_ne_nil_of_left_ne_nil (Natural.write_ne_nil _) _

/-- A character that is no digit is coded as its code point. -/
theorem code_singleton {c : Char} (h : c.isDigit = false) : code [c] = Natural.write c.toNat := by
  simp [code, h]

/-- A text to choose check characters from: it is not blank and holds no
character twice. -/
structure IsTarget (alphabet : String) : Prop where
  exists_not_blank : ∃ c ∈ alphabet.toList, Text.isBlank c = false
  nodup : alphabet.toList.Nodup

theorem IsTarget.exists_target {alphabet : String} (h : IsTarget alphabet) :
    ∃ t : Target, Target.ofValue? (.text alphabet) = .ok t ∧ t.symbols = alphabet.toList := by
  have hblank : ¬ alphabet.toList.all Text.isBlank = true := by
    obtain ⟨c, hc, hnot⟩ := h.exists_not_blank
    intro hall
    have := List.all_eq_true.mp hall c hc
    rw [hnot] at this
    cases this
  simp only [Target.ofValue?, dif_neg hblank, dif_pos ((Symbols.distinct_iff _).mpr h.nodup)]
  exact ⟨_, rfl, rfl⟩

/-- Different digits are an alphabet to choose from. -/
theorem isTarget_of_digits {s : String} (hne : s.toList ≠ [])
    (hdigits : ∀ c ∈ s.toList, c.isDigit = true) (hdistinct : Symbols.distinct s.toList = true) :
    IsTarget s := by
  refine ⟨?_, (Symbols.distinct_iff _).mp hdistinct⟩
  obtain ⟨c, cs, hcs⟩ := List.exists_cons_of_ne_nil hne
  have hc : c ∈ s.toList := hcs ▸ List.mem_cons_self
  obtain ⟨d, hd, rfl⟩ := Text.exists_asciiDigit (hdigits c hc)
  exact ⟨_, hc, Text.isBlank_asciiDigit hd⟩

theorem Target.symbol_mem (t : Target) (n : Nat) : t.symbol n ∈ t.symbols := List.get_mem _ _

theorem compute_text (s : String) (a : Algorithm) (alphabet : Value) (hs : s.toList ≠ []) :
    (compute (.text s) (.algorithm a) alphabet).result =
      match Target.ofValue? alphabet with
      | .ok t => (a.number (code s.toList)).map t.symbol
      | .error e => .error e := by
  have hempty : s.toList.isEmpty = false := by simpa using hs
  simp only [compute, hempty, Bool.false_eq_true, ↓reduceIte]
  cases Target.ofValue? alphabet with
  | error e => rfl
  | ok t =>
    simp only [computeText, ask]
    cases a.number (code s.toList) <;> rfl

/-- The check character of a text is one of the alphabet, unless the algorithm
rejects the text's code. -/
theorem compute_cases_of_isTarget {s t : String} (a : Algorithm) (hs : s.toList ≠ [])
    (ht : IsTarget t) :
    (∃ c ∈ t.toList, (compute (.text s) (.algorithm a) (.text t)).result = .ok c) ∧
        ¬ a.Rejects (code s.toList) ∨
      (compute (.text s) (.algorithm a) (.text t)).result = .error (.input .zeroSum) ∧
        a.Rejects (code s.toList) := by
  obtain ⟨target, htarget, hsymbols⟩ := ht.exists_target
  have hcompute := compute_text s a (.text t) hs
  rw [htarget] at hcompute
  simp only [hcompute, ← hsymbols]
  rcases a.number_cases (code_ne_nil hs) isDigit_of_mem_code with ⟨⟨k, hk⟩, hr⟩ | ⟨he, hr⟩
  · left
    exact ⟨⟨_, Target.symbol_mem target k, by rw [hk]; rfl⟩, hr⟩
  · right
    exact ⟨by rw [he]; rfl, hr⟩

/-- Over an alphabet of digits the check character of a text is a digit,
unless the algorithm rejects the text's code. -/
theorem compute_cases {s t : String} (a : Algorithm) (hs : s.toList ≠ []) (hne : t.toList ≠ [])
    (hdigits : ∀ c ∈ t.toList, c.isDigit = true) (hdistinct : Symbols.distinct t.toList = true) :
    (∃ d < 10, (compute (.text s) (.algorithm a) (.text t)).result = .ok (Text.asciiDigit d)) ∧
        ¬ a.Rejects (code s.toList) ∨
      (compute (.text s) (.algorithm a) (.text t)).result = .error (.input .zeroSum) ∧
        a.Rejects (code s.toList) := by
  refine (compute_cases_of_isTarget a hs (isTarget_of_digits hne hdigits hdistinct)).imp_left ?_
  rintro ⟨⟨c, hc, hcompute⟩, hr⟩
  obtain ⟨d, hd, rfl⟩ := Text.exists_asciiDigit (hdigits c hc)
  exact ⟨⟨d, hd, hcompute⟩, hr⟩

/-- Over the ten digits the check character is the last digit of the number. -/
theorem compute_decimal {s : String} (a : Algorithm) (hs : s.toList ≠ []) :
    (compute (.text s) (.algorithm a) (.text "0123456789")).result =
      (a.number (code s.toList)).map fun k => Text.asciiDigit (k % 10) := by
  obtain ⟨⟨symbols, hpos, hnodup⟩, htarget, rfl⟩ :=
    (isTarget_of_digits (s := "0123456789") (by decide) (List.all_eq_true.mp rfl) rfl).exists_target
  have hget : ∀ d (h : d < 10), "0123456789".toList.get ⟨d, h⟩ = Text.asciiDigit d := by decide
  rw [compute_text s a _ hs, htarget]
  exact congrArg (fun f => (a.number (code s.toList)).map f)
    (funext fun k => hget (k % 10) (Nat.mod_lt _ (by norm_num)))

/-- To verify a text, the check character of all but its last one is looked for. -/
theorem isValid_eq_compute {cs : List Char} (c : Char) (hne : cs ≠ []) (method : Method)
    (alphabet : Value) : isValid (.text (String.ofList (cs ++ [c]))) method alphabet =
      ⟨(compute (.text (String.ofList cs)) method alphabet).asked,
        (compute (.text (String.ofList cs)) method alphabet).result.map (· == c)⟩ := by
  have hsize : ¬ (cs ++ [c]).length < 2 := by
    have := List.length_pos_iff.mpr hne
    simp only [List.length_append, List.length_singleton]
    omega
  simp only [isValid, String.toList_ofList, List.getLast?_concat, if_neg hsize,
    List.dropLast_concat]

/-- The last character of a text checks the ones before it if it is their check
character. -/
theorem isValid_concat {cs : List Char} (c : Char) (hne : cs ≠ []) (method : Method)
    (alphabet : Value) : (isValid (.text (String.ofList (cs ++ [c]))) method alphabet).result =
      (compute (.text (String.ofList cs)) method alphabet).result.map (· == c) :=
  congrArg Consultation.result (isValid_eq_compute c hne method alphabet)

/-- Of a text of digits, Verhoeff's check digit is the one that makes it a
checked code. -/
theorem compute_verhoeff_eq_ok_iff {s : String} {d : Nat} (hs : s.toList ≠ [])
    (hdigits : ∀ c ∈ s.toList, c.isDigit = true) (hd : d < 10) :
    (compute (.text s) (.algorithm .verhoeff) (.text "0123456789")).result =
        .ok (Text.asciiDigit d) ↔
      Verhoeff.Checked (s.toList ++ [Text.asciiDigit d]) := by
  have hcode : code s.toList = s.toList := if_pos (List.all_eq_true.mpr hdigits)
  rw [compute_decimal _ hs, hcode, Algorithm.number]
  obtain ⟨ds, hds, heq⟩ := Text.exists_digits hdigits
  have hne : ds ≠ [] := by
    rintro rfl
    exact hs heq
  have hlt : ∀ e ∈ ds.reverse, e < 10 := fun e he => hds e (List.mem_reverse.mp he)
  rw [heq, Verhoeff.checked_concat_iff hne hds hd, Verhoeff.checkDigit_digits hne hds]
  have hk := Verhoeff.inverse_lt (Verhoeff.product_lt 1 hlt)
  simp only [Except.map, Nat.mod_eq_of_lt hk, Except.ok.injEq]
  exact ⟨Text.asciiDigit_inj hk hd, congrArg Text.asciiDigit⟩

/-- Whatever the alphabet, a refusal is one of the configuration or the
input. -/
theorem compute_error {s : String} {a : Algorithm} {alphabet : Value} {e : Error}
    (hs : s.toList ≠ []) (h : (compute (.text s) (.algorithm a) alphabet).result = .error e) :
    (∃ f, e = .configuration f) ∨ ∃ f, e = .input f := by
  rw [compute_text s a alphabet hs] at h
  split at h
  · next t ht =>
    rcases a.number_cases (code_ne_nil hs) isDigit_of_mem_code with ⟨⟨k, hk⟩, -⟩ | ⟨he, -⟩
    · rw [hk] at h
      cases h
    · rw [he] at h
      exact Or.inr ⟨_, (Except.error.inj h).symm⟩
  · next e' he' =>
    left
    rw [Except.error.inj h] at he'
    unfold Target.ofValue? at he'
    split at he'
    · split at he'
      · exact ⟨_, (Except.error.inj he').symm⟩
      · split at he'
        · cases he'
        · exact ⟨_, (Except.error.inj he').symm⟩
    · exact ⟨_, (Except.error.inj he').symm⟩

end CheckDigit
end ChronoId
