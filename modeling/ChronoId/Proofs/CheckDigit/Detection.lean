/-
# Slips that a check digit shows

Somebody reads a decimal code that ends with its check digit, and takes one
digit for another or two neighbours in the wrong order. With Verhoeff's check
digit what was read is never valid. With Luhn's it is valid only after a zero
and a nine have changed places. Luhn's check digit also rejects what was read,
instead of finding it invalid, if nothing but zeros is left in front of the
check digit, and that takes a change of a digit.

Key definitions: `CheckDigit.verdict`.
Key theorems: `CheckDigit.verdict_verhoeff`, `CheckDigit.verdict_luhn`,
`CheckDigit.verhoeff_detects`, `CheckDigit.luhn_detects`.
-/
import ChronoId.Proofs.CheckDigit.Luhn

namespace ChronoId
namespace CheckDigit

variable {v : String} {cs : List Char}

/-! ### Verdicts on decimal codes -/

/-- The verdict on a text that is to end with its check digit, one of the ten
digits. -/
def verdict (a : Algorithm) (v : String) : Except Error Bool :=
  (isValid (.text v) (.algorithm a) (.text "0123456789")).result

/-- The last digit of a code is compared with the last digit of the number that
the algorithm finds for the others. -/
theorem verdict_digits (a : Algorithm) {ds : List Nat} {d : Nat} (hne : ds ≠ [])
    (hds : ∀ e ∈ ds, e < 10) (hd : d < 10) :
    verdict a (String.ofList ((ds ++ [d]).map Text.asciiDigit)) =
      (a.number (ds.map Text.asciiDigit)).map fun k => decide (k % 10 = d) := by
  have hne' : ds.map Text.asciiDigit ≠ [] := by simpa using hne
  have hcode : code (ds.map Text.asciiDigit) = ds.map Text.asciiDigit :=
    if_pos (List.all_eq_true.mpr
      (List.forall_mem_map.mpr fun e he => Text.isDigit_asciiDigit (hds e he)))
  rw [verdict, List.map_append, List.map_singleton, isValid_concat _ hne',
    compute_decimal a (by rwa [String.toList_ofList]), String.toList_ofList, hcode]
  cases a.number (ds.map Text.asciiDigit) with
  | error e => rfl
  | ok k =>
    refine congrArg Except.ok (decide_eq_decide.mpr ⟨fun h => ?_, congrArg Text.asciiDigit⟩)
    exact Text.asciiDigit_inj (Nat.mod_lt k (by norm_num)) hd h

/-- Only a text with room for a check character is valid. -/
theorem two_le_length_of_verdict {a : Algorithm} (h : verdict a v = .ok true) :
    2 ≤ v.toList.length := by
  by_contra hsize
  simp only [verdict, isValid, if_pos (not_le.mp hsize)] at h
  split at h <;> cases h

theorem exists_concat {α : Type} {as : List α} (hsize : 2 ≤ as.length) :
    ∃ init last, init ≠ [] ∧ as = init ++ [last] := by
  rcases List.eq_nil_or_concat as with rfl | ⟨init, last, rfl⟩
  · cases hsize
  · refine ⟨init, last, ?_, List.concat_eq_append⟩
    rintro rfl
    exact absurd hsize (by simp)

/-- With Verhoeff's check digit every code of digits has a verdict: it is valid
if it is a checked code. -/
theorem verdict_verhoeff (hcs : ∀ c ∈ cs, c.isDigit = true) (hsize : 2 ≤ cs.length) :
    ∃ valid, verdict .verhoeff (String.ofList cs) = .ok valid ∧
      (valid = true ↔ Verhoeff.Checked cs) := by
  obtain ⟨es, hes, rfl⟩ := Text.exists_digits hcs
  rw [List.length_map] at hsize
  obtain ⟨ds, d, hne, rfl⟩ := exists_concat hsize
  obtain ⟨hds, hd⟩ : (∀ e ∈ ds, e < 10) ∧ d < 10 := by
    simpa only [List.forall_mem_append, List.forall_mem_singleton] using hes
  have hlt := Verhoeff.inverse_lt
    (Verhoeff.product_lt 1 fun e he => hds e (List.mem_reverse.mp he))
  refine ⟨decide (Verhoeff.inverse (Verhoeff.product 1 ds.reverse) = d), ?_, ?_⟩
  · rw [verdict_digits .verhoeff hne hds hd, Algorithm.number, Verhoeff.checkDigit_digits hne hds,
      Except.map, Nat.mod_eq_of_lt hlt]
  · rw [decide_eq_true_iff, List.map_append, List.map_singleton,
      Verhoeff.checked_concat_iff hne hds hd, Verhoeff.checkDigit_digits hne hds, Except.ok.injEq]

/-- With Luhn's check digit a code of digits is rejected if there are only zeros
in front of its last digit, and otherwise is valid if its sum is a multiple of
ten. -/
theorem verdict_luhn {es : List Nat} (hes : ∀ e ∈ es, e < 10) (hsize : 2 ≤ es.length) :
    verdict .luhn (String.ofList (es.map Text.asciiDigit)) =
      if ∀ e ∈ es.dropLast, e = 0 then .error (.input .zeroSum)
      else .ok (decide (Mod10.total es % 10 = 0)) := by
  obtain ⟨ds, d, hne, rfl⟩ := exists_concat hsize
  obtain ⟨hds, hd⟩ : (∀ e ∈ ds, e < 10) ∧ d < 10 := by
    simpa only [List.forall_mem_append, List.forall_mem_singleton] using hes
  rw [verdict_digits .luhn hne hds hd, Algorithm.number, Mod10.luhn_digits hne hds,
    Mod10.checkDigit_verdict hd, List.dropLast_concat]

theorem total_of_verdict_luhn {es : List Nat} (hes : ∀ e ∈ es, e < 10) (hsize : 2 ≤ es.length)
    (h : verdict .luhn (String.ofList (es.map Text.asciiDigit)) = .ok true) :
    Mod10.total es % 10 = 0 := by
  rw [verdict_luhn hes hsize] at h
  split at h
  · cases h
  · exact of_decide_eq_true (Except.ok.inj h)

section Luhn

variable {as bs : List Nat} {a b : Nat}

/-- No digit can be taken for another. -/
theorem verdict_luhn_substituted (hes : ∀ e ∈ as ++ a :: bs, e < 10) (hb : b < 10)
    (hsize : 2 ≤ (as ++ a :: bs).length) (hsum : Mod10.total (as ++ a :: bs) % 10 = 0)
    (hne : b ≠ a) :
    verdict .luhn (String.ofList ((as ++ b :: bs).map Text.asciiDigit)) =
      if ((as ++ b :: bs).map Text.asciiDigit).dropLast.all (· == '0') then
        .error (.input .zeroSum)
      else .ok false := by
  simp only [List.forall_mem_append, List.forall_mem_cons] at hes
  have hdigits : ∀ e ∈ as ++ b :: bs, e < 10 :=
    List.forall_mem_append.mpr ⟨hes.1, List.forall_mem_cons.mpr ⟨hb, hes.2.2⟩⟩
  have hsum' : Mod10.total (as ++ b :: bs) % 10 ≠ 0 := fun hsum' =>
    hne (Mod10.total_substituted hb hes.2.1 (hsum'.trans hsum.symm))
  have hzero := Algorithm.forall_asciiDigit_eq_zero_iff fun e he =>
    hdigits e (List.mem_of_mem_dropLast he)
  rw [verdict_luhn hdigits (by simpa using hsize), decide_eq_false hsum', ← List.map_dropLast]
  simp only [List.all_eq_true, beq_iff_eq, hzero]

/-- Only a zero and a nine can change places. -/
theorem verdict_luhn_swapped (hes : ∀ e ∈ as ++ a :: b :: bs, e < 10)
    (hsize : 2 ≤ (as ++ a :: b :: bs).length) (hsum : Mod10.total (as ++ a :: b :: bs) % 10 = 0)
    (hne : a ≠ b) :
    verdict .luhn (String.ofList ((as ++ b :: a :: bs).map Text.asciiDigit)) =
      .ok (decide (a = 0 ∧ b = 9 ∨ a = 9 ∧ b = 0)) := by
  simp only [List.forall_mem_append, List.forall_mem_cons] at hes
  obtain ⟨has, ha, hb, hbs⟩ := hes
  have hdigits : ∀ e ∈ as ++ b :: a :: bs, e < 10 := by
    simp only [List.forall_mem_append, List.forall_mem_cons]
    exact ⟨has, hb, ha, hbs⟩
  have hsum' : Mod10.total (as ++ b :: a :: bs) % 10 = 0 ↔ a = 0 ∧ b = 9 ∨ a = 9 ∧ b = 0 :=
    calc Mod10.total (as ++ b :: a :: bs) % 10 = 0
      _ ↔ Mod10.total (as ++ a :: b :: bs) % 10 = Mod10.total (as ++ b :: a :: bs) % 10 := by
        rw [hsum, eq_comm]
      _ ↔ a = b ∨ a = 0 ∧ b = 9 ∨ a = 9 ∧ b = 0 := Mod10.total_swapped ha hb
      _ ↔ a = 0 ∧ b = 9 ∨ a = 9 ∧ b = 0 := or_iff_right hne
  rw [verdict_luhn hdigits (by simpa using hsize),
    if_neg fun hz => hne (Mod10.eq_of_swapped_zeros ha hb hsum hz), decide_eq_decide.mpr hsum']

end Luhn

/-! ### Slips -/

/-- What is read instead of a code that is valid with Verhoeff's check digit is
not valid: not after one of its digits has been changed, and not after two
neighbours that are different have been swapped. -/
theorem verhoeff_detects (hv : ∀ c ∈ v.toList, c.isDigit = true)
    (h : verdict .verhoeff v = .ok true) :
    (∀ as a bs b, v.toList = as ++ a :: bs → b.isDigit = true → b ≠ a →
      verdict .verhoeff (String.ofList (as ++ b :: bs)) = .ok false) ∧
    (∀ as a b bs, v.toList = as ++ a :: b :: bs → a ≠ b →
      verdict .verhoeff (String.ofList (as ++ b :: a :: bs)) = .ok false) := by
  have hsize := two_le_length_of_verdict h
  have hchecked : Verhoeff.Checked v.toList := by
    obtain ⟨valid, hvalid, hiff⟩ := verdict_verhoeff hv hsize
    rw [String.ofList_toList, h] at hvalid
    exact hiff.mp (Except.ok.inj hvalid).symm
  constructor
  · intro as a bs b hsplit hb hne
    rw [hsplit] at hv hsize hchecked
    simp only [List.forall_mem_append, List.forall_mem_cons] at hv
    have hdigits : ∀ c ∈ as ++ b :: bs, c.isDigit = true :=
      List.forall_mem_append.mpr ⟨hv.1, List.forall_mem_cons.mpr ⟨hb, hv.2.2⟩⟩
    obtain ⟨valid, hvalid, hiff⟩ := verdict_verhoeff hdigits (by simpa using hsize)
    rw [hvalid, Bool.eq_false_iff.mpr fun hvalid =>
      hne ((hiff.mp hvalid).eq_of_substituted hchecked)]
  · intro as a b bs hsplit hne
    rw [hsplit] at hv hsize hchecked
    simp only [List.forall_mem_append, List.forall_mem_cons] at hv
    have hdigits : ∀ c ∈ as ++ b :: a :: bs, c.isDigit = true := by
      simp only [List.forall_mem_append, List.forall_mem_cons]
      exact ⟨hv.1, hv.2.2.1, hv.2.1, hv.2.2.2⟩
    obtain ⟨valid, hvalid, hiff⟩ := verdict_verhoeff hdigits (by simpa using hsize)
    rw [hvalid, Bool.eq_false_iff.mpr fun hvalid => hne (hchecked.eq_of_swapped (hiff.mp hvalid))]

/-- Of 236 the check digit is 3. A nine for the six is noticed, and so is the six
in front of the three. -/
theorem verhoeff_detects_236 :
    verdict .verhoeff "2363" = .ok true ∧ verdict .verhoeff "2393" = .ok false ∧
      verdict .verhoeff "2633" = .ok false := by
  have h : verdict .verhoeff "2363" = .ok true := rfl
  obtain ⟨hsubstituted, hswapped⟩ := verhoeff_detects (List.all_eq_true.mp rfl) h
  exact ⟨h, hsubstituted ['2', '3'] '6' ['3'] '9' rfl rfl (by decide),
    hswapped ['2'] '3' '6' ['3'] rfl (by decide)⟩

/-- What is read instead of a code that is valid with Luhn's check digit is
never valid after one of its digits has been changed: it is rejected if that
leaves only zeros in front of the check digit. After two neighbours that are
different have been swapped it is valid if they are zero and nine, and only
then. -/
theorem luhn_detects (hv : ∀ c ∈ v.toList, c.isDigit = true)
    (h : verdict .luhn v = .ok true) :
    (∀ as a bs b, v.toList = as ++ a :: bs → b.isDigit = true → b ≠ a →
      verdict .luhn (String.ofList (as ++ b :: bs)) =
        if (as ++ b :: bs).dropLast.all (· == '0') then .error (.input .zeroSum)
        else .ok false) ∧
    (∀ as a b bs, v.toList = as ++ a :: b :: bs → a ≠ b →
      verdict .luhn (String.ofList (as ++ b :: a :: bs)) =
        .ok (decide (a = '0' ∧ b = '9' ∨ a = '9' ∧ b = '0'))) := by
  obtain ⟨es, hes, heq⟩ := Text.exists_digits hv
  have hsize : 2 ≤ es.length := by
    have := two_le_length_of_verdict h
    rwa [heq, List.length_map] at this
  have hsum : Mod10.total es % 10 = 0 := by
    rw [← String.ofList_toList (s := v), heq] at h
    exact total_of_verdict_luhn hes hsize h
  constructor
  · intro as a bs b hsplit hb hne
    obtain ⟨ds, rest, rfl, rfl, hrest⟩ := List.map_eq_append_iff.mp (heq.symm.trans hsplit)
    obtain ⟨d, es, rfl, rfl, rfl⟩ := List.map_eq_cons_iff.mp hrest
    obtain ⟨b, hb', rfl⟩ := Text.exists_asciiDigit hb
    rw [← List.map_cons, ← List.map_append,
      verdict_luhn_substituted hes hb' hsize hsum fun h => hne (congrArg _ h)]
  · intro as a b bs hsplit hne
    obtain ⟨ds, rest, rfl, rfl, hrest⟩ := List.map_eq_append_iff.mp (heq.symm.trans hsplit)
    obtain ⟨d, rest, rfl, rfl, hlast⟩ := List.map_eq_cons_iff.mp hrest
    obtain ⟨e, es, rfl, rfl, rfl⟩ := List.map_eq_cons_iff.mp hlast
    rw [← List.map_cons, ← List.map_cons, ← List.map_append,
      verdict_luhn_swapped hes hsize hsum fun h => hne (congrArg _ h)]
    simp only [List.forall_mem_append, List.forall_mem_cons] at hes
    have hnine : ∀ d < 10, Text.asciiDigit d = '9' ↔ d = 9 := by decide
    simp only [Text.asciiDigit_eq_zero_iff hes.2.1, Text.asciiDigit_eq_zero_iff hes.2.2.1,
      hnine d hes.2.1, hnine e hes.2.2.1]

/-- Of 109 the check digit is 9. A two for the one is noticed, and so is the zero
in front of the one, but not the nine in front of the zero. Of 1 the check digit
is 8, and a zero for the one is rejected. -/
theorem luhn_detects_109 :
    verdict .luhn "1099" = .ok true ∧ verdict .luhn "2099" = .ok false ∧
      verdict .luhn "0199" = .ok false ∧ verdict .luhn "1909" = .ok true ∧
      verdict .luhn "18" = .ok true ∧ verdict .luhn "08" = .error (.input .zeroSum) := by
  have h : verdict .luhn "1099" = .ok true := rfl
  have h' : verdict .luhn "18" = .ok true := rfl
  obtain ⟨hsubstituted, hswapped⟩ := luhn_detects (List.all_eq_true.mp rfl) h
  obtain ⟨hsubstituted', -⟩ := luhn_detects (List.all_eq_true.mp rfl) h'
  exact ⟨h, hsubstituted [] '1' ['0', '9', '9'] '2' rfl rfl (by decide),
    hswapped [] '1' '0' ['9', '9'] rfl (by decide), hswapped ['1'] '0' '9' ['9'] rfl (by decide),
    h', hsubstituted' [] '1' ['8'] '0' rfl rfl (by decide)⟩

end CheckDigit
end ChronoId
