/-
# What Verhoeff's check digit detects

The ten symmetries of a pentagon are a group: the table of products is
associative and every symmetry can be undone, from both sides. A code is
checked if the product of its permuted digits is the identity, so two checked
codes that differ in one place agree there too, since a permutation takes
different digits to different ones. They cannot differ in the order of two
neighbours either: the products of two digits and of the same two the other
way round are different in every place.

Key definitions: `Verhoeff.product`, `Verhoeff.Checked`.
Key theorems: `Verhoeff.multiply_assoc`, `Verhoeff.accumulate_digits`,
`Verhoeff.checked_concat_iff`, `Verhoeff.Checked.eq_of_substituted`,
`Verhoeff.Checked.eq_of_swapped`.
-/
import ChronoId.CheckDigit.Verhoeff
import ChronoId.Proofs.CheckDigit.Digits

namespace ChronoId
namespace Verhoeff

/-! ### The group -/

theorem multiply_lt : ∀ {a}, a < 10 → ∀ {b}, b < 10 → multiply a b < 10 := by decide

theorem inverse_lt : ∀ {a}, a < 10 → inverse a < 10 := by decide

theorem zero_multiply : ∀ {a}, a < 10 → multiply 0 a = a := by decide

theorem multiply_zero : ∀ {a}, a < 10 → multiply a 0 = a := by decide

theorem inverse_multiply : ∀ {a}, a < 10 → multiply (inverse a) a = 0 := by decide

theorem multiply_inverse : ∀ {a}, a < 10 → multiply a (inverse a) = 0 := by decide

theorem multiply_assoc : ∀ {a}, a < 10 → ∀ {b}, b < 10 → ∀ {c}, c < 10 →
    multiply (multiply a b) c = multiply a (multiply b c) := by
  decide +kernel

/-- What comes after the same symmetry can be told from the product. -/
theorem multiply_left_cancel {a b c : Nat} (ha : a < 10) (hb : b < 10) (hc : c < 10)
    (h : multiply a b = multiply a c) : b = c := by
  have hi := inverse_lt ha
  calc b = multiply (multiply (inverse a) a) b := by rw [inverse_multiply ha, zero_multiply hb]
    _ = multiply (multiply (inverse a) a) c := by
        rw [multiply_assoc hi ha hb, h, ← multiply_assoc hi ha hc]
    _ = c := by rw [inverse_multiply ha, zero_multiply hc]

/-- What comes before the same symmetry can be told from the product. -/
theorem multiply_right_cancel {a b c : Nat} (ha : a < 10) (hb : b < 10) (hc : c < 10)
    (h : multiply a c = multiply b c) : a = b := by
  have hi := inverse_lt hc
  calc a = multiply a (multiply c (inverse c)) := by rw [multiply_inverse hc, multiply_zero ha]
    _ = multiply b (multiply c (inverse c)) := by
        rw [← multiply_assoc ha hc hi, h, multiply_assoc hb hc hi]
    _ = b := by rw [multiply_inverse hc, multiply_zero hb]

theorem multiply_eq_zero_iff {a b : Nat} (ha : a < 10) (hb : b < 10) :
    multiply a b = 0 ↔ inverse b = a := by
  have hi := inverse_lt hb
  rw [← inverse_multiply hb]
  exact ⟨fun h => (multiply_right_cancel ha hi hb h).symm, fun h => by rw [h]⟩

/-! ### The permutations -/

theorem permute_mod (place d : Nat) : permute (place % 8) d = permute place d := by
  rw [permute, permute, Nat.mod_mod]

theorem permute_lt {place d : Nat} (hd : d < 10) : permute place d < 10 := by
  have h : ∀ p < 8, ∀ d < 10, permute p d < 10 := by decide
  rw [← permute_mod]
  exact h _ (Nat.mod_lt _ (by norm_num)) _ hd

theorem permute_inj {place d e : Nat} (hd : d < 10) (he : e < 10)
    (h : permute place d = permute place e) : d = e := by
  have hinj : ∀ p < 8, ∀ d < 10, ∀ e < 10, permute p d = permute p e → d = e := by decide +kernel
  rw [← permute_mod, ← permute_mod place e] at h
  exact hinj _ (Nat.mod_lt _ (by norm_num)) _ hd _ he h

/-- No two different digits can change places unnoticed. -/
theorem permute_swap {place d e : Nat} (hd : d < 10) (he : e < 10)
    (h : multiply (permute place d) (permute (place + 1) e) =
      multiply (permute place e) (permute (place + 1) d)) : d = e := by
  have hswap : ∀ p < 8, ∀ d < 10, ∀ e < 10, multiply (permute p d) (permute (p + 1) e) =
      multiply (permute p e) (permute (p + 1) d) → d = e := by
    decide +kernel
  have hsucc : ∀ d, permute (place + 1) d = permute (place % 8 + 1) d := by
    intro d
    rw [← permute_mod, ← permute_mod (place % 8 + 1), Nat.mod_add_mod]
  rw [hsucc, hsucc, ← permute_mod place d, ← permute_mod place e] at h
  exact hswap _ (Nat.mod_lt _ (by norm_num)) _ hd _ he h

/-! ### Products of digits -/

/-- The product of digits, each permuted according to its place, the first in
`place`. -/
def product : (place : Nat) → List Nat → Nat
  | _, [] => 0
  | place, d :: ds => multiply (permute place d) (product (place + 1) ds)

theorem product_lt : ∀ (place : Nat) {ds : List Nat}, (∀ d ∈ ds, d < 10) → product place ds < 10
  | _, [], _ => (by decide : 0 < 10)
  | place, d :: ds, h => by
    rw [List.forall_mem_cons] at h
    exact multiply_lt (permute_lt h.1) (product_lt (place + 1) h.2)

theorem product_append : ∀ (place : Nat) {ds es : List Nat}, (∀ d ∈ ds, d < 10) →
    (∀ e ∈ es, e < 10) →
    product place (ds ++ es) = multiply (product place ds) (product (place + ds.length) es)
  | place, [], es, _, he => (zero_multiply (product_lt place he)).symm
  | place, d :: ds, es, hd, he => by
    rw [List.forall_mem_cons] at hd
    rw [List.cons_append, product, product, product_append (place + 1) hd.2 he, List.length_cons,
      multiply_assoc (permute_lt hd.1) (product_lt _ hd.2) (product_lt _ he), Nat.add_assoc,
      Nat.add_comm 1]

section Cancel

variable {place a b : Nat} {ds es fs : List Nat}

/-- Whatever stands in front, the products of two lists can be told apart. -/
theorem product_left_cancel (hd : ∀ d ∈ ds, d < 10) (he : ∀ e ∈ es, e < 10) (hf : ∀ f ∈ fs, f < 10)
    (h : product place (ds ++ es) = product place (ds ++ fs)) :
    product (place + ds.length) es = product (place + ds.length) fs := by
  rw [product_append place hd he, product_append place hd hf] at h
  exact multiply_left_cancel (product_lt _ hd) (product_lt _ he) (product_lt _ hf) h

/-- The product tells a digit from any other in its place. -/
theorem product_substituted (hd : ∀ d ∈ ds, d < 10) (ha : a < 10) (hb : b < 10)
    (he : ∀ e ∈ es, e < 10) (h : product place (ds ++ a :: es) = product place (ds ++ b :: es)) :
    a = b := by
  have htail := product_left_cancel hd (List.forall_mem_cons.mpr ⟨ha, he⟩)
    (List.forall_mem_cons.mpr ⟨hb, he⟩) h
  exact permute_inj ha hb
    (multiply_right_cancel (permute_lt ha) (permute_lt hb) (product_lt _ he) htail)

/-- The product tells two different neighbours from the same two the other way
round. -/
theorem product_swapped (hd : ∀ d ∈ ds, d < 10) (ha : a < 10) (hb : b < 10) (he : ∀ e ∈ es, e < 10)
    (h : product place (ds ++ a :: b :: es) = product place (ds ++ b :: a :: es)) : a = b := by
  have htail := product_left_cancel hd
    (List.forall_mem_cons.mpr ⟨ha, List.forall_mem_cons.mpr ⟨hb, he⟩⟩)
    (List.forall_mem_cons.mpr ⟨hb, List.forall_mem_cons.mpr ⟨ha, he⟩⟩) h
  have hrest := product_lt (place + ds.length + 1 + 1) he
  rw [product, product, product, product, ← multiply_assoc (permute_lt ha) (permute_lt hb) hrest,
    ← multiply_assoc (permute_lt hb) (permute_lt ha) hrest] at htail
  exact permute_swap ha hb
    (multiply_right_cancel (multiply_lt (permute_lt ha) (permute_lt hb))
      (multiply_lt (permute_lt hb) (permute_lt ha)) hrest htail)

end Cancel

/-! ### Codes -/

/-- A code of digits has the product of its digits. -/
theorem accumulate_digits : ∀ {sum : Nat} (place : Nat) {ds : List Nat}, sum < 10 →
    (∀ d ∈ ds, d < 10) →
    accumulate sum place (ds.map Text.asciiDigit) = .ok (multiply sum (product place ds))
  | sum, _, [], hs, _ => congrArg Except.ok (multiply_zero hs).symm
  | sum, place, d :: ds, hs, h => by
    rw [List.forall_mem_cons] at h
    have hd : permute place d < 10 := permute_lt h.1
    rw [List.map_cons, accumulate, Mod10.decimalValue_eq_ok_iff.mpr ⟨h.1, rfl⟩, product,
      ← multiply_assoc hs hd (product_lt _ h.2)]
    exact accumulate_digits (place + 1) (multiply_lt hs hd) h.2

/-- Only codes of digits have a product. -/
theorem isDigit_of_accumulate : ∀ {sum place k : Nat} {code : List Char},
    accumulate sum place code = .ok k → ∀ c ∈ code, c.isDigit = true
  | _, _, _, [], _ => fun _ hc => absurd hc List.not_mem_nil
  | sum, place, k, c :: code, h => by
    rw [accumulate] at h
    cases hd : Mod10.decimalValue c with
    | error e =>
      rw [hd] at h
      cases h
    | ok d =>
      rw [hd] at h
      obtain ⟨hlt, rfl⟩ := Mod10.decimalValue_eq_ok_iff.mp hd
      exact List.forall_mem_cons.mpr ⟨Text.isDigit_asciiDigit hlt, isDigit_of_accumulate h⟩

/-- A code that ends with its check digit. -/
def Checked (code : List Char) : Prop := accumulate 0 0 code.reverse = .ok 0

theorem checked_digits_iff {ds : List Nat} (h : ∀ d ∈ ds, d < 10) :
    Checked (ds.map Text.asciiDigit) ↔ product 0 ds.reverse = 0 := by
  have hr : ∀ d ∈ ds.reverse, d < 10 := fun d hd => h d (List.mem_reverse.mp hd)
  rw [Checked, ← List.map_reverse, accumulate_digits 0 (by norm_num) hr,
    zero_multiply (product_lt 0 hr), Except.ok.injEq]

/-- A checked code consists of digits. -/
theorem Checked.isDigit {code : List Char} (h : Checked code) : ∀ c ∈ code, c.isDigit = true :=
  fun c hc => isDigit_of_accumulate h c (List.mem_reverse.mpr hc)

theorem checkDigit_of_ne_nil {code : List Char} (h : code ≠ []) :
    checkDigit code = (accumulate 0 1 code.reverse).map inverse := by
  have hempty : code.isEmpty = false := by simpa using h
  rw [checkDigit, hempty]
  cases accumulate 0 1 code.reverse <;> rfl

theorem checkDigit_digits {ds : List Nat} (hne : ds ≠ []) (h : ∀ d ∈ ds, d < 10) :
    checkDigit (ds.map Text.asciiDigit) = .ok (inverse (product 1 ds.reverse)) := by
  have hr : ∀ d ∈ ds.reverse, d < 10 := fun d hd => h d (List.mem_reverse.mp hd)
  rw [checkDigit_of_ne_nil (by simpa using hne), ← List.map_reverse,
    accumulate_digits 1 (by norm_num) hr, zero_multiply (product_lt 1 hr)]
  rfl

/-- The check digit of a code is the one digit that makes it a checked one. -/
theorem checked_concat_iff {ds : List Nat} {d : Nat} (hne : ds ≠ []) (h : ∀ e ∈ ds, e < 10)
    (hd : d < 10) : Checked (ds.map Text.asciiDigit ++ [Text.asciiDigit d]) ↔
      checkDigit (ds.map Text.asciiDigit) = .ok d := by
  have hr : ∀ e ∈ ds.reverse, e < 10 := fun e he => h e (List.mem_reverse.mp he)
  have happend : ∀ e ∈ ds ++ [d], e < 10 := by
    simpa only [List.forall_mem_append, List.forall_mem_singleton] using ⟨h, hd⟩
  have hpermute : permute 0 d = d := (by decide : ∀ d < 10, permute 0 d = d) d hd
  rw [checkDigit_digits hne h, ← List.map_singleton (f := Text.asciiDigit), ← List.map_append,
    checked_digits_iff happend, List.reverse_concat, product, hpermute,
    multiply_eq_zero_iff hd (product_lt _ hr), Except.ok.injEq]

/-! ### What is detected -/

/-- Two checked codes that differ in one place at most are the same. -/
theorem Checked.eq_of_substituted {as bs : List Char} {a b : Char} (h : Checked (as ++ a :: bs))
    (h' : Checked (as ++ b :: bs)) : a = b := by
  have hdigits := h.isDigit
  have hdigits' := h'.isDigit
  simp only [List.forall_mem_append, List.forall_mem_cons] at hdigits hdigits'
  obtain ⟨ds, hds, rfl⟩ := Text.exists_digits hdigits.1
  obtain ⟨d, hd, rfl⟩ := Text.exists_asciiDigit hdigits.2.1
  obtain ⟨e, he, rfl⟩ := Text.exists_asciiDigit hdigits'.2.1
  obtain ⟨es, hes, rfl⟩ := Text.exists_digits hdigits.2.2
  have hlt : ∀ d < 10, ∀ f ∈ ds ++ d :: es, f < 10 := fun d hd =>
    List.forall_mem_append.mpr ⟨hds, List.forall_mem_cons.mpr ⟨hd, hes⟩⟩
  rw [← List.map_cons, ← List.map_append] at h h'
  rw [checked_digits_iff (hlt d hd)] at h
  rw [checked_digits_iff (hlt e he)] at h'
  simp only [List.reverse_append, List.reverse_cons, List.append_assoc,
    List.singleton_append] at h h'
  rw [product_substituted (by simpa using hes) hd he (by simpa using hds) (h.trans h'.symm)]

/-- A character that both codes have before the last one need not be written to
compare them. -/
theorem Checked.eq_of_substituted_beside {stamp stamp' as bs : List Char} {a b z e e' : Char}
    (h : Checked (stamp ++ [z, e])) (h' : Checked (stamp' ++ [z, e']))
    (hx : stamp ++ [e] = as ++ a :: bs) (hx' : stamp' ++ [e'] = as ++ b :: bs) : a = b := by
  rcases List.eq_nil_or_concat bs with rfl | ⟨bs, last, rfl⟩
  · obtain ⟨rfl, hlast⟩ := List.append_inj' hx rfl
    obtain ⟨rfl, hlast'⟩ := List.append_inj' hx' rfl
    cases hlast
    cases hlast'
    rw [List.append_cons] at h h'
    exact h.eq_of_substituted h'
  · rw [List.concat_eq_append, ← List.cons_append, ← List.append_assoc] at hx hx'
    obtain ⟨rfl, hlast⟩ := List.append_inj' hx rfl
    obtain ⟨rfl, hlast'⟩ := List.append_inj' hx' rfl
    cases hlast
    cases hlast'
    rw [List.append_assoc, List.cons_append] at h h'
    exact h.eq_of_substituted h'

/-- Two checked codes that differ in the order of two neighbours at most are the
same. -/
theorem Checked.eq_of_swapped {as bs : List Char} {a b : Char} (h : Checked (as ++ a :: b :: bs))
    (h' : Checked (as ++ b :: a :: bs)) : a = b := by
  have hdigits := h.isDigit
  simp only [List.forall_mem_append, List.forall_mem_cons] at hdigits
  obtain ⟨ds, hds, rfl⟩ := Text.exists_digits hdigits.1
  obtain ⟨d, hd, rfl⟩ := Text.exists_asciiDigit hdigits.2.1
  obtain ⟨e, he, rfl⟩ := Text.exists_asciiDigit hdigits.2.2.1
  obtain ⟨es, hes, rfl⟩ := Text.exists_digits hdigits.2.2.2
  have hlt : ∀ d < 10, ∀ e < 10, ∀ f ∈ ds ++ d :: e :: es, f < 10 := fun d hd e he =>
    List.forall_mem_append.mpr ⟨hds, List.forall_mem_cons.mpr ⟨hd, List.forall_mem_cons.mpr ⟨he, hes⟩⟩⟩
  rw [← List.map_cons, ← List.map_cons, ← List.map_append] at h h'
  rw [checked_digits_iff (hlt d hd e he)] at h
  rw [checked_digits_iff (hlt e he d hd)] at h'
  simp only [List.reverse_append, List.reverse_cons, List.append_assoc,
    List.singleton_append] at h h'
  rw [product_swapped (by simpa using hes) he hd (by simpa using hds) (h.trans h'.symm)]

end Verhoeff
end ChronoId
