/-
# Reading the fields of dates and times

A field is read back from what was written of it, together with what stands
behind it.

Key theorems: `Field.read?_write`.
-/
import ChronoId.Proofs.CheckDigit.Digits
import ChronoId.Time.Field

namespace ChronoId
namespace Field

theorem readAfter?_digits {ds : List Nat} (h : ∀ d ∈ ds, d < 10) (n : Nat) (rest : List Char) :
    readAfter? ds.length n (ds.map Text.asciiDigit ++ rest) =
      some (n * 10 ^ ds.length + Positional.value 10 ds, rest) := by
  induction ds generalizing n with
  | nil => simp [readAfter?, Positional.value_nil]
  | cons d ds ih =>
    have hd : Text.asciiDigit? (Text.asciiDigit d) = some d :=
      Text.asciiDigit?_asciiDigit (h d List.mem_cons_self)
    have hvalue : (n * 10 + d) * 10 ^ ds.length + Positional.value 10 ds =
        n * 10 ^ (ds.length + 1) + Positional.value 10 (d :: ds) := by
      rw [Positional.value_cons]
      ring
    rw [List.map_cons, List.cons_append, List.length_cons, readAfter?, hd]
    show readAfter? ds.length (n * 10 + d) (ds.map Text.asciiDigit ++ rest) = _
    rw [ih (fun e he => h e (List.mem_cons_of_mem _ he)), hvalue]

/-- A field is its digits with zeros in front. -/
theorem write_eq_map (width n : Nat) : write width n =
    (List.replicate (width - (Positional.digits 10 n).length) 0 ++ Positional.digits 10 n).map
      Text.asciiDigit := by
  rw [List.map_append, List.map_replicate, write, Natural.write, List.length_map]
  rfl

/-- A field that has room for its number consists of that many digits. -/
theorem exists_digits_of_write {width n : Nat} (hwidth : 0 < width) (hn : n < 10 ^ width) :
    ∃ ds : List Nat, write width n = ds.map Text.asciiDigit ∧ ds.length = width ∧
      (∀ d ∈ ds, d < 10) ∧ Positional.value 10 ds = n := by
  have hfits : (Positional.digits 10 n).length ≤ width :=
    (Positional.length_digits_le_iff (by norm_num) hwidth).mpr hn
  refine ⟨_, write_eq_map width n, ?_, ?_, ?_⟩
  · rw [List.length_append, List.length_replicate]
    omega
  · intro d hd
    rcases List.mem_append.mp hd with hd | hd
    · rw [List.eq_of_mem_replicate hd]
      norm_num
    · exact Positional.digits_lt (by norm_num) d hd
  · rw [Positional.value_replicate_append, Positional.value_digits]

/-- A field that has room for its number is read back. -/
theorem read?_write {width n : Nat} (hwidth : 0 < width) (hn : n < 10 ^ width) (rest : List Char) :
    read? width (write width n ++ rest) = some (n, rest) := by
  obtain ⟨ds, hwrite, hlength, hlt, hvalue⟩ := exists_digits_of_write hwidth hn
  have hread := readAfter?_digits hlt 0 rest
  rw [hlength, hvalue, Nat.zero_mul, Nat.zero_add] at hread
  rw [hwrite]
  exact hread

end Field
end ChronoId
