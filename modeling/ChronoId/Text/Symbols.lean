/-
# Lists of symbols

Tests on the symbols of an alphabet: that no symbol is there twice, and that
they stand in ascending order of their code points.

Key definitions: `Symbols.distinct`, `Symbols.ascending`.
Key theorems: `Symbols.distinct_iff`, `Symbols.ascending_iff`.
-/

namespace ChronoId
namespace Symbols

/-- Whether no symbol is there twice. -/
def distinct {α : Type} [DecidableEq α] : List α → Bool
  | [] => true
  | c :: rest => !rest.contains c && distinct rest

/-- Whether each symbol is below the next. -/
def ascending : List Char → Bool
  | [] => true
  | [_] => true
  | c :: d :: rest => decide (c < d) && ascending (d :: rest)

theorem distinct_iff {α : Type} [DecidableEq α] (cs : List α) : distinct cs = true ↔ cs.Nodup := by
  induction cs with
  | nil => simp [distinct]
  | cons c rest ih => simp [distinct, ih]

theorem lt_of_ascending {c d : Char} : ∀ {rest : List Char}, ascending (c :: rest) = true →
    d ∈ rest → c < d
  | [], _, hd => by simp at hd
  | e :: rest, h, hd => by
    simp only [ascending, Bool.and_eq_true, decide_eq_true_eq] at h
    rcases List.mem_cons.mp hd with rfl | hd
    · exact h.1
    · exact Char.lt_trans h.1 (lt_of_ascending h.2 hd)

/-- Neighbours in order put all pairs in order. -/
theorem ascending_iff (cs : List Char) : ascending cs = true ↔ cs.Pairwise (· < ·) := by
  induction cs with
  | nil => simp [ascending]
  | cons c rest ih =>
    constructor
    · intro h
      refine List.pairwise_cons.mpr ⟨fun d hd => lt_of_ascending h hd, ih.mp ?_⟩
      cases rest with
      | nil => rfl
      | cons d rest =>
        simp only [ascending, Bool.and_eq_true] at h
        exact h.2
    · intro h
      obtain ⟨hc, hrest⟩ := List.pairwise_cons.mp h
      cases rest with
      | nil => rfl
      | cons d rest =>
        simp only [ascending, Bool.and_eq_true, decide_eq_true_eq]
        exact ⟨hc d List.mem_cons_self, ih.mpr hrest⟩

end Symbols
end ChronoId
