/-
# How readers are put together

A reader takes something from the front of a text and leaves the rest. Readers
look for a character and go on in one of two ways, and they follow one
another.

Key definitions: `Reader.onChar`, `Reader.andThen`.
Key theorems: `Reader.onChar_cases`, `Reader.onChar_congr`.
-/
import ChronoId.Time.Field

namespace ChronoId

variable {c : Char} {cs rest : List Char}

namespace Field

theorem expect?_cons (c : Char) (cs : List Char) : expect? c (c :: cs) = some cs := if_pos rfl

theorem expect?_eq_some_iff : expect? c cs = some rest ↔ cs = c :: rest := by
  cases cs with
  | nil => simp [expect?]
  | cons d cs => by_cases h : d = c <;> simp [expect?, h]

theorem expect?_eq_none_iff : expect? c cs = none ↔ ∀ rest, cs ≠ c :: rest := by
  simp [Option.eq_none_iff_forall_ne_some, expect?_eq_some_iff]

end Field

namespace Reader

variable {β : Type} {found found' other other' : List Char → β}

/-- What `found` makes of the text behind `c`, or what `other` makes of all of a
text that does not start with it. -/
def onChar (c : Char) (found other : List Char → β) (cs : List Char) : β :=
  match Field.expect? c cs with
  | some rest => found rest
  | none => other cs

theorem onChar_cons (c : Char) (cs : List Char) : onChar c found other (c :: cs) = found cs := by
  rw [onChar, Field.expect?_cons]

theorem onChar_of_ne (h : ∀ rest, cs ≠ c :: rest) : onChar c found other cs = other cs := by
  rw [onChar, Field.expect?_eq_none_iff.mpr h]

theorem onChar_cases (c : Char) (found other : List Char → β) (cs : List Char) :
    (∃ rest, cs = c :: rest ∧ onChar c found other cs = found rest) ∨
      onChar c found other cs = other cs := by
  by_cases h : ∃ rest, cs = c :: rest
  · obtain ⟨rest, rfl⟩ := h
    exact Or.inl ⟨rest, rfl, onChar_cons c rest⟩
  · exact Or.inr (onChar_of_ne fun rest hrest => h ⟨rest, hrest⟩)

theorem onChar_congr (hfound : ∀ rest, rest.length < cs.length → found rest = found' rest)
    (hother : other cs = other' cs) : onChar c found other cs = onChar c found' other' cs := by
  unfold onChar
  split
  · next rest hrest =>
    refine hfound rest ?_
    rw [Field.expect?_eq_some_iff.mp hrest, List.length_cons]
    exact Nat.lt_succ_self _
  · exact hother

/-- One reader, and what `next` makes of its result behind it. -/
def andThen {m : Type → Type} [Bind m] {α β : Type} (read : List Char → m (α × List Char))
    (next : α → List Char → m β) (cs : List Char) : m β :=
  read cs >>= fun p => next p.1 p.2

theorem andThen_congr {ε α β : Type} {read read' : List Char → Except ε (α × List Char)}
    {next next' : α → List Char → Except ε β} (hread : read cs = read' cs)
    (hnext : ∀ {a rest}, read' cs = .ok (a, rest) → next a rest = next' a rest) :
    andThen read next cs = andThen read' next' cs := by
  unfold andThen
  rw [hread]
  cases h : read' cs with
  | error e => rfl
  | ok p => exact hnext h

end Reader
end ChronoId
