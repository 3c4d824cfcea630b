/-
# Results of steps in a sequence

A sequence of steps succeeds if each of them does, and otherwise fails with
the first failure. What its steps leave in the journal does not matter for
that. A result crashes where it fails with an error that has no wording of its
own.

Key definitions: `Crashes`.
Key theorems: `bind_eq_ok_iff`, `bind_eq_error_iff`, `map_eq_ok_iff`,
`guard_eq_ok_iff`, `crashes_bind_iff`, `Logged.result_bind`.
-/
import ChronoId.Journal

namespace ChronoId
section Binds

variable {ε α β : Type} {x : Except ε α} {f : α → Except ε β}

theorem bind_ok {a : α} : (Except.ok a >>= f) = f a := rfl

theorem bind_eq_ok_iff {b : β} : (x >>= f) = .ok b ↔ ∃ a, x = .ok a ∧ f a = .ok b := by
  cases x with
  | error e => exact ⟨nofun, fun ⟨_, h, _⟩ => by cases h⟩
  | ok a => exact ⟨fun h => ⟨a, rfl, h⟩, fun ⟨_, h, hf⟩ => by cases h; exact hf⟩

theorem bind_eq_error_iff {e : ε} :
    (x >>= f) = .error e ↔ x = .error e ∨ ∃ a, x = .ok a ∧ f a = .error e := by
  cases x with
  | error e' =>
    show Except.error e' = Except.error e ↔ _
    exact ⟨fun h => Or.inl (Except.error.inj h ▸ rfl), fun h => h.elim
      (fun h => Except.error.inj h ▸ rfl) fun ⟨_, h, _⟩ => by cases h⟩
  | ok a =>
    exact ⟨fun h => Or.inr ⟨a, rfl, h⟩,
      fun h => h.elim nofun fun ⟨_, h, hf⟩ => by cases h; exact hf⟩

theorem map_eq_ok_iff {g : α → β} {b : β} : x.map g = .ok b ↔ ∃ a, x = .ok a ∧ g a = b := by
  cases x with
  | error e => exact ⟨nofun, fun ⟨_, h, _⟩ => by cases h⟩
  | ok a =>
    exact ⟨fun h => ⟨a, rfl, Except.ok.inj h⟩, fun ⟨_, h, hg⟩ => by cases h; exact congrArg _ hg⟩

theorem exists_of_isOk (h : x.isOk = true) : ∃ a, x = .ok a := by
  cases x with
  | error e => cases h
  | ok a => exact ⟨a, rfl⟩

end Binds

section Guards

variable {α β : Type} {P : Prop} [Decidable P] {e : Error} {f : α → Except Error β}
  {x : Except Error β}

theorem guard_eq_ok_iff {b : β} :
    (if P then (throw e : Except Error α) >>= f else x) = .ok b ↔ ¬ P ∧ x = .ok b := by
  by_cases h : P
  · rw [if_pos h]
    exact ⟨nofun, fun hx => absurd h hx.1⟩
  · rw [if_neg h]
    exact ⟨fun hx => ⟨h, hx⟩, fun hx => hx.2⟩

theorem guard_eq_error_iff {e' : Error} :
    (if P then (throw e : Except Error α) >>= f else x) = .error e' ↔
      P ∧ e = e' ∨ ¬ P ∧ x = .error e' := by
  by_cases h : P
  · rw [if_pos h]
    exact ⟨fun hx => Or.inl ⟨h, Except.error.inj hx⟩, fun hx => hx.elim
      (fun hx => hx.2 ▸ rfl) fun hx => absurd h hx.1⟩
  · rw [if_neg h]
    exact ⟨fun hx => Or.inr ⟨h, hx⟩, fun hx => hx.elim (fun hx => absurd hx.1 h) fun hx => hx.2⟩

end Guards

/-- A result is an error that has no wording. -/
def Crashes {α : Type} (x : Except Error α) (e : Error) : Prop := x = .error e ∧ e.isOwn = false

section Crashes

variable {α β : Type} {x : Except Error α} {f : α → Except Error β} {e e' : Error}

theorem not_crashes_ok (a : α) : ¬ Crashes (.ok a) e := nofun

theorem not_crashes_of_isOwn (h : e'.isOwn = true) : ¬ Crashes (.error e' : Except Error α) e := by
  rintro ⟨he, hown⟩
  rw [Except.error.inj he, hown] at h
  cases h

theorem crashes_error_iff (h : e'.isOwn = false) :
    Crashes (.error e' : Except Error α) e ↔ e = e' :=
  ⟨fun hcrash => (Except.error.inj hcrash.1).symm, fun he => ⟨by rw [he], he ▸ h⟩⟩

theorem crashes_map_iff {g : α → β} : Crashes (x.map g) e ↔ Crashes x e := by
  cases x with
  | ok a => exact iff_of_false (not_crashes_ok _) (not_crashes_ok a)
  | error e' => simp only [Crashes, Except.map, Except.error.injEq]

theorem crashes_bind_iff :
    Crashes (x >>= f) e ↔ Crashes x e ∨ ∃ a, x = .ok a ∧ Crashes (f a) e := by
  simp only [Crashes, bind_eq_error_iff, or_and_right, ← exists_and_right, and_assoc]

end Crashes

/-! ### Results beside a journal -/

namespace Logged

variable {α β : Type}

theorem result_bind (x : Logged α) (f : α → Logged β) :
    (x >>= f).result = x.result >>= fun a => (f a).result := by
  obtain ⟨result, events⟩ := x
  cases result <;> rfl

theorem result_liftM (x : Except Error α) : (liftM x : Logged α).result = x := rfl

theorem result_pure (a : α) : (pure a : Logged α).result = .ok a := rfl

end Logged

end ChronoId
