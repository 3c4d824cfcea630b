/-
# The journal

A call may leave lines in a journal beside its result: that an encoder is
ready, that an identifier cannot be decoded, that a timestamp did not survive
exactly. A logged computation carries its lines in order, also beside an
error, and the lines of a sequence of steps are those of its steps in turn.

Key definitions: `Event`, `Event.line`, `Logged`.
Key theorems: `Logged.bind_of_error`, `Logged.bind_events_ok`.
-/
import ChronoId.Fault

namespace ChronoId

/-- Something that is worth a line. -/
inductive Event where
  | numeralReady (radix : Nat) (alphabet largest : String)
  | notDecoded (why : Error)
  | subsecondsAltered (limit : Nat) (given decoded : Instant)
  | driftExceeded (id : String) (given decoded : Instant) (limit : Nat)

namespace Event

/-- The line of an event, after its level. -/
def line : Event → String
  | .numeralReady radix alphabet largest =>
    "DEBUG Radix: " ++ Integer.text radix ++ " (alphabet: " ++ Text.quote alphabet
      ++ "), max. value encoded: " ++ Text.quote largest ++ " ("
      ++ Integer.text largest.length ++ " chars)"
  | .notDecoded why => "DEBUG ID can't be decoded: " ++ why.message
  | .subsecondsAltered limit given decoded =>
    "DEBUG Subseconds altered after encoding (limit " ++ Integer.text limit ++ "ms): "
      ++ Instant.text given ++ " -> " ++ Instant.text decoded
  | .driftExceeded id given decoded limit =>
    "ERROR Generated ID " ++ Text.quote id ++ " decodes incorrectly (timestamp): "
      ++ Instant.text given ++ " -> " ++ Instant.text decoded ++ " - delta exceeds "
      ++ Integer.text limit ++ "ms"

/-- Whether the event is worth more than a line for debugging. -/
def isError : Event → Bool
  | .driftExceeded .. => true
  | _ => false

end Event

/-- A result or an error, with the events on the way to it. -/
structure Logged (α : Type) where
  result : Except Error α
  events : List Event

namespace Logged

variable {α β : Type}

/-- A result that leaves no line. -/
def ofExcept (result : Except Error α) : Logged α := ⟨result, []⟩

/-- Leaves a line. -/
def note (event : Event) : Logged Unit := ⟨.ok (), [event]⟩

/-- The step `f` after `x`, unless that failed. -/
def andThen (x : Logged α) (f : α → Logged β) : Logged β :=
  match x.result with
  | .ok a => ⟨(f a).result, x.events ++ (f a).events⟩
  | .error e => ⟨.error e, x.events⟩

instance : Monad Logged where
  pure a := ⟨.ok a, []⟩
  bind := andThen

instance : MonadLift (Except Error) Logged where
  monadLift := ofExcept

/-- Fails without a line. -/
def fail (e : Error) : Logged α := ⟨.error e, []⟩

/-- The steps of a sequence may be grouped in any way, and a step that does
nothing leaves no line. -/
instance : LawfulMonad Logged := LawfulMonad.mk' Logged
  (by
    intro α x
    obtain ⟨result, events⟩ := x
    cases result <;> simp [Functor.map, andThen])
  (by
    intro α β a f
    simp [bind, pure, andThen])
  (by
    intro α β γ x f g
    obtain ⟨result, events⟩ := x
    cases result with
    | error e => simp [bind, andThen]
    | ok a =>
      simp only [bind, andThen]
      cases (f a).result <;> simp)

/-- After an error no step is taken. -/
theorem bind_of_error {x : Logged α} {e : Error} (f : α → Logged β) (h : x.result = .error e) :
    (x >>= f) = ⟨.error e, x.events⟩ := by
  simp [bind, andThen, h]

/-- The events of two steps are those of the first and then the second. -/
theorem bind_events_ok {x : Logged α} {a : α} (f : α → Logged β) (h : x.result = .ok a) :
    (x >>= f).events = x.events ++ (f a).events := by
  simp [bind, andThen, h]

end Logged
end ChronoId
