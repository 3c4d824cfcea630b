/-
# Every value has an answer

Decoding answers any value, with an identifier or with none, and so does asking
whether it is one. With none there is one line for debugging, which says why,
and with an identifier there is no line. It does not matter who made the
encoder, as long as it refuses what it cannot write or read.

Key theorems: `Codec.refuses_of_build`, `Codec.decode_answers`.
-/
import ChronoId.Proofs.Codec.RoundTrip

namespace ChronoId
namespace Codec

variable {c : Codec}

/-- Nobody's encoder but the caller's own can fail otherwise than by refusing. -/
theorem refuses_of_build [Host] {source : Settings.Source} {given : Option Encoder}
    {shared : Option Instant} (h : (build source given shared).result = .ok c)
    (hgiven : ∀ e ∈ given, e.Refuses) : c.encoder.Refuses := by
  cases given with
  | none =>
    obtain ⟨n, hn⟩ := exists_uses_of_build h
    exact hn.refuses
  | some e =>
    obtain rfl : e = c.encoder := Except.ok.inj (parts_of_build h).2
    exact hgiven _ rfl

/-- Asking whether a value is an identifier leaves the lines of decoding it. -/
theorem isValid_of_decode_eq {v : Value} {o : Option Identifier} {events : List Event}
    (h : c.decode v = ⟨.ok o, events⟩) : c.isValid v = ⟨.ok o.isSome, events⟩ := by
  unfold isValid
  rw [h]
  show Logged.mk (.ok o.isSome) (events ++ []) = _
  rw [List.append_nil]

/-- Decoding ends for every value. If the value is an identifier, that comes
back and nothing is logged; otherwise there is no identifier, and one line for
debugging gives the reason. Asking for validity gives the verdict, with the
same lines. -/
theorem decode_answers [Host] {source : Settings.Source} {given : Option Encoder}
    {shared : Option Instant} {c : Codec} (h : (build source given shared).result = .ok c)
    (hgiven : ∀ e ∈ given, e.Refuses) (v : Value) :
    (∃ y, v = .text y.id ∧ c.decode v = ⟨.ok (some y), []⟩ ∧ c.isValid v = ⟨.ok true, []⟩) ∨
      ∃ why, c.decodeValue v = .error why ∧ c.decode v = ⟨.ok none, [.notDecoded why]⟩ ∧
        c.isValid v = ⟨.ok false, [.notDecoded why]⟩ ∧
        (Event.notDecoded why).line = "DEBUG ID can't be decoded: " ++ why.message := by
  rcases decode_cases (refuses_of_build h hgiven) v with ⟨y, hv, hy⟩ | ⟨why, hwhy, hnone⟩
  · exact Or.inl ⟨y, hv, hy, isValid_of_decode_eq hy⟩
  · exact Or.inr ⟨why, hwhy, hnone, isValid_of_decode_eq hnone, rfl⟩

section Ample

attribute [local instance] Host.ample

/-- The default codec takes an identifier of its own, and of a number it says
that it is too short. -/
theorem decode_answers_default : ∃ c y,
    (build .defaults none (some .start)).result = .ok c ∧
      c.decode (.text y.id) = ⟨.ok (some y), []⟩ ∧
      c.isValid (.text y.id) = ⟨.ok true, []⟩ ∧
      c.decode (.int 7) = ⟨.ok none, [.notDecoded (.input (.identifierTooShort 9))]⟩ := by
  obtain ⟨c, hc, hsettings, htimestamps, hn⟩ := exists_build_defaults .start
  have hwidth : c.layout.width = 9 := congrArg (·.width) htimestamps
  obtain ⟨x, -, hx⟩ := exists_createAt_default (s := 7) (t := .start) (by decide) hn hsettings
    htimestamps (by decide) (by decide) (by decide)
  have hanswers := decode_answers hc (fun e he => nomatch he)
  refine ⟨c, ⟨x, .start, 7⟩, hc, ?_⟩
  rcases hanswers (.text x) with ⟨y, -, hy, hvalid⟩ | ⟨why, -, hnone, -⟩
  · rw [hy] at hx
    cases hx
    refine ⟨hy, hvalid, ?_⟩
    rcases hanswers (.int 7) with ⟨_, htext, -⟩ | ⟨why, hwhy, hnone, -⟩
    · cases htext
    · have hshort : c.decodeValue (.int 7) = .error (.input (.identifierTooShort 9)) := by
        show Except.error (Error.showing c.layout.width (.identifierTooShort c.layout.width)) = _
        rw [hwidth, Error.showing_of_lt (by decide +kernel)]
      cases hwhy.symm.trans hshort
      exact hnone
  · rw [hnone] at hx
    cases hx

end Ample

end Codec
end ChronoId
