/-
# Identifiers of a codec in JSON

A codec neither creates nor decodes a sequence beyond its limit, so the JSON
text of its identifiers is read back as what they are made of: the text, the
instant in the form that settings hold theirs, and the sequence.

Key theorems: `Codec.sequence_le_of_decode`, `Codec.sequence_le_of_create`,
`Codec.json_lossless`.
-/
import ChronoId.Proofs.Codec.Encode
import ChronoId.Proofs.Json.Written
import ChronoId.Proofs.Time.Rfc3339

namespace ChronoId
namespace Codec

variable {c : Codec} {v t : Value} {now : DateTime} {x : Identifier}

theorem sequence_le_of_decode (h : (c.decode v).result = .ok (some x)) :
    x.sequence ≤ Settings.maxSequence := by
  have hdecode : c.decodeValue v = .ok x := by
    unfold decode at h
    split at h
    · next y hy =>
      obtain rfl : y = x := Option.some.inj (Except.ok.inj h)
      exact hy
    · split at h <;> cases h
  cases v with
  | text s =>
    obtain ⟨_, number, -, -, -, -, -, hle, -, hsequence⟩ := decodeText_eq_ok_iff_checks.mp hdecode
    rw [hsequence]
    exact hle
  | _ => cases hdecode

theorem sequence_le_of_create (h : (c.create v t now).result = .ok x) :
    x.sequence ≤ Settings.maxSequence := by
  rw [create_result] at h
  rcases sequenceOf_cases v with ⟨s, hs, -, hsequence⟩ | ⟨e, he, -⟩
  · rw [hsequence, bind_ok] at h
    obtain ⟨u, -, h⟩ := bind_eq_ok_iff.mp h
    rw [createAt_result] at h
    obtain ⟨id, -, h⟩ := bind_eq_ok_iff.mp h
    obtain ⟨o, -, h⟩ := bind_eq_ok_iff.mp h
    cases o with
    | none => cases h
    | some y =>
      obtain ⟨_, -, h⟩ := bind_eq_ok_iff.mp h
      cases h
      exact hs
  · rw [he] at h
    cases h

/-- The JSON text of an identifier that a codec created or decoded is read back as
its text, its sequence and a timestamp that settings would take for the same
instant of UTC. -/
theorem json_lossless [Host] (h : (∃ v t now, (c.create v t now).result = .ok x) ∨
    ∃ v, (c.decode v).result = .ok (some x)) :
    ∃ stamp, Json.read x.json = .ok (.object [("id", .text x.id), ("timestamp", .text stamp),
        ("sequence", .int x.sequence)]) ∧
      SettingsFields.epochOf "custom_epoch" (.text stamp) =
        .ok (.moment (DateTime.ofInstant x.timestamp)) := by
  have hle : x.sequence ≤ Settings.maxSequence := by
    obtain ⟨v, t, now, h⟩ | ⟨v, h⟩ := h
    · exact sequence_le_of_create h
    · exact sequence_le_of_decode h
  refine ⟨String.ofList (Instant.writeJson x.timestamp),
    Identifier.read_json (le_trans hle (by decide)), ?_⟩
  rw [SettingsFields.epochOf, String.toList_ofList, Rfc3339.read?_writeJson]

section Ample

attribute [local instance] Host.ample

/-- An alphabet may hold what has to be escaped, and what is not ASCII. -/
theorem json_lossless_escapes : ∃ c x,
    (build (.members [("alphabet", .text "\x01\"\\é"), ("timestamp_width", .int 25),
      ("custom_epoch", .text "2024-01-01T00:00:00Z")]) none none).result = .ok c ∧
    (c.create (.int 7) .null ⟨⟨63839664000500000, by decide⟩, none⟩).result = .ok x ∧
    ∃ stamp, Json.read x.json = .ok (.object [("id", .text x.id), ("timestamp", .text stamp),
        ("sequence", .int x.sequence)]) ∧
      SettingsFields.epochOf "custom_epoch" (.text stamp) =
        .ok (.moment (DateTime.ofInstant x.timestamp)) := by
  obtain ⟨x, hx⟩ := exists_of_isOk (x := (build (.members [("alphabet", .text "\x01\"\\é"),
      ("timestamp_width", .int 25), ("custom_epoch", .text "2024-01-01T00:00:00Z")]) none
      none).result >>= fun c =>
        (c.create (.int 7) .null ⟨⟨63839664000500000, by decide⟩, none⟩).result)
    (by decide +kernel)
  obtain ⟨c, hc, hx⟩ := bind_eq_ok_iff.mp hx
  exact ⟨c, x, hc, hx, json_lossless (Or.inl ⟨_, _, _, hx⟩)⟩

end Ample

end Codec
end ChronoId
