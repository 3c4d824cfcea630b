/-
# Identifiers sort like what they are made of

Of two identifiers that a codec has created, the one with the smaller packed
timestamp comes first, whatever the sequences. Of two with the same packed
timestamp, the one with the smaller sequence is shorter or comes first: the
check digit is the last decimal place, so it never outweighs the sequence.
Identifiers are the same only if both are.

Key theorems: `Codec.exists_written_of_create`, `Codec.Written.lt_of_stamp_lt`,
`Codec.Written.lt_of_sequence_lt`.
-/
import ChronoId.Proofs.Codec.RoundTrip
import Mathlib.Data.String.Basic

namespace ChronoId

/-- What stands first decides, if it is of one length. -/
theorem append_lt_append_of_lt : ∀ {as bs : List Char} (cs ds : List Char), as.length = bs.length →
    as < bs → as ++ cs < bs ++ ds
  | [], [], _, _, _, h => absurd h (List.not_lt_nil [])
  | a :: as, b :: bs, cs, ds, hlen, h => by
    have hlen' : as.length = bs.length := by simpa using hlen
    rw [List.cons_append, List.cons_append, List.cons_lt_cons_iff]
    rcases List.cons_lt_cons_iff.mp h with hlt | ⟨rfl, hlt⟩
    · exact Or.inl hlt
    · exact Or.inr ⟨rfl, append_lt_append_of_lt cs ds hlen' hlt⟩

/-! ### Packed timestamps -/

namespace TimestampCodec

variable {c : TimestampCodec} {t₁ t₂ : Instant} {p₁ p₂ : Nat}

theorem pack_mono (h₁ : c.pack (DateTime.ofInstant t₁) = .ok p₁)
    (h₂ : c.pack (DateTime.ofInstant t₂) = .ok p₂) (hle : t₁.micros ≤ t₂.micros) : p₁ ≤ p₂ := by
  obtain ⟨-, rfl⟩ := pack_ofInstant_eq_ok_iff.mp h₁
  obtain ⟨-, rfl⟩ := pack_ofInstant_eq_ok_iff.mp h₂
  apply Timestamp.packMicros_mono
  exact Nat.sub_le_sub_right hle _

/-- A step of time is a step of the packed number. -/
theorem pack_lt (h₁ : c.pack (DateTime.ofInstant t₁) = .ok p₁)
    (h₂ : c.pack (DateTime.ofInstant t₂) = .ok p₂)
    (hstep : 1000000 ≤ (t₂.micros - t₁.micros) * 2 ^ c.subsecondBits) : p₁ < p₂ := by
  obtain ⟨he₁, rfl⟩ := pack_ofInstant_eq_ok_iff.mp h₁
  obtain ⟨-, rfl⟩ := pack_ofInstant_eq_ok_iff.mp h₂
  have hpos : 0 < t₂.micros - t₁.micros := by
    by_contra hzero
    rw [Nat.eq_zero_of_not_pos hzero, Nat.zero_mul] at hstep
    omega
  have hsplit : t₂.micros - c.epoch.micros =
      t₁.micros - c.epoch.micros + (t₂.micros - t₁.micros) := by omega
  apply Timestamp.packMicros_lt
  rw [hsplit, Nat.add_mul]
  omega

end TimestampCodec

namespace Codec

variable {c : Codec} {n : Numeral}

/-! ### Written texts -/

section Written

variable {x x' : String} {stamp stamp' : List Char} {s s' d d' : Nat}

/-- The smaller stamp comes first. -/
theorem Written.lt_of_stamp_lt [Host] (h : c.Uses n) (hw : c.Written n x stamp s d)
    (hw' : c.Written n x' stamp' s' d') (hlt : n.value stamp < n.value stamp') : x < x' := by
  have hlen : stamp.length = stamp'.length := hw.size.trans hw'.size.symm
  have hstamp := (n.lt_iff_value_lt h.retainsSortOrder hlen hw.symbols hw'.symbols).mpr hlt
  rw [String.lt_iff_toList_lt, hw.text, hw'.text, String.toList_ofList, String.toList_ofList]
  exact append_lt_append_of_lt _ _ hlen hstamp

/-- With one stamp, the smaller sequence is shorter or comes first. -/
theorem Written.lt_of_sequence_lt [Host] (h : c.Uses n) (hw : c.Written n x stamp s d)
    (hw' : c.Written n x' stamp s' d') (hlt : s < s') :
    x.length < x'.length ∨ x.length = x'.length ∧ x < x' := by
  -- a digit is below ten, so it cannot make up for a smaller sequence
  have hnumber : s * 10 + d < s' * 10 + d' := by
    have := hw.digit_lt
    omega
  have hle := n.length_write_mono hnumber.le
  rw [String.lt_iff_toList_lt, hw.text, hw'.text, String.length_ofList, String.length_ofList,
    String.toList_ofList, String.toList_ofList, List.length_append, List.length_append]
  rcases Nat.lt_or_eq_of_le hle with hshorter | heq
  · exact Or.inl (by omega)
  · exact Or.inr ⟨by omega,
      List.append_left_lt (n.write_lt_of_length_eq h.retainsSortOrder hnumber heq)⟩

end Written

/-! ### Created identifiers -/

/-- What was created is written, with the packed timestamp for a stamp. -/
theorem exists_written_of_create [Host] (h : c.Uses n) {v t : Value} {now : DateTime} {r : Identifier}
    (hr : (c.create v t now).result = .ok r) :
    v = .int r.sequence ∧ instantOf t now = .ok r.timestamp ∧
      ∃ p d, c.timestamps.pack (DateTime.ofInstant r.timestamp) = .ok p ∧
        c.Written n r.id (n.padded c.timestamps.width p) r.sequence d := by
  obtain ⟨hv, ht, p, d, -, hp, -, hw, -⟩ := exists_decoded_of_create h hr
  exact ⟨hv, ht, p, d, hp, hw⟩

/-- Two identifiers of a codec: their packed numbers keep the order of time and
keep apart what is a step apart; the identifiers sort by packed number, and
with the same one by length and then by sequence; and they are the same only if
packed number and sequence are. -/
theorem create_order [Host] {source : Settings.Source} {shared : Option Instant} {c : Codec}
    (h : (build source none shared).result = .ok c) {v₁ v₂ t₁ t₂ : Value} {now₁ now₂ : DateTime}
    {r₁ r₂ : Identifier} (h₁ : (c.create v₁ t₁ now₁).result = .ok r₁)
    (h₂ : (c.create v₂ t₂ now₂).result = .ok r₂) :
    (v₁ = .int r₁.sequence ∧ instantOf t₁ now₁ = .ok r₁.timestamp) ∧
    (v₂ = .int r₂.sequence ∧ instantOf t₂ now₂ = .ok r₂.timestamp) ∧
    ∃ p₁ p₂, c.timestamps.pack (DateTime.ofInstant r₁.timestamp) = .ok p₁ ∧
      c.timestamps.pack (DateTime.ofInstant r₂.timestamp) = .ok p₂ ∧
      (r₁.timestamp.micros ≤ r₂.timestamp.micros → p₁ ≤ p₂) ∧
      (1000000 ≤ (r₂.timestamp.micros - r₁.timestamp.micros) * 2 ^ c.timestamps.subsecondBits →
        p₁ < p₂) ∧
      (p₁ < p₂ → r₁.id < r₂.id) ∧
      (p₁ = p₂ → r₁.sequence < r₂.sequence →
        r₁.id.length < r₂.id.length ∨ r₁.id.length = r₂.id.length ∧ r₁.id < r₂.id) ∧
      (p₁ = p₂ → r₁.sequence < r₂.sequence → r₁.id.length = r₂.id.length → r₁.id < r₂.id) ∧
      (r₁.id = r₂.id ↔ p₁ = p₂ ∧ r₁.sequence = r₂.sequence) := by
  obtain ⟨n, hn⟩ := exists_uses_of_build h
  obtain ⟨hv₁, ht₁, p₁, d₁, hp₁, hw₁⟩ := exists_written_of_create hn h₁
  obtain ⟨hv₂, ht₂, p₂, d₂, hp₂, hw₂⟩ := exists_written_of_create hn h₂
  have hvalue₁ := n.value_padded c.timestamps.width p₁
  have hvalue₂ := n.value_padded c.timestamps.width p₂
  refine ⟨⟨hv₁, ht₁⟩, ⟨hv₂, ht₂⟩, p₁, p₂, hp₁, hp₂, TimestampCodec.pack_mono hp₁ hp₂,
    TimestampCodec.pack_lt hp₁ hp₂, ?_, ?_, ?_, ?_, ?_⟩
  · intro hlt
    refine hw₁.lt_of_stamp_lt hn hw₂ ?_
    rw [hvalue₁, hvalue₂]
    exact hlt
  · rintro rfl hlt
    exact hw₁.lt_of_sequence_lt hn hw₂ hlt
  · rintro rfl hlt hlen
    rcases hw₁.lt_of_sequence_lt hn hw₂ hlt with hshorter | ⟨-, hfirst⟩
    · exact absurd hlen hshorter.ne
    · exact hfirst
  · intro hid
    rw [hid] at hw₁
    obtain ⟨hstamp, hsequence, -⟩ := hw₁.parts_eq hw₂.size hw₂.digit_lt hw₂.text
    refine ⟨?_, hsequence⟩
    rw [← hvalue₁, hstamp, hvalue₂]
  · rintro ⟨rfl, hsequence⟩
    rw [hsequence] at hw₁
    exact hw₁.unique hw₂

section Ample

attribute [local instance] Host.ample

/-- A second later comes behind, though its sequence is smaller. -/
theorem create_order_wholeSeconds : ∃ c r₁ r₂,
    (build (.ready (Settings.wholeSeconds 9 (by decide))) none none).result = .ok c ∧
      (c.create (.int 8) (.moment ⟨.start, none⟩) ⟨.start, none⟩).result = .ok r₁ ∧
      (c.create (.int 7) (.moment ⟨⟨1000000, by decide⟩, none⟩) ⟨.start, none⟩).result = .ok r₂ ∧
      r₁.id < r₂.id := by
  obtain ⟨c, hc, hsettings, htimestamps, hn⟩ := exists_build_wholeSeconds 9 (by decide)
  have hds : c.settings.checkDigitAlphabet = .text "0123456789" :=
    congrArg (·.checkDigitAlphabet) hsettings
  have hone : Numeral.crockford.write 1 = [Numeral.crockford.symbol 1] := by
    rw [Numeral.write, Positional.digits_of_lt (by decide)]
    rfl
  have hwidth : c.timestamps.width = 9 := congrArg (·.width) htimestamps
  have he₁ : c.Encodable Numeral.crockford 8 .start 0 .start :=
    encodable_wholeSeconds hsettings htimestamps (by decide) rfl (Nat.zero_le _)
      (by rw [Numeral.write_zero]; decide)
  have he₂ : c.Encodable Numeral.crockford 7 ⟨1000000, by decide⟩ 1 ⟨1000000, by decide⟩ :=
    encodable_wholeSeconds hsettings htimestamps (by decide) rfl (by decide) (by rw [hone]; decide)
  obtain ⟨id₁, hid₁, -⟩ := he₁.createAt hn hds (zeros_le_memory hwidth (by decide) 0)
  obtain ⟨id₂, hid₂, -⟩ := he₂.createAt hn hds (zeros_le_memory hwidth (by decide) 1)
  have h₁ : (c.create (.int 8) (.moment ⟨.start, none⟩) ⟨.start, none⟩).result =
      .ok ⟨id₁, .start, 8⟩ := (create_of_ok rfl rfl).trans hid₁
  have h₂ : (c.create (.int 7) (.moment ⟨⟨1000000, by decide⟩, none⟩) ⟨.start, none⟩).result =
      .ok ⟨id₂, ⟨1000000, by decide⟩, 7⟩ := (create_of_ok rfl rfl).trans hid₂
  obtain ⟨-, -, p₁, p₂, -, -, -, hstep, horder, -⟩ := create_order hc h₁ h₂
  refine ⟨c, _, _, hc, h₁, h₂, horder (hstep ?_)⟩
  rw [htimestamps]
  exact (by decide : 1000000 ≤ (1000000 - WallTime.start.micros) * 2 ^ 0)

end Ample

end Codec
end ChronoId
