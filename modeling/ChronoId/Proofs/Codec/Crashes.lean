/-
# Where a codec crashes

Settings that have their types are refused, or they make a codec, or they crash:
over rounding digits that nothing is rounded to and that no shift or decimal can
reach, or over an epoch that UTC has no reading for. A codec answers every text.
Creating an identifier crashes if the sequence has too many digits to be shown, if
UTC has no reading for the timestamp, if there is no room for the zeros in front
of it, or if what it decodes to has drifted and the limit is no duration.

Key definitions: `Codec.Unbuildable`, `Codec.Uncreatable`.
Key theorems: `Codec.crashes_build_iff`, `Codec.crashes_create_iff`.
-/
import ChronoId.Proofs.Codec.Answers
import ChronoId.Proofs.Settings.Source

namespace ChronoId

theorem DateTime.crashes_toUtc_iff {t : DateTime} {e : Error} :
    Crashes t.toUtc e ↔ t.toUtc? = none ∧ e = .calendarOverflow := by
  rw [Crashes, toUtc_eq_error_iff]
  exact and_iff_left_of_imp fun h => h.2 ▸ rfl

/-! ### Making a codec -/

namespace TimestampCodec

variable {e : Error}

theorem checkRoundingUnit_eq_ok_iff {digits : Int} :
    checkRoundingUnit digits = .ok () ↔ -maxExponent ≤ digits ∧ digits ≤ maxShift := by
  have hlt : maxExponent < maxShift := by decide
  unfold checkRoundingUnit
  split
  · exact iff_of_false nofun (by omega)
  · split
    · exact iff_of_false nofun (by omega)
    · exact iff_of_true rfl (by omega)

theorem crashes_checkRoundingUnit_iff {digits : Int} : Crashes (checkRoundingUnit digits) e ↔
    (maxShift < digits ∨ digits < -maxShift) ∧ e = .roundingUnitUndefined ∨
      (-maxShift ≤ digits ∧ digits < -maxExponent) ∧ e = .roundingUnitOverflow := by
  have hlt : 0 ≤ maxExponent ∧ maxExponent < maxShift := by decide
  unfold checkRoundingUnit
  split
  · next hreach =>
    rw [crashes_error_iff rfl, and_iff_right hreach, or_iff_left fun h => by omega]
  · next hreach =>
    split
    · next hlow =>
      rw [crashes_error_iff rfl, or_iff_right fun h => hreach h.1, and_iff_right (by omega)]
    · next hlow => exact iff_of_false (not_crashes_ok _) (by omega)

theorem crashes_epochOf_iff {v : Value} :
    Crashes (epochOf none v) e ↔ ∃ t, v = .moment t ∧ t.toUtc? = none ∧ e = .calendarOverflow := by
  cases v with
  | moment t => simp [epochOf, DateTime.crashes_toUtc_iff]
  | _ => exact iff_of_false (not_crashes_of_isOwn rfl) nofun

/-- Numbers in their ranges crash for the rounding unit or else for the epoch. -/
theorem crashes_build_iff {encoder : Encoder} {width bits digits : Int} {epoch : Value}
    {shared : Option Instant} (hwidth : 0 < width) (hbits : 0 ≤ bits ∧ bits ≤ maxSubsecondBits)
    (hdigits : 0 < bits → 1 ≤ digits ∧ digits ≤ 9) :
    Crashes (build (some encoder) (.int width) (.int bits) (.int digits) epoch shared) e ↔
      Crashes (checkRoundingUnit digits) e ∨
        checkRoundingUnit digits = .ok () ∧ Crashes (epochOf shared epoch) e := by
  lift width to Nat using hwidth.le
  lift bits to Nat using hbits.1
  have hw := width?_natCast (by exact_mod_cast hwidth : 0 < width)
  have hb : bits? (.int bits) = .ok ⟨bits, by exact_mod_cast hbits.2, rfl⟩ :=
    dif_pos ⟨hbits.1, by exact_mod_cast hbits.2⟩
  have hd : digits? bits (.int digits) =
      checkRoundingUnit digits >>= fun _ => .ok ⟨.int digits, by exact_mod_cast hdigits, rfl⟩ :=
    dif_pos (by exact_mod_cast hdigits)
  have hpure {α : Type} (a : α) : ¬ Crashes (pure a) e := not_crashes_ok a
  simp only [build, hw, hb, bind_ok, hd, bind_assoc, crashes_bind_iff, hpure, and_false,
    exists_false, or_false]
  refine or_congr_right ⟨?_, fun h => ⟨_, h⟩⟩
  rintro ⟨_, h⟩
  exact h

end TimestampCodec

/-- The alphabet is that of sorted numerals. -/
def Settings.HasNumerals (s : Settings) : Prop :=
  ∃ n : Numeral, s.alphabet = .text n.alphabet ∧ n.retainsSortOrder = true

namespace Codec

open TimestampCodec (maxExponent maxShift)

/-- Why there is neither a codec nor a refusal of the settings. -/
inductive Unbuildable (s : Settings) : Error → Prop
  | undefined {digits : Int} (halphabet : s.HasNumerals) (hdigits : s.roundingDigits = .int digits)
    (hreach : maxShift < digits ∨ digits < -maxShift) : Unbuildable s .roundingUnitUndefined
  | overflow {digits : Int} (halphabet : s.HasNumerals) (hdigits : s.roundingDigits = .int digits)
    (hlow : -maxShift ≤ digits) (hhigh : digits < -maxExponent) :
    Unbuildable s .roundingUnitOverflow
  | calendar {digits : Int} {t : DateTime} (halphabet : s.HasNumerals)
    (hdigits : s.roundingDigits = .int digits) (hlow : -maxExponent ≤ digits)
    (hhigh : digits ≤ maxShift) (hepoch : s.customEpoch = .moment t) (hutc : t.toUtc? = none) :
    Unbuildable s .calendarOverflow

section Host

variable [Host]

theorem crashes_assemble_iff {s : Settings} {n : Numeral} {e : Error}
    (hordered : n.retainsSortOrder = true) : Crashes (assemble s n.encoder none) e ↔
      Crashes (TimestampCodec.build (some n.encoder) s.timestampWidth s.subsecondBits
        s.roundingDigits s.customEpoch none) e := by
  cases ht : TimestampCodec.build (some n.encoder) s.timestampWidth s.subsecondBits
      s.roundingDigits s.customEpoch none with
  | error e' =>
    rw [assemble_of_error ht]
    simp only [Crashes, Except.error.injEq]
  | ok t =>
    have hencoder := TimestampCodec.build_encoder ht
    obtain ⟨c, hc, -⟩ := assemble_of_ordered ht (by rw [hencoder]; exact hordered)
    rw [hc]
    exact iff_of_false (not_crashes_ok _) (not_crashes_ok _)

theorem chooseEncoder_none (alphabet : Value) :
    chooseEncoder none alphabet = (Numeral.ofAlphabet? alphabet true).map Numeral.encoder :=
  Encoder.ofAlphabet_result alphabet

/-- Settings that have their types crash where they make no codec and are not
refused. -/
theorem crashes_build_iff {s : Settings} {t : SettingsFields.Typed} {e : Error}
    (ht : s.toSettingsFields = t.fields) :
    Crashes (build (.ready s) none none).result e ↔ Unbuildable s e := by
  have hdigits : s.roundingDigits = .int t.roundingDigits := congrArg (·.roundingDigits) ht
  have hrange := Settings.inRange_of_eq_fields ht
  rw [build_result, Settings.load, bind_ok, chooseEncoder_none]
  cases hn : Numeral.ofAlphabet? s.alphabet true with
  | error e' =>
    -- an alphabet is refused before anything can crash
    obtain ⟨f, rfl⟩ := Numeral.ofAlphabet?_error hn
    refine iff_of_false (not_crashes_of_isOwn rfl) fun h => ?_
    obtain ⟨n, hn'⟩ : s.HasNumerals := by cases h <;> assumption
    cases hn.symm.trans (Numeral.ofAlphabet?_eq_ok_iff.mpr hn')
  | ok n =>
    have halphabet : s.HasNumerals := ⟨n, Numeral.ofAlphabet?_eq_ok_iff.mp hn⟩
    show Crashes (assemble s n.encoder none) e ↔ _
    rw [crashes_assemble_iff (Numeral.ofAlphabet?_eq_ok_iff.mp hn).2, hdigits,
      show s.timestampWidth = .int t.timestampWidth from congrArg (·.timestampWidth) ht,
      show s.subsecondBits = .int t.subsecondBits from congrArg (·.subsecondBits) ht,
      TimestampCodec.crashes_build_iff hrange.timestampWidth hrange.subsecondBits
        hrange.roundingDigits, TimestampCodec.crashes_checkRoundingUnit_iff,
      TimestampCodec.checkRoundingUnit_eq_ok_iff, TimestampCodec.crashes_epochOf_iff]
    constructor
    · rintro ((⟨hreach, rfl⟩ | ⟨⟨hlow, hhigh⟩, rfl⟩) | ⟨⟨hlow, hhigh⟩, d, hepoch, hutc, rfl⟩)
      · exact .undefined halphabet hdigits hreach
      · exact .overflow halphabet hdigits hlow hhigh
      · exact .calendar halphabet hdigits hlow hhigh hepoch hutc
    · rintro (⟨-, hdigits', hreach⟩ | ⟨-, hdigits', hlow, hhigh⟩ |
        ⟨-, hdigits', hlow, hhigh, hepoch, hutc⟩)
      all_goals cases hdigits.symm.trans hdigits'
      · exact Or.inl (Or.inl ⟨hreach, rfl⟩)
      · exact Or.inl (Or.inr ⟨⟨hlow, hhigh⟩, rfl⟩)
      · exact Or.inr ⟨⟨hlow, hhigh⟩, _, hepoch, hutc, rfl⟩

end Host

end Codec

/-! ### Creating an identifier -/

/-- What crashes for want of room is the text of a number in range. -/
theorem TimestampCodec.crashes_encode_iff [Host] {c : TimestampCodec} {n : Numeral} {t : Instant}
    {e : Error} (h : c.encoder = n.encoder) : Crashes (c.encode (DateTime.ofInstant t)) e ↔
      ∃ p, c.pack (DateTime.ofInstant t) = .ok p ∧ p ≤ maxValue ∧
        Host.memory < c.width - (n.write p).length ∧
        e = if Text.maxLength < c.width - (n.write p).length then .textTooLong
          else .outOfMemory := by
  constructor
  · rintro ⟨he, hown⟩
    rcases encode_ofInstant_error h he with ⟨f, rfl⟩ | ⟨-, p, hp, hroom⟩
    · cases hown
    · have hmax : p ≤ maxValue := by
        by_contra hlt
        have hlarge : n.encoder.encode p = .error (.input .tooLarge) := if_neg hlt
        rw [encode, hp, bind_ok, h, hlarge] at he
        cases he
        cases hown
      refine ⟨p, hp, hmax, hroom, ?_⟩
      exact Except.error.inj (he.symm.trans (encode_ofInstant_of_no_room h hp hmax hroom))
  · rintro ⟨p, hp, hmax, hroom, rfl⟩
    refine ⟨encode_ofInstant_of_no_room h hp hmax hroom, ?_⟩
    split <;> rfl

namespace Codec

variable {c : Codec} {n : Numeral} {ds : String} {s : Nat} {t : Instant} {e : Error}

theorem crashes_verify_iff {x : Identifier} (hs : x.sequence = s) :
    Crashes (c.verify s t x).result e ↔
      x.timestamp ≠ t ∧ ¬ c.LimitFits ∧ e = .driftLimitOverflow := by
  rw [← and_assoc, ← not_or, ← verify_eq_ok_iff hs]
  cases hv : (c.verify s t x).result with
  | ok => exact iff_of_false (not_crashes_ok _) fun h => h.1 rfl
  | error e' =>
    rw [verify_error hs hv, crashes_error_iff rfl]
    simp

section Host

variable [Host]

/-- Behind the timestamp nothing crashes that makes the text of an identifier. -/
theorem crashes_encode_iff (h : c.Uses n) (hds : c.settings.checkDigitAlphabet = .text ds) :
    Crashes (c.encode s t) e ↔ Crashes (c.timestamps.encode (DateTime.ofInstant t)) e := by
  rw [encode, crashes_bind_iff, or_iff_left]
  rintro ⟨stamp, hstamp, he, hown⟩
  obtain ⟨p, hp, hfits, -⟩ := (TimestampCodec.encode_ofInstant_eq_ok_iff h.encoder).mp hstamp
  have he' : c.encode s t = .error e := by rw [encode, hstamp, bind_ok, he]
  -- want of room is found out when the timestamp is written
  rcases encode_error h hds he' with ⟨f, rfl⟩ | ⟨-, p', hp', hroom⟩
  · cases hown
  · cases hp.symm.trans hp'
    exact absurd hfits.zeros_le (not_le.mpr hroom)

theorem not_crashes_decode (h : c.Uses n) (x : String) :
    ¬ Crashes (c.decode (.text x)).result e := by
  obtain ⟨o, ho⟩ := decode_text h x
  exact ho ▸ not_crashes_ok o

theorem not_crashes_isValid (h : c.Uses n) (x : String) :
    ¬ Crashes (c.isValid (.text x)).result e := by
  rw [isValid, Logged.result_bind, crashes_bind_iff]
  rintro (hdecode | ⟨o, -, hpure⟩)
  · exact not_crashes_decode h x hdecode
  · exact not_crashes_ok _ hpure

/-- What was written for a sequence decodes to it. -/
theorem sequence_of_encode (h : c.Uses n) (hs : s ≤ Settings.maxSequence) {x : String}
    {y : Identifier} (hx : c.encode s t = .ok x) (hy : (c.decode (.text x)).result = .ok (some y)) :
    y.sequence = s := by
  obtain ⟨p, d, -, -, hw⟩ := (encode_eq_ok_iff h hs).mp hx
  obtain ⟨stamp, s', d', hw', -, -, hsequence⟩ :=
    written_of_decodeText h (decode_eq_some_iff.mp hy)
  rw [hsequence, (hw'.parts_eq hw.size hw.digit_lt hw.text).2.1]

theorem crashes_createAt_iff (h : c.Uses n) (hds : c.settings.checkDigitAlphabet = .text ds)
    (hs : s ≤ Settings.maxSequence) : Crashes (c.createAt s t).result e ↔
      Crashes (c.timestamps.encode (DateTime.ofInstant t)) e ∨
        ∃ x y, c.encode s t = .ok x ∧ (c.decode (.text x)).result = .ok (some y) ∧
          y.timestamp ≠ t ∧ ¬ c.LimitFits ∧ e = .driftLimitOverflow := by
  rw [createAt_result, crashes_bind_iff, crashes_encode_iff h hds]
  refine or_congr_right ⟨?_, ?_⟩
  · rintro ⟨x, hx, hcrash⟩
    rcases crashes_bind_iff.mp hcrash with hdecode | ⟨o, ho, hcrash⟩
    · exact absurd hdecode (not_crashes_decode h x)
    cases o with
    | none => exact absurd hcrash (not_crashes_of_isOwn rfl)
    | some y =>
      rcases crashes_bind_iff.mp hcrash with hverify | ⟨_, -, hok⟩
      · exact ⟨x, y, hx, ho, (crashes_verify_iff (sequence_of_encode h hs hx ho)).mp hverify⟩
      · exact absurd hok (not_crashes_ok _)
  · rintro ⟨x, y, hx, hy, hdrift⟩
    have hverify := (crashes_verify_iff (sequence_of_encode h hs hx hy)).mpr hdrift
    exact ⟨x, hx, crashes_bind_iff.mpr (Or.inr ⟨_, hy, crashes_bind_iff.mpr (Or.inl hverify)⟩)⟩

/-- Why there is neither an identifier nor a refusal of what it was to be made
of. -/
inductive Uncreatable (c : Codec) (n : Numeral) (s : Nat) (t : DateTime) : Error → Prop
  | calendar (hutc : t.toUtc? = none) : Uncreatable c n s t .calendarOverflow
  | textTooLong {u : Instant} {p : Nat} (hutc : t.toUtc? = some u)
    (hpack : c.timestamps.pack (DateTime.ofInstant u) = .ok p) (hmax : p ≤ maxValue)
    (hroom : Text.maxLength < c.timestamps.width - (n.write p).length) :
    Uncreatable c n s t .textTooLong
  | outOfMemory {u : Instant} {p : Nat} (hutc : t.toUtc? = some u)
    (hpack : c.timestamps.pack (DateTime.ofInstant u) = .ok p) (hmax : p ≤ maxValue)
    (hroom : Host.memory < c.timestamps.width - (n.write p).length)
    (htext : c.timestamps.width - (n.write p).length ≤ Text.maxLength) :
    Uncreatable c n s t .outOfMemory
  | drift {u : Instant} {x : String} {y : Identifier} (hutc : t.toUtc? = some u)
    (hx : c.encode s u = .ok x) (hy : (c.decode (.text x)).result = .ok (some y))
    (hdrift : y.timestamp ≠ u) (hlimit : ¬ c.LimitFits) : Uncreatable c n s t .driftLimitOverflow

/-- Creating an identifier from an integer crashes if the integer is a sequence
and the timestamp, or the present time without it, stands in the way, or if it
has too many digits to be shown. -/
theorem crashes_create_iff (h : c.Uses n) (hds : c.settings.checkDigitAlphabet = .text ds) {i : Int}
    {v : Value} {now t : DateTime} (ht : instantOf v now = t.toUtc) :
    Crashes (c.create (.int i) v now).result e ↔
      (∃ s : Nat, i = s ∧ s ≤ Settings.maxSequence ∧ c.Uncreatable n s t e) ∨
        10 ^ Integer.maxDigits ≤ i.natAbs ∧ e = .integerTooLong := by
  rcases sequenceOf_cases (.int i) with ⟨s, hs, hi, hok⟩ | ⟨e', he', hcause⟩
  · cases hi
    have hshown : ¬ (10 ^ Integer.maxDigits ≤ (s : Int).natAbs ∧ e = .integerTooLong) :=
      fun hlong => by cases hok.symm.trans (sequenceOf_of_unshown hlong.1)
    rw [or_iff_left hshown, create_result, hok, bind_ok, ht, crashes_bind_iff,
      DateTime.crashes_toUtc_iff]
    simp only [crashes_createAt_iff h hds hs, TimestampCodec.crashes_encode_iff h.encoder,
      DateTime.toUtc_eq_ok_iff]
    constructor
    · rintro (⟨hutc, rfl⟩ | ⟨u, hutc, ⟨p, hpack, hmax, hroom, rfl⟩ |
        ⟨x, y, hx, hy, hdrift, hlimit, rfl⟩⟩)
      · exact ⟨s, rfl, hs, .calendar hutc⟩
      · refine ⟨s, rfl, hs, ?_⟩
        split
        · next htext => exact .textTooLong hutc hpack hmax htext
        · next htext => exact .outOfMemory hutc hpack hmax hroom (not_lt.mp htext)
      · exact ⟨s, rfl, hs, .drift hutc hx hy hdrift hlimit⟩
    · rintro ⟨s', hs', -, hcrash⟩
      cases hs'
      cases hcrash with
      | calendar hutc => exact Or.inl ⟨hutc, rfl⟩
      | textTooLong hutc hpack hmax hroom =>
        exact Or.inr ⟨_, hutc, Or.inl
          ⟨_, hpack, hmax, Host.memory_le.trans_lt hroom, (if_pos hroom).symm⟩⟩
      | outOfMemory hutc hpack hmax hroom htext =>
        exact Or.inr ⟨_, hutc, Or.inl ⟨_, hpack, hmax, hroom, (if_neg (not_lt.mpr htext)).symm⟩⟩
      | drift hutc hx hy hdrift hlimit =>
        exact Or.inr ⟨_, hutc, Or.inr ⟨_, _, hx, hy, hdrift, hlimit, rfl⟩⟩
  · have hout : ¬ ∃ s : Nat, i = s ∧ s ≤ Settings.maxSequence ∧ c.Uncreatable n s t e := by
      rintro ⟨s, rfl, hs, -⟩
      cases he'.symm.trans (sequenceOf_natCast hs)
    rw [or_iff_right hout]
    rcases hcause with ⟨f, rfl⟩ | ⟨rfl, i', hi', hlong⟩
    · rw [create_result, he']
      refine iff_of_false (not_crashes_of_isOwn rfl) fun h => ?_
      cases he'.symm.trans (sequenceOf_of_unshown h.1)
    · cases hi'
      rw [create_of_unshown hlong, crashes_error_iff rfl, and_iff_right hlong]

end Host

end Codec
end ChronoId
