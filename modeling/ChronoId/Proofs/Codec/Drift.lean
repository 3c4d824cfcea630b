/-
# The drift stays within the limit

What a codec decodes lies within half a step of the bits, half a step of the
digits and half a microsecond of what was encoded, and without bits less than a
second before it. The limit that follows from the settings is no smaller than
either step, so no drift exceeds it: without a limit of its own, a codec never
leaves a line that is worth more than debugging when it creates an identifier.

Key definitions: `Logged.Quiet`.
Key theorems: `TimestampCodec.roundTrip_error`, `Codec.exists_limit`,
`Codec.roundTrip_le_limit`, `Codec.quiet_create`.
-/
import ChronoId.Proofs.Drift
import ChronoId.Proofs.Codec.RoundTrip

namespace ChronoId

/-! ### Lines that are worth more than debugging -/

namespace Logged

variable {α β : Type}

/-- No line is worth more than debugging. -/
def Quiet (x : Logged α) : Prop := ∀ e ∈ x.events, e.isError = false

theorem quiet_of_events_eq_nil {x : Logged α} (h : x.events = []) : x.Quiet := by
  intro e he
  rw [h] at he
  cases he

theorem quiet_liftM (x : Except Error α) : (liftM x : Logged α).Quiet := quiet_of_events_eq_nil rfl

theorem quiet_fail (e : Error) : (fail e : Logged α).Quiet := quiet_of_events_eq_nil rfl

theorem quiet_pure (a : α) : (pure a : Logged α).Quiet := quiet_of_events_eq_nil rfl

theorem quiet_note {event : Event} (h : event.isError = false) : (note event).Quiet := by
  intro e he
  rw [List.mem_singleton.mp he]
  exact h

/-- Steps are quiet if the first is and the second is behind every result of
it. -/
theorem Quiet.bind {x : Logged α} {f : α → Logged β} (hx : x.Quiet)
    (hf : ∀ a, x.result = .ok a → (f a).Quiet) : (x >>= f).Quiet := by
  cases h : x.result with
  | error e =>
    rw [bind_of_error f h]
    exact hx
  | ok a =>
    intro e he
    rw [bind_events_ok f h] at he
    rcases List.mem_append.mp he with hfirst | hsecond
    · exact hx e hfirst
    · exact hf a h e hsecond

end Logged

/-! ### Timestamps -/

namespace TimestampCodec

variable {c : TimestampCodec} {t u : Instant} {p : Nat}

/-- A timestamp is unpacked from the epoch on. -/
theorem unpack_pack (hp : c.pack (DateTime.ofInstant t) = .ok p) (hu : c.unpack p = .ok u) :
    c.epoch.micros ≤ t.micros ∧ c.epoch.micros ≤ u.micros ∧
      Timestamp.unpackMicros c.subsecondBits c.roundingDigits.toInt.toNat
        (Timestamp.packMicros c.subsecondBits (t.micros - c.epoch.micros)) =
          (u.micros - c.epoch.micros : Nat) := by
  obtain ⟨hle, rfl⟩ := pack_ofInstant_eq_ok_iff.mp hp
  rw [unpack_eq_ok_iff, unpacked] at hu
  have hnonneg := Timestamp.unpackMicros_nonneg c.subsecondBits c.roundingDigits.toInt.toNat
    (Timestamp.packMicros c.subsecondBits (t.micros - c.epoch.micros))
  omega

/-- With bits, the decoded time lies within half a step of each rounding. -/
theorem roundTrip_error (hb : 0 < c.subsecondBits) (hp : c.pack (DateTime.ofInstant t) = .ok p)
    (hu : c.unpack p = .ok u) : |(u.micros : Rat) - t.micros| ≤
      1000000 / 2 ^ (c.subsecondBits + 1) + 1000000 / 10 ^ c.roundingDigits.toInt.toNat / 2 + 1 / 2 := by
  obtain ⟨hte, hue, hmicros⟩ := unpack_pack hp hu
  have herr := Timestamp.roundTrip_error hb c.bits_le (c.digits_bounds hb).2 hmicros
  have hdifference : (((u.micros - c.epoch.micros : Nat) : Rat)) -
      ((t.micros - c.epoch.micros : Nat) : Rat) = (u.micros : Rat) - t.micros := by
    rw [Nat.cast_sub hue, Nat.cast_sub hte]
    ring
  have hbits : (1000000 : Rat) / 2 ^ (c.subsecondBits + 1) = 500000 / 2 ^ c.subsecondBits := by
    rw [pow_succ]
    field_simp
    norm_num
  have hdigits : (1000000 : Rat) / 10 ^ c.roundingDigits.toInt.toNat / 2 =
      500000 / 10 ^ c.roundingDigits.toInt.toNat := by ring
  rw [← hdifference, hbits, hdigits]
  exact herr

/-- Without bits, the decoded time lies less than a second before. -/
theorem roundTrip_seconds (hb : c.subsecondBits = 0) (hp : c.pack (DateTime.ofInstant t) = .ok p)
    (hu : c.unpack p = .ok u) : u.micros ≤ t.micros ∧ t.micros < u.micros + 1000000 := by
  obtain ⟨hte, hue, hmicros⟩ := unpack_pack hp hu
  rw [hb] at hmicros
  have := Timestamp.roundTrip_seconds hmicros
  omega

end TimestampCodec

/-! ### The limit -/

namespace Settings

theorem le_ceilDiv_mul {a b : Nat} (hb : 0 < b) : a ≤ ceilDiv a b * b := by
  have hlt := Nat.lt_div_mul_add (a := a + b - 1) hb
  unfold ceilDiv
  omega

theorem ceilDiv_le {b : Nat} (hb : 0 < b) : ceilDiv 1000 b ≤ 1000 := by
  unfold ceilDiv
  apply Nat.div_le_of_le_mul
  omega

/-- No step is longer than a second. -/
theorem stepLimit_le (bits digits : Nat) :
    stepLimit (subsecondStep bits) (roundingStep digits) ≤ 1000 := by
  have hsubseconds : subsecondStep bits ≤ 1000 := ceilDiv_le (Nat.pow_pos (by norm_num))
  have hrounding : roundingStep digits ≤ 1000 := ceilDiv_le (Nat.pow_pos (by norm_num))
  unfold stepLimit
  omega

/-- The limit of two steps reaches each of them. -/
theorem le_stepLimit_mul (bits digits : Nat) :
    1000 ≤ stepLimit (subsecondStep bits) (roundingStep digits) * 2 ^ bits ∧
      1000 ≤ stepLimit (subsecondStep bits) (roundingStep digits) * 10 ^ digits := by
  have hsubseconds : subsecondStep bits ≤ stepLimit (subsecondStep bits) (roundingStep digits) :=
    (le_max_left _ _).trans (le_max_right _ _)
  have hrounding : roundingStep digits ≤ stepLimit (subsecondStep bits) (roundingStep digits) :=
    (le_max_right _ _).trans (le_max_right _ _)
  constructor
  · calc 1000 ≤ subsecondStep bits * 2 ^ bits := le_ceilDiv_mul (Nat.pow_pos (by norm_num))
      _ ≤ _ := Nat.mul_le_mul_right _ hsubseconds
  · calc 1000 ≤ roundingStep digits * 10 ^ digits := le_ceilDiv_mul (Nat.pow_pos (by norm_num))
      _ ≤ _ := Nat.mul_le_mul_right _ hrounding

end Settings

namespace Codec

variable {c : Codec} {n : Numeral} {t u : Instant} {p : Nat}

/-- Without a limit of its own, a codec has one of whole milliseconds: a
second, or no more than that and one that reaches both steps. -/
theorem exists_limit (hnull : c.settings.maxTimestampDelta = .null) :
    ∃ limit : Nat, c.settings.driftLimit = .ok (.int limit) ∧ limit ≤ 1000 ∧
      (c.timestamps.subsecondBits = 0 → limit = 1000) ∧
      (0 < c.timestamps.subsecondBits → 1000 ≤ limit * 2 ^ c.timestamps.subsecondBits ∧
        1000 ≤ limit * 10 ^ c.timestamps.roundingDigits.toInt.toNat) := by
  unfold Settings.driftLimit
  rw [hnull, c.bits_eq, c.digits_eq]
  by_cases hb : c.timestamps.subsecondBits = 0
  · refine ⟨1000, ?_, le_refl _, fun _ => rfl, fun hpos => absurd hb hpos.ne'⟩
    simp [Value.atMost?, hb]
  · refine ⟨_, ?_, Settings.stepLimit_le _ _, fun hzero => absurd hzero hb,
      fun _ => Settings.le_stepLimit_mul _ _⟩
    have hsome : (Value.int c.timestamps.subsecondBits).atMost? 0 ≠ some true := by
      simp [Value.atMost?, hb]
    simp only [if_neg hsome]
    cases c.timestamps.roundingDigits <;> rfl

/-- The drift of a round trip stays within the limit. -/
theorem roundTrip_le_limit (hnull : c.settings.maxTimestampDelta = .null)
    (hp : c.timestamps.pack (DateTime.ofInstant t) = .ok p) (hu : c.timestamps.unpack p = .ok u) :
    ∃ limit : Nat, c.settings.driftLimit = .ok (.int limit) ∧ drift t u ≤ limit * 1000 := by
  obtain ⟨limit, hlimit, -, hseconds, hsteps⟩ := exists_limit hnull
  refine ⟨limit, hlimit, ?_⟩
  unfold drift
  rcases Nat.eq_zero_or_pos c.timestamps.subsecondBits with hb | hb
  · have hlt := TimestampCodec.roundTrip_seconds hb hp hu
    rw [hseconds hb]
    omega
  · obtain ⟨hte, hue, hmicros⟩ := TimestampCodec.unpack_pack hp hu
    obtain ⟨hsubseconds, hrounding⟩ := hsteps hb
    have hle : max (t.micros - c.timestamps.epoch.micros) (u.micros - c.timestamps.epoch.micros) -
        min (t.micros - c.timestamps.epoch.micros) (u.micros - c.timestamps.epoch.micros) ≤
          limit * 1000 := by
      apply Timestamp.roundTrip_le_limit hb c.timestamps.bits_le (c.timestamps.digits_bounds hb).2 _ _ hmicros
      · rw [Nat.mul_right_comm]
        omega
      · rw [Nat.mul_right_comm]
        omega
    omega

/-! ### Creating leaves no error behind -/

theorem quiet_decode (v : Value) : (c.decode v).Quiet := by
  unfold decode
  split
  · exact Logged.quiet_pure _
  · split
    · exact (Logged.quiet_note rfl).bind fun _ _ => Logged.quiet_pure _
    · exact Logged.quiet_fail _

/-- A drift within the limit is worth no more than a line for debugging. -/
theorem quiet_verify {s : Nat} {x : Identifier} {v : Value} (hv : c.settings.driftLimit = .ok v)
    (hle : drift t x.timestamp ≤ (DriftLimit.ofValue v).micros) : (c.verify s t x).Quiet := by
  unfold verify
  split
  · exact Logged.quiet_fail _
  · split
    · exact Logged.quiet_pure _
    · apply (Logged.quiet_liftM _).bind
      intro w hw
      cases Except.ok.inj (hv.symm.trans hw)
      apply (Logged.quiet_note rfl).bind
      intro _ _
      show Logged.Quiet (if _ then _ else _)
      split
      · exact Logged.quiet_fail _
      · rw [if_neg (not_lt.mpr hle)]
        exact Logged.quiet_pure _

theorem quiet_createAt [Host] (h : c.Uses n) (hnull : c.settings.maxTimestampDelta = .null) {s : Nat}
    (hs : s ≤ Settings.maxSequence) : (c.createAt s t).Quiet := by
  unfold createAt
  apply (Logged.quiet_liftM _).bind
  intro x hx
  obtain ⟨p, d, hp, -, hw⟩ := (encode_eq_ok_iff h hs).mp hx
  apply (quiet_decode _).bind
  intro o ho
  cases o with
  | none => exact Logged.quiet_fail _
  | some y =>
    -- the drift is that of the packed number, whatever else the text holds
    obtain ⟨stamp, _, _, hw', hu, -⟩ := written_of_decodeText h (decode_eq_some_iff.mp ho)
    have hvalue : n.value stamp = p := by
      rw [← hw'.take, hw.take, n.value_padded]
    rw [hvalue] at hu
    obtain ⟨limit, hlimit, hle⟩ := roundTrip_le_limit hnull hp hu
    have hquiet : (c.verify s t y).Quiet := quiet_verify hlimit hle
    exact hquiet.bind fun _ _ => Logged.quiet_pure _

/-- Without a limit of its own, a codec never leaves an error in the journal
when it creates. -/
theorem quiet_create [Host] (h : c.Uses n) (hnull : c.settings.maxTimestampDelta = .null)
    (v t : Value) (now : DateTime) : (c.create v t now).Quiet := by
  unfold create
  apply (Logged.quiet_liftM _).bind
  intro s hs
  have hle : s ≤ Settings.maxSequence := by
    rcases sequenceOf_cases v with ⟨s', hs', -, hok⟩ | ⟨e, he, -⟩
    · cases Except.ok.inj (hok.symm.trans hs)
      exact hs'
    · cases he.symm.trans hs
  cases t <;> exact (Logged.quiet_liftM _).bind fun _ _ => quiet_createAt h hnull hle

/-- Every reading of an instant from the epoch on is packed. What it is
unpacked to lies within half a step of each rounding, or without bits less than
a second before; and without a limit of its own, the drift stays within the
limit of the codec, and creating leaves no error in the journal. -/
theorem create_drift [Host] {source : Settings.Source} {shared : Option Instant} {c : Codec}
    (h : (build source none shared).result = .ok c) :
    (∀ (d : DateTime) (t : Instant), d.toUtc? = some t → c.epoch.micros ≤ t.micros →
      ∃ p, c.timestamps.pack d = .ok p ∧ ∀ u, c.timestamps.unpack p = .ok u →
        (0 < c.timestamps.subsecondBits → |(u.micros : Rat) - t.micros| ≤
          1000000 / 2 ^ (c.timestamps.subsecondBits + 1) +
            1000000 / 10 ^ c.timestamps.roundingDigits.toInt.toNat / 2 + 1 / 2) ∧
        (c.timestamps.subsecondBits = 0 → u.micros ≤ t.micros ∧ t.micros < u.micros + 1000000) ∧
        (c.settings.maxTimestampDelta = .null → ∃ limit : Nat,
          c.settings.driftLimit = .ok (.int limit) ∧ drift t u ≤ limit * 1000)) ∧
    (c.settings.maxTimestampDelta = .null →
      ∀ v t now, ∀ e ∈ (c.create v t now).events, e.isError = false) := by
  obtain ⟨n, hn⟩ := exists_uses_of_build h
  constructor
  · intro d t ht hle
    refine ⟨_, TimestampCodec.pack_of_toUtc ht hle, ?_⟩
    intro u hu
    have hp := TimestampCodec.pack_ofInstant_eq_ok_iff.mpr ⟨hle, rfl⟩
    exact ⟨fun hb => TimestampCodec.roundTrip_error hb hp hu,
      fun hb => TimestampCodec.roundTrip_seconds hb hp hu, fun hnull => roundTrip_le_limit hnull hp hu⟩
  · intro hnull v t now
    exact quiet_create hn hnull v t now

section Ample

attribute [local instance] Host.ample

/-- A tenth of a millisecond is lost in the default codec's bits, and the line
that says so is no error. -/
theorem create_drift_default : ∃ c x,
    (build .defaults none (some .start)).result = .ok c ∧
      c.timestamps.pack (DateTime.ofInstant ⟨100, by decide⟩) = .ok 0 ∧
      c.timestamps.unpack 0 = .ok .start ∧
      |((WallTime.start.micros : Rat)) - (100 : Nat)| ≤ 1000000 / 2 ^ 12 + 1000000 / 10 ^ 3 / 2 + 1 / 2 ∧
      (∃ limit : Nat, c.settings.driftLimit = .ok (.int limit) ∧
        drift ⟨100, by decide⟩ .start ≤ limit * 1000) ∧
      (c.create (.int 7) (.moment (DateTime.ofInstant ⟨100, by decide⟩)) ⟨.start, none⟩).result =
        .ok ⟨x, ⟨100, by decide⟩, 7⟩ ∧
      ∀ e ∈ (c.create (.int 7) (.moment (DateTime.ofInstant ⟨100, by decide⟩)) ⟨.start, none⟩).events,
        e.isError = false := by
  obtain ⟨c, hc, hsettings, htimestamps, hn⟩ := exists_build_defaults .start
  have hnull : c.settings.maxTimestampDelta = .null := congrArg (·.maxTimestampDelta) hsettings
  have hds : c.settings.checkDigitAlphabet = .text "0123456789" :=
    congrArg (·.checkDigitAlphabet) hsettings
  have hbits : c.timestamps.subsecondBits = 11 := congrArg (·.subsecondBits) htimestamps
  have hdigits : c.timestamps.roundingDigits.toInt.toNat = 3 := by rw [htimestamps]; rfl
  have hepoch : c.epoch.micros ≤ 100 := by
    rw [Codec.epoch, htimestamps]
    exact (by decide : WallTime.start.micros ≤ 100)
  have he : c.Encodable Numeral.crockford 7 ⟨100, by decide⟩ 0 .start :=
    encodable_default hsettings htimestamps (by decide) (by decide) (by decide)
  have hwidth : c.timestamps.width = 9 := congrArg (·.width) htimestamps
  obtain ⟨x, hcreate, -⟩ := he.createAt hn hds (zeros_le_memory hwidth (by decide) 0)
  obtain ⟨hdrift, hquiet⟩ := create_drift hc
  obtain ⟨p, hp, hround⟩ := hdrift (DateTime.ofInstant ⟨100, by decide⟩) ⟨100, by decide⟩ rfl hepoch
  obtain rfl : p = 0 := Except.ok.inj (hp.symm.trans he.packed)
  obtain ⟨hbound, -, hlimit⟩ := hround .start he.unpacked
  rw [hbits, hdigits] at hbound
  exact ⟨c, x, hc, hp, he.unpacked, hbound (by decide), hlimit hnull,
    (create_of_ok rfl rfl).trans hcreate, hquiet hnull _ _ _⟩

end Ample

end Codec
end ChronoId
