/-
# Readings of one instant

A codec takes the instant of its epoch and of each timestamp, and never looks at
the clock that showed it. So two readings of one instant are packed alike, two
epochs that are one instant make the same timestamps, and settings that differ in
such epochs make no codec, for the same reason, or codecs that create the same.

Key definitions: `DateTime.ahead`, `Settings.startingAt`.
Key theorems: `TimestampCodec.pack_congr`, `Codec.create_sameInstant`,
`Codec.instant_decides`.
-/
import ChronoId.Proofs.Codec.Alike
import ChronoId.Proofs.Time.Instant

namespace ChronoId

namespace DateTime

/-- The reading of a clock five hours ahead of UTC, so many microseconds into the
calendar. -/
def ahead (micros : Nat) (h : micros + 18000000000 < WallTime.limit) : DateTime :=
  ⟨⟨micros + 18000000000, h⟩, some ⟨18000000000, by decide⟩⟩

theorem position_ahead (micros : Nat) (h : micros + 18000000000 < WallTime.limit) :
    (ahead micros h).position = micros := by
  rw [position_eq]
  simp [ahead]

end DateTime

/-- The default settings with an epoch. -/
def Settings.startingAt (t : DateTime) : Settings := ⟨{ customEpoch := .moment t }, rfl⟩

namespace TimestampCodec

variable {t t' : DateTime}

/-- Readings of one instant are packed into the same number. -/
theorem pack_congr (c : TimestampCodec) (h : t.position = t'.position) {p : Nat} :
    c.pack t = .ok p ↔ c.pack t' = .ok p := by
  simp only [pack, Elapsed.micros, DateTime.toUtc_congr h, DateTime.toUtc_ofInstant]
  cases t'.toUtc with
  | error e => exact Iff.rfl
  | ok i =>
    simp only [bind_ok]
    by_cases hlt : i.micros < c.epoch.micros
    · simp [hlt, Except.map]
    · rw [if_neg hlt, if_neg hlt]

end TimestampCodec

namespace Codec

variable {source source' : Settings.Source} {s s' : Settings} {e e' : DateTime}

/-- Settings whose epochs are readings of one instant. -/
theorem alikeTimes_of_epoch (he : s.customEpoch = .moment e)
    (hs' : s'.toSettingsFields = { s.toSettingsFields with customEpoch := .moment e' })
    (h : e.position = e'.position) (shared : Option Instant) : s.AlikeTimes shared s' := by
  constructor
  · rw [hs']
  · rw [hs']
  · rw [hs']
  · rw [hs']
  · rw [hs', he]
    exact (DateTime.toUtc_congr h).symm

/-- Codecs whose settings differ at most in the epoch. -/
theorem alike_of_epoch {c c' : Codec} {v : Value}
    (hs : c'.settings.toSettingsFields = { c.settings.toSettingsFields with customEpoch := v })
    (htimestamps : c'.timestamps = c.timestamps) : c.Alike c' where
  timestamps := htimestamps
  compute id := by
    simp only [Checksum.compute, checksum, layout, encoder, htimestamps, hs]

theorem driftLimit_of_epoch {v : Value}
    (hs : s'.toSettingsFields = { s.toSettingsFields with customEpoch := v }) :
    s'.driftLimit = s.driftLimit := by
  unfold Settings.driftLimit
  rw [hs]

/-- Such settings make no codec, for the same reason, or codecs that create the
same from readings of one instant, line by line in the journal. -/
theorem create_sameInstant [Host] (hs : Settings.load source = .ok s)
    (hs' : Settings.load source' = .ok s') (he : s.customEpoch = .moment e)
    (hfields : s'.toSettingsFields = { s.toSettingsFields with customEpoch := .moment e' })
    (h : e.position = e'.position) (given : Option Encoder) (shared : Option Instant) :
    (∃ err, (build source given shared).result = .error err ∧
        (build source' given shared).result = .error err) ∨
      ∃ c c', (build source given shared).result = .ok c ∧
        (build source' given shared).result = .ok c' ∧
        ∀ v t t' now now', t.position = t'.position →
          c'.create v (.moment t') now' = c.create v (.moment t) now := by
  rcases build_alikeTimes hs hs' (alikeTimes_of_epoch he hfields h shared) given with
    ⟨err, herr, herr'⟩ | ⟨c, c', hc, hc', hsettings, hsettings', htimestamps⟩
  · exact Or.inl ⟨err, herr, herr'⟩
  refine Or.inr ⟨c, c', hc, hc', ?_⟩
  intro v t t' now now' ht
  rw [← hsettings, ← hsettings'] at hfields
  have halike := alike_of_epoch hfields htimestamps
  have hutc : (Value.moment t').toUtc = (Value.moment t).toUtc := (DateTime.toUtc_congr ht).symm
  rw [halike.create_eq (driftLimit_of_epoch hfields)]
  unfold create
  simp only [hutc]

/-- What a reading denotes decides, and not the reading. The number of a date
counts the days before it, and a clock shows every date and time of day just once,
so a reading has one position. UTC shows just the instant at this position, and
fails just where that lies outside the calendar; what it shows stays as it is, and
is one for all readings of an instant. The time that has elapsed is the distance of
the instants, and there is none only before the epoch. Epochs that are one instant
make the same timestamps, which pack readings of one instant into one number or not
at all; and codecs whose epochs are one instant create the same from readings of one
instant. -/
theorem instant_decides [Host] :
    (∀ date : Date, date.IsValid → Date.next^[date.dayNumber] ⟨1, 1, 1⟩ = date) ∧
    (∀ (date : Date) (hour minute second micro : Nat), date.IsValid → hour < 24 → minute < 60 →
      second < 60 → micro < 1000000 → ∃! w : WallTime,
        w.date = date ∧ w.hour = hour ∧ w.minute = minute ∧ w.second = second ∧ w.micro = micro) ∧
    (∀ t : DateTime,
      (∀ i, (Value.moment t).toUtc = .ok i ↔ (DateTime.ofInstant i).position = t.position) ∧
      (∀ err, (Value.moment t).toUtc = .error err ↔ err = .calendarOverflow ∧
        (t.position < 0 ∨ Date.daysBeforeYear 10000 * microsPerDay ≤ t.position)) ∧
      (∀ i, (Value.moment t).toUtc = .ok i → (Value.moment (.ofInstant i)).toUtc = .ok i) ∧
      ∀ t' : DateTime, t.position = t'.position →
        (Value.moment t).toUtc = (Value.moment t').toUtc) ∧
    (∀ (t e : DateTime) (i j : Instant),
      (Value.moment t).toUtc = .ok i → (Value.moment e).toUtc = .ok j →
      ((∃ f, Elapsed.between (.moment t) (.moment e) = .error (.input f)) ↔
        t.position < e.position) ∧
      (e.position ≤ t.position → ∃ seconds nanos : Nat,
        Elapsed.between (.moment t) (.moment e) = .ok (seconds, nanos) ∧
        nanos < 10 ^ 9 ∧ 1000 ∣ nanos ∧
        ((seconds * 10 ^ 9 + nanos : Nat) : Int) = (t.position - e.position) * 1000)) ∧
    (∀ (encoder : Option Encoder) (width bits digits : Value) (shared : Option Instant)
      (e e' : DateTime), e.position = e'.position →
      TimestampCodec.build encoder width bits digits (.moment e) shared =
        TimestampCodec.build encoder width bits digits (.moment e') shared) ∧
    (∀ (c : TimestampCodec) (t t' : DateTime), t.position = t'.position →
      ∀ p, c.pack t = .ok p ↔ c.pack t' = .ok p) ∧
    ∀ (source source' : Settings.Source) (s s' : Settings) (e e' : DateTime),
      Settings.load source = .ok s → Settings.load source' = .ok s' →
      s.customEpoch = .moment e →
      s'.toSettingsFields = { s.toSettingsFields with customEpoch := .moment e' } →
      e.position = e'.position → ∀ (given : Option Encoder) (shared : Option Instant),
        (∃ err, (build source given shared).result = .error err ∧
            (build source' given shared).result = .error err) ∨
          ∃ c c', (build source given shared).result = .ok c ∧
            (build source' given shared).result = .ok c' ∧
            ∀ v t t' now now', t.position = t'.position →
              c'.create v (.moment t') now' = c.create v (.moment t) now := by
  refine ⟨fun date hdate => hdate.iterate_next, ?_, ?_, ?_, ?_, ?_, ?_⟩
  · intro date hour minute second micro hdate hhour hminute hsecond hmicro
    exact WallTime.existsUnique_fields hdate hhour hminute hsecond hmicro
  · intro t
    exact ⟨fun i => DateTime.toUtc_eq_ok_iff_position,
      fun err => DateTime.toUtc_eq_error_iff_position,
      fun i _ => DateTime.toUtc_ofInstant i, fun t' ht => DateTime.toUtc_congr ht⟩
  · intro t e i j ht he
    have hi : (i.micros : Int) = t.position := (DateTime.position_ofInstant i).symm.trans
      (DateTime.toUtc_eq_ok_iff_position.mp ht)
    have hj : (j.micros : Int) = e.position := (DateTime.position_ofInstant j).symm.trans
      (DateTime.toUtc_eq_ok_iff_position.mp he)
    rw [Elapsed.between_of_toUtc ht he]
    by_cases hlt : t.position < e.position
    · rw [if_pos hlt]
      exact ⟨⟨fun _ => hlt, fun _ => ⟨_, rfl⟩⟩, fun hle => absurd hlt (not_lt.mpr hle)⟩
    · rw [if_neg hlt]
      obtain ⟨hnanos, hwhole, hsum⟩ := Elapsed.nanos_bounds (i.micros - j.micros)
      refine ⟨⟨nofun, fun h => absurd h hlt⟩, fun _ => ⟨_, _, rfl, hnanos, hwhole, ?_⟩⟩
      rw [hsum]
      omega
  · intro encoder width bits digits shared e e' he
    have hepoch : TimestampCodec.epochOf shared (.moment e) =
      TimestampCodec.epochOf shared (.moment e') := DateTime.toUtc_congr he
    exact TimestampCodec.build_congr_epoch hepoch encoder width bits digits
  · intro c t t' ht p
    exact c.pack_congr ht
  · intro source source' s s' e e' hs hs' he hfields h given shared
    exact create_sameInstant hs hs' he hfields h given shared

theorem exists_build_startingAt [Host] {t : DateTime} {i : Instant} (ht : t.toUtc = .ok i) :
    ∃ c, (build (.ready (.startingAt t)) none none).result = .ok c ∧
      c.settings = .startingAt t ∧
      c.timestamps =
        ⟨Numeral.crockford.encoder, 9, 11, .int 3, i, by decide, by decide, by decide⟩ ∧
      c.Uses Numeral.crockford :=
  exists_build_of_numbers rfl rfl rfl rfl rfl rfl ht

section Ample

attribute [local instance] Host.ample

/-- Two hundred microseconds into the calendar a clock five hours ahead and one
that shows UTC are read. With either for the epoch and for the timestamp there is
one identifier. -/
theorem instant_decides_ahead : ∃ c c' x,
    (build (.ready (.startingAt ⟨.start, none⟩)) none none).result = .ok c ∧
      (build (.ready (.startingAt (.ahead 0 (by decide)))) none none).result = .ok c' ∧
      Elapsed.between (.moment (.ahead 200 (by decide))) (.moment ⟨.start, none⟩) =
        .ok (0, 200000) ∧
      (c.create (.int 7) (.moment ⟨⟨200, by decide⟩, none⟩) ⟨.start, none⟩).result =
        .ok ⟨x, ⟨200, by decide⟩, 7⟩ ∧
      (c'.create (.int 7) (.moment (.ahead 200 (by decide))) ⟨.start, none⟩).result =
        .ok ⟨x, ⟨200, by decide⟩, 7⟩ := by
  obtain ⟨-, -, hutc, helapsed, -, -, hcreate⟩ := instant_decides
  have hstart : (⟨.start, none⟩ : DateTime).position = 0 := by
    rw [DateTime.position_eq]
    rfl
  have hplain : (⟨⟨200, by decide⟩, none⟩ : DateTime).position = 200 := by
    rw [DateTime.position_eq]
    rfl
  have hahead := DateTime.position_ahead 200 (by decide)
  have hshown : (Value.moment (.ahead 200 (by decide))).toUtc = .ok ⟨200, by decide⟩ :=
    ((hutc _).1 _).mpr ((DateTime.position_ofInstant _).trans hahead.symm)
  -- the time that has elapsed is the only one with that sum
  obtain ⟨seconds, nanos, hbetween, hlt, -, hsum⟩ :=
    (helapsed _ ⟨.start, none⟩ _ .start hshown rfl).2 (by rw [hahead, hstart]; norm_num)
  rw [hahead, hstart] at hsum
  obtain ⟨rfl, rfl⟩ : seconds = 0 ∧ nanos = 200000 := by omega
  obtain ⟨c, hc, hsettings, htimestamps, hn⟩ := exists_build_startingAt (t := ⟨.start, none⟩) rfl
  have hds : c.settings.checkDigitAlphabet = .text "0123456789" :=
    congrArg (·.checkDigitAlphabet) hsettings
  have hlimit : c.LimitFits := ⟨.int 1, by rw [hsettings]; rfl, by decide⟩
  have hdigit : ¬ c.settings.checkDigitAlgorithm.Rejects
      (CheckDigit.code (List.replicate 9 '0' ++ Numeral.crockford.write 7)) := by
    rw [hsettings]
    exact Algorithm.not_rejects_verhoeff _
  obtain ⟨x, hx, -⟩ := (encodable_of_packs_zero (s := 7) (t := ⟨200, by decide⟩) htimestamps
    (by decide) (Nat.zero_le _) (by decide) hlimit hdigit).createAt hn hds
      (zeros_le_memory (congrArg (·.width) htimestamps) (by decide) 0)
  have hcreated : (c.create (.int 7) (.moment ⟨⟨200, by decide⟩, none⟩) ⟨.start, none⟩).result =
      .ok ⟨x, ⟨200, by decide⟩, 7⟩ := (create_of_ok rfl rfl).trans hx
  rcases hcreate (.ready (.startingAt ⟨.start, none⟩)) (.ready (.startingAt (.ahead 0 (by decide))))
    _ _ ⟨.start, none⟩ (.ahead 0 (by decide)) rfl rfl rfl rfl
    (hstart.trans (DateTime.position_ahead 0 _).symm) none none with
    ⟨err, herr, -⟩ | ⟨d, c', hd, hc', hsame⟩
  · cases hc.symm.trans herr
  obtain rfl : c = d := Except.ok.inj (hc.symm.trans hd)
  refine ⟨c, c', x, hc, hc', hbetween, hcreated, ?_⟩
  rw [hsame (.int 7) ⟨⟨200, by decide⟩, none⟩ _ ⟨.start, none⟩ _ (hplain.trans hahead.symm)]
  exact hcreated

end Ample

end Codec
end ChronoId
