/-
# What a round trip keeps

A timestamp that is a whole number of rounding steps after the epoch comes back
from a round trip as it is, if the binary steps are finer than the rounding
steps and these are whole microseconds. An identifier that is created at such a
time decodes to itself. The default settings keep every whole millisecond.

If binary and rounding steps are both finer than a microsecond, every timestamp
comes back, but for one pair of steps. There the two roundings together may be
more than half a microsecond.

Key definitions: `TimestampCodec.OnGrid`.
Key theorems: `TimestampCodec.OnGrid.exists_packed`, `Codec.decode_created`,
`Codec.create_lossless`, `TimestampCodec.pack_keeps_micros`.
-/
import ChronoId.Proofs.Codec.RoundTrip
import ChronoId.Proofs.Settling

namespace ChronoId

namespace TimestampCodec

/-- The instants that lie whole steps of `digits` decimal digits of a second
after the epoch. -/
def OnGrid (c : TimestampCodec) (digits : Nat) (t : Instant) : Prop :=
  ∃ k : Nat, t.micros = c.epoch.micros + k * 10 ^ (6 - digits)

variable {c : TimestampCodec} {digits : Nat} {t : Instant}

theorem OnGrid.epoch_le (h : c.OnGrid digits t) : c.epoch.micros ≤ t.micros := by
  obtain ⟨k, hk⟩ := h
  omega

section Finer

variable (hdigits : c.roundingDigits.toInt = digits) (hd : digits ≤ 6)
  (hfiner : 10 ^ digits < 2 ^ c.subsecondBits)

include hdigits hd hfiner

/-- What stands for an instant on the grid is unpacked to it. -/
theorem OnGrid.unpack (h : c.OnGrid digits t) :
    c.unpack (Timestamp.packMicros c.subsecondBits (t.micros - c.epoch.micros)) = .ok t := by
  have hb : 1 ≤ c.subsecondBits := by
    by_contra hzero
    have hten : 0 < 10 ^ digits := by positivity
    rw [show c.subsecondBits = 0 by omega, pow_zero] at hfiner
    omega
  have hd' : c.roundingDigits.toInt.toNat = digits := by omega
  have hlow := (c.digits_bounds hb).1
  rw [hd'] at hlow
  have hle := h.epoch_le
  obtain ⟨k, hk⟩ := h
  have hsteps : ((t.micros - c.epoch.micros : Nat) : Int) = (k : Int) * 10 ^ (6 - digits) := by
    rw [hk, Nat.add_sub_cancel_left]
    push_cast
    rfl
  have hround := Timestamp.roundTrip_of_grid hb c.bits_le hlow hd hfiner.le hsteps
  rw [unpack_eq_ok_iff, unpacked, hd', hround]
  omega

/-- Every reading of an instant on the grid is packed, and unpacked to it. -/
theorem OnGrid.exists_packed (h : c.OnGrid digits t) {d : DateTime} (ht : d.toUtc? = some t) :
    ∃ p : Nat, c.pack d = .ok p ∧ c.unpack p = .ok t :=
  ⟨_, pack_of_toUtc ht h.epoch_le, h.unpack hdigits hd hfiner⟩

end Finer

/-! ### Microseconds -/

/-- With twenty bits and seven digits or more every reading of an instant from
the epoch on is packed, and unpacked to it. Just twenty bits with just seven
digits are the exception: they unpack the next microsecond wherever packing moves
an instant up by nine twentieths of one. -/
theorem pack_keeps_micros (c : TimestampCodec) {digits : Nat}
    (hdigits : c.roundingDigits.toInt = digits) (hb : 20 ≤ c.subsecondBits) (hd : 7 ≤ digits)
    {d : DateTime} {t : Instant} (ht : d.toUtc? = some t) (hle : c.epoch.micros ≤ t.micros) :
    ∃ p : Nat, c.pack d = .ok p ∧
      (¬ (c.subsecondBits = 20 ∧ digits = 7) → c.unpack p = .ok t) ∧
      (c.subsecondBits = 20 → digits = 7 → ∀ u : Instant, c.unpack p = .ok u ↔
        u.micros = if 9 / 20 ≤ Timestamp.exactMicros 20 p - (t.micros - c.epoch.micros : Nat)
          then t.micros + 1 else t.micros) := by
  have hd' : c.roundingDigits.toInt.toNat = digits := by omega
  have hle9 := (c.digits_bounds (by omega)).2
  rw [hd'] at hle9
  refine ⟨_, pack_of_toUtc ht hle, ?_, ?_⟩
  · intro hpair
    rw [unpack_eq_ok_iff, unpacked, hd', Timestamp.roundTrip_micros hb c.bits_le hd hle9 hpair]
    omega
  · rintro hbits rfl u
    rw [unpack_eq_ok_iff, unpacked, hd', hbits, Timestamp.roundTrip_twenty_seven]
    split
    · omega
    · omega

/-- Timestamps from the start of the calendar on, in twenty bits. -/
def twentyBits [Host] (digits : Nat) (h : 1 ≤ digits ∧ digits ≤ 9) : TimestampCodec :=
  ⟨Numeral.crockford.encoder, 9, 20, .int digits, .start, by decide, by decide, fun _ => by
    simpa only [Whole.toInt, Nat.one_le_cast, Nat.cast_le_ofNat] using h⟩

/-- Thirty-one microseconds are packed into thirty-three steps of twenty bits. -/
theorem pack_twentyBits [Host] (digits : Nat) (h : 1 ≤ digits ∧ digits ≤ 9) :
    (twentyBits digits h).pack (DateTime.ofInstant ⟨31, by decide⟩) = .ok 33 := by
  have hnumber : Timestamp.packMicros 20 31 = 33 := by
    rw [Timestamp.packMicros_eq_halfUp (by norm_num) (by norm_num), Timestamp.halfUpNumerator]
    norm_num
  rw [pack_ofInstant_eq_ok_iff]
  exact ⟨Nat.zero_le _, hnumber.symm⟩

section Ample

attribute [local instance] Host.ample

/-- Eight digits unpack the thirty-one microseconds again. -/
theorem pack_keeps_micros_eight :
    (twentyBits 8 (by decide)).pack (DateTime.ofInstant ⟨31, by decide⟩) = .ok 33 ∧
      (twentyBits 8 (by decide)).unpack 33 = .ok ⟨31, by decide⟩ := by
  have hpacked := pack_twentyBits 8 (by decide)
  have height : (twentyBits 8 (by decide)).roundingDigits.toInt = (8 : Nat) := rfl
  have hread : (DateTime.ofInstant ⟨31, by decide⟩).toUtc? = some ⟨31, by decide⟩ := rfl
  obtain ⟨p, hp, hkept, -⟩ :=
    pack_keeps_micros _ height le_rfl (by norm_num) hread (Nat.zero_le _)
  obtain rfl : p = 33 := Except.ok.inj (hp.symm.trans hpacked)
  exact ⟨hpacked, hkept (by simp)⟩

/-- Seven digits unpack thirty-two: the steps stand for almost half a microsecond
more, and in tenths of a microsecond that is a half. -/
theorem pack_loses_micro :
    (twentyBits 7 (by decide)).subsecondBits = 20 ∧
      (twentyBits 7 (by decide)).roundingDigits.toInt = 7 ∧
      (twentyBits 7 (by decide)).pack (DateTime.ofInstant ⟨31, by decide⟩) = .ok 33 ∧
      (twentyBits 7 (by decide)).unpack 33 = .ok ⟨32, by decide⟩ := by
  have hpacked := pack_twentyBits 7 (by decide)
  have hnumber : 33 = Timestamp.packMicros 20 31 := (pack_ofInstant_eq_ok_iff.mp hpacked).2
  have hmoved : 9 / 20 ≤ Timestamp.exactMicros 20 (33 : Nat) - (31 : Nat) := by
    rw [Timestamp.exactMicros]
    norm_num
  have hround := Timestamp.roundTrip_twenty_seven 31
  rw [← hnumber, if_pos hmoved] at hround
  have hunpacked : (twentyBits 7 (by decide)).unpacked 33 = 32 := hround
  refine ⟨rfl, rfl, hpacked, ?_⟩
  rw [unpack_eq_ok_iff, hunpacked]
  rfl

end Ample

end TimestampCodec

namespace Codec

variable {c : Codec}

/-- What is created at an instant on the grid decodes to itself. -/
theorem decode_created [Host] {n : Numeral} (h : c.Uses n) {v time : Value} {now : DateTime}
    {r : Identifier} (hr : (c.create v time now).result = .ok r) {digits : Nat}
    (hgrid : c.timestamps.OnGrid digits r.timestamp)
    (hdigits : c.timestamps.roundingDigits.toInt = digits) (hd : digits ≤ 6)
    (hfiner : 10 ^ digits < 2 ^ c.timestamps.subsecondBits) :
    (c.decode (.text r.id)).result = .ok (some r) := by
  obtain ⟨-, -, p, _, u, hp, hu, -, hdecode⟩ := exists_decoded_of_create h hr
  obtain ⟨-, rfl⟩ := TimestampCodec.pack_ofInstant_eq_ok_iff.mp hp
  cases Except.ok.inj (hu.symm.trans (hgrid.unpack hdigits hd hfiner))
  exact hdecode

/-- The default settings have eleven bits and three digits. -/
theorem precision_of_defaults [Host] {shared : Option Instant}
    (h : (build .defaults none shared).result = .ok c) :
    c.timestamps.subsecondBits = 11 ∧ c.timestamps.roundingDigits.toInt = 3 := by
  have hsettings : Settings.default = c.settings := Except.ok.inj (parts_of_build h).1
  have hbits := c.bits_eq
  have hdigits := c.digits_eq
  rw [← hsettings] at hbits hdigits
  constructor
  · exact_mod_cast (Value.int.inj hbits).symm
  · cases hw : c.timestamps.roundingDigits with
    | int i =>
      rw [hw] at hdigits
      exact (Value.int.inj hdigits).symm
    | flag b =>
      rw [hw] at hdigits
      cases hdigits

/-- With binary steps finer than the rounding steps, and these of a microsecond
or more, whatever lies on the grid of the rounding steps is packed, and unpacked
to what it was. With the default settings that is every whole millisecond, and
what is created at one decodes to itself. -/
theorem create_lossless [Host] :
    (∀ (c : TimestampCodec) (digits : Nat) (d : DateTime) (t : Instant),
      c.roundingDigits.toInt = digits → digits ≤ 6 → 10 ^ digits < 2 ^ c.subsecondBits →
      d.toUtc? = some t → c.OnGrid digits t → ∃ p : Nat, c.pack d = .ok p ∧ c.unpack p = .ok t) ∧
    ∀ (shared : Option Instant) (c : Codec), (build .defaults none shared).result = .ok c →
      ∀ ms : Nat,
        (∀ d t, d.toUtc? = some t → t.micros = c.epoch.micros + ms * 1000 →
          ∃ p : Nat, c.timestamps.pack d = .ok p ∧ c.timestamps.unpack p = .ok t) ∧
        ∀ v time now r, (c.create v time now).result = .ok r →
          r.timestamp.micros = c.epoch.micros + ms * 1000 →
          (c.decode (.text r.id)).result = .ok (some r) := by
  constructor
  · intro c digits d t hdigits hd hfiner ht hgrid
    exact hgrid.exists_packed hdigits hd hfiner ht
  · intro shared c h ms
    obtain ⟨hbits, hdigits⟩ := precision_of_defaults h
    have hfiner : 10 ^ 3 < 2 ^ c.timestamps.subsecondBits := by rw [hbits]; norm_num
    constructor
    · intro d t ht hms
      have hgrid : c.timestamps.OnGrid 3 t := ⟨ms, hms⟩
      exact hgrid.exists_packed hdigits (by norm_num) hfiner ht
    · intro v time now r hr hms
      obtain ⟨n, hn⟩ := exists_uses_of_build h
      exact decode_created hn hr ⟨ms, hms⟩ hdigits (by norm_num) hfiner

/-- The default codec makes an identifier of any sequence in range and any time
whose packed number has nine characters and is unpacked to a time. -/
theorem encodable_of_default [Host] {epoch : Instant} (hsettings : c.settings = Settings.default)
    (htimestamps : c.timestamps =
      ⟨Numeral.crockford.encoder, 9, 11, .int 3, epoch, by decide, by decide, by decide⟩)
    {s p : Nat} {t u : Instant} (hs : s ≤ Settings.maxSequence)
    (hp : c.timestamps.pack (DateTime.ofInstant t) = .ok p) (hlt : p < Numeral.crockford.radix ^ 9)
    (hu : c.timestamps.unpack p = .ok u) : c.Encodable Numeral.crockford s t p u where
  sequence_le := hs
  packed := hp
  le_maxValue := hlt.le.trans (by decide)
  length_le := by
    rw [htimestamps]
    exact (Numeral.crockford.length_write_le_iff (by norm_num)).mpr hlt
  unpacked := hu
  limit := ⟨.int 1, by rw [hsettings]; rfl, by decide⟩
  digit := by
    rw [hsettings]
    exact Algorithm.not_rejects_verhoeff _

section Ample

attribute [local instance] Host.ample

/-- Seven milliseconds fall between two steps of the default codec, and yet come
back, also in an identifier. So does the last millisecond of a second in ten
bits, which are barely finer than three digits. -/
theorem create_lossless_default : ∃ c x,
    (build .defaults none (some .start)).result = .ok c ∧
      c.timestamps.pack (DateTime.ofInstant ⟨7000, by decide⟩) = .ok 14 ∧
      c.timestamps.unpack 14 = .ok ⟨7000, by decide⟩ ∧
      (c.create (.int 7) (.moment (DateTime.ofInstant ⟨7000, by decide⟩)) ⟨.start, none⟩).result =
        .ok ⟨x, ⟨7000, by decide⟩, 7⟩ ∧
      (c.decode (.text x)).result = .ok (some ⟨x, ⟨7000, by decide⟩, 7⟩) ∧
      ∃ tight : TimestampCodec, tight.subsecondBits = 10 ∧ tight.roundingDigits = .int 3 ∧
        ∃ p : Nat, tight.pack (DateTime.ofInstant ⟨999000, by decide⟩) = .ok p ∧
          tight.unpack p = .ok ⟨999000, by decide⟩ := by
  obtain ⟨c, hc, hsettings, htimestamps, hn⟩ := exists_build_defaults .start
  have hds : c.settings.checkDigitAlphabet = .text "0123456789" :=
    congrArg (·.checkDigitAlphabet) hsettings
  have hepoch : c.epoch.micros = 0 := by rw [Codec.epoch, htimestamps]; rfl
  have hpacked : c.timestamps.pack (DateTime.ofInstant ⟨7000, by decide⟩) = .ok 14 := by
    have hnumber : Timestamp.packMicros 11 7000 = 14 := by
      rw [Timestamp.packMicros_eq_halfUp (by norm_num) (by norm_num), Timestamp.halfUpNumerator]
      norm_num
    rw [TimestampCodec.pack_ofInstant_eq_ok_iff, htimestamps]
    exact ⟨Nat.zero_le _, hnumber.symm⟩
  obtain ⟨hgrid, hdefaults⟩ := create_lossless
  obtain ⟨hmillis, hcreated⟩ := hdefaults _ c hc 7
  obtain ⟨p, hp, hunpacked⟩ := hmillis (DateTime.ofInstant ⟨7000, by decide⟩) ⟨7000, by decide⟩ rfl
    (by rw [hepoch])
  obtain rfl : p = 14 := Except.ok.inj (hp.symm.trans hpacked)
  have he : c.Encodable Numeral.crockford 7 ⟨7000, by decide⟩ 14 ⟨7000, by decide⟩ :=
    encodable_of_default hsettings htimestamps (by decide) hpacked (by decide) hunpacked
  have hwidth : c.timestamps.width = 9 := congrArg (·.width) htimestamps
  obtain ⟨x, hx, -⟩ := he.createAt hn hds (zeros_le_memory hwidth (by decide) 14)
  have hcreate : (c.create (.int 7) (.moment (DateTime.ofInstant ⟨7000, by decide⟩))
      ⟨.start, none⟩).result = .ok ⟨x, ⟨7000, by decide⟩, 7⟩ := (create_of_ok rfl rfl).trans hx
  have hdecode := hcreated _ _ _ _ hcreate (by rw [hepoch])
  let tight : TimestampCodec :=
    ⟨Numeral.crockford.encoder, 9, 10, .int 3, .start, by decide, by decide, by decide⟩
  have htight : tight.OnGrid 3 ⟨999000, by decide⟩ := ⟨999, (Nat.zero_add 999000).symm⟩
  have hround := hgrid tight 3 (DateTime.ofInstant ⟨999000, by decide⟩) ⟨999000, by decide⟩ rfl
    (by decide) (by decide) rfl htight
  exact ⟨c, x, hc, hpacked, hunpacked, hcreate, hdecode, tight, rfl, rfl, hround⟩

end Ample

end Codec
end ChronoId
