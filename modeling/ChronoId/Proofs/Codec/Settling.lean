/-
# What was decoded stays as it is

A decoded timestamp that is encoded again decodes to itself, and so an
identifier that is created anew from what another one decodes to, decodes to
the same. Only the first round trip may move a time.

Key theorems: `TimestampCodec.exists_repacked`, `Codec.decode_recreated`.
-/
import ChronoId.Proofs.Codec.Drift
import ChronoId.Proofs.Settling

namespace ChronoId

namespace TimestampCodec

variable {c : TimestampCodec} {t u : Instant} {p : Nat}

/-- What was unpacked is packed into a number that is unpacked to it. -/
theorem exists_repacked (hp : c.pack (DateTime.ofInstant t) = .ok p) (hu : c.unpack p = .ok u) :
    ∃ q, c.pack (DateTime.ofInstant u) = .ok q ∧ c.unpack q = .ok u := by
  obtain ⟨-, hue, hmicros⟩ := unpack_pack hp hu
  have hsettled := Timestamp.roundTrip_settles c.bits_le c.digits_bounds hmicros
  refine ⟨_, pack_ofInstant_eq_ok_iff.mpr ⟨hue, rfl⟩, ?_⟩
  rw [unpack_eq_ok_iff, unpacked, hsettled]
  omega

end TimestampCodec

namespace Codec

variable {c : Codec} {n : Numeral}

/-- An identifier made of what another one decodes to, decodes to the same. -/
theorem decode_recreated [Host] (h : c.Uses n) {p s : Nat} {t u : Instant}
    (hp : c.timestamps.pack (DateTime.ofInstant t) = .ok p) (hu : c.timestamps.unpack p = .ok u)
    {d now : DateTime} (hd : d.toUtc? = some u) {r : Identifier}
    (hr : (c.create (.int s) (.moment d) now).result = .ok r) :
    (c.decode (.text r.id)).result = .ok (some ⟨r.id, u, s⟩) := by
  obtain ⟨hv, hinstant, q, _, u', hq, hu', -, hdecode⟩ := exists_decoded_of_create h hr
  have hs : s = r.sequence := by exact_mod_cast Value.int.inj hv
  have ht : r.timestamp = u :=
    Except.ok.inj (hinstant.symm.trans (DateTime.toUtc_eq_ok_iff.mpr hd))
  obtain ⟨q', hq', hsettled⟩ := TimestampCodec.exists_repacked hp hu
  rw [ht] at hq
  cases Except.ok.inj (hq.symm.trans hq')
  cases Except.ok.inj (hu'.symm.trans hsettled)
  rw [hs]
  exact hdecode

/-- Every reading of an instant from the epoch on is packed, and what that is
unpacked to is packed into a number that is unpacked to it. What was created
decodes, and what is created from that, with any reading of the decoded time,
decodes to the same. -/
theorem create_settles [Host] :
    (∀ (c : TimestampCodec) (d : DateTime) (t : Instant), d.toUtc? = some t →
      c.epoch.micros ≤ t.micros → ∃ p, c.pack d = .ok p ∧ ∀ u, c.unpack p = .ok u →
        ∃ q, c.pack (DateTime.ofInstant u) = .ok q ∧ c.unpack q = .ok u) ∧
    ∀ (source : Settings.Source) (shared : Option Instant) (c : Codec),
      (build source none shared).result = .ok c →
      ∀ v t now r, (c.create v t now).result = .ok r →
        ∃ y, (c.decode (.text r.id)).result = .ok (some y) ∧
          ∀ d now' r', d.toUtc? = some y.timestamp →
            (c.create (.int y.sequence) (.moment d) now').result = .ok r' →
            (c.decode (.text r'.id)).result = .ok (some ⟨r'.id, y.timestamp, y.sequence⟩) := by
  constructor
  · intro c d t ht hle
    refine ⟨_, TimestampCodec.pack_of_toUtc ht hle, ?_⟩
    intro u hu
    exact TimestampCodec.exists_repacked (TimestampCodec.pack_ofInstant_eq_ok_iff.mpr ⟨hle, rfl⟩) hu
  · intro source shared c h v t now r hr
    obtain ⟨n, hn⟩ := exists_uses_of_build h
    obtain ⟨-, -, p, _, u, hp, hu, -, hdecode⟩ := exists_decoded_of_create hn hr
    refine ⟨_, hdecode, ?_⟩
    intro d now' r' hd hr'
    exact decode_recreated hn hp hu hd hr'

section Ample

attribute [local instance] Host.ample

/-- The default codec loses a tenth of a millisecond once. -/
theorem create_settles_default : ∃ c x x',
    (build .defaults none (some .start)).result = .ok c ∧
      (∃ q, c.timestamps.pack (DateTime.ofInstant .start) = .ok q ∧
        c.timestamps.unpack q = .ok .start) ∧
      (c.create (.int 7) (.moment (DateTime.ofInstant ⟨100, by decide⟩)) ⟨.start, none⟩).result =
        .ok ⟨x, ⟨100, by decide⟩, 7⟩ ∧
      (c.decode (.text x)).result = .ok (some ⟨x, .start, 7⟩) ∧
      (c.create (.int 7) (.moment (DateTime.ofInstant .start)) ⟨.start, none⟩).result =
        .ok ⟨x', .start, 7⟩ ∧
      (c.decode (.text x')).result = .ok (some ⟨x', .start, 7⟩) := by
  obtain ⟨c, hc, hsettings, htimestamps, hn⟩ := exists_build_defaults .start
  have hds : c.settings.checkDigitAlphabet = .text "0123456789" :=
    congrArg (·.checkDigitAlphabet) hsettings
  have hepoch : c.timestamps.epoch.micros ≤ 100 := by
    rw [htimestamps]
    exact (by decide : WallTime.start.micros ≤ 100)
  have he : c.Encodable Numeral.crockford 7 ⟨100, by decide⟩ 0 .start :=
    encodable_default hsettings htimestamps (by decide) (by decide) (by decide)
  have he' : c.Encodable Numeral.crockford 7 .start 0 .start :=
    encodable_default hsettings htimestamps (by decide) (by decide) (by decide)
  have hwidth : c.timestamps.width = 9 := congrArg (·.width) htimestamps
  obtain ⟨x, hx, hdecode⟩ := he.createAt hn hds (zeros_le_memory hwidth (by decide) 0)
  obtain ⟨x', hx', -⟩ := he'.createAt hn hds (zeros_le_memory hwidth (by decide) 0)
  have hcreate : (c.create (.int 7) (.moment (DateTime.ofInstant ⟨100, by decide⟩))
      ⟨.start, none⟩).result = .ok ⟨x, ⟨100, by decide⟩, 7⟩ := (create_of_ok rfl rfl).trans hx
  have hcreate' : (c.create (.int 7) (.moment (DateTime.ofInstant .start)) ⟨.start, none⟩).result =
      .ok ⟨x', .start, 7⟩ := (create_of_ok rfl rfl).trans hx'
  obtain ⟨hpacks, hcreates⟩ := create_settles
  obtain ⟨p, hp, hround⟩ :=
    hpacks c.timestamps (DateTime.ofInstant ⟨100, by decide⟩) ⟨100, by decide⟩ rfl hepoch
  obtain rfl : p = 0 := Except.ok.inj (hp.symm.trans he.packed)
  obtain ⟨y, hy, hrecreate⟩ := hcreates _ _ c hc _ _ _ _ hcreate
  obtain rfl : y = ⟨x, .start, 7⟩ := Option.some.inj (Except.ok.inj (hy.symm.trans hdecode))
  have hagain := hrecreate (DateTime.ofInstant .start) ⟨.start, none⟩ _ rfl hcreate'
  exact ⟨c, x, x', hc, hround .start he.unpacked, hcreate, hdecode, hcreate', hagain⟩

end Ample

end Codec
end ChronoId
