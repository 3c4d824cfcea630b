/-
# What is created decodes

If a sequence is in range, the packed time fits the width and unpacks into the
calendar, the drift limit is a duration and the algorithm has a digit, then an
identifier is created, it decodes to the unpacked time and the sequence, and it
is valid. The one thing more that it takes is room for the zeros.

The check that ends every creation fails in one case: the subseconds were
rounded up into a second behind the end of the calendar, which can be written
but not read. A sequence that is out of range is rejected, unless it has too
many digits for the wording that would show it.

Key definitions: `Codec.Encodable`, `Codec.Overruns`, `Codec.Refusal`.
Key theorems: `Codec.Encodable.createAt`, `Codec.Overruns.createAt`,
`Codec.create_cases`.
-/
import ChronoId.Proofs.Codec.Encode
import ChronoId.Proofs.Packing
import Mathlib.Algebra.Order.Ring.Star

namespace ChronoId

/-- Whole seconds from the start of the calendar on, in a field of so many
characters. -/
def Settings.wholeSeconds (width : Nat) (h : 0 < width) : Settings where
  timestampWidth := .int width
  subsecondBits := .int 0
  customEpoch := .moment ⟨.start, none⟩
  accepted := by
    have hwidth : ¬ (width : Int) ≤ 0 := by omega
    have hrequired :
        SettingsFields.require (((Value.int width).atMost? 0).map (!·)) .timestampWidth = .ok () := by
      rw [Value.atMost?, decide_eq_false hwidth]
      rfl
    rw [SettingsFields.check, hrequired]
    rfl

namespace TimestampCodec

theorem width?_natCast {width : Nat} (h : 0 < width) : width? (.int width) = some ⟨width, h, rfl⟩ :=
  dif_pos h

end TimestampCodec

namespace Codec

variable {c : Codec} {n : Numeral}

theorem exists_build_wholeSeconds [Host] (width : Nat) (h : 0 < width) :
    ∃ c, (build (.ready (Settings.wholeSeconds width h)) none none).result = .ok c ∧
      c.settings = Settings.wholeSeconds width h ∧
      c.timestamps = ⟨Numeral.crockford.encoder, width, 0, .int 3, .start, h, by decide, by decide⟩ ∧
      c.Uses Numeral.crockford := by
  have ht : TimestampCodec.build (some Numeral.crockford.encoder) (.int width) (.int 0) (.int 3)
      (.moment ⟨.start, none⟩) none = .ok ⟨⟨Numeral.crockford.encoder, width, 0, .int 3, .start, h,
        by decide, by decide⟩, rfl, rfl, rfl⟩ := by
    simp only [TimestampCodec.build, TimestampCodec.width?_natCast h]
    rfl
  exact exists_build (s := Settings.wholeSeconds width h) rfl rfl rfl ht

/-! ### Progress and round trip -/

/-- What has to hold of a sequence and an instant for an identifier of them:
the instant is packed into a number that is in range, fits the width and
unpacks into the calendar. -/
structure Encodable (c : Codec) (n : Numeral) (s : Nat) (t : Instant) (p : Nat) (u : Instant) :
    Prop where
  sequence_le : s ≤ Settings.maxSequence
  packed : c.timestamps.pack (DateTime.ofInstant t) = .ok p
  le_maxValue : p ≤ maxValue
  length_le : (n.write p).length ≤ c.timestamps.width
  unpacked : c.timestamps.unpack p = .ok u
  limit : c.LimitFits
  digit : ¬ c.settings.checkDigitAlgorithm.Rejects
    (CheckDigit.code (n.padded c.timestamps.width p ++ n.write s))

theorem isValid_of_decode {v : Value} {y : Identifier} (h : (c.decode v).result = .ok (some y)) :
    (c.isValid v).result = .ok true := by
  rw [isValid, Logged.result_bind, h]
  rfl

section Host

variable [Host]

/-- What can be encoded has a text that decodes, though there may be no room to
make it. -/
theorem Encodable.exists_written {ds : String} (h : c.Uses n)
    (hds : c.settings.checkDigitAlphabet = .text ds) {s p : Nat} {t u : Instant}
    (he : c.Encodable n s t p u) : ∃ x d, c.Written n x (n.padded c.timestamps.width p) s d ∧
      (c.decode (.text x)).result = .ok (some ⟨x, u, s⟩) := by
  have hvalue := n.value_padded c.timestamps.width p
  obtain ⟨x, d, hw⟩ := (exists_written_iff hds (n.length_padded he.length_le) (fun _ => n.mem_padded)
    (hvalue.symm ▸ he.le_maxValue) he.sequence_le).mpr he.digit
  refine ⟨x, d, hw, decode_eq_some_iff.mpr (hw.decodeText h ?_)⟩
  rw [hvalue]
  exact he.unpacked

theorem Encodable.createAt {ds : String} (h : c.Uses n)
    (hds : c.settings.checkDigitAlphabet = .text ds) {s p : Nat} {t u : Instant}
    (he : c.Encodable n s t p u)
    (hroom : c.timestamps.width - (n.write p).length ≤ Host.memory) :
    ∃ id, (c.createAt s t).result = .ok ⟨id, t, s⟩ ∧
      (c.decode (.text id)).result = .ok (some ⟨id, u, s⟩) := by
  obtain ⟨x, d, hw, -⟩ := he.exists_written h hds
  have hx : c.encode s t = .ok x := (encode_eq_ok_iff h he.sequence_le).mpr
    ⟨p, d, he.packed, ⟨he.le_maxValue, he.length_le, hroom⟩, hw⟩
  rcases createAt_cases (t := t) h he.sequence_le with
    ⟨e, herror, -⟩ | ⟨x', p', d', hp', -, hw', hcases⟩
  · cases hx.symm.trans herror
  cases Except.ok.inj (he.packed.symm.trans hp')
  rcases hcases with ⟨u', hu', -, hdecode, hcreate⟩ | ⟨hlimit, -⟩ | ⟨hu', -⟩
  · cases Except.ok.inj (he.unpacked.symm.trans hu')
    exact ⟨x', hcreate, hdecode⟩
  · exact absurd he.limit hlimit
  · cases he.unpacked.symm.trans hu'

/-- Every instant from the epoch on is packed. A sequence and a timestamp that
can be encoded, with room for the zeros, are created, and what is created
decodes to the unpacked time and the sequence. No check digit takes a sequence
out of the range of the encoder. -/
theorem create_decodes {source : Settings.Source} {shared : Option Instant} {c : Codec} {ds : String}
    (h : (build source none shared).result = .ok c) (hds : c.settings.checkDigitAlphabet = .text ds) :
    ∃ n, c.Uses n ∧
      (∀ t : Instant, c.epoch.micros ≤ t.micros →
        ∃ p, c.timestamps.pack (DateTime.ofInstant t) = .ok p) ∧
      (∀ timestamp now s t p u, instantOf timestamp now = .ok t → c.Encodable n s t p u →
        c.timestamps.width - (n.write p).length ≤ Host.memory →
        ∃ id, (c.create (.int s) timestamp now).result = .ok ⟨id, t, s⟩ ∧
          (c.decode (.text id)).result = .ok (some ⟨id, u, s⟩) ∧
          (c.isValid (.text id)).result = .ok true) ∧
      ∀ s d, s ≤ Settings.maxSequence → d < 10 → s * 10 + d ≤ maxValue := by
  obtain ⟨n, hn⟩ := exists_uses_of_build h
  refine ⟨n, hn, ?_, ?_, fun s d hs hd => checked_le_maxValue hs hd⟩
  · intro t ht
    exact ⟨_, TimestampCodec.pack_ofInstant_eq_ok_iff.mpr ⟨ht, rfl⟩⟩
  · intro timestamp now s t p u ht he hroom
    obtain ⟨id, hcreate, hdecode⟩ := he.createAt hn hds hroom
    have hs := sequenceOf_natCast he.sequence_le
    refine ⟨id, ?_, hdecode, isValid_of_decode hdecode⟩
    rw [create_of_ok hs ht]
    exact hcreate

/-- Whole seconds are encodable if they fit the field. -/
theorem encodable_wholeSeconds {width : Nat} {h : 0 < width}
    (hsettings : c.settings = Settings.wholeSeconds width h)
    (htimestamps : c.timestamps =
      ⟨Numeral.crockford.encoder, width, 0, .int 3, .start, h, by decide, by decide⟩)
    {s k : Nat} {t : Instant} (hs : s ≤ Settings.maxSequence) (ht : t.micros = k * 1000000)
    (hk : k ≤ maxValue) (hlength : (n.write k).length ≤ width) : c.Encodable n s t k t where
  sequence_le := hs
  packed := by
    rw [TimestampCodec.pack_ofInstant_eq_ok_iff, htimestamps]
    refine ⟨Nat.zero_le _, ?_⟩
    rw [Timestamp.packMicros_zero_bits, ht]
    exact (Nat.mul_div_cancel k (by norm_num)).symm
  le_maxValue := hk
  length_le := by
    rw [htimestamps]
    exact hlength
  unpacked := by
    have hepoch : c.timestamps.epoch.micros = 0 := by
      rw [htimestamps]
      rfl
    have hseconds : c.timestamps.unpacked k = k * 1000000 := by
      rw [TimestampCodec.unpacked, htimestamps]
      rfl
    rw [TimestampCodec.unpack_eq_ok_iff, hepoch, hseconds, ht]
    push_cast
    ring
  limit := ⟨.int 1000, by rw [hsettings]; rfl, by decide⟩
  digit := by
    rw [hsettings]
    exact Algorithm.not_rejects_verhoeff _

/-- There is room for the zeros where there is room for the whole field. -/
theorem zeros_le_memory {width : Nat} (hwidth : c.timestamps.width = width)
    (hroom : width ≤ Host.memory) (p : Nat) :
    c.timestamps.width - (n.write p).length ≤ Host.memory :=
  (Nat.sub_le _ _).trans (hwidth.trans_le hroom)

/-- Less than half a step behind the epoch, timestamps like the default ones pack
nothing, and what the check digit is for is the sequence behind nine zeros. -/
theorem encodable_of_packs_zero {epoch : Instant} (htimestamps : c.timestamps =
      ⟨Numeral.crockford.encoder, 9, 11, .int 3, epoch, by decide, by decide, by decide⟩)
    {s : Nat} {t : Instant} (hs : s ≤ Settings.maxSequence) (hle : epoch.micros ≤ t.micros)
    (hlt : t.micros - epoch.micros ≤ 244) (hlimit : c.LimitFits)
    (hdigit : ¬ c.settings.checkDigitAlgorithm.Rejects
      (CheckDigit.code (List.replicate 9 '0' ++ Numeral.crockford.write s))) :
    c.Encodable Numeral.crockford s t 0 epoch where
  sequence_le := hs
  packed := by
    have hnumber : Timestamp.packMicros 11 (t.micros - epoch.micros) = 0 := by
      rw [Timestamp.packMicros_eq_halfUp (by norm_num) (by norm_num), Timestamp.halfUpNumerator]
      omega
    rw [TimestampCodec.pack_ofInstant_eq_ok_iff, htimestamps]
    exact ⟨hle, hnumber.symm⟩
  le_maxValue := Nat.zero_le _
  length_le := by
    rw [Numeral.write_zero, htimestamps]
    exact (by decide : 1 ≤ 9)
  unpacked := by
    rw [Nat.cast_zero, TimestampCodec.unpack_zero, htimestamps]
  limit := hlimit
  digit := by
    have hstamp : Numeral.crockford.padded 9 0 = List.replicate 9 '0' := by
      rw [Numeral.padded, Numeral.write_zero]
      rfl
    rw [htimestamps, hstamp]
    exact hdigit

theorem encodable_default {epoch : Instant} (hsettings : c.settings = Settings.default)
    (htimestamps : c.timestamps =
      ⟨Numeral.crockford.encoder, 9, 11, .int 3, epoch, by decide, by decide, by decide⟩)
    {s : Nat} {t : Instant} (hs : s ≤ Settings.maxSequence) (hle : epoch.micros ≤ t.micros)
    (hlt : t.micros - epoch.micros ≤ 244) : c.Encodable Numeral.crockford s t 0 epoch := by
  apply encodable_of_packs_zero htimestamps hs hle hlt
  · exact ⟨.int 1, by rw [hsettings]; rfl, by decide⟩
  · rw [hsettings]
    exact Algorithm.not_rejects_verhoeff _

/-- There the default settings create an identifier, which decodes to the
epoch. -/
theorem exists_createAt_default (hroom : 9 ≤ Host.memory) {epoch : Instant}
    (hn : c.Uses Numeral.crockford) (hsettings : c.settings = Settings.default) (htimestamps : c.timestamps =
      ⟨Numeral.crockford.encoder, 9, 11, .int 3, epoch, by decide, by decide, by decide⟩)
    {s : Nat} {t : Instant} (hs : s ≤ Settings.maxSequence) (hle : epoch.micros ≤ t.micros)
    (hlt : t.micros - epoch.micros ≤ 244) :
    ∃ x, (c.createAt s t).result = .ok ⟨x, t, s⟩ ∧
      (c.decode (.text x)).result = .ok (some ⟨x, epoch, s⟩) := by
  have hds : c.settings.checkDigitAlphabet = .text "0123456789" :=
    congrArg (·.checkDigitAlphabet) hsettings
  exact (encodable_default hsettings htimestamps hs hle hlt).createAt hn hds
    (zeros_le_memory (congrArg (·.width) htimestamps) hroom 0)

end Host

section Ample

attribute [local instance] Host.ample

/-- Nine characters have room: an identifier is created, and decodes. -/
theorem create_decodes_wholeSeconds : ∃ c id,
    (build (.ready (Settings.wholeSeconds 9 (by decide))) none none).result = .ok c ∧
      (c.create (.int 7) (.moment ⟨.start, none⟩) ⟨.start, none⟩).result = .ok ⟨id, .start, 7⟩ ∧
      (c.decode (.text id)).result = .ok (some ⟨id, .start, 7⟩) ∧
      (c.isValid (.text id)).result = .ok true := by
  obtain ⟨c, hc, hsettings, htimestamps, -⟩ := exists_build_wholeSeconds 9 (by decide)
  have hds : c.settings.checkDigitAlphabet = .text "0123456789" :=
    congrArg (·.checkDigitAlphabet) hsettings
  obtain ⟨n, hn, -, hcreate, -⟩ := create_decodes hc hds
  have he : c.Encodable n 7 .start 0 .start :=
    encodable_wholeSeconds hsettings htimestamps (by decide) rfl (Nat.zero_le _)
      (by rw [n.write_zero, List.length_singleton]; decide)
  have hwidth : c.timestamps.width = 9 := congrArg (·.width) htimestamps
  obtain ⟨id, hid⟩ := hcreate (.moment ⟨.start, none⟩) ⟨.start, none⟩ 7 .start 0 .start rfl he
    (zeros_le_memory hwidth (by decide) 0)
  exact ⟨c, id, hc, hid⟩

/-- So many characters have none on any host: everything else holds, and the zeros
are refused. -/
theorem create_wide_textTooLong : ∃ c n,
    (build (.ready (Settings.wholeSeconds (10 ^ 30) (by norm_num))) none none).result = .ok c ∧
      c.Uses n ∧ c.settings.checkDigitAlphabet = .text "0123456789" ∧
      instantOf (.moment ⟨.start, none⟩) ⟨.start, none⟩ = .ok .start ∧
      c.Encodable n 7 .start 0 .start ∧
      (c.create (.int 7) (.moment ⟨.start, none⟩) ⟨.start, none⟩).result = .error .textTooLong := by
  obtain ⟨c, hc, hsettings, htimestamps, hn⟩ := exists_build_wholeSeconds (10 ^ 30) (by norm_num)
  have he : c.Encodable Numeral.crockford 7 .start 0 .start :=
    encodable_wholeSeconds hsettings htimestamps (by decide) rfl (Nat.zero_le _)
      (by rw [Numeral.write_zero]; norm_num)
  refine ⟨c, Numeral.crockford, hc, hn, by rw [hsettings]; rfl, rfl, he, ?_⟩
  have hwidth : c.timestamps.width - (Numeral.crockford.write 0).length = 10 ^ 30 - 1 := by
    rw [htimestamps, Numeral.write_zero]
    rfl
  have hstamp := TimestampCodec.encode_ofInstant_of_no_room hn.encoder he.packed he.le_maxValue
    (by rw [hwidth]; decide)
  rw [hwidth, if_pos (by decide)] at hstamp
  rw [create_of_ok (s := 7) rfl rfl, createAt_result, encode, hstamp]
  rfl

end Ample

/-! ### The check that ends a creation -/

section Host

variable [Host]

/-- An instant in range whose identifier is written but has no time left in
the calendar. -/
structure Overruns (c : Codec) (n : Numeral) (s : Nat) (t : Instant) (x : String) (p d : Nat) :
    Prop where
  packed : c.timestamps.pack (DateTime.ofInstant t) = .ok p
  fits : c.timestamps.Fits n p
  written : c.Written n x (n.padded c.timestamps.width p) s d
  limit_le : WallTime.limit ≤ c.epoch.micros + c.timestamps.unpacked p

theorem Overruns.createAt (h : c.Uses n) {s p d : Nat} {t : Instant} {x : String}
    (ho : c.Overruns n s t x p d) :
    (c.createAt s t).result = .error (.consistency (.undecodable x)) := by
  have hs := ho.written.sequence_le
  have hx : c.encode s t = .ok x := (encode_eq_ok_iff h hs).mpr ⟨p, d, ho.packed, ho.fits, ho.written⟩
  have hu := TimestampCodec.unpack_natCast_eq_error_iff.mpr ho.limit_le
  have hvalue := n.value_padded c.timestamps.width p
  have hdecode := ho.written.undecodable h (hvalue.symm ▸ hu)
  rw [createAt_result, hx, bind_ok, hdecode]
  rfl

/-- Why nothing is created from a timestamp within the calendar's end: an input
is rejected; it would be, but the wording cannot show the sequence; UTC has no
reading for the timestamp; the drift limit is no duration; or there is no room
for the zeros. -/
inductive Refusal (c : Codec) (n : Numeral) (sequence timestamp : Value) (now : DateTime) :
    Error → Prop where
  | input (f : InputFault) : Refusal c n sequence timestamp now (.input f)
  | unshown (i : Int) (h : sequence = .int i) (hi : 10 ^ Integer.maxDigits ≤ i.natAbs) :
      Refusal c n sequence timestamp now .integerTooLong
  | noUtc (d : DateTime) (h : timestamp = .moment d ∨ timestamp = .null ∧ d = now)
      (hd : d.toUtc? = none) : Refusal c n sequence timestamp now .calendarOverflow
  | limit (h : ¬ c.LimitFits) : Refusal c n sequence timestamp now .driftLimitOverflow
  | room (t : Instant) (p : Nat) (e : Error) (he : e = .textTooLong ∨ e = .outOfMemory)
      (ht : instantOf timestamp now = .ok t) (hp : c.timestamps.pack (DateTime.ofInstant t) = .ok p)
      (h : Host.memory < c.timestamps.width - (n.write p).length) :
      Refusal c n sequence timestamp now e

/-- How a creation ends. -/
theorem create_cases (h : c.Uses n) {ds : String} (hds : c.settings.checkDigitAlphabet = .text ds)
    (v t : Value) (now : DateTime) :
    (∃ e, (c.create v t now).result = .error e ∧ c.Refusal n v t now e) ∨
    ∃ (s : Nat) (u : Instant), v = .int s ∧ instantOf t now = .ok u ∧
      ((∃ x p d, c.Overruns n s u x p d ∧
          (c.create v t now).result = .error (.consistency (.undecodable x))) ∨
        ∃ x u', (c.decode (.text x)).result = .ok (some ⟨x, u', s⟩) ∧
          (c.create v t now).result = .ok ⟨x, u, s⟩) := by
  rcases sequenceOf_cases v with ⟨s, hs, rfl, hsequence⟩ | ⟨e, he, hcause⟩
  swap
  · refine Or.inl ⟨e, by rw [create_result, he]; rfl, ?_⟩
    rcases hcause with ⟨f, rfl⟩ | ⟨rfl, i, hi, hlong⟩
    · exact .input f
    · exact .unshown i hi hlong
  cases hu : instantOf t now with
  | error e =>
    refine Or.inl ⟨e, by rw [create_result, hsequence, hu]; rfl, ?_⟩
    rcases instantOf_error hu with ⟨f, rfl⟩ | ⟨rfl, d, hd, hnone⟩
    · exact .input f
    · exact .noUtc d hd hnone
  | ok u =>
    rw [create_of_ok hsequence hu]
    rcases createAt_cases (t := u) h hs with ⟨e, hencode, he⟩ | ⟨x, p, d, hp, hfits, hw, hcases⟩
    · refine Or.inl ⟨e, he, ?_⟩
      rcases encode_error h hds hencode with ⟨f, rfl⟩ | ⟨hroom, p, hp, hlt⟩
      · exact .input f
      · exact .room u p e hroom hu hp hlt
    rcases hcases with ⟨u', -, -, hdecode, hok⟩ | ⟨hlimit, herror⟩ | ⟨hover, herror⟩
    · exact Or.inr ⟨s, u, rfl, rfl, Or.inr ⟨x, u', hdecode, hok⟩⟩
    · exact Or.inl ⟨_, herror, .limit hlimit⟩
    · have hle := TimestampCodec.unpack_natCast_eq_error_iff.mp hover
      exact Or.inr ⟨s, u, rfl, rfl, Or.inl ⟨x, p, d, ⟨hp, hfits, hw, hle⟩, herror⟩⟩

theorem Refusal.not_consistency {v t : Value} {now : DateTime} {f : ConsistencyFault} :
    ¬ c.Refusal n v t now (.consistency f) := by
  rintro (_ | _ | _ | _ | ⟨_, _, _, he | he, _⟩) <;> cases he

theorem Refusal.unshown_iff {v t : Value} {now : DateTime} : c.Refusal n v t now .integerTooLong ↔
    ∃ i : Int, v = .int i ∧ 10 ^ Integer.maxDigits ≤ i.natAbs := by
  constructor
  · rintro (_ | ⟨i, hv, hi⟩ | _ | _ | ⟨_, _, _, he | he, _⟩)
    · exact ⟨i, hv, hi⟩
    · cases he
    · cases he
  · rintro ⟨i, hv, hi⟩
    exact .unshown i hv hi

/-- The final check fails exactly if the identifier overruns the calendar, and the
wording of a rejection exactly if it would show a sequence of too many digits.
Otherwise a creation that fails is refused, and what is created decodes to its
sequence. -/
theorem create_consistency_iff {source : Settings.Source} {shared : Option Instant} {c : Codec}
    {ds : String} (h : (build source none shared).result = .ok c)
    (hds : c.settings.checkDigitAlphabet = .text ds) :
    ∃ n, c.Uses n ∧
      (∀ v t now f, (c.create v t now).result = .error (.consistency f) ↔
        ∃ (s : Nat) (u : Instant) (x : String) (p d : Nat), v = .int s ∧ instantOf t now = .ok u ∧
          c.Overruns n s u x p d ∧ f = .undecodable x) ∧
      (∀ v t now, (c.create v t now).result = .error .integerTooLong ↔
        ∃ i : Int, v = .int i ∧ 10 ^ Integer.maxDigits ≤ i.natAbs) ∧
      (∀ v t now e, (c.create v t now).result = .error e →
        (∃ f, e = .consistency f) ∨ c.Refusal n v t now e) ∧
      ∀ v t now r, (c.create v t now).result = .ok r →
        ∃ y, (c.decode (.text r.id)).result = .ok (some y) ∧ y.sequence = r.sequence := by
  obtain ⟨n, hn⟩ := exists_uses_of_build h
  have hrefusal : ∀ v t now e, (c.create v t now).result = .error e →
      (∃ f, e = .consistency f) ∨ c.Refusal n v t now e := by
    intro v t now e he
    rcases create_cases hn hds v t now with ⟨e', he', hrefusal⟩ | ⟨s, u, -, -, hover | hok⟩
    · cases he.symm.trans he'
      exact Or.inr hrefusal
    · obtain ⟨x, p, d, -, herror⟩ := hover
      cases he.symm.trans herror
      exact Or.inl ⟨_, rfl⟩
    · obtain ⟨x, u', -, hok⟩ := hok
      cases he.symm.trans hok
  refine ⟨n, hn, ?_, ?_, hrefusal, ?_⟩
  · intro v t now f
    constructor
    · intro hf
      rcases create_cases hn hds v t now with ⟨e, he, hrefusal⟩ | ⟨s, u, hv, hu, hover | hok⟩
      · cases hf.symm.trans he
        exact absurd hrefusal Refusal.not_consistency
      · obtain ⟨x, p, d, hover, herror⟩ := hover
        cases hf.symm.trans herror
        exact ⟨s, u, x, p, d, hv, hu, hover, rfl⟩
      · obtain ⟨x, u', -, hok⟩ := hok
        cases hf.symm.trans hok
    · rintro ⟨s, u, x, p, d, rfl, hu, hover, rfl⟩
      have hs := sequenceOf_natCast hover.written.sequence_le
      rw [create_of_ok hs hu]
      exact hover.createAt hn
  · intro v t now
    constructor
    · intro he
      rcases hrefusal v t now _ he with ⟨f, hf⟩ | hrefusal
      · cases hf
      · exact Refusal.unshown_iff.mp hrefusal
    · rintro ⟨i, rfl, hi⟩
      exact create_of_unshown hi t now
  · intro v t now r hr
    rcases create_cases hn hds v t now with ⟨e, he, -⟩ | ⟨s, u, -, -, hover | hok⟩
    · cases hr.symm.trans he
    · obtain ⟨x, p, d, -, herror⟩ := hover
      cases hr.symm.trans herror
    · obtain ⟨x, u', hdecode, hok⟩ := hok
      cases hr.symm.trans hok
      exact ⟨_, hdecode, rfl⟩

/-- The last microsecond of a year after the epoch, where the calendar ends,
rounds up into the year that follows. -/
theorem exists_overruns_default (hroom : 9 ≤ Host.memory) {epoch t : Instant}
    (hepoch : epoch.micros + 365 * microsPerDay = WallTime.limit)
    (ht : t.micros + 1 = WallTime.limit) (hsettings : c.settings = Settings.default)
    (htimestamps : c.timestamps =
      ⟨Numeral.crockford.encoder, 9, 11, .int 3, epoch, by decide, by decide, by decide⟩) :
    ∃ x d, c.Overruns Numeral.crockford 7 t x (31536000 * 2 ^ 11) d := by
  have helapsed : t.micros - epoch.micros = 31535999999999 := by
    unfold microsPerDay WallTime.limit microsPerDay at *
    omega
  have hnumber : Timestamp.packMicros 11 31535999999999 = 31536000 * 2 ^ 11 := by
    rw [Timestamp.packMicros_eq_halfUp (by norm_num) (by norm_num), Timestamp.halfUpNumerator]
    norm_num
  have hpacked : c.timestamps.pack (DateTime.ofInstant t) = .ok (31536000 * 2 ^ 11) := by
    have hle : epoch.micros ≤ t.micros := by omega
    rw [TimestampCodec.pack_ofInstant_eq_ok_iff, htimestamps, helapsed, hnumber]
    exact ⟨hle, rfl⟩
  have hlength : (Numeral.crockford.write (31536000 * 2 ^ 11)).length ≤ c.timestamps.width := by
    have hlt : 31536000 * 2 ^ 11 < Numeral.crockford.radix ^ 9 := by decide
    rw [htimestamps]
    exact (Numeral.crockford.length_write_le_iff (by norm_num)).mpr hlt
  have hds : c.settings.checkDigitAlphabet = .text "0123456789" :=
    congrArg (·.checkDigitAlphabet) hsettings
  have hvalue : Numeral.crockford.value
      (Numeral.crockford.padded c.timestamps.width (31536000 * 2 ^ 11)) ≤ maxValue := by
    rw [Numeral.value_padded]
    decide
  have hrejects : ¬ c.settings.checkDigitAlgorithm.Rejects (CheckDigit.code
      (Numeral.crockford.padded c.timestamps.width (31536000 * 2 ^ 11) ++
        Numeral.crockford.write 7)) := by
    rw [hsettings]
    exact Algorithm.not_rejects_verhoeff _
  obtain ⟨x, d, hw⟩ := (exists_written_iff hds (Numeral.length_padded _ hlength)
    (fun _ => Numeral.mem_padded _) hvalue (by decide)).mpr hrejects
  have hwidth : c.timestamps.width = 9 := congrArg (·.width) htimestamps
  refine ⟨x, d, hpacked, ⟨by decide, hlength, zeros_le_memory hwidth hroom _⟩, hw, ?_⟩
  · have hseconds := Timestamp.unpackMicros_seconds 11 3 31536000
    have hunpacked :
        c.timestamps.unpacked ((31536000 * 2 ^ 11 : Nat) : Int) = 31536000 * 1000000 := by
      rw [TimestampCodec.unpacked, htimestamps]
      exact_mod_cast hseconds
    have hcodec : c.epoch = epoch := by rw [Codec.epoch, htimestamps]
    rw [hunpacked, hcodec]
    unfold microsPerDay at hepoch
    omega

end Host

section Ample

attribute [local instance] Host.ample

/-- The default codec of a year before the end of the calendar has an
identifier that overruns it, and fails over a sequence of too many digits. -/
theorem create_consistency_default : ∃ c x,
    (build .defaults none (some ⟨WallTime.limit - 365 * microsPerDay, by decide⟩)).result = .ok c ∧
      (c.create (.int 7) (.moment ⟨⟨WallTime.limit - 1, by decide⟩, none⟩) ⟨.start, none⟩).result =
        .error (.consistency (.undecodable x)) ∧
      (c.create (.int (10 ^ Integer.maxDigits)) .null ⟨.start, none⟩).result =
        .error .integerTooLong := by
  obtain ⟨c, hc, hsettings, htimestamps, huses⟩ :=
    exists_build_defaults ⟨WallTime.limit - 365 * microsPerDay, by decide⟩
  have hds : c.settings.checkDigitAlphabet = .text "0123456789" :=
    congrArg (·.checkDigitAlphabet) hsettings
  obtain ⟨n, hn, hconsistency, hunshown, -⟩ := create_consistency_iff hc hds
  obtain rfl := hn.unique huses
  obtain ⟨x, d, hover⟩ := exists_overruns_default (t := ⟨WallTime.limit - 1, by decide⟩) (by decide)
    (by decide) (by decide) hsettings htimestamps
  have hlong (k : Nat) : 10 ^ k ≤ ((10 : Int) ^ k).natAbs := (Int.natAbs_pow 10 k).ge
  exact ⟨c, x, hc, (hconsistency _ _ _ _).mpr ⟨7, _, x, _, d, rfl, rfl, hover, rfl⟩,
    (hunshown _ _ _).mpr ⟨_, rfl, hlong Integer.maxDigits⟩⟩

end Ample

end Codec
end ChronoId
