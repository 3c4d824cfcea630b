/-
# What a codec is made of

A codec that was built without an encoder of the caller's writes with the
numeral system of its settings' alphabet. Of such a codec, this says what its
timestamps are as text: a packed number that is in range and fits the width,
padded with zeros for which there is room; and that its check digits, over an
alphabet of text, are decimal digits.

Key definitions: `Codec.Uses`, `Codec.assemble`, `TimestampCodec.Fits`.
Key theorems: `Codec.build_result`, `Codec.exists_uses_of_build`,
`TimestampCodec.pack_of_toUtc`, `TimestampCodec.unpack_eq_ok_iff`,
`TimestampCodec.encode_ofInstant_eq_ok_iff`, `TimestampCodec.encode_ofInstant_error`,
`Codec.compute_cases`.
-/
import ChronoId.Codec
import ChronoId.Proofs.CheckDigit
import ChronoId.Proofs.Integer
import ChronoId.Proofs.Numeral
import ChronoId.Proofs.Results
import ChronoId.Proofs.Unpacking

namespace ChronoId

/-! ### The encoder -/

/-- The ready encoder of Crockford's alphabet is the one that would be made
of it. -/
theorem Encoder.ofAlphabet_result [Host] (v : Value) :
    (Encoder.ofAlphabet v).result = (Numeral.ofAlphabet? v true).map Numeral.encoder := by
  have hmake : ∀ v : Value,
      (do return (← Numeral.ofAlphabet v true).encoder : Logged Encoder).result =
        (Numeral.ofAlphabet? v true).map Numeral.encoder := by
    intro v
    rw [Logged.result_bind, Numeral.ofAlphabet_result]
    cases Numeral.ofAlphabet? v true <;> rfl
  cases v with
  | text s =>
    rw [Encoder.ofAlphabet]
    split
    · next h =>
      have hready : Numeral.ofAlphabet? (.text Numeral.crockford.alphabet) true =
          .ok Numeral.crockford := Numeral.crockford.ofAlphabet?_alphabet
      rw [h, hready]
      rfl
    · exact hmake _
  | _ => exact hmake _

/-- A codec writes with the numeral system of its settings' alphabet. -/
structure Codec.Uses [Host] (c : Codec) (n : Numeral) : Prop where
  alphabet : c.settings.alphabet = .text n.alphabet
  encoder : c.timestamps.encoder = n.encoder

namespace TimestampCodec

theorem build_encoder {encoder : Encoder} {width bits digits epoch : Value} {shared : Option Instant}
    {c} (h : build (some encoder) width bits digits epoch shared = .ok c) :
    c.val.encoder = encoder := by
  unfold build at h
  simp only at h
  split at h
  · cases h
  · simp only [bind_eq_ok_iff] at h
    obtain ⟨b, -, d, -, e, -, h⟩ := h
    cases h
    rfl

end TimestampCodec

namespace Codec

section Host

variable [Host]

/-- The encoder that is given, or else that of an alphabet. -/
def chooseEncoder (given : Option Encoder) (alphabet : Value) : Except Error Encoder :=
  match given with
  | some encoder => .ok encoder
  | none => (Encoder.ofAlphabet alphabet).result

/-- The codec of settings that writes with an encoder. -/
def assemble (s : Settings) (encoder : Encoder) (shared : Option Instant) : Except Error Codec :=
  (build (.ready s) (some encoder) shared).result

theorem build_result (source : Settings.Source) (given : Option Encoder) (shared : Option Instant) :
    (build source given shared).result = Settings.load source >>= fun s =>
      chooseEncoder given s.alphabet >>= fun encoder => assemble s encoder shared := by
  rw [build, Logged.result_bind, Logged.result_liftM]
  refine congrArg _ (funext fun s => ?_)
  cases given with
  | some encoder => rfl
  | none =>
    simp only [Logged.result_bind, chooseEncoder, assemble, build, Logged.result_liftM, Settings.load,
      bind_ok, Logged.result_pure]

section Assemble

variable {s : Settings} {encoder : Encoder} {shared : Option Instant}

theorem assemble_of_error {e : Error} (h : TimestampCodec.build (some encoder) s.timestampWidth
    s.subsecondBits s.roundingDigits s.customEpoch shared = .error e) :
    assemble s encoder shared = .error e := by
  simp only [assemble, build, Logged.result_bind, Logged.result_liftM, Logged.result_pure,
    Settings.load, bind_ok, h]
  rfl

variable {t : { t : TimestampCodec // s.timestampWidth = .int t.width ∧
  s.subsecondBits = .int t.subsecondBits ∧ s.roundingDigits = t.roundingDigits.toValue }}
  (h : TimestampCodec.build (some encoder) s.timestampWidth s.subsecondBits s.roundingDigits
    s.customEpoch shared = .ok t)

include h

theorem assemble_of_unordered (hordered : ¬ t.val.encoder.retainsSortOrder = true) :
    assemble s encoder shared = .error (.configuration .encoderUnordered) := by
  simp only [assemble, build, Logged.result_bind, Logged.result_liftM, Logged.result_pure,
    Settings.load, bind_ok, h]
  rw [dif_neg hordered]
  rfl

/-- Timestamps whose encoder keeps the order make a codec, which has them and
the settings. -/
theorem assemble_of_ordered (hordered : t.val.encoder.retainsSortOrder = true) :
    ∃ c, assemble s encoder shared = .ok c ∧ c.settings = s ∧ c.timestamps = t.val := by
  simp only [assemble, build, Logged.result_bind, Logged.result_liftM, Logged.result_pure,
    Settings.load, bind_ok, h]
  rw [dif_pos hordered]
  exact ⟨_, rfl, rfl, rfl⟩

end Assemble

/-- What is assembled keeps its settings and its encoder. -/
theorem assemble_eq_ok {s : Settings} {encoder : Encoder} {shared : Option Instant} {c : Codec}
    (h : assemble s encoder shared = .ok c) : c.settings = s ∧ c.timestamps.encoder = encoder := by
  cases ht : TimestampCodec.build (some encoder) s.timestampWidth s.subsecondBits s.roundingDigits
      s.customEpoch shared with
  | error e => cases h.symm.trans (assemble_of_error ht)
  | ok t =>
    by_cases hordered : t.val.encoder.retainsSortOrder = true
    · obtain ⟨c', hc', hsettings, htimestamps⟩ := assemble_of_ordered ht hordered
      cases h.symm.trans hc'
      exact ⟨hsettings, htimestamps ▸ TimestampCodec.build_encoder ht⟩
    · cases h.symm.trans (assemble_of_unordered ht hordered)

/-- A codec has the settings of its source, and writes with the encoder that was
chosen for them. -/
theorem parts_of_build {source : Settings.Source} {given : Option Encoder}
    {shared : Option Instant} {c : Codec} (h : (build source given shared).result = .ok c) :
    Settings.load source = .ok c.settings ∧
      chooseEncoder given c.settings.alphabet = .ok c.timestamps.encoder := by
  simp only [build_result, bind_eq_ok_iff] at h
  obtain ⟨s, hs, encoder, hencoder, hc⟩ := h
  obtain ⟨hsettings, hbuilt⟩ := assemble_eq_ok hc
  rw [hsettings, hbuilt]
  exact ⟨hs, hencoder⟩

/-- Without an encoder of the caller's there is a numeral system. -/
theorem exists_uses_of_build {source : Settings.Source} {shared : Option Instant} {c : Codec}
    (h : (build source none shared).result = .ok c) : ∃ n, c.Uses n := by
  have hencoder : (Encoder.ofAlphabet c.settings.alphabet).result = .ok c.timestamps.encoder :=
    (parts_of_build h).2
  rw [Encoder.ofAlphabet_result] at hencoder
  cases hn : Numeral.ofAlphabet? c.settings.alphabet true with
  | error e =>
    rw [hn] at hencoder
    cases hencoder
  | ok n =>
    rw [hn] at hencoder
    exact ⟨n, (Numeral.ofAlphabet?_eq_ok_iff.mp hn).1, (Except.ok.inj hencoder).symm⟩

/-- Settings whose alphabet is that of a sorted numeral system make a codec, if
their numbers make one of timestamps. -/
theorem exists_build {source : Settings.Source} {s : Settings} {n : Numeral} {shared : Option Instant}
    {t : { t : TimestampCodec // s.timestampWidth = .int t.width ∧
      s.subsecondBits = .int t.subsecondBits ∧ s.roundingDigits = t.roundingDigits.toValue }}
    (hsettings : Settings.load source = .ok s) (halphabet : s.alphabet = .text n.alphabet)
    (hordered : n.retainsSortOrder = true)
    (ht : TimestampCodec.build (some n.encoder) s.timestampWidth s.subsecondBits s.roundingDigits
      s.customEpoch shared = .ok t) :
    ∃ c, (build source none shared).result = .ok c ∧ c.settings = s ∧ c.timestamps = t.val ∧
      c.Uses n := by
  have hencoder : (Encoder.ofAlphabet s.alphabet).result = .ok n.encoder := by
    have hn := n.ofAlphabet?_alphabet
    rw [hordered] at hn
    rw [Encoder.ofAlphabet_result, halphabet, hn]
    rfl
  have hbuilt := TimestampCodec.build_encoder ht
  obtain ⟨c, hc, hs, htimestamps⟩ := assemble_of_ordered ht (by rw [hbuilt]; exact hordered)
  refine ⟨c, ?_, hs, htimestamps, hs ▸ halphabet, htimestamps ▸ hbuilt⟩
  rw [build_result, hsettings, bind_ok, chooseEncoder, hencoder, bind_ok, hc]

/-- Settings with the default numbers and a sorted alphabet make a codec, if there
is an epoch. -/
theorem exists_build_of_numbers {source : Settings.Source} {s : Settings} {n : Numeral}
    {shared : Option Instant} {epoch : Instant} (hsettings : Settings.load source = .ok s)
    (halphabet : s.alphabet = .text n.alphabet) (hordered : n.retainsSortOrder = true)
    (hwidth : s.timestampWidth = .int 9) (hbits : s.subsecondBits = .int 11)
    (hdigits : s.roundingDigits = .int 3)
    (hepoch : TimestampCodec.epochOf shared s.customEpoch = .ok epoch) :
    ∃ c, (build source none shared).result = .ok c ∧ c.settings = s ∧
      c.timestamps = ⟨n.encoder, 9, 11, .int 3, epoch, by decide, by decide, by decide⟩ ∧
      c.Uses n := by
  obtain ⟨⟨_, width, bits, digits, _, _, _, _⟩, accepted⟩ := s
  obtain rfl : width = .int 9 := hwidth
  obtain rfl : bits = .int 11 := hbits
  obtain rfl : digits = .int 3 := hdigits
  refine exists_build (s := ⟨_, accepted⟩)
    (t := ⟨⟨n.encoder, 9, 11, .int 3, epoch, by decide, by decide, by decide⟩, rfl, rfl, rfl⟩)
    hsettings halphabet hordered ?_
  simp only [TimestampCodec.build, hepoch]
  rfl

/-- The default settings make a codec once there is a shared epoch. -/
theorem exists_build_defaults (epoch : Instant) :
    ∃ c, (build .defaults none (some epoch)).result = .ok c ∧ c.settings = Settings.default ∧
      c.timestamps =
        ⟨Numeral.crockford.encoder, 9, 11, .int 3, epoch, by decide, by decide, by decide⟩ ∧
      c.Uses Numeral.crockford :=
  exists_build_of_numbers rfl rfl rfl rfl rfl rfl rfl

variable {c : Codec} {n : Numeral}

theorem Uses.retainsSortOrder (h : c.Uses n) : n.retainsSortOrder = true := by
  have := c.ordered
  rwa [h.encoder] at this

/-- A codec writes with the one sorted numeral system of its alphabet. -/
theorem Uses.eq_of_alphabet {m : Numeral} (h : c.Uses n)
    (halphabet : c.settings.alphabet = .text m.alphabet) (hordered : m.retainsSortOrder = true) :
    n = m := by
  have hsymbols : n.symbols = m.symbols :=
    String.ofList_inj.mp (Value.text.inj (h.alphabet.symm.trans halphabet))
  have hkeeps := h.retainsSortOrder.trans hordered.symm
  cases n
  cases m
  cases hsymbols
  cases hkeeps
  rfl

theorem Uses.unique {m : Numeral} (hn : c.Uses n) (hm : c.Uses m) : n = m :=
  hn.eq_of_alphabet hm.alphabet hm.retainsSortOrder

end Host

end Codec

/-! ### Timestamps as text -/

theorem WallTime.limit_pos : 0 < WallTime.limit := by decide

/-- The start of the calendar. -/
def WallTime.start : WallTime := ⟨0, WallTime.limit_pos⟩

theorem WallTime.ofMicros?_eq_some_iff {w : WallTime} {micros : Int} :
    ofMicros? micros = some w ↔ micros = w.micros := by
  obtain ⟨m, hlt⟩ := w
  show _ ↔ micros = (m : Int)
  rw [ofMicros?]
  split
  · next h =>
    rw [Option.some.injEq, WallTime.mk.injEq]
    omega
  · next h => exact ⟨nofun, fun hm => by omega⟩

theorem WallTime.shift?_eq_some_iff {w v : WallTime} {micros : Int} :
    w.shift? micros = some v ↔ w.micros + micros = v.micros :=
  ofMicros?_eq_some_iff

/-- The calendar has no reading before its start or behind its end. -/
theorem WallTime.shift?_eq_none_iff {w : WallTime} {micros : Int} :
    w.shift? micros = none ↔ w.micros + micros < 0 ∨ WallTime.limit ≤ w.micros + micros := by
  rw [shift?, ofMicros?]
  split
  · next h => exact ⟨nofun, fun hout => by omega⟩
  · next h => exact ⟨fun _ => by omega, fun _ => rfl⟩

namespace DateTime

theorem toUtc_eq_ok_iff {t : DateTime} {i : Instant} : t.toUtc = .ok i ↔ t.toUtc? = some i := by
  rw [toUtc]
  cases t.toUtc? with
  | none => exact ⟨nofun, nofun⟩
  | some j => rw [Except.ok.injEq, Option.some.injEq]

theorem toUtc_eq_error_iff {t : DateTime} {e : Error} :
    t.toUtc = .error e ↔ t.toUtc? = none ∧ e = .calendarOverflow := by
  rw [toUtc]
  cases t.toUtc? with
  | none => exact ⟨fun h => ⟨rfl, (Except.error.inj h).symm⟩, fun h => h.2 ▸ rfl⟩
  | some i => exact ⟨nofun, fun h => nomatch h.1⟩

theorem toUtc_ofInstant (i : Instant) : (ofInstant i).toUtc = .ok i := by
  have hshift : i.shift? (-Offset.utc.micros) = some i :=
    WallTime.shift?_eq_some_iff.mpr (by simp [Offset.utc])
  rw [toUtc, toUtc?, ofInstant]
  simp only [hshift]

end DateTime

namespace TimestampCodec

variable {c : TimestampCodec} {n : Numeral}

/-- Where there are bits, there are between one and nine rounding digits. -/
theorem digits_bounds (c : TimestampCodec) (hb : 0 < c.subsecondBits) :
    1 ≤ c.roundingDigits.toInt.toNat ∧ c.roundingDigits.toInt.toNat ≤ 9 := by
  have := c.digits_range hb
  omega

/-- The microseconds from the epoch to what a packed number stands for. -/
def unpacked (c : TimestampCodec) (packed : Int) : Int :=
  Timestamp.unpackMicros c.subsecondBits c.roundingDigits.toInt.toNat packed

theorem unpack_eq_ok_iff {packed : Int} {t : Instant} :
    c.unpack packed = .ok t ↔ c.epoch.micros + c.unpacked packed = t.micros := by
  rw [← WallTime.shift?_eq_some_iff, unpack, unpacked]
  split
  · next h => rw [h, Except.ok.injEq, Option.some.injEq]
  · next h =>
    rw [h]
    exact ⟨nofun, nofun⟩

/-- Nothing stands for the epoch. -/
theorem unpack_zero (c : TimestampCodec) : c.unpack 0 = .ok c.epoch := by
  have h := Timestamp.unpackMicros_seconds c.subsecondBits c.roundingDigits.toInt.toNat 0
  rw [zero_mul, zero_mul] at h
  rw [unpack_eq_ok_iff, unpacked, h, add_zero]

theorem unpack_eq_error_iff {packed : Int} {e : Error} : c.unpack packed = .error e ↔
    (c.epoch.micros + c.unpacked packed < 0 ∨ WallTime.limit ≤ c.epoch.micros + c.unpacked packed) ∧
      e = .input .timestampOutOfRange := by
  rw [← WallTime.shift?_eq_none_iff, unpack, unpacked]
  split
  · next h =>
    rw [h]
    exact ⟨nofun, fun h' => nomatch h'.1⟩
  · next h =>
    rw [h]
    exact ⟨fun h' => ⟨rfl, (Except.error.inj h').symm⟩, fun h' => h'.2 ▸ rfl⟩

/-- What stands for no time lies behind the end of the calendar. -/
theorem unpack_natCast_eq_error_iff {packed : Nat} :
    c.unpack packed = .error (.input .timestampOutOfRange) ↔
      WallTime.limit ≤ c.epoch.micros + c.unpacked packed := by
  have hnonneg : 0 ≤ c.unpacked packed := Timestamp.unpackMicros_nonneg _ _ _
  rw [unpack_eq_error_iff]
  exact ⟨fun h => h.1.resolve_left (by omega), fun h => ⟨Or.inr h, rfl⟩⟩

/-- A packed number that is in range and has a text of the width. -/
structure Fits [Host] (c : TimestampCodec) (n : Numeral) (packed : Nat) : Prop where
  le_maxValue : packed ≤ maxValue
  length_le : (n.write packed).length ≤ c.width
  zeros_le : c.width - (n.write packed).length ≤ Host.memory

theorem pack_ofInstant (t : Instant) : c.pack (DateTime.ofInstant t) =
    if t.micros < c.epoch.micros then
      .error (.input (.beforeEpoch (DateTime.ofInstant t) (DateTime.ofInstant c.epoch)))
    else .ok (Timestamp.packMicros c.subsecondBits (t.micros - c.epoch.micros)) := by
  rw [pack, Elapsed.micros, DateTime.toUtc_ofInstant, DateTime.toUtc_ofInstant]
  simp only [bind, Except.bind]
  split <;> rfl

/-- Any reading of an instant is packed like the instant. -/
theorem pack_of_toUtc {d : DateTime} {t : Instant} (ht : d.toUtc? = some t)
    (hle : c.epoch.micros ≤ t.micros) :
    c.pack d = .ok (Timestamp.packMicros c.subsecondBits (t.micros - c.epoch.micros)) := by
  rw [pack, Elapsed.micros, DateTime.toUtc_eq_ok_iff.mpr ht, DateTime.toUtc_ofInstant]
  simp only [bind_ok, if_neg (not_lt.mpr hle)]
  rfl

/-- A timestamp from the epoch on is packed. -/
theorem pack_ofInstant_eq_ok_iff {t : Instant} {p : Nat} : c.pack (DateTime.ofInstant t) = .ok p ↔
    c.epoch.micros ≤ t.micros ∧
      p = Timestamp.packMicros c.subsecondBits (t.micros - c.epoch.micros) := by
  rw [pack_ofInstant]
  by_cases hlt : t.micros < c.epoch.micros
  · rw [if_pos hlt]
    exact ⟨nofun, fun hp => absurd hlt (not_lt.mpr hp.1)⟩
  · rw [if_neg hlt]
    exact ⟨fun hp => ⟨not_lt.mp hlt, (Except.ok.inj hp).symm⟩, fun hp => congrArg Except.ok hp.2.symm⟩

section Host

variable [Host]

/-- A timestamp has a text if its packed number fits, and then it is that
number, padded to the width. -/
theorem encode_ofInstant_eq_ok_iff (h : c.encoder = n.encoder) {t : Instant} {s : String} :
    c.encode (DateTime.ofInstant t) = .ok s ↔
      ∃ p, c.pack (DateTime.ofInstant t) = .ok p ∧ c.Fits n p ∧
        s = String.ofList (n.padded c.width p) := by
  simp only [encode, h, Numeral.encoder, bind_eq_ok_iff, Numeral.encode_eq_ok_iff]
  constructor
  · rintro ⟨p, hp, _, ⟨hmax, rfl⟩, padded, hpad, hs⟩
    obtain ⟨hzeros, rfl⟩ := n.pad_write_eq_ok_iff.mp hpad
    split at hs
    · cases hs
    · next hlen =>
      cases hs
      rw [String.length_ofList, Numeral.padded, List.length_append] at hlen
      exact ⟨p, hp, ⟨hmax, by omega, hzeros⟩, rfl⟩
  · rintro ⟨p, hp, hfits, rfl⟩
    refine ⟨p, hp, _, ⟨hfits.le_maxValue, rfl⟩, _,
      n.pad_write_eq_ok_iff.mpr ⟨hfits.zeros_le, rfl⟩, ?_⟩
    rw [if_neg (by rw [String.length_ofList, n.length_padded hfits.length_le]; omega)]

/-- Without room for the zeros there is no text. -/
theorem encode_ofInstant_of_no_room (h : c.encoder = n.encoder) {t : Instant} {p : Nat}
    (hp : c.pack (DateTime.ofInstant t) = .ok p) (hmax : p ≤ maxValue)
    (hroom : Host.memory < c.width - (n.write p).length) :
    c.encode (DateTime.ofInstant t) = .error
      (if Text.maxLength < c.width - (n.write p).length then .textTooLong else .outOfMemory) := by
  have hwrite := n.encode_eq_ok_iff.mpr ⟨hmax, rfl⟩
  have hpad := n.pad_write_eq_error_iff.mpr ⟨hroom, rfl⟩
  simp only [encode, hp, h, Numeral.encoder, bind_ok, hwrite, hpad]
  rfl

/-- A timestamp without a text is rejected, unless there is no room for the
zeros. -/
theorem encode_ofInstant_error (h : c.encoder = n.encoder) {t : Instant} {e : Error}
    (he : c.encode (DateTime.ofInstant t) = .error e) :
    (∃ f, e = .input f) ∨ (e = .textTooLong ∨ e = .outOfMemory) ∧
      ∃ p, c.pack (DateTime.ofInstant t) = .ok p ∧ Host.memory < c.width - (n.write p).length := by
  simp only [encode, h, Numeral.encoder, bind_eq_error_iff, Numeral.encode_eq_ok_iff] at he
  rcases he with hpack | ⟨p, hp, hencode | ⟨_, ⟨-, rfl⟩, hpad | ⟨padded, -, hs⟩⟩⟩
  · rw [pack_ofInstant] at hpack
    split at hpack
    · exact Or.inl ⟨_, (Except.error.inj hpack).symm⟩
    · cases hpack
  · exact Or.inl (n.encode_error hencode)
  · obtain ⟨hlt, rfl⟩ := n.pad_write_eq_error_iff.mp hpad
    refine Or.inr ⟨?_, p, hp, hlt⟩
    split
    · exact Or.inl rfl
    · exact Or.inr rfl
  · split at hs
    · exact Or.inl ⟨_, (Except.error.inj hs).symm⟩
    · cases hs

end Host

end TimestampCodec

/-! ### Check digits -/

namespace Codec

variable {c : Codec} {ds : String}

/-- An alphabet of text that the settings accept consists of different
digits. -/
theorem digits_of_accepted (h : c.settings.checkDigitAlphabet = .text ds) :
    ds.toList ≠ [] ∧ (∀ ch ∈ ds.toList, ch.isDigit = true) ∧ Symbols.distinct ds.toList = true := by
  have haccepted := c.settings.accepted
  simp only [SettingsFields.check, bind_eq_ok_iff, h] at haccepted
  obtain ⟨_, -, _, -, _, -, _, hcheck, -⟩ := haccepted
  rw [SettingsFields.checkAlphabet] at hcheck
  split at hcheck
  · cases hcheck
  · next hdigits =>
    simp only [Bool.or_eq_true, not_or, List.isEmpty_iff, Bool.not_eq_true', Bool.not_eq_false,
      List.all_eq_true] at hdigits
    refine ⟨hdigits.1, hdigits.2, ?_⟩
    cases hd : Symbols.distinct ds.toList
    · rw [hd] at hcheck
      cases hcheck
    · rfl

/-- The check character of a text is a digit unless the algorithm rejects its
code. -/
theorem compute_cases (h : c.settings.checkDigitAlphabet = .text ds) {x : String}
    (hx : x.toList ≠ []) :
    (∃ d < 10, c.checksum.compute (.text x) = .ok (Text.asciiDigit d)) ∧
        ¬ c.settings.checkDigitAlgorithm.Rejects (CheckDigit.code x.toList) ∨
      c.checksum.compute (.text x) = .error (.input .zeroSum) ∧
        c.settings.checkDigitAlgorithm.Rejects (CheckDigit.code x.toList) := by
  obtain ⟨hne, hdigits, hdistinct⟩ := digits_of_accepted h
  rw [Checksum.compute, checksum, h]
  exact CheckDigit.compute_cases _ hx hne hdigits hdistinct

end Codec
end ChronoId
