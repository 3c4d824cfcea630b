/-
# Codecs that work alike

A codec looks at its timestamps, at its check characters and, when what it made
decodes to another time, at its drift limit. Codecs with the same timestamps and
the same check characters decode and encode alike, and with the same limit they
also create alike, line by line in the journal. Luhn and ISIN find the same check
characters: a codec with the one does what a codec with the other does.

Key definitions: `Settings.SameTimes`, `Settings.AlikeTimes`, `Codec.Alike`.
Key theorems: `Codec.build_alikeTimes`, `Codec.build_congr`, `Codec.Alike.decode_eq`,
`Codec.Alike.encode_eq`, `Codec.Alike.create_eq`.
-/
import ChronoId.Proofs.CheckDigit.Engine
import ChronoId.Proofs.Codec.RoundTrip

namespace ChronoId

namespace Settings

/-- Settings that differ at most in the check digits and in the drift limit. -/
structure SameTimes (s s' : Settings) : Prop where
  alphabet : s'.alphabet = s.alphabet
  timestampWidth : s'.timestampWidth = s.timestampWidth
  subsecondBits : s'.subsecondBits = s.subsecondBits
  roundingDigits : s'.roundingDigits = s.roundingDigits
  customEpoch : s'.customEpoch = s.customEpoch

/-- Settings whose timestamps are written alike, and count from the same
instant. -/
structure AlikeTimes (shared : Option Instant) (s s' : Settings) : Prop where
  alphabet : s'.alphabet = s.alphabet
  timestampWidth : s'.timestampWidth = s.timestampWidth
  subsecondBits : s'.subsecondBits = s.subsecondBits
  roundingDigits : s'.roundingDigits = s.roundingDigits
  epoch : TimestampCodec.epochOf shared s'.customEpoch = TimestampCodec.epochOf shared s.customEpoch

theorem SameTimes.alikeTimes {s s' : Settings} (h : s.SameTimes s') (shared : Option Instant) :
    AlikeTimes shared s s' :=
  ⟨h.alphabet, h.timestampWidth, h.subsecondBits, h.roundingDigits, by rw [h.customEpoch]⟩

/-- The default settings with another algorithm. -/
def checkedBy (a : Algorithm) : Settings := ⟨{ checkDigitAlgorithm := a }, rfl⟩

end Settings

/-- Only the instant of an epoch matters. -/
theorem TimestampCodec.build_congr_epoch {shared : Option Instant} {epoch epoch' : Value}
    (h : epochOf shared epoch' = epochOf shared epoch)
    (encoder : Option Encoder) (width bits digits : Value) :
    build encoder width bits digits epoch' shared = build encoder width bits digits epoch shared := by
  unfold build
  simp only [h]

namespace Codec

/-- Codecs with the same timestamps and the same check characters. -/
structure Alike (c c' : Codec) : Prop where
  timestamps : c'.timestamps = c.timestamps
  compute : ∀ id, c'.checksum.compute id = c.checksum.compute id

/-! ### Building -/

/-- Settings with alike times either make no codec, for the same reason, or
codecs with the same timestamps. -/
theorem assemble_congr [Host] {s s' : Settings} {shared : Option Instant} (h : s.AlikeTimes shared s')
    (encoder : Encoder) :
    (∃ e, assemble s encoder shared = .error e ∧ assemble s' encoder shared = .error e) ∨
      ∃ c c', assemble s encoder shared = .ok c ∧ assemble s' encoder shared = .ok c' ∧
        c.settings = s ∧ c'.settings = s' ∧ c'.timestamps = c.timestamps := by
  obtain ⟨⟨_, width, bits, digits, _, _, epoch, _⟩, accepted⟩ := s
  obtain ⟨⟨_, width', bits', digits', _, _, epoch', _⟩, accepted'⟩ := s'
  obtain rfl : width = width' := h.timestampWidth.symm
  obtain rfl : bits = bits' := h.subsecondBits.symm
  obtain rfl : digits = digits' := h.roundingDigits.symm
  have hsame := TimestampCodec.build_congr_epoch h.epoch (some encoder) width bits digits
  cases ht : TimestampCodec.build (some encoder) width bits digits epoch shared with
  | error e => exact Or.inl ⟨e, assemble_of_error ht, assemble_of_error (hsame.trans ht)⟩
  | ok t =>
    have ht' := hsame.trans ht
    by_cases hordered : t.val.encoder.retainsSortOrder = true
    · obtain ⟨c, hc, hsettings, htimestamps⟩ :=
        assemble_of_ordered (s := ⟨_, accepted⟩) ht hordered
      obtain ⟨c', hc', hsettings', htimestamps'⟩ :=
        assemble_of_ordered (s := ⟨_, accepted'⟩) ht' hordered
      exact Or.inr ⟨c, c', hc, hc', hsettings, hsettings', htimestamps'.trans htimestamps.symm⟩
    · exact Or.inl ⟨_, assemble_of_unordered ht hordered, assemble_of_unordered ht' hordered⟩

section Sources

variable [Host] {source source' : Settings.Source} {s s' : Settings}
  (hs : Settings.load source = .ok s) (hs' : Settings.load source' = .ok s')

include hs hs'

theorem build_alikeTimes {shared : Option Instant} (h : s.AlikeTimes shared s')
    (given : Option Encoder) :
    (∃ e, (build source given shared).result = .error e ∧
        (build source' given shared).result = .error e) ∨
      ∃ c c', (build source given shared).result = .ok c ∧
        (build source' given shared).result = .ok c' ∧
        c.settings = s ∧ c'.settings = s' ∧ c'.timestamps = c.timestamps := by
  simp only [build_result, hs, hs', bind_ok, h.alphabet]
  cases chooseEncoder given s.alphabet with
  | error e => exact Or.inl ⟨e, rfl, rfl⟩
  | ok encoder => exact assemble_congr h encoder

theorem build_congr (h : s.SameTimes s') (given : Option Encoder) (shared : Option Instant) :
    (∃ e, (build source given shared).result = .error e ∧
        (build source' given shared).result = .error e) ∨
      ∃ c c', (build source given shared).result = .ok c ∧
        (build source' given shared).result = .ok c' ∧
        c.settings = s ∧ c'.settings = s' ∧ c'.timestamps = c.timestamps :=
  build_alikeTimes hs hs' (h.alikeTimes shared) given

end Sources

namespace Alike

variable {c c' : Codec}

/-! ### What does not look at the limit -/

theorem layout_eq (h : c.Alike c') : c'.layout = c.layout := by
  simp only [layout, h.timestamps]

theorem encoder_eq (h : c.Alike c') : c'.encoder = c.encoder :=
  congrArg TimestampCodec.encoder h.timestamps

theorem checks_eq (h : c.Alike c') (id : Value) :
    c'.checksum.isValid id = c.checksum.isValid id := by
  have hlayout : c'.checksum.layout = c.checksum.layout := h.layout_eq
  have hencoder : c'.checksum.encoder = c.checksum.encoder := h.encoder_eq
  simp only [Checksum.isValid, hlayout, hencoder, h.compute]

theorem decode_eq (h : c.Alike c') (v : Value) : c'.decode v = c.decode v := by
  have htext : ∀ x, c'.decodeText x = c.decodeText x := by
    intro x
    unfold decodeText
    rw [h.checks_eq, h.layout_eq, h.timestamps, h.encoder_eq]
  have hvalue : c'.decodeValue v = c.decodeValue v := by
    cases v with
    | text x => exact htext x
    | _ =>
      simp only [decodeValue]
      rw [h.layout_eq]
  unfold decode
  rw [hvalue]

theorem isValid_eq (h : c.Alike c') (v : Value) : c'.isValid v = c.isValid v := by
  unfold isValid
  rw [h.decode_eq]

theorem encode_eq (h : c.Alike c') (s : Nat) (t : Instant) : c'.encode s t = c.encode s t := by
  unfold encode
  simp only [h.timestamps, h.layout_eq, h.encoder_eq, h.compute]

/-! ### With the same limit -/

theorem createAt_eq (h : c.Alike c') (hlimit : c'.settings.driftLimit = c.settings.driftLimit)
    (s : Nat) (t : Instant) : c'.createAt s t = c.createAt s t := by
  have hverify : ∀ x, c'.verify s t x = c.verify s t x := by
    intro x
    unfold verify
    rw [hlimit]
  unfold createAt
  simp only [h.encode_eq, h.decode_eq, hverify]

theorem create_eq (h : c.Alike c') (hlimit : c'.settings.driftLimit = c.settings.driftLimit)
    (sequence timestamp : Value) (now : DateTime) :
    c'.create sequence timestamp now = c.create sequence timestamp now := by
  unfold create
  simp only [h.createAt_eq hlimit]

end Alike

/-! ### Luhn and ISIN -/

/-- Codecs whose settings differ in that one uses Luhn and the other ISIN. -/
theorem alike_of_isin {c c' : Codec} (hisin : c.settings.checkDigitAlgorithm = .isin)
    (hluhn : c'.settings.toSettingsFields =
      { c.settings.toSettingsFields with checkDigitAlgorithm := .luhn })
    (htimestamps : c'.timestamps = c.timestamps) : c.Alike c' where
  timestamps := htimestamps
  compute id := by
    simp only [Checksum.compute, checksum, hluhn, hisin, CheckDigit.compute_isin_eq_luhn]

/-- Through the engine ISIN and Luhn find the same check character or end with the
same error, for every payload and every alphabet, and they verify alike. Settings
that differ only in using the one or the other make no codec, for the same reason,
or codecs that create and decode the same, with the same lines in the journal. -/
theorem create_isin_eq_luhn [Host] :
    (∀ payload alphabet : Value,
      CheckDigit.compute payload (.algorithm .isin) alphabet =
          CheckDigit.compute payload (.algorithm .luhn) alphabet ∧
        CheckDigit.isValid payload (.algorithm .isin) alphabet =
          CheckDigit.isValid payload (.algorithm .luhn) alphabet) ∧
    ∀ (source source' : Settings.Source) (s s' : Settings), Settings.load source = .ok s →
      Settings.load source' = .ok s' → s.checkDigitAlgorithm = .isin →
      s'.toSettingsFields = { s.toSettingsFields with checkDigitAlgorithm := .luhn } →
      ∀ (given : Option Encoder) (shared : Option Instant),
        (∃ e, (build source given shared).result = .error e ∧
            (build source' given shared).result = .error e) ∨
          ∃ c c', (build source given shared).result = .ok c ∧
            (build source' given shared).result = .ok c' ∧
            (∀ v t now, c'.create v t now = c.create v t now) ∧
            ∀ v, c'.decode v = c.decode v ∧ c'.isValid v = c.isValid v := by
  refine ⟨fun payload alphabet => ⟨CheckDigit.compute_isin_eq_luhn payload alphabet,
    CheckDigit.isValid_isin_eq_luhn payload alphabet⟩, ?_⟩
  intro source source' s s' hs hs' hisin hluhn given shared
  have hsame : s.SameTimes s' := by
    constructor <;> rw [hluhn]
  have hlimit : s'.driftLimit = s.driftLimit := by
    unfold Settings.driftLimit
    rw [hluhn]
  rcases build_congr hs hs' hsame given shared with
    ⟨e, he, he'⟩ | ⟨c, c', hc, hc', hsettings, hsettings', htimestamps⟩
  · exact Or.inl ⟨e, he, he'⟩
  subst hsettings hsettings'
  have halike := alike_of_isin hisin hluhn htimestamps
  exact Or.inr ⟨c, c', hc, hc', halike.create_eq hlimit,
    fun v => ⟨halike.decode_eq v, halike.isValid_eq v⟩⟩

theorem exists_build_checkedBy [Host] (a : Algorithm) (epoch : Instant) :
    ∃ c, (build (.ready (Settings.checkedBy a)) none (some epoch)).result = .ok c ∧
      c.settings = Settings.checkedBy a ∧
      c.timestamps =
        ⟨Numeral.crockford.encoder, 9, 11, .int 3, epoch, by decide, by decide, by decide⟩ ∧
      c.Uses Numeral.crockford :=
  exists_build_of_numbers rfl rfl rfl rfl rfl rfl rfl

section Ample

attribute [local instance] Host.ample

/-- With either algorithm the default settings make a codec, and both codecs
create the same identifier of the sequence seven at the epoch. -/
theorem create_isin_eq_luhn_seven : ∃ c c' x,
    (Settings.checkedBy .isin).checkDigitAlgorithm = .isin ∧
      (Settings.checkedBy .luhn).toSettingsFields =
        { (Settings.checkedBy .isin).toSettingsFields with checkDigitAlgorithm := .luhn } ∧
      (build (.ready (Settings.checkedBy .isin)) none (some .start)).result = .ok c ∧
      (build (.ready (Settings.checkedBy .luhn)) none (some .start)).result = .ok c' ∧
      (c.create (.int 7) (.moment ⟨.start, none⟩) ⟨.start, none⟩).result = .ok ⟨x, .start, 7⟩ ∧
      (c'.create (.int 7) (.moment ⟨.start, none⟩) ⟨.start, none⟩).result = .ok ⟨x, .start, 7⟩ := by
  obtain ⟨c, hc, hsettings, htimestamps, hn⟩ := exists_build_checkedBy .isin .start
  have hds : c.settings.checkDigitAlphabet = .text "0123456789" :=
    congrArg (·.checkDigitAlphabet) hsettings
  have hlimit : c.LimitFits := ⟨.int 1, by rw [hsettings]; rfl, by decide⟩
  have hdigit : ¬ c.settings.checkDigitAlgorithm.Rejects
      (CheckDigit.code (List.replicate 9 '0' ++ Numeral.crockford.write 7)) := by
    rw [Numeral.crockford.write_of_lt (by decide)]
    have hseven : '7' ∈ CheckDigit.code
        (List.replicate 9 '0' ++ [Numeral.crockford.symbol 7]) := by
      decide
    exact fun hrejects => absurd (hrejects.2 _ hseven) (by decide)
  obtain ⟨x, hx, -⟩ := (encodable_of_packs_zero (s := 7) htimestamps (by decide) le_rfl (by decide)
    hlimit hdigit).createAt hn hds (zeros_le_memory (congrArg (·.width) htimestamps) (by decide) 0)
  have hcreate : (c.create (.int 7) (.moment ⟨.start, none⟩) ⟨.start, none⟩).result =
      .ok ⟨x, .start, 7⟩ := (create_of_ok rfl rfl).trans hx
  obtain ⟨-, hcodecs⟩ := create_isin_eq_luhn
  rcases hcodecs (.ready (Settings.checkedBy .isin)) (.ready (Settings.checkedBy .luhn)) _ _ rfl rfl
    rfl rfl none (some .start) with ⟨e, he, -⟩ | ⟨d, c', hd, hc', hsame, -⟩
  · cases hc.symm.trans he
  cases Except.ok.inj (hc.symm.trans hd)
  refine ⟨c, c', x, rfl, rfl, hc, hc', hcreate, ?_⟩
  rw [hsame]
  exact hcreate

end Ample

end Codec
end ChronoId
