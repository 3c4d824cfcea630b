/-
# What is created is written

The text that is made of a sequence and an instant is the written one: the
packed number, padded to the width, with the sequence and its digit behind it.
Creating hands the text out unless it does not decode, which happens only if
the calendar has no time for the packed number, or unless the decoded time
differs and the drift limit is no duration.

Key definitions: `Codec.LimitFits`, `Codec.instantOf`.
Key theorems: `Codec.encode_eq_ok_iff`, `Codec.encode_error`,
`Codec.createAt_cases`, `Codec.create_result`, `Codec.exists_decoded_of_create`.
-/
import ChronoId.Proofs.Codec.Accept
import Mathlib.Tactic.IntervalCases

namespace ChronoId
namespace Codec

variable {c : Codec} {n : Numeral} {ds : String} {s : Nat} {t : Instant}

/-! ### Check digits as numbers -/

theorem decimalDigit_asciiDigit {d : Nat} (hd : d < 10) :
    decimalDigit (Text.asciiDigit d) = .ok d := by
  interval_cases d <;> rfl

/-- Whatever the alphabet, a check character is a digit. -/
theorem exists_digit_of_compute {x : String} {ch : Char} (hx : x.toList ≠ [])
    (h : c.checksum.compute (.text x) = .ok ch) : ∃ d < 10, ch = Text.asciiDigit d := by
  by_cases htext : ∃ ds, c.settings.checkDigitAlphabet = .text ds
  · obtain ⟨ds, hds⟩ := htext
    rcases compute_cases hds hx with ⟨⟨d, hd, hok⟩, -⟩ | ⟨herror, -⟩
    · exact ⟨d, hd, Except.ok.inj (h.symm.trans hok)⟩
    · cases h.symm.trans herror
  · rw [Checksum.compute, checksum, CheckDigit.compute_text _ _ _ hx] at h
    cases hv : c.settings.checkDigitAlphabet with
    | text ds => exact absurd ⟨ds, hv⟩ htext
    | _ => rw [hv] at h; cases h

/-! ### The text of a sequence and an instant -/

section Host

variable [Host]

/-- The text is the written one with the packed number for a stamp. -/
theorem encode_eq_ok_iff (h : c.Uses n) (hs : s ≤ Settings.maxSequence) {x : String} :
    c.encode s t = .ok x ↔ ∃ p d, c.timestamps.pack (DateTime.ofInstant t) = .ok p ∧
      c.timestamps.Fits n p ∧ c.Written n x (n.padded c.timestamps.width p) s d := by
  have hencoder : c.encoder = n.encoder := h.encoder
  simp only [encode, hencoder, Numeral.encoder, bind_eq_ok_iff, n.encode_eq_ok_iff,
    TimestampCodec.encode_ofInstant_eq_ok_iff h.encoder]
  constructor
  · rintro ⟨_, ⟨p, hp, hfits, rfl⟩, _, ⟨-, rfl⟩, bare, hbare, ch, hch, d, hd, _, ⟨-, rfl⟩, hx⟩
    -- the alphabet may be no text, but then there is no check character either
    obtain ⟨e, he, rfl⟩ := exists_digit_of_compute (Layout.toList_ne_nil_of_join hbare) hch
    obtain ⟨hsize, -, rfl⟩ := Layout.join_ofList_eq_ok_iff.mp hbare
    obtain ⟨-, -, rfl⟩ := Layout.join_ofList_eq_ok_iff.mp hx
    cases Except.ok.inj (hd.symm.trans (decimalDigit_asciiDigit he))
    refine ⟨p, d, hp, hfits, rfl, hsize, fun _ => n.mem_padded, ?_, hs, he, hch⟩
    rw [n.value_padded]
    exact hfits.le_maxValue
  · rintro ⟨p, d, hp, hfits, hw⟩
    have hmax := checked_le_maxValue hs hw.digit_lt
    refine ⟨_, ⟨p, hp, hfits, rfl⟩, _, ⟨by omega, rfl⟩, _, ?_, _, hw.checks, d,
      decimalDigit_asciiDigit hw.digit_lt, _, ⟨hmax, rfl⟩, hw.join⟩
    exact Layout.join_ofList_eq_ok_iff.mpr ⟨hw.size, n.write_ne_nil s, rfl⟩

/-- A stamp has the width of the layout. -/
theorem length_of_encode (h : c.Uses n) {stamp : String}
    (hstamp : c.timestamps.encode (DateTime.ofInstant t) = .ok stamp) :
    stamp.length = c.layout.width := by
  obtain ⟨p, -, hfits, rfl⟩ := (TimestampCodec.encode_ofInstant_eq_ok_iff h.encoder).mp hstamp
  rw [String.length_ofList]
  exact n.length_padded hfits.length_le

/-- What has no text is rejected, unless there is no room for the zeros. -/
theorem encode_error (h : c.Uses n) (hds : c.settings.checkDigitAlphabet = .text ds) {e : Error}
    (he : c.encode s t = .error e) :
    (∃ f, e = .input f) ∨ (e = .textTooLong ∨ e = .outOfMemory) ∧
      ∃ p, c.timestamps.pack (DateTime.ofInstant t) = .ok p ∧
        Host.memory < c.timestamps.width - (n.write p).length := by
  have hencoder : c.encoder = n.encoder := h.encoder
  simp only [encode, hencoder, Numeral.encoder, bind_eq_error_iff] at he
  rcases he with hstamp | ⟨stamp, hstamp, hsequence | ⟨tail, -, hbare | ⟨bare, hbare, hcompute |
    ⟨ch, hch, hdigit | ⟨d, -, hnumber | ⟨_, -, hjoin⟩⟩⟩⟩⟩⟩
  · exact TimestampCodec.encode_ofInstant_error h.encoder hstamp
  · exact Or.inl (n.encode_error hsequence)
  · exact Or.inl ⟨_, Layout.join_error_of_length (length_of_encode h hstamp) hbare⟩
  · rcases compute_cases hds (Layout.toList_ne_nil_of_join hbare) with ⟨⟨d, -, hok⟩, -⟩ | ⟨hzero, -⟩
    · cases hcompute.symm.trans hok
    · exact Or.inl ⟨_, Except.error.inj (hcompute.symm.trans hzero)⟩
  · obtain ⟨d, hd, rfl⟩ := exists_digit_of_compute (Layout.toList_ne_nil_of_join hbare) hch
    cases hdigit.symm.trans (decimalDigit_asciiDigit hd)
  · exact Or.inl (n.encode_error hnumber)
  · exact Or.inl ⟨_, Layout.join_error_of_length (length_of_encode h hstamp) hjoin⟩

end Host

/-! ### Comparing what was decoded -/

/-- The drift limit is a duration. -/
def LimitFits (c : Codec) : Prop :=
  ∃ v, c.settings.driftLimit = .ok v ∧ (DriftLimit.ofValue v).micros < DriftLimit.maxMicros

/-- A codec's numbers of bits and digits give a limit where none is set. -/
theorem exists_driftLimit (c : Codec) : ∃ v, c.settings.driftLimit = .ok v := by
  unfold Settings.driftLimit
  split
  · split
    · exact ⟨_, rfl⟩
    · rw [c.bits_eq, c.digits_eq]
      cases c.timestamps.roundingDigits <;> exact ⟨_, rfl⟩
  · exact ⟨_, rfl⟩

/-- With the right sequence, only a drift limit that is no duration stands in
the way of a drift. -/
theorem verify_result {x : Identifier} {v : Value} (hs : x.sequence = s)
    (hv : c.settings.driftLimit = .ok v) : (c.verify s t x).result =
      if x.timestamp = t ∨ (DriftLimit.ofValue v).micros < DriftLimit.maxMicros then .ok ()
      else .error .driftLimitOverflow := by
  rw [verify, if_neg (not_not.mpr hs)]
  by_cases ht : x.timestamp = t
  · rw [if_pos ht, if_pos (Or.inl ht)]
    rfl
  rw [if_neg ht, hv]
  simp only [Logged.result_bind, Logged.result_liftM]
  by_cases hlt : (DriftLimit.ofValue v).micros < DriftLimit.maxMicros
  · rw [if_pos (Or.inr hlt)]
    show Logged.result (if _ then _ else _) = _
    rw [if_neg (not_le.mpr hlt)]
    split <;> rfl
  · rw [if_neg (not_or.mpr ⟨ht, hlt⟩)]
    show Logged.result (if _ then _ else _) = _
    rw [if_pos (not_lt.mp hlt)]
    rfl

theorem verify_eq_ok_iff {x : Identifier} (hs : x.sequence = s) :
    (c.verify s t x).result = .ok () ↔ x.timestamp = t ∨ c.LimitFits := by
  obtain ⟨v, hv⟩ := c.exists_driftLimit
  have hfits : c.LimitFits ↔ (DriftLimit.ofValue v).micros < DriftLimit.maxMicros := by
    refine ⟨fun ⟨w, hw, hlt⟩ => ?_, fun hlt => ⟨v, hv, hlt⟩⟩
    cases Except.ok.inj (hw.symm.trans hv)
    exact hlt
  rw [verify_result hs hv, hfits]
  split
  · next h => exact ⟨fun _ => h, fun _ => rfl⟩
  · next h => exact ⟨nofun, fun h' => absurd h' h⟩

theorem verify_error {x : Identifier} {e : Error} (hs : x.sequence = s)
    (h : (c.verify s t x).result = .error e) : e = .driftLimitOverflow := by
  obtain ⟨v, hv⟩ := c.exists_driftLimit
  rw [verify_result hs hv] at h
  split at h
  · cases h
  · exact (Except.error.inj h).symm

/-! ### Creating -/

theorem createAt_result : (c.createAt s t).result = c.encode s t >>= fun x =>
    (c.decode (.text x)).result >>= fun o =>
      match o with
      | none => .error (.consistency (.undecodable x))
      | some y => (c.verify s t y).result >>= fun _ => .ok ⟨x, t, s⟩ := by
  rw [createAt, Logged.result_bind, Logged.result_liftM]
  refine congrArg _ (funext fun x => ?_)
  rw [Logged.result_bind]
  refine congrArg _ (funext fun o => ?_)
  cases o with
  | none => rfl
  | some y =>
    simp only [Logged.result_bind]
    rfl

/-- All that creating from a sequence in range can do: there is no text; or
there is one, and it decodes, with a drift that is tolerated or has no limit;
or the calendar has no time for it. -/
theorem createAt_cases [Host] (h : c.Uses n) (hs : s ≤ Settings.maxSequence) :
    (∃ e, c.encode s t = .error e ∧ (c.createAt s t).result = .error e) ∨
    ∃ x p d, c.timestamps.pack (DateTime.ofInstant t) = .ok p ∧ c.timestamps.Fits n p ∧
      c.Written n x (n.padded c.timestamps.width p) s d ∧
      ((∃ u, c.timestamps.unpack p = .ok u ∧ (u = t ∨ c.LimitFits) ∧
          (c.decode (.text x)).result = .ok (some ⟨x, u, s⟩) ∧
          (c.createAt s t).result = .ok ⟨x, t, s⟩) ∨
        (¬ c.LimitFits ∧ (c.createAt s t).result = .error .driftLimitOverflow) ∨
        (c.timestamps.unpack p = .error (.input .timestampOutOfRange) ∧
          (c.createAt s t).result = .error (.consistency (.undecodable x)))) := by
  rw [createAt_result]
  cases hx : c.encode s t with
  | error e => exact Or.inl ⟨e, rfl, rfl⟩
  | ok x =>
    right
    obtain ⟨p, d, hp, hfits, hw⟩ := (encode_eq_ok_iff h hs).mp hx
    refine ⟨x, p, d, hp, hfits, hw, ?_⟩
    have hvalue := n.value_padded c.timestamps.width p
    simp only [bind_ok]
    -- whether the calendar has the stamp's time decides what decoding says
    cases hu : c.timestamps.unpack p with
    | error e =>
      have hdecode := hw.undecodable h (hvalue.symm ▸ hu)
      obtain ⟨-, rfl⟩ := TimestampCodec.unpack_eq_error_iff.mp hu
      rw [hdecode]
      exact Or.inr (Or.inr ⟨rfl, rfl⟩)
    | ok u =>
      have hdecode := decode_eq_some_iff.mpr (hw.decodeText h (hvalue.symm ▸ hu))
      simp only [hdecode, bind_ok]
      cases hverify : (c.verify s t ⟨x, u, s⟩).result with
      | ok =>
        have hdrift := (verify_eq_ok_iff rfl).mp hverify
        exact Or.inl ⟨u, rfl, hdrift, rfl, rfl⟩
      | error e =>
        have hlimit : ¬ c.LimitFits := fun hlimit => by
          cases hverify.symm.trans ((verify_eq_ok_iff rfl).mpr (Or.inr hlimit))
        rw [verify_error rfl hverify]
        exact Or.inr (Or.inl ⟨hlimit, rfl⟩)

/-- The sequence of a value is an integer in range; otherwise the value is
rejected, unless it is an integer that the wording cannot show. -/
theorem sequenceOf_cases (v : Value) :
    (∃ s : Nat, s ≤ Settings.maxSequence ∧ v = .int s ∧ sequenceOf v = .ok s) ∨
      ∃ e, sequenceOf v = .error e ∧ ((∃ f, e = .input f) ∨
        e = .integerTooLong ∧ ∃ i : Int, v = .int i ∧ 10 ^ Integer.maxDigits ≤ i.natAbs) := by
  cases v with
  | int i =>
    by_cases hi : 0 ≤ i ∧ i ≤ Settings.maxSequence
    · exact Or.inl ⟨i.toNat, by omega, by rw [Int.toNat_of_nonneg hi.1], if_pos hi⟩
    · refine Or.inr ⟨_, if_neg hi, ?_⟩
      rcases Nat.lt_or_ge i.natAbs (10 ^ Integer.maxDigits) with hlt | hle
      · exact Or.inl ⟨_, Error.showing_of_lt hlt⟩
      · exact Or.inr ⟨Error.showing_of_le hle, i, rfl, hle⟩
  | _ => exact Or.inr ⟨_, rfl, Or.inl ⟨_, rfl⟩⟩

/-- The instant of a timestamp, or the present one without it. -/
def instantOf : Value → DateTime → Except Error Instant
  | .null, now => now.toUtc
  | v, _ => v.toUtc

/-- A timestamp has an instant, or is none, or UTC has no reading for it. -/
theorem instantOf_error {v : Value} {now : DateTime} {e : Error} (h : instantOf v now = .error e) :
    (∃ f, e = .input f) ∨
      e = .calendarOverflow ∧ ∃ d, (v = .moment d ∨ v = .null ∧ d = now) ∧ d.toUtc? = none := by
  cases v with
  | null =>
    obtain ⟨hutc, rfl⟩ := DateTime.toUtc_eq_error_iff.mp h
    exact Or.inr ⟨rfl, now, Or.inr ⟨rfl, rfl⟩, hutc⟩
  | moment d =>
    obtain ⟨hutc, rfl⟩ := DateTime.toUtc_eq_error_iff.mp h
    exact Or.inr ⟨rfl, d, Or.inl rfl, hutc⟩
  | _ => exact Or.inl ⟨_, (Except.error.inj h).symm⟩

theorem create_result (v t : Value) (now : DateTime) : (c.create v t now).result =
    sequenceOf v >>= fun s => instantOf t now >>= fun u => (c.createAt s u).result := by
  rw [create, Logged.result_bind, Logged.result_liftM]
  refine congrArg _ (funext fun s => ?_)
  cases t <;> exact Logged.result_bind _ _

theorem create_of_ok {v t : Value} {now : DateTime} {s : Nat} {u : Instant}
    (hs : sequenceOf v = .ok s) (hu : instantOf t now = .ok u) :
    (c.create v t now).result = (c.createAt s u).result := by
  rw [create_result, hs, hu]
  rfl

theorem sequenceOf_natCast {s : Nat} (hs : s ≤ Settings.maxSequence) : sequenceOf (.int s) = .ok s :=
  if_pos ⟨Int.natCast_nonneg s, by exact_mod_cast hs⟩

/-- An integer of too many digits is out of range, and the wording cannot show it. -/
theorem sequenceOf_of_unshown {i : Int} (hi : 10 ^ Integer.maxDigits ≤ i.natAbs) :
    sequenceOf (.int i) = .error .integerTooLong := by
  have hmax : Settings.maxSequence < 10 ^ Integer.maxDigits := by decide +kernel
  have hout : ¬ (0 ≤ i ∧ i ≤ Settings.maxSequence) := by omega
  rw [sequenceOf, if_neg hout, Error.showing_of_le hi]

theorem create_of_unshown {i : Int} (hi : 10 ^ Integer.maxDigits ≤ i.natAbs) (t : Value)
    (now : DateTime) : (c.create (.int i) t now).result = .error .integerTooLong := by
  rw [create_result, sequenceOf_of_unshown hi]
  rfl

/-- What was created is written, with the packed timestamp for a stamp, and
decodes to what that stands for. -/
theorem exists_decoded_of_create [Host] (h : c.Uses n) {v t : Value} {now : DateTime} {r : Identifier}
    (hr : (c.create v t now).result = .ok r) :
    v = .int r.sequence ∧ instantOf t now = .ok r.timestamp ∧
      ∃ p d u, c.timestamps.pack (DateTime.ofInstant r.timestamp) = .ok p ∧
        c.timestamps.unpack p = .ok u ∧
        c.Written n r.id (n.padded c.timestamps.width p) r.sequence d ∧
        (c.decode (.text r.id)).result = .ok (some ⟨r.id, u, r.sequence⟩) := by
  rw [create_result] at hr
  rcases sequenceOf_cases v with ⟨s, hs, rfl, hsequence⟩ | ⟨e, he, -⟩
  swap
  · rw [he] at hr
    cases hr
  rw [hsequence, bind_ok, bind_eq_ok_iff] at hr
  obtain ⟨u, hu, hr⟩ := hr
  rcases createAt_cases (t := u) h hs with ⟨e, -, he⟩ | ⟨x, p, d, hp, -, hw, hcases⟩
  · cases hr.symm.trans he
  rcases hcases with ⟨u', hu', -, hdecode, hok⟩ | ⟨-, herror⟩ | ⟨-, herror⟩
  · cases hr.symm.trans hok
    exact ⟨rfl, hu, p, d, u', hp, hu', hw, hdecode⟩
  · cases hr.symm.trans herror
  · cases hr.symm.trans herror

end Codec
end ChronoId
