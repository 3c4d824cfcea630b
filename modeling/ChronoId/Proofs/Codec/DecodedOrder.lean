/-
# Identifiers sort like what they decode to

Of two texts that a codec accepts, the one that comes first has the earlier
time or the same one, whoever wrote them: the stamp stands in front and has one
length, and unpacking keeps the order of the packed numbers. With one stamp and
one length, the order of the texts is that of the sequences, since texts of one
stamp and one sequence are the same and the check digit decides nothing.

Key theorems: `TimestampCodec.unpack_mono`, `Codec.Written.stamp_le_of_lt`,
`Codec.Written.lt_iff_sequence_lt`.
-/
import ChronoId.Proofs.Codec.Order

namespace ChronoId

namespace TimestampCodec

variable {c : TimestampCodec} {t u : Instant} {p q : Int}

/-- The larger packed number stands for no earlier time. -/
theorem unpack_mono (hp : c.unpack p = .ok t) (hq : c.unpack q = .ok u) (h : p ≤ q) :
    t.micros ≤ u.micros := by
  have hle : c.unpacked p ≤ c.unpacked q :=
    Timestamp.unpackMicros_mono c.bits_le (fun hb => (c.digits_bounds hb).2) h
  rw [unpack_eq_ok_iff] at hp hq
  omega

end TimestampCodec

namespace Codec

variable {c : Codec} {n : Numeral}

section Written

variable {x x' : String} {stamp stamp' : List Char} {s s' d d' : Nat}

/-- What comes first has no larger stamp. -/
theorem Written.stamp_le_of_lt [Host] (h : c.Uses n) (hw : c.Written n x stamp s d)
    (hw' : c.Written n x' stamp' s' d') (hlt : x < x') : n.value stamp ≤ n.value stamp' := by
  by_contra hgt
  exact lt_asymm hlt (hw'.lt_of_stamp_lt h hw (not_le.mp hgt))

/-- Texts of one stamp and one length compare like their sequences. -/
theorem Written.lt_iff_sequence_lt [Host] (h : c.Uses n) (hw : c.Written n x stamp s d)
    (hw' : c.Written n x' stamp s' d') (hlen : x.length = x'.length) : x < x' ↔ s < s' := by
  constructor
  · intro hlt
    rcases Nat.lt_trichotomy s s' with hbefore | rfl | hbehind
    · exact hbefore
    · rw [hw.unique hw'] at hlt
      exact absurd hlt (lt_irrefl x')
    · rcases hw'.lt_of_sequence_lt h hw hbehind with hshorter | ⟨-, hgt⟩
      · exact absurd hlen hshorter.ne'
      · exact absurd hlt (lt_asymm hgt)
  · intro hlt
    rcases hw.lt_of_sequence_lt h hw' hlt with hshorter | ⟨-, hfirst⟩
    · exact absurd hlen hshorter.ne
    · exact hfirst

end Written

/-- Two texts that a codec accepts: the first in order has no later time, and
with one length and one stamp the order is that of the sequences. -/
theorem decode_order [Host] {source : Settings.Source} {shared : Option Instant} {c : Codec}
    (h : (build source none shared).result = .ok c) {x x' : String} {y y' : Identifier}
    (hy : (c.decode (.text x)).result = .ok (some y))
    (hy' : (c.decode (.text x')).result = .ok (some y')) :
    (x < x' → y.timestamp.micros ≤ y'.timestamp.micros) ∧
      (x.length = x'.length →
        x.toList.take c.timestamps.width = x'.toList.take c.timestamps.width →
        (x < x' ↔ y.sequence < y'.sequence)) := by
  obtain ⟨n, hn⟩ := exists_uses_of_build h
  obtain ⟨stamp, s, d, hw, hu, -, hs⟩ := written_of_decodeText hn (decode_eq_some_iff.mp hy)
  obtain ⟨stamp', s', d', hw', hu', -, hs'⟩ := written_of_decodeText hn (decode_eq_some_iff.mp hy')
  constructor
  · intro hlt
    have hle := hw.stamp_le_of_lt hn hw' hlt
    exact TimestampCodec.unpack_mono hu hu' (by exact_mod_cast hle)
  · intro hlen htake
    rw [hw.take, hw'.take] at htake
    subst htake
    rw [hs, hs']
    exact hw.lt_iff_sequence_lt hn hw' hlen

section Ample

attribute [local instance] Host.ample

/-- With whole seconds, the sequences seven and eight at the epoch have texts of
one length, and a second later comes behind both. -/
theorem decode_order_wholeSeconds : ∃ c x x' x'',
    (build (.ready (Settings.wholeSeconds 9 (by decide))) none none).result = .ok c ∧
      (c.decode (.text x)).result = .ok (some ⟨x, .start, 7⟩) ∧
      (c.decode (.text x')).result = .ok (some ⟨x', .start, 8⟩) ∧
      (c.decode (.text x'')).result = .ok (some ⟨x'', ⟨1000000, by decide⟩, 7⟩) ∧
      x.length = x'.length ∧ x.toList.take c.timestamps.width = x'.toList.take c.timestamps.width ∧
      x < x' ∧ x' < x'' ∧ WallTime.start.micros ≤ 1000000 := by
  obtain ⟨c, hc, hsettings, htimestamps, hn⟩ := exists_build_wholeSeconds 9 (by decide)
  have hds : c.settings.checkDigitAlphabet = .text "0123456789" :=
    congrArg (·.checkDigitAlphabet) hsettings
  have hone : Numeral.crockford.write 1 = [Numeral.crockford.symbol 1] :=
    Numeral.crockford.write_of_lt (by decide)
  have htwo {v : Nat} (hlow : 32 ≤ v) (hhigh : v < 1024) :
      (Numeral.crockford.write v).length = 2 := by
    have hle := Numeral.crockford.length_write_le_iff (v := v) (by norm_num : 0 < 2)
    have hlt := Numeral.crockford.length_write_le_iff (v := v) (by norm_num : 0 < 1)
    have hradix : Numeral.crockford.radix = 32 := rfl
    rw [hradix] at hle hlt
    omega
  have he : c.Encodable Numeral.crockford 7 .start 0 .start :=
    encodable_wholeSeconds hsettings htimestamps (by decide) rfl (Nat.zero_le _)
      (by rw [Numeral.write_zero]; decide)
  have he' : c.Encodable Numeral.crockford 8 .start 0 .start :=
    encodable_wholeSeconds hsettings htimestamps (by decide) rfl (Nat.zero_le _)
      (by rw [Numeral.write_zero]; decide)
  have he'' : c.Encodable Numeral.crockford 7 ⟨1000000, by decide⟩ 1 ⟨1000000, by decide⟩ :=
    encodable_wholeSeconds hsettings htimestamps (by decide) rfl (by decide) (by rw [hone]; decide)
  obtain ⟨x, d, hw, hdecode⟩ := he.exists_written hn hds
  obtain ⟨x', d', hw', hdecode'⟩ := he'.exists_written hn hds
  obtain ⟨x'', d'', hw'', hdecode''⟩ := he''.exists_written hn hds
  have hlen : x.length = x'.length := by
    have := hw.digit_lt
    have := hw'.digit_lt
    rw [hw.length_eq, hw'.length_eq, htwo (by omega) (by omega), htwo (by omega) (by omega)]
  have htake : x.toList.take c.timestamps.width = x'.toList.take c.timestamps.width :=
    hw.take.trans hw'.take.symm
  have hlater : x' < x'' := hw'.lt_of_stamp_lt hn hw'' (by
    rw [Numeral.value_padded, Numeral.value_padded]
    exact Nat.one_pos)
  obtain ⟨-, hsequence⟩ := decode_order hc hdecode hdecode'
  obtain ⟨htime, -⟩ := decode_order hc hdecode' hdecode''
  exact ⟨c, x, x', x'', hc, hdecode, hdecode', hdecode'', hlen, htake,
    (hsequence hlen htake).mpr (show 7 < 8 by decide), hlater, htime hlater⟩

end Ample

end Codec
end ChronoId
