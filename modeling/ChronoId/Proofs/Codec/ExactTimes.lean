/-
# Packing and unpacking in exact arithmetic

What a timestamp codec computes in doubles and in decimals of twenty-eight
digits is what exact rationals give. Up to thirty-eight bits a timestamp is
packed into the number of steps since the epoch, rounded half up. Every packed
number, negative and huge ones included, is unpacked to its whole seconds and
its fraction, rounded half up to the rounding digits and then to microseconds,
and rejected exactly if the calendar has no such time.

Key definitions: `Timestamp.unpackExactly`.
Key theorems: `Timestamp.packMicros_eq_floor`,
`Timestamp.unpackMicros_eq_unpackExactly`, `TimestampCodec.pack_exact`,
`TimestampCodec.unpack_exact`.
-/
import ChronoId.Proofs.Codec.Basic
import ChronoId.Proofs.Packing

namespace ChronoId

namespace Timestamp

open Rounding

variable {bits digits : Nat}

/-! ### Packing -/

/-- Up to thirty-eight bits the packed number is the number of steps, rounded
half up. -/
theorem packMicros_eq_floor (hb : 1 ≤ bits) (hb' : bits ≤ 38) (micros : Nat) :
    (packMicros bits micros : Int) = ((micros : Rat) * 2 ^ bits / 10 ^ 6 + 1 / 2).floor := by
  have hsteps : (micros : Rat) * 2 ^ bits / 10 ^ 6 + 1 / 2 =
      (halfUpNumerator bits micros : Rat) / (2000000 : Nat) := by
    rw [halfUpNumerator]
    push_cast
    ring
  rw [hsteps, floor_natCast_div, packMicros_eq_halfUp hb hb']

/-! ### Unpacking -/

/-- The microseconds that a packed number stands for, worked out in exact
rationals: its whole seconds, and the steps beyond them, rounded half up to
decimal steps of `digits` digits, and from these through nanoseconds to
microseconds. -/
def unpackExactly (bits digits : Nat) (packed : Int) : Int :=
  let seconds := ((packed : Rat) / 2 ^ bits).floor
  let steps := packed - seconds * 2 ^ bits
  let fraction := ((steps : Rat) * 10 ^ digits / 2 ^ bits + 1 / 2).floor
  let micros := if bits = 0 then 0
    else (((fraction * 10 ^ (9 - digits) + 500 : Int) : Rat) / 1000).floor
  seconds * 1000000 + micros

theorem unpackMicros_eq_unpackExactly (hb : bits ≤ 62) (hd : 0 < bits → digits ≤ 9) (packed : Int) :
    unpackMicros bits digits packed = unpackExactly bits digits packed := by
  have hseconds : ((packed : Rat) / 2 ^ bits).floor = packed / 2 ^ bits := by
    exact_mod_cast Rat.floor_intCast_div_natCast packed (2 ^ bits)
  by_cases hzero : bits = 0
  · rw [unpackMicros, unpackExactly, if_pos hzero, if_pos hzero, hseconds, hzero, pow_zero,
      Int.ediv_one, add_zero]
  · have hrest : packed - packed / 2 ^ bits * 2 ^ bits = packed % 2 ^ bits := by
      have := Int.mul_ediv_add_emod packed (2 ^ bits)
      linarith
    have hd' := hd (Nat.pos_of_ne_zero hzero)
    rw [unpackMicros_eq_add hzero hd', halfUp_decimal_emod hb hd', halfUp, div_mul_eq_mul_div,
      unpackExactly, if_neg hzero, hseconds, hrest]
    exact congrArg _ (floor_intCast_div _ 1000).symm

end Timestamp

namespace TimestampCodec

/-- A timestamp `m` microseconds after the epoch is packed into the whole number
of its steps, rounded half up, and without bits into its whole seconds. -/
theorem pack_exact (c : TimestampCodec) {d : DateTime} {t : Instant} {m : Nat}
    (ht : d.toUtc? = some t) (hm : t.micros = c.epoch.micros + m) :
    ∃ p : Nat, c.pack d = .ok p ∧
      (c.subsecondBits = 0 → (p : Int) = ((m : Rat) / 10 ^ 6).floor) ∧
      (1 ≤ c.subsecondBits → c.subsecondBits ≤ 38 →
        (p : Int) = ((m : Rat) * 2 ^ c.subsecondBits / 10 ^ 6 + 1 / 2).floor) := by
  have hmicros : t.micros - c.epoch.micros = m := by omega
  refine ⟨_, pack_of_toUtc ht (by omega), ?_, ?_⟩
  · intro hb
    rw [hmicros, hb, Timestamp.packMicros_zero_bits, ← Rounding.floor_natCast_div]
    norm_num
  · intro hb hb'
    rw [hmicros]
    exact Timestamp.packMicros_eq_floor hb hb' m

section Ample

attribute [local instance] Host.ample

/-- The last microsecond of a second, packed into thirty-eight bits. -/
theorem pack_exact_thirtyEight : ∃ (c : TimestampCodec) (d : DateTime) (t : Instant),
    c.subsecondBits = 38 ∧ d.toUtc? = some t ∧ t.micros = c.epoch.micros + 999999 ∧
      c.pack d = .ok 274877632066 := by
  let c : TimestampCodec :=
    ⟨Numeral.crockford.encoder, 12, 38, .int 6, .start, by decide, by decide, by decide⟩
  let t : Instant := ⟨999999, by decide⟩
  have ht : DateTime.toUtc? ⟨t, none⟩ = some t := rfl
  have hm : t.micros = c.epoch.micros + 999999 := (Nat.zero_add 999999).symm
  refine ⟨c, ⟨t, none⟩, t, rfl, ht, hm, ?_⟩
  obtain ⟨p, hp, -, hexact⟩ := pack_exact c ht hm
  have hfloor : (((999999 : Nat) : Rat) * 2 ^ 38 / 10 ^ 6 + 1 / 2).floor = 274877632066 :=
    Rounding.floor_eq_of_bounds (by norm_num) (by norm_num)
  have hvalue : (p : Int) = 274877632066 := (hexact (by decide) (by decide)).trans hfloor
  rw [hp]
  congr 1
  exact_mod_cast hvalue

end Ample

/-- Where a packed number lies on the line of instants, in exact arithmetic, in
the calendar or not. -/
def exactInstant (c : TimestampCodec) (packed : Int) : Int :=
  c.epoch.micros + Timestamp.unpackExactly c.subsecondBits c.roundingDigits.toInt.toNat packed

theorem exactInstant_eq (c : TimestampCodec) (packed : Int) :
    c.exactInstant packed = c.epoch.micros + c.unpacked packed := by
  rw [exactInstant, unpacked,
    Timestamp.unpackMicros_eq_unpackExactly c.bits_le fun hb => (c.digits_bounds hb).2]

/-- Every packed number stands for the instant that exact arithmetic gives, if
that is in the years from 1 to 9999, and otherwise is rejected as out of range.
The digits to which the quotient is rounded do not show. -/
theorem unpack_exact (c : TimestampCodec) (packed : Int) :
    (∀ t : Instant, c.unpack packed = .ok t ↔ (t.micros : Int) = c.exactInstant packed) ∧
    (∀ e, c.unpack packed = .error e ↔ e = .input .timestampOutOfRange ∧
      (c.exactInstant packed < 0 ∨
        Date.daysBeforeYear 10000 * microsPerDay ≤ c.exactInstant packed)) ∧
    (0 < c.subsecondBits → ∀ steps : Nat, steps < 2 ^ c.subsecondBits →
      Rounding.halfUp (Rounding.decimal ((steps : Rat) / 2 ^ c.subsecondBits) *
          10 ^ c.roundingDigits.toInt.toNat) =
        Rounding.halfUp ((steps : Rat) / 2 ^ c.subsecondBits *
          10 ^ c.roundingDigits.toInt.toNat)) := by
  refine ⟨?_, ?_, ?_⟩
  · intro t
    rw [unpack_eq_ok_iff, exactInstant_eq]
    exact eq_comm
  · intro e
    rw [unpack_eq_error_iff, exactInstant_eq]
    exact and_comm
  · intro hb steps hsteps
    exact Timestamp.halfUp_decimal c.bits_le (c.digits_bounds hb).2 hsteps

section Ample

attribute [local instance] Host.ample

/-- The last step before the start of the calendar is rounded up to it, and a whole
second before it is no time. -/
theorem unpack_exact_lastStep : ∃ c : TimestampCodec, c.epoch = .start ∧
    c.subsecondBits = 11 ∧ c.roundingDigits = .int 3 ∧ c.unpack (-1) = .ok .start ∧
    c.unpack (-2048) = .error (.input .timestampOutOfRange) ∧
    Rounding.halfUp (Rounding.decimal ((2047 : Nat) / 2 ^ 11) * 10 ^ 3) = 1000 := by
  let c : TimestampCodec :=
    ⟨Numeral.crockford.encoder, 9, 11, .int 3, .start, by decide, by decide, by decide⟩
  have hlast : c.exactInstant (-1) = 0 := by decide +kernel
  have hsecond : c.exactInstant (-2048) = -1000000 := by decide +kernel
  have hsteps : Rounding.halfUp (((2047 : Nat) : Rat) / 2 ^ 11 * 10 ^ 3) = 1000 :=
    Rounding.floor_eq_of_bounds (by norm_num) (by norm_num)
  obtain ⟨hok, -, -⟩ := unpack_exact c (-1)
  obtain ⟨-, herror, hdigits⟩ := unpack_exact c (-2048)
  refine ⟨c, rfl, rfl, rfl, (hok .start).mpr hlast.symm, (herror _).mpr ⟨rfl, Or.inl ?_⟩, ?_⟩
  · rw [hsecond]
    decide
  · exact (hdigits (by decide) 2047 (by decide)).trans hsteps

end Ample

end TimestampCodec
end ChronoId
