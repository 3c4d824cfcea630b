/-
# The instant of a reading

A clock shows each date of the calendar at each time of the day just once. The
instant that a reading denotes is that date and time, counted in microseconds
and moved back by the clock's offset; without an offset the clock is taken to
show UTC. UTC has a reading for it if it falls within the calendar, and the time
that has elapsed between two readings is the distance of their instants. So
readings of the same instant are all alike.

Key definitions: `DateTime.position`.
Key theorems: `WallTime.ofFields?_eq_some_iff`, `WallTime.existsUnique_fields`,
`DateTime.toUtc_eq_ok_iff_position`, `DateTime.toUtc_eq_error_iff_position`,
`DateTime.toUtc_congr`, `Elapsed.between_of_toUtc`.
-/
import ChronoId.Proofs.Codec.Basic
import ChronoId.Proofs.Time.Rfc3339

namespace ChronoId

/-! ### What a clock shows -/

namespace WallTime

section Fields

variable {date : Date} {hour minute second micro : Nat} {w : WallTime}

/-- What is put together of fields is the reading that shows them. -/
theorem ofFields?_eq_some_iff : ofFields? date hour minute second micro = some w ↔
    w.date = date ∧ w.hour = hour ∧ w.minute = minute ∧ w.second = second ∧ w.micro = micro := by
  constructor
  · intro h
    unfold ofFields? at h
    split at h
    · next hfields =>
      obtain ⟨hdate, hhour, hminute, hsecond, hmicro⟩ := hfields
      have hmicros : date.dayNumber * 86400000000 +
          (((hour * 60 + minute) * 60 + second) * 1000000 + micro) = w.micros :=
        Int.ofNat_inj.mp (ofMicros?_eq_some_iff.mp h)
      have hday : w.micros / microsPerDay = date.dayNumber := by
        unfold microsPerDay
        omega
      refine ⟨by rw [WallTime.date, hday, hdate.ofDayNumber_dayNumber], ?_⟩
      unfold WallTime.hour WallTime.minute WallTime.second WallTime.micro microOfDay microsPerDay
      omega
    · cases h
  · rintro ⟨rfl, rfl, rfl, rfl, rfl⟩
    obtain ⟨hhour, hminute, hsecond, hmicro⟩ := w.time_bounds
    rw [ofFields?, if_pos ⟨w.isValid_date, hhour, hminute, hsecond, hmicro⟩, ofMicros?_eq_some_iff,
      ← add_assoc, w.micros_eq]

/-- A clock shows every date of the calendar at every time of the day, and just
once. -/
theorem existsUnique_fields (hdate : date.IsValid) (hhour : hour < 24) (hminute : minute < 60)
    (hsecond : second < 60) (hmicro : micro < 1000000) :
    ∃! w : WallTime, w.date = date ∧ w.hour = hour ∧ w.minute = minute ∧ w.second = second ∧
      w.micro = micro := by
  have hday := hdate.dayNumber_lt
  have hend : limit = Date.daysBeforeYear 10000 * microsPerDay := rfl
  have hlt : date.dayNumber * microsPerDay +
      (((hour * 60 + minute) * 60 + second) * 1000000 + micro) < limit := by
    rw [hend]
    unfold microsPerDay
    omega
  have hshown : ofFields? date hour minute second micro = some ⟨_, hlt⟩ :=
    (if_pos ⟨hdate, hhour, hminute, hsecond, hmicro⟩).trans (ofMicros?_natCast hlt)
  refine ⟨_, ofFields?_eq_some_iff.mp hshown, ?_⟩
  intro w hw
  exact Option.some.inj ((ofFields?_eq_some_iff.mpr hw).symm.trans hshown)

end Fields

end WallTime

/-! ### Where it lies -/

namespace DateTime

/-- The instant that a reading denotes, in microseconds from the start of the
calendar: the date and the time of day that are shown, less the clock's offset. -/
def position (t : DateTime) : Int :=
  t.wall.date.dayNumber * microsPerDay
    + ((t.wall.hour * 60 + t.wall.minute) * 60 + t.wall.second) * 1000000 + t.wall.micro
    - (t.offset.getD .utc).micros

variable {t t' : DateTime} {i : Instant}

theorem position_eq (t : DateTime) :
    t.position = t.wall.micros - (t.offset.getD .utc).micros := by
  rw [position, ← t.wall.micros_eq]
  push_cast
  ring

@[simp]
theorem position_ofInstant (i : Instant) : (ofInstant i).position = i.micros := by
  rw [position_eq]
  simp [ofInstant, Offset.utc]

theorem toUtc?_eq (t : DateTime) : t.toUtc? = t.wall.shift? (-(t.offset.getD .utc).micros) := by
  obtain ⟨wall, _ | offset⟩ := t
  · exact (WallTime.shift?_eq_some_iff.mpr (by simp [Offset.utc])).symm
  · rfl

/-- UTC shows the instant that was denoted. -/
theorem toUtc_eq_ok_iff_position :
    t.toUtc = .ok i ↔ (ofInstant i).position = t.position := by
  rw [toUtc_eq_ok_iff, toUtc?_eq, WallTime.shift?_eq_some_iff, position_ofInstant, position_eq]
  omega

/-- Outside the calendar UTC shows nothing. -/
theorem toUtc_eq_error_iff_position {e : Error} : t.toUtc = .error e ↔ e = .calendarOverflow ∧
    (t.position < 0 ∨ Date.daysBeforeYear 10000 * microsPerDay ≤ t.position) := by
  have hend : WallTime.limit = Date.daysBeforeYear 10000 * microsPerDay := rfl
  rw [toUtc_eq_error_iff, toUtc?_eq, WallTime.shift?_eq_none_iff, position_eq, and_comm, hend]
  push_cast
  rfl

/-- Readings of one instant have one UTC. -/
theorem toUtc_congr (h : t.position = t'.position) : t.toUtc = t'.toUtc := by
  cases ht' : t'.toUtc with
  | ok i => rw [toUtc_eq_ok_iff_position, h, ← toUtc_eq_ok_iff_position, ht']
  | error e => rw [toUtc_eq_error_iff_position, h, ← toUtc_eq_error_iff_position, ht']

end DateTime

/-! ### Elapsed time -/

namespace Elapsed

variable {t e : DateTime} {i j : Instant}

/-- Both readings have an instant: then the nanoseconds between these have
elapsed, unless the first one is the earlier. -/
theorem between_of_toUtc (ht : t.toUtc = .ok i) (he : e.toUtc = .ok j) :
    between (.moment t) (.moment e) =
      if t.position < e.position then .error (.input (.beforeEpoch t e))
      else .ok (seconds (i.micros - j.micros), nanos (i.micros - j.micros)) := by
  have hi := DateTime.toUtc_eq_ok_iff_position.mp ht
  have hj := DateTime.toUtc_eq_ok_iff_position.mp he
  rw [DateTime.position_ofInstant] at hi hj
  simp only [between, Value.toDateTime, micros, ht, he, bind_ok, ← hi, ← hj, Nat.cast_lt]
  by_cases hlt : i.micros < j.micros
  · rw [if_pos hlt, if_pos hlt]
    rfl
  · rw [if_neg hlt, if_neg hlt]
    rfl

/-- Seconds and nanoseconds are the microseconds again. -/
theorem nanos_bounds (n : Nat) : nanos n < 10 ^ 9 ∧ 1000 ∣ nanos n ∧
    seconds n * 10 ^ 9 + nanos n = n * 1000 := by
  rw [seconds, nanos]
  refine ⟨?_, Nat.dvd_mul_left _ _, ?_⟩ <;> omega

end Elapsed
end ChronoId
