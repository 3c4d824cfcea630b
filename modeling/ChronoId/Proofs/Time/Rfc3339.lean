/-
# Instants are read back from JSON

What a clock shows is put together again from its date and its time of day.
The fields of an instant in JSON have room for their numbers, so all of them
are read back, and with them the instant.

Key theorems: `WallTime.ofFields?_shift?`, `Rfc3339.readFraction?_write`,
`Rfc3339.read?_writeJson`.
-/
import ChronoId.Proofs.Readers
import ChronoId.Proofs.Time.Calendar
import ChronoId.Proofs.Time.Field
import ChronoId.Time.Format
import ChronoId.Time.Rfc3339

namespace ChronoId

namespace WallTime

variable (w : WallTime)

theorem isValid_date : w.date.IsValid := by
  have h := w.lt_limit
  unfold limit microsPerDay at h
  refine Date.isValid_ofDayNumber _ ?_
  unfold microsPerDay
  omega

theorem time_bounds : w.hour < 24 ∧ w.minute < 60 ∧ w.second < 60 ∧ w.micro < 10 ^ 6 := by
  unfold hour minute second micro microOfDay microsPerDay
  omega

/-- The microseconds of a day are its hours, minutes, seconds and
microseconds. -/
theorem micros_eq : w.date.dayNumber * microsPerDay +
    ((w.hour * 60 + w.minute) * 60 + w.second) * 1000000 + w.micro = w.micros := by
  rw [date, Date.dayNumber_ofDayNumber]
  unfold hour minute second micro microOfDay microsPerDay
  omega

theorem ofMicros?_natCast {n : Nat} (h : n < limit) : ofMicros? n = some ⟨n, h⟩ :=
  dif_pos ⟨Int.natCast_nonneg n, h⟩

/-- What a clock shows is put together from its date, its time and its
microseconds. -/
theorem ofFields?_shift? :
    ((ofFields? w.date w.hour w.minute w.second 0).bind fun v => v.shift? w.micro) = some w := by
  obtain ⟨hhour, hminute, hsecond, -⟩ := w.time_bounds
  have hmicros := w.micros_eq
  have hlimit := w.lt_limit
  rw [ofFields?, if_pos ⟨w.isValid_date, hhour, hminute, hsecond, by norm_num⟩, Nat.add_zero,
    ofMicros?_natCast (by omega), Option.bind_some, shift?, ← Int.natCast_add]
  simp only [hmicros]
  exact ofMicros?_natCast hlimit

end WallTime

namespace Rfc3339

theorem readFraction?_write {micro : Nat} (h : micro < 10 ^ 6) :
    readFraction? (writeFraction micro ++ ['Z']) = some (micro, ['Z']) := by
  unfold writeFraction
  split
  · next hzero =>
    subst hzero
    rfl
  · obtain ⟨ds, hwrite, hlength, hlt, hvalue⟩ := Field.exists_digits_of_write (by norm_num) h
    have hspan : Text.spanDigits (ds.map Text.asciiDigit ++ ['Z']) = (ds, ['Z']) :=
      Text.spanDigits_append hlt rfl
    have htake : ds.take 6 = ds := List.take_of_length_le hlength.le
    have hseventh : ds.getD 6 0 = 0 := List.getD_eq_default _ _ hlength.le
    have hmicros : fractionMicros ds = micro := by
      rw [fractionMicros, htake, hlength, hseventh]
      simp [hvalue]
    have hne : ds ≠ [] := by
      rintro rfl
      cases hlength
    rw [hwrite, List.cons_append, readFraction?, hspan]
    cases ds with
    | nil => exact absurd rfl hne
    | cons d ds => exact congrArg (fun n => some (n, ['Z'])) hmicros

/-- An instant is read back from how it stands in JSON. -/
theorem read?_writeJson (i : Instant) :
    read? (Instant.writeJson i) = some (DateTime.ofInstant i) := by
  obtain ⟨hyear, hmonth, hday⟩ := (WallTime.isValid_date i).bounds
  obtain ⟨hhour, hminute, hsecond, hmicro⟩ := WallTime.time_bounds i
  have htwo : ∀ {n : Nat} (_ : n < 10 ^ 2) (rest : List Char),
      Field.read? 2 (Field.write 2 n ++ rest) = some (n, rest) :=
    fun h => Field.read?_write (by norm_num) h
  have hseparator : ∀ cs, afterSeparator? ('T' :: cs) = some cs := fun _ => rfl
  have hzone : readZone? ['Z'] = some (some Offset.utc) := rfl
  obtain ⟨wall, hwall, hshift⟩ := Option.bind_eq_some_iff.mp (WallTime.ofFields?_shift? i)
  have hdate : (⟨(WallTime.date i).year, (WallTime.date i).month, (WallTime.date i).day⟩ : Date) =
      WallTime.date i := rfl
  unfold read? Instant.writeJson WallTime.write
  simp only [List.append_assoc, List.cons_append, Option.bind_eq_bind, Option.bind_some,
    Field.read?_write (by norm_num) hyear, htwo hmonth, htwo hday,
    htwo (lt_trans hhour (by norm_num)), htwo (lt_trans hminute (by norm_num)),
    htwo (lt_trans hsecond (by norm_num)), Field.expect?_cons, hseparator,
    readFraction?_write hmicro, hzone, hdate, hwall, hshift, DateTime.ofInstant]

end Rfc3339
end ChronoId
