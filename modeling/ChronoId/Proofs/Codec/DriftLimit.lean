/-
# What the drift limit decides

Two codecs whose settings differ only in the drift limit write, read and refuse
alike. The limit is looked at when an identifier has been made and decodes to
another time than the one it was made of, and then it mostly decides about
lines in the journal. The exception is a limit that is longer than a duration
can be: with it, the identifier that another limit lets through is not created.

Key definitions: `Settings.SameButLimit`, `Codec.SameButLimit`.
Key theorems: `Codec.build_sameButLimit`, `Codec.SameButLimit.alike`,
`Codec.limitFits_of_null`, `Codec.limitFits_natCast_iff`,
`Codec.SameButLimit.createAt_congr`, `Codec.SameButLimit.createAt_of_limit_too_long`.
-/
import ChronoId.Proofs.Codec.Alike
import ChronoId.Proofs.Codec.Drift

namespace ChronoId

namespace Settings

/-- Settings that differ at most in the drift limit. -/
def SameButLimit (s s' : Settings) : Prop :=
  ∃ limit, s'.toSettingsFields = { s.toSettingsFields with maxTimestampDelta := limit }

/-- The default settings with a drift limit that is longer than a duration can
be. -/
def overlongLimit : Settings := ⟨{ maxTimestampDelta := .int 1000000000000000000 }, rfl⟩

end Settings

namespace Codec

/-- Codecs whose settings differ at most in the drift limit. -/
structure SameButLimit (c c' : Codec) : Prop where
  settings : c.settings.SameButLimit c'.settings
  timestamps : c'.timestamps = c.timestamps

/-! ### Building -/

/-- Settings that differ in the limit either make no codec, for the same
reason, or codecs that differ in the limit. -/
theorem build_sameButLimit [Host] {source source' : Settings.Source} {s s' : Settings}
    (hs : Settings.load source = .ok s) (hs' : Settings.load source' = .ok s')
    (h : s.SameButLimit s') (given : Option Encoder) (shared : Option Instant) :
    (∃ e, (build source given shared).result = .error e ∧
        (build source' given shared).result = .error e) ∨
      ∃ c c', (build source given shared).result = .ok c ∧
        (build source' given shared).result = .ok c' ∧ c.SameButLimit c' := by
  have htimes : s.SameTimes s' := by
    obtain ⟨limit, hfields⟩ := h
    constructor <;> rw [hfields]
  rcases build_congr hs hs' htimes given shared with
    ⟨e, he, he'⟩ | ⟨c, c', hc, hc', hsettings, hsettings', htimestamps⟩
  · exact Or.inl ⟨e, he, he'⟩
  · subst hsettings hsettings'
    exact Or.inr ⟨c, c', hc, hc', h, htimestamps⟩

namespace SameButLimit

variable {c c' : Codec}

/-! ### What does not look at the limit -/

theorem alike (h : c.SameButLimit c') : c.Alike c' where
  timestamps := h.timestamps
  compute id := by
    obtain ⟨limit, hfields⟩ := h.settings
    simp only [Checksum.compute, checksum, hfields]

theorem decode_eq (h : c.SameButLimit c') (v : Value) : c'.decode v = c.decode v :=
  h.alike.decode_eq v

theorem isValid_eq (h : c.SameButLimit c') (v : Value) : c'.isValid v = c.isValid v :=
  h.alike.isValid_eq v

theorem encode_eq (h : c.SameButLimit c') (s : Nat) (t : Instant) : c'.encode s t = c.encode s t :=
  h.alike.encode_eq s t

end SameButLimit

/-! ### The limit as a duration -/

variable {c c' : Codec} {s : Nat} {t : Instant}

/-- The limit that follows from the other settings is a duration: it is a second
at most. -/
theorem limitFits_of_null (h : c.settings.maxTimestampDelta = .null) : c.LimitFits := by
  obtain ⟨limit, hlimit, hle, -⟩ := exists_limit h
  refine ⟨_, hlimit, ?_⟩
  simp only [DriftLimit.ofValue, DriftLimit.maxMicros, microsPerDay]
  omega

/-- A limit of whole milliseconds is a duration if it is short of a thousand
million days. -/
theorem limitFits_natCast_iff {limit : Nat} (h : c.settings.maxTimestampDelta = .int limit) :
    c.LimitFits ↔ limit ≤ 86399999999999999 := by
  have hlimit : c.settings.driftLimit = .ok (.int limit) := by
    unfold Settings.driftLimit
    rw [h]
  constructor
  · rintro ⟨v, hv, hlt⟩
    cases Except.ok.inj (hv.symm.trans hlimit)
    simp only [DriftLimit.ofValue, DriftLimit.maxMicros, microsPerDay] at hlt
    omega
  · intro hle
    refine ⟨_, hlimit, ?_⟩
    simp only [DriftLimit.ofValue, DriftLimit.maxMicros, microsPerDay]
    omega

/-! ### Comparing and creating -/

/-- Limits that are both durations, or both not, end a comparison alike. -/
theorem verify_congr (hfits : c.LimitFits ↔ c'.LimitFits) (s : Nat) (t : Instant) (x : Identifier) :
    (c'.verify s t x).result = (c.verify s t x).result := by
  by_cases hs : x.sequence = s
  · have hok : (c'.verify s t x).result = .ok () ↔ (c.verify s t x).result = .ok () := by
      rw [verify_eq_ok_iff hs, verify_eq_ok_iff hs, hfits]
    cases hv : (c.verify s t x).result with
    | ok => exact hok.mpr hv
    | error e =>
      cases hv' : (c'.verify s t x).result with
      | ok => cases hv.symm.trans (hok.mp hv')
      | error e' => rw [verify_error hs hv, verify_error hs hv']
  · unfold verify
    rw [if_pos hs, if_pos hs]

/-- Where another limit lets a comparison pass, one that is too long for a
duration lets only a time without drift pass. -/
theorem verify_of_limit_too_long (hlong : ¬ c'.LimitFits) {s : Nat} {t : Instant} {x : Identifier}
    (h : (c.verify s t x).result = .ok ()) :
    (c'.verify s t x).result = if x.timestamp = t then .ok () else .error .driftLimitOverflow := by
  have hs : x.sequence = s := by
    by_contra hne
    unfold verify at h
    rw [if_pos hne] at h
    cases h
  by_cases ht : x.timestamp = t
  · rw [if_pos ht]
    exact (verify_eq_ok_iff hs).mpr (Or.inl ht)
  · rw [if_neg ht]
    cases hv : (c'.verify s t x).result with
    | ok => exact absurd ((verify_eq_ok_iff hs).mp hv) (not_or.mpr ⟨ht, hlong⟩)
    | error e => rw [verify_error hs hv]

/-- Where another limit stops a comparison, it is stopped by the sequence. -/
theorem verify_error_of_limitFits (hfits : c.LimitFits) {s : Nat} {t : Instant} {x : Identifier}
    {e : Error} (h : (c.verify s t x).result = .error e) : (c'.verify s t x).result = .error e := by
  have hs : x.sequence ≠ s := by
    intro hs
    cases h.symm.trans ((verify_eq_ok_iff hs).mpr (Or.inr hfits))
  unfold verify at h ⊢
  rw [if_pos hs] at h ⊢
  exact h

namespace SameButLimit

variable {v timestamp : Value} {now : DateTime}

theorem createAt_congr (h : c.SameButLimit c') (hfits : c.LimitFits ↔ c'.LimitFits) (s : Nat)
    (t : Instant) : (c'.createAt s t).result = (c.createAt s t).result := by
  rw [createAt_result, createAt_result, h.encode_eq]
  refine congrArg _ (funext fun x => ?_)
  rw [h.decode_eq]
  refine congrArg _ (funext fun o => ?_)
  cases o with
  | none => rfl
  | some y => simp only [verify_congr hfits]

/-- A limit that is too long for a duration takes away the identifiers that
decode with a drift, and nothing else. -/
theorem createAt_of_limit_too_long (h : c.SameButLimit c') (hfits : c.LimitFits)
    (hlong : ¬ c'.LimitFits) (s : Nat) (t : Instant) :
    (∀ e, (c.createAt s t).result = .error e → (c'.createAt s t).result = .error e) ∧
      ∀ r, (c.createAt s t).result = .ok r → ∃ y, (c.decode (.text r.id)).result = .ok (some y) ∧
        (c'.createAt s t).result =
          if y.timestamp = r.timestamp then .ok r else .error .driftLimitOverflow := by
  rw [createAt_result, createAt_result, h.encode_eq]
  cases hx : c.encode s t with
  | error e => exact ⟨fun _ he => he, fun _ hr => nomatch hr⟩
  | ok x =>
    simp only [bind_ok, h.decode_eq]
    cases hd : (c.decode (.text x)).result with
    | error e => exact ⟨fun _ he => he, fun _ hr => nomatch hr⟩
    | ok o =>
      cases o with
      | none => exact ⟨fun _ he => he, fun _ hr => nomatch hr⟩
      | some y =>
        simp only [bind_ok]
        cases hv : (c.verify s t y).result with
        | error e =>
          rw [verify_error_of_limitFits hfits hv]
          exact ⟨fun _ he => he, fun _ hr => nomatch hr⟩
        | ok =>
          refine ⟨fun _ he => (nomatch he), ?_⟩
          intro r hr
          cases hr
          refine ⟨y, hd, ?_⟩
          rw [verify_of_limit_too_long hlong hv]
          split <;> rfl

end SameButLimit

/-- Whether there is a sequence and an instant to create from, no codec has a
say in. -/
theorem create_eq_createAt (v t : Value) (now : DateTime) :
    (∃ e, ∀ c : Codec, (c.create v t now).result = .error e) ∨
      ∃ s u, ∀ c : Codec, (c.create v t now).result = (c.createAt s u).result := by
  cases hs : sequenceOf v with
  | error e =>
    refine Or.inl ⟨e, fun c => ?_⟩
    rw [create_result, hs]
    rfl
  | ok s =>
    cases hu : instantOf t now with
    | error e =>
      refine Or.inl ⟨e, fun c => ?_⟩
      rw [create_result, hs, hu]
      rfl
    | ok u => exact Or.inr ⟨s, u, fun c => create_of_ok hs hu⟩

/-- Settings that differ only in the drift limit make codecs that differ only in
it, or none for the same reason. These codecs decode alike, with the same lines.
They create alike if both limits are durations, and also if neither is. If one
is and the other is too long, then with the longer limit the errors stay, and so
do the identifiers that decode without a drift, but the others are lost. -/
theorem create_sameButLimit [Host] {source source' : Settings.Source} {s s' : Settings}
    (hs : Settings.load source = .ok s) (hs' : Settings.load source' = .ok s')
    (h : s.SameButLimit s') (given : Option Encoder) (shared : Option Instant) :
    (∃ e, (build source given shared).result = .error e ∧
        (build source' given shared).result = .error e) ∨
      ∃ c c', (build source given shared).result = .ok c ∧
        (build source' given shared).result = .ok c' ∧
        (∀ v, c'.decode v = c.decode v ∧ c'.isValid v = c.isValid v) ∧
        ((c.LimitFits ↔ c'.LimitFits) →
          ∀ v t now, (c'.create v t now).result = (c.create v t now).result) ∧
        (c.LimitFits → ¬ c'.LimitFits → ∀ v t now,
          (∀ e, (c.create v t now).result = .error e → (c'.create v t now).result = .error e) ∧
          ∀ r, (c.create v t now).result = .ok r →
            ∃ y, (c.decode (.text r.id)).result = .ok (some y) ∧ (c'.create v t now).result =
              if y.timestamp = r.timestamp then .ok r else .error .driftLimitOverflow) := by
  rcases build_sameButLimit hs hs' h given shared with ⟨e, he, he'⟩ | ⟨c, c', hc, hc', hsame⟩
  · exact Or.inl ⟨e, he, he'⟩
  refine Or.inr ⟨c, c', hc, hc', fun v => ⟨hsame.decode_eq v, hsame.isValid_eq v⟩, ?_, ?_⟩
  · intro hfits v t now
    rcases create_eq_createAt v t now with ⟨e, he⟩ | ⟨s, u, hcreate⟩
    · rw [he, he]
    · rw [hcreate, hcreate]
      exact hsame.createAt_congr hfits s u
  · intro hfits hlong v t now
    rcases create_eq_createAt v t now with ⟨e, he⟩ | ⟨s, u, hcreate⟩
    · rw [he, he]
      exact ⟨fun _ he => he, fun _ hr => nomatch hr⟩
    · rw [hcreate, hcreate]
      exact hsame.createAt_of_limit_too_long hfits hlong s u

section Ample

attribute [local instance] Host.ample

/-- A tenth of a millisecond behind the epoch, the default settings create an
identifier, and with an overlong limit they do not. -/
theorem create_sameButLimit_default : ∃ c c' x,
    Settings.default.SameButLimit Settings.overlongLimit ∧
      (build .defaults none (some .start)).result = .ok c ∧
      (build (.ready Settings.overlongLimit) none (some .start)).result = .ok c' ∧
      c.LimitFits ∧ ¬ c'.LimitFits ∧
      (c.create (.int 7) (.moment ⟨⟨100, by decide⟩, none⟩) ⟨.start, none⟩).result =
        .ok ⟨x, ⟨100, by decide⟩, 7⟩ ∧
      (c'.create (.int 7) (.moment ⟨⟨100, by decide⟩, none⟩) ⟨.start, none⟩).result =
        .error .driftLimitOverflow := by
  obtain ⟨c, hc, hsettings, htimestamps, hn⟩ := exists_build_defaults .start
  obtain ⟨x, hx, hdecode⟩ := exists_createAt_default (s := 7) (t := ⟨100, by decide⟩) (by decide) hn
    hsettings htimestamps (by decide) (by decide) (by decide)
  have hcreate : (c.create (.int 7) (.moment ⟨⟨100, by decide⟩, none⟩) ⟨.start, none⟩).result =
      .ok ⟨x, ⟨100, by decide⟩, 7⟩ := (create_of_ok rfl rfl).trans hx
  have hsame : Settings.default.SameButLimit Settings.overlongLimit := ⟨_, rfl⟩
  have hload : Settings.load .defaults = .ok Settings.default := rfl
  have hload' : Settings.load (.ready Settings.overlongLimit) = .ok Settings.overlongLimit := rfl
  rcases create_sameButLimit hload hload' hsame none (some .start) with
    ⟨e, he, -⟩ | ⟨d, c', hd, hc', -, -, hlong⟩
  · cases hc.symm.trans he
  cases Except.ok.inj (hc.symm.trans hd)
  have hlimit : c'.settings.maxTimestampDelta = .int (1000000000000000000 : Nat) :=
    congrArg (·.maxTimestampDelta) (Except.ok.inj (parts_of_build hc').1).symm
  have hfits : c.LimitFits := limitFits_of_null (congrArg (·.maxTimestampDelta) hsettings)
  have hnot : ¬ c'.LimitFits := by
    rw [limitFits_natCast_iff hlimit]
    decide
  obtain ⟨-, hcreated⟩ :=
    hlong hfits hnot (.int 7) (.moment ⟨⟨100, by decide⟩, none⟩) ⟨.start, none⟩
  obtain ⟨y, hy, hlost⟩ := hcreated _ hcreate
  cases Option.some.inj (Except.ok.inj (hy.symm.trans hdecode))
  have hdrift : WallTime.start ≠ ⟨100, by decide⟩ := by decide
  rw [if_neg hdrift] at hlost
  exact ⟨c, c', x, hsame, hc, hc', hfits, hnot, hcreate, hlost⟩

end Ample

end Codec
end ChronoId
