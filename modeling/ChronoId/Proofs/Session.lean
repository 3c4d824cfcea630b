/-
# What a session keeps

A step changes the shared epoch only by setting it, and the default codec only
by configuring it or by needing one where there is none. What fails to set the
epoch, or to configure or hand out the codec, leaves the session as it was.

So the shared epoch is the one that was set last, and an identifier that was
generated keeps its meaning as long as no other default codec is configured,
whatever the epoch has become.

Key definitions: `Session.history`, `Session.Succeeded`, `Session.Change`,
`Session.Sound`.
Key theorems: `Session.change`, `Session.after_epoch`, `Session.after_codec`,
`Session.Sound.after`, `Session.exists_decoded_of_generate`.
-/
import ChronoId.Proofs.Codec.RoundTrip
import ChronoId.Session

namespace ChronoId
namespace Session

/-! ### Kinds of steps -/

namespace Step

/-- Whether a step is to set the shared epoch. -/
def setsEpoch : Step → Bool
  | .setEpoch _ => true
  | _ => false

/-- Whether a step is to configure the default codec. -/
def configures : Step → Bool
  | .configureDefault _ => true
  | _ => false

/-- Whether a step needs the default codec. -/
def needsCodec : Step → Bool
  | .getDefault => true
  | .generate .. => true
  | .decode _ => true
  | .isValid _ => true
  | _ => false

end Step

/-- The session of a process that has just started. -/
def fresh : Session := {}

section Host

variable [Host] (s : Session)

/-- The session behind a run. -/
def after (steps : List Step) : Session := (s.run steps).2

/-- The steps of a run with their answers. -/
def history (steps : List Step) : List (Step × Logged Answer) := steps.zip (s.run steps).1

/-- Whether a step of a kind succeeds in a run. -/
def Succeeded (kind : Step → Bool) (steps : List Step) : Prop :=
  ∃ p ∈ s.history steps, kind p.1 = true ∧ ∃ a, p.2.result = .ok a

variable {s}

theorem after_nil : s.after [] = s := rfl

theorem after_cons {step : Step} {steps : List Step} :
    s.after (step :: steps) = (s.step step).2.after steps := rfl

theorem after_append {steps later : List Step} :
    s.after (steps ++ later) = (s.after steps).after later := by
  induction steps generalizing s with
  | nil => rfl
  | cons step steps ih =>
    rw [List.cons_append, after_cons, after_cons]
    exact ih

theorem succeeded_cons_iff {kind : Step → Bool} {step : Step} {steps : List Step} :
    s.Succeeded kind (step :: steps) ↔
      (kind step = true ∧ ∃ a, (s.step step).1.result = .ok a) ∨
        (s.step step).2.Succeeded kind steps := by
  show (∃ p ∈ (step, (s.step step).1) :: (s.step step).2.history steps, _) ↔ _
  rw [List.exists_mem_cons_iff]
  rfl

theorem exists_mem_of_succeeded {kind : Step → Bool} {steps : List Step}
    (h : s.Succeeded kind steps) : ∃ step ∈ steps, kind step = true := by
  obtain ⟨p, hp, hkind, -⟩ := h
  exact ⟨p.1, (List.of_mem_zip hp).1, hkind⟩

/-! ### What one step does -/

/-- An epoch is set to the UTC form of a date-time, or not at all. -/
theorem setEpoch_cases (s : Session) (v : Value) :
    (∃ t i, v = .moment t ∧ t.toUtc? = some i ∧
        s.step (.setEpoch v) = (pure .nothing, { s with epoch := some i })) ∨
      ∃ e, s.step (.setEpoch v) = (Logged.fail e, s) := by
  cases v with
  | moment t =>
    cases ht : t.toUtc? with
    | some i =>
      left
      refine ⟨t, i, rfl, ht, ?_⟩
      simp only [step, epochOfValue, DateTime.toUtc, ht]
    | none =>
      right
      refine ⟨.calendarOverflow, ?_⟩
      simp only [step, epochOfValue, DateTime.toUtc, ht]
  | _ => exact Or.inr ⟨_, rfl⟩

/-- A default codec is built and put in its place, or the session stays as it
is. -/
theorem configure_cases (s : Session) (source : Settings.Source) :
    (∃ e, (s.configure source).1.result = .error e ∧ (s.configure source).2 = s) ∨
      ∃ c, (Codec.build source none s.epoch).result = .ok c ∧
        (s.configure source).1.result = .ok c ∧
        (s.configure source).2 = { s with codec := some c, builds := s.builds + 1 } := by
  cases hbuild : (Codec.build source none s.epoch).result with
  | error e =>
    refine Or.inl ⟨e, ?_⟩
    simp [configure, hbuild]
  | ok c =>
    refine Or.inr ⟨c, rfl, ?_⟩
    simp [configure, hbuild]

/-- The default codec is the one that is there, or it is built first. -/
theorem current_cases (s : Session) :
    (∃ e, s.current.1.result = .error e ∧ s.codec = none ∧ s.current.2 = s) ∨
      (∃ c, s.codec = some c ∧ s.current = (pure c, s)) ∨
      ∃ c, s.codec = none ∧ (Codec.build .defaults none s.epoch).result = .ok c ∧
        s.current.1.result = .ok c ∧
        s.current.2 = { s with codec := some c, builds := s.builds + 1 } := by
  unfold current
  cases hcodec : s.codec with
  | some c => exact Or.inr (Or.inl ⟨c, rfl, rfl⟩)
  | none =>
    rcases s.configure_cases .defaults with ⟨e, he, hstate⟩ | ⟨c, hbuild, hc, hstate⟩
    · exact Or.inl ⟨e, he, rfl, hstate⟩
    · exact Or.inr (Or.inr ⟨c, rfl, hbuild, hc, hstate⟩)

omit [Host] in
theorem keep_state (s : Session) (name : String) (built : Logged Instrument) :
    (s.keep name built).2.epoch = s.epoch ∧ (s.keep name built).2.codec = s.codec ∧
      (s.keep name built).2.builds = s.builds := by
  unfold keep
  split <;> exact ⟨rfl, rfl, rfl⟩

/-- What a step makes of the shared epoch and the default codec. -/
inductive Change (s : Session) (step : Step) : Prop
  | kept (idle : step.configures = true → ∀ a, (s.step step).1.result ≠ .ok a)
      (epoch : (s.step step).2.epoch = s.epoch) (codec : (s.step step).2.codec = s.codec)
      (builds : (s.step step).2.builds = s.builds)
  | set (t : DateTime) (i : Instant) (isStep : step = .setEpoch (.moment t))
      (utc : t.toUtc? = some i)
      (answer : (s.step step).1.result = .ok .nothing) (epoch : (s.step step).2.epoch = some i)
      (codec : (s.step step).2.codec = s.codec) (builds : (s.step step).2.builds = s.builds)
  | configured (source : Settings.Source) (c : Codec) (isStep : step = .configureDefault source)
      (build : (Codec.build source none s.epoch).result = .ok c)
      (answer : (s.step step).1.result = .ok (.instrument (.codec c)))
      (epoch : (s.step step).2.epoch = s.epoch) (codec : (s.step step).2.codec = some c)
  | needed (c : Codec) (needs : step.needsCodec = true) (missing : s.codec = none)
      (build : (Codec.build .defaults none s.epoch).result = .ok c)
      (epoch : (s.step step).2.epoch = s.epoch) (codec : (s.step step).2.codec = some c)

theorem step_configureDefault_result (s : Session) (source : Settings.Source) :
    (s.step (.configureDefault source)).1.result =
      (s.configure source).1.result >>= fun c => .ok (.instrument (.codec c)) :=
  Logged.result_bind _ _

theorem step_configureDefault_cases (s : Session) (source : Settings.Source) :
    (∃ e, (s.step (.configureDefault source)).1.result = .error e ∧
        (s.step (.configureDefault source)).2 = s) ∨
      ∃ c, (Codec.build source none s.epoch).result = .ok c ∧
        (s.step (.configureDefault source)).1.result = .ok (.instrument (.codec c)) ∧
        (s.step (.configureDefault source)).2.epoch = s.epoch ∧
        (s.step (.configureDefault source)).2.codec = some c := by
  have hanswer := s.step_configureDefault_result source
  rcases s.configure_cases source with ⟨e, he, hstate⟩ | ⟨c, hbuild, hc, hstate⟩
  · refine Or.inl ⟨e, ?_, ?_⟩
    · rw [hanswer, he]
      rfl
    · simp only [step, he, hstate]
  · refine Or.inr ⟨c, hbuild, ?_, ?_⟩
    · rw [hanswer, hc]
      rfl
    · simp [step, hc, hstate]

theorem step_getDefault_result (s : Session) : (s.step .getDefault).1.result =
    s.current.1.result >>= fun c =>
      .ok (.defaultCodec (s.current.2.shown = some s.current.2.builds) c) :=
  Logged.result_bind _ _

theorem step_getDefault_cases (s : Session) :
    (∃ e, (s.step .getDefault).1.result = .error e ∧ (s.step .getDefault).2 = s) ∨
      ∃ b c, (s.step .getDefault).1.result = .ok (.defaultCodec b c) ∧
        (s.step .getDefault).2 = { s.current.2 with shown := some s.current.2.builds } := by
  rw [step_getDefault_result]
  cases hc : s.current.1.result with
  | error e =>
    refine Or.inl ⟨e, rfl, ?_⟩
    rcases s.current_cases with ⟨_, -, -, hstate⟩ | ⟨c, -, hcurrent⟩ | ⟨c, -, -, hok, -⟩
    · simp only [step, hc, hstate]
    · rw [hcurrent] at hc
      cases hc
    · cases hc.symm.trans hok
  | ok c =>
    refine Or.inr ⟨_, c, rfl, ?_⟩
    simp only [step, hc]

/-- All that a step can do to the shared epoch and the default codec. -/
theorem change (s : Session) (step : Step) : s.Change step := by
  have hcurrent : step.needsCodec = true → step.configures = false →
      (s.step step).2.epoch = s.current.2.epoch → (s.step step).2.codec = s.current.2.codec →
      (s.step step).2.builds = s.current.2.builds → s.Change step := by
    intro hneeds hother hepoch hcodec hbuilds
    have hidle : step.configures = true → ∀ a, (s.step step).1.result ≠ .ok a := by simp [hother]
    rcases s.current_cases with ⟨e, -, -, hstate⟩ | ⟨c, -, hstate⟩ | ⟨c, hnone, hbuild, -, hstate⟩
    · rw [hstate] at hepoch hcodec hbuilds
      exact .kept hidle hepoch hcodec hbuilds
    · rw [hstate] at hepoch hcodec hbuilds
      exact .kept hidle hepoch hcodec hbuilds
    · rw [hstate] at hepoch hcodec
      exact .needed c hneeds hnone hbuild hepoch hcodec
  cases step with
  | setEpoch v =>
    rcases s.setEpoch_cases v with ⟨t, i, rfl, ht, hstep⟩ | ⟨e, hstep⟩
    · apply Change.set t i rfl ht
      · rw [hstep]
        rfl
      all_goals rw [hstep]
    · refine .kept nofun ?_ ?_ ?_ <;> rw [hstep]
  | getEpoch =>
    have hstate : (s.step .getEpoch).2 = s := by
      simp only [Session.step]
      split <;> rfl
    refine .kept nofun ?_ ?_ ?_ <;> rw [hstate]
  | configureDefault source =>
    rcases s.step_configureDefault_cases source with
      ⟨e, he, hstate⟩ | ⟨c, hbuild, hc, hepoch, hcodec⟩
    · refine .kept (fun _ a ha => ?_) ?_ ?_ ?_
      · cases he.symm.trans ha
      all_goals rw [hstate]
    · exact .configured source c rfl hbuild hc hepoch hcodec
  | getDefault =>
    rcases s.step_getDefault_cases with ⟨e, -, hstate⟩ | ⟨_, c, -, hstate⟩
    · refine .kept nofun ?_ ?_ ?_ <;> rw [hstate]
    · apply hcurrent rfl rfl <;> rw [hstate]
  | generate sequence timestamp now => exact hcurrent rfl rfl rfl rfl rfl
  | decode v => exact hcurrent rfl rfl rfl rfl rfl
  | isValid v => exact hcurrent rfl rfl rfl rfl rfl
  | newTimestamps name encoder width bits digits epoch =>
    obtain ⟨hepoch, hcodec, hbuilds⟩ := s.keep_state name (Logged.ofExcept
      ((TimestampCodec.build encoder width bits digits epoch s.epoch).map fun c =>
        Instrument.timestamps c.val))
    exact .kept nofun hepoch hcodec hbuilds
  | newCodec name source encoder =>
    obtain ⟨hepoch, hcodec, hbuilds⟩ := s.keep_state name
      (Codec.build source encoder s.epoch >>= fun c => pure (.codec c))
    exact .kept nofun hepoch hcodec hbuilds
  | ask name request =>
    have hstate : (s.step (.ask name request)).2 = s := by
      simp only [Session.step]
      split <;> rfl
    refine .kept nofun ?_ ?_ ?_ <;> rw [hstate]

/-- What fails to set the epoch, to configure the codec or to hand it out leaves
the session as it was. -/
theorem state_of_error {step : Step} {e : Error}
    (hkind : step.setsEpoch = true ∨ step.configures = true ∨ step = .getDefault)
    (h : (s.step step).1.result = .error e) : (s.step step).2 = s := by
  cases step with
  | setEpoch v =>
    rcases s.setEpoch_cases v with ⟨t, i, -, -, hstep⟩ | ⟨e', hstep⟩
    · rw [hstep] at h
      cases h
    · rw [hstep]
  | configureDefault source =>
    rcases s.step_configureDefault_cases source with ⟨_, -, hstate⟩ | ⟨c, -, hc, -, -⟩
    · exact hstate
    · cases h.symm.trans hc
  | getDefault =>
    rcases s.step_getDefault_cases with ⟨_, -, hstate⟩ | ⟨_, c, hc, -⟩
    · exact hstate
    · cases h.symm.trans hc
  | _ => rcases hkind with hkind | hkind | hkind <;> cases hkind

/-! ### Whole runs -/

variable {c : Codec} {steps : List Step}

/-- The epoch stays until another one is set. -/
theorem after_epoch (h : ¬ s.Succeeded Step.setsEpoch steps) : (s.after steps).epoch = s.epoch := by
  induction steps generalizing s with
  | nil => rfl
  | cons step steps ih =>
    rw [succeeded_cons_iff, not_or] at h
    rw [after_cons, ih h.2]
    rcases s.change step with ⟨-, hepoch, -, -⟩ | ⟨t, i, rfl, -, hanswer, -, -, -⟩ |
      ⟨_, _, -, -, -, hepoch, -⟩ | ⟨_, -, -, -, hepoch, -⟩
    · exact hepoch
    · exact absurd ⟨rfl, _, hanswer⟩ h.1
    · exact hepoch
    · exact hepoch

/-- The default codec stays until another one is configured. -/
theorem after_codec (hc : s.codec = some c) (h : ¬ s.Succeeded Step.configures steps) :
    (s.after steps).codec = some c := by
  induction steps generalizing s with
  | nil => exact hc
  | cons step steps ih =>
    rw [succeeded_cons_iff, not_or] at h
    rw [after_cons]
    apply ih _ h.2
    rcases s.change step with ⟨-, -, hcodec, -⟩ | ⟨t, i, -, -, -, -, hcodec, -⟩ |
      ⟨_, _, rfl, -, hanswer, -, -⟩ | ⟨_, -, hmissing, -, -, -⟩
    · exact hcodec.trans hc
    · exact hcodec.trans hc
    · exact absurd ⟨rfl, _, hanswer⟩ h.1
    · cases hc.symm.trans hmissing

/-- The default codec writes with the numeral system of its alphabet. -/
def Sound (s : Session) : Prop := ∀ c, s.codec = some c → ∃ n, c.Uses n

theorem sound_fresh : fresh.Sound := by
  intro c hc
  cases hc

theorem Sound.step (h : s.Sound) (step : Step) : (s.step step).2.Sound := by
  intro c hc
  rcases s.change step with ⟨-, -, hcodec, -⟩ | ⟨t, i, -, -, -, -, hcodec, -⟩ |
    ⟨_, _, -, hbuild, -, -, hcodec⟩ | ⟨_, -, -, hbuild, -, hcodec⟩
  · exact h c (hcodec.symm.trans hc)
  · exact h c (hcodec.symm.trans hc)
  · cases hcodec.symm.trans hc
    exact Codec.exists_uses_of_build hbuild
  · cases hcodec.symm.trans hc
    exact Codec.exists_uses_of_build hbuild

theorem Sound.after (h : s.Sound) (steps : List Step) : (s.after steps).Sound := by
  induction steps generalizing s with
  | nil => exact h
  | cons step steps ih => exact ih (h.step step)

/-! ### Identifiers of the default codec -/

theorem step_generate_result (v t : Value) (now : DateTime) :
    (s.step (.generate v t now)).1.result = s.current.1.result >>= fun c =>
      (c.create v t now).result >>= fun x => .ok (.identifier x) := by
  show (s.current.1 >>= fun c => c.answer (.create v t now)).result = _
  rw [Logged.result_bind]
  refine congrArg _ (funext fun c => ?_)
  exact Logged.result_bind _ _

theorem step_decode_result (hc : s.codec = some c) (v : Value) :
    (s.step (.decode v)).1.result = (c.decode v).result >>= fun o => .ok (.ofDecoded o) := by
  have hcurrent : s.current = (pure c, s) := by
    unfold current
    rw [hc]
  show (s.current.1 >>= fun c => c.answer (.decode v)).result = _
  rw [hcurrent, pure_bind]
  exact Logged.result_bind _ _

/-- The codec that an identifier was generated with is the default codec from
then on, and decodes the identifier to its sequence. -/
theorem exists_decoded_of_generate (hs : s.Sound) {v t : Value} {now : DateTime} {r : Identifier}
    (h : (s.step (.generate v t now)).1.result = .ok (.identifier r)) :
    ∃ c u, (s.step (.generate v t now)).2.codec = some c ∧
      (c.decode (.text r.id)).result = .ok (some ⟨r.id, u, r.sequence⟩) := by
  have hsound : (s.step (.generate v t now)).2.Sound := hs.step _
  rw [step_generate_result] at h
  simp only [bind_eq_ok_iff] at h
  obtain ⟨c, hc, x, hx, hr⟩ := h
  cases hr
  have hcodec : (s.step (.generate v t now)).2.codec = some c := by
    show s.current.2.codec = some c
    rcases s.current_cases with ⟨e, he, -, -⟩ | ⟨d, hd, hcurrent⟩ | ⟨d, -, -, hd, hstate⟩
    · cases hc.symm.trans he
    · rw [hcurrent] at hc ⊢
      cases hc
      exact hd
    · cases hc.symm.trans hd
      rw [hstate]
  obtain ⟨n, hn⟩ := hsound c hcodec
  obtain ⟨-, -, p, _, u, -, -, -, hdecode⟩ := Codec.exists_decoded_of_create hn hx
  exact ⟨c, u, hcodec, hdecode⟩

theorem step_getEpoch_of_some {i : Instant} (h : s.epoch = some i) :
    (s.step .getEpoch).1.result = .ok (.instant i) := by
  simp only [step, h]
  rfl

theorem step_getEpoch_of_none (h : s.epoch = none) :
    (s.step .getEpoch).1.result = .error (.configuration .epochUnset) := by
  simp only [step, h]
  rfl

/-- Behind any run of a fresh session: to set the epoch, to configure the default
codec or to hand it out either succeeds or changes nothing; the epoch is the UTC
form of the last one that was set, and there is none before; the default codec
changes only by being configured, to what the settings make with the epoch, or by
being built of the default settings when it is needed for the first time; and an
identifier that is generated decodes to its sequence and to one time until another
default codec is configured. -/
theorem keeps_epoch_and_codec (steps : List Step) :
    (∀ step e, step.setsEpoch = true ∨ step.configures = true ∨ step = .getDefault →
      ((fresh.after steps).step step).1.result = .error e →
      ((fresh.after steps).step step).2 = fresh.after steps) ∧
    (∀ v a, ((fresh.after steps).step (.setEpoch v)).1.result = .ok a →
      ∃ t i, v = .moment t ∧ t.toUtc? = some i ∧
        ∀ later, ¬ (fresh.after (steps ++ [.setEpoch v])).Succeeded Step.setsEpoch later →
          ((fresh.after (steps ++ .setEpoch v :: later)).step .getEpoch).1.result =
            .ok (.instant i)) ∧
    (¬ fresh.Succeeded Step.setsEpoch steps →
      ((fresh.after steps).step .getEpoch).1.result = .error (.configuration .epochUnset)) ∧
    (∀ step, (step.configures = true → ∀ a, ((fresh.after steps).step step).1.result ≠ .ok a) ∧
          ((fresh.after steps).step step).2.codec = (fresh.after steps).codec ∧
          ((fresh.after steps).step step).2.builds = (fresh.after steps).builds ∨
        (∃ source c, step = .configureDefault source ∧
          (Codec.build source none (fresh.after steps).epoch).result = .ok c ∧
          ((fresh.after steps).step step).1.result = .ok (.instrument (.codec c)) ∧
          ((fresh.after steps).step step).2.codec = some c) ∨
        ∃ c, step.needsCodec = true ∧ (fresh.after steps).codec = none ∧
          (Codec.build .defaults none (fresh.after steps).epoch).result = .ok c ∧
          ((fresh.after steps).step step).2.codec = some c) ∧
    ∀ v t now r, ((fresh.after steps).step (.generate v t now)).1.result = .ok (.identifier r) →
      ∃ u, ∀ later, ¬ (fresh.after (steps ++ [.generate v t now])).Succeeded Step.configures later →
        ((fresh.after (steps ++ .generate v t now :: later)).step (.decode (.text r.id))).1.result =
          .ok (.identifier ⟨r.id, u, r.sequence⟩) := by
  have hsound : (fresh.after steps).Sound := sound_fresh.after steps
  have hafter : ∀ step later,
      fresh.after (steps ++ step :: later) = ((fresh.after steps).step step).2.after later := by
    intro step later
    rw [after_append, after_cons]
  refine ⟨?_, ?_, ?_, ?_, ?_⟩
  · intro step e hkind he
    exact state_of_error hkind he
  · intro v a ha
    rcases setEpoch_cases (fresh.after steps) v with ⟨t, i, rfl, ht, hstep⟩ | ⟨e, hstep⟩
    · refine ⟨t, i, rfl, ht, fun later hlater => ?_⟩
      rw [hafter, after_nil] at hlater
      rw [hafter]
      apply step_getEpoch_of_some
      rw [after_epoch hlater, hstep]
    · rw [hstep] at ha
      cases ha
  · intro hnever
    apply step_getEpoch_of_none
    rw [after_epoch hnever]
    rfl
  · intro step
    rcases (fresh.after steps).change step with ⟨hidle, -, hcodec, hbuilds⟩ |
      ⟨t, i, rfl, -, -, -, hcodec, hbuilds⟩ | ⟨source, c, hstep, hbuild, hanswer, -, hcodec⟩ |
      ⟨c, hneeds, hmissing, hbuild, -, hcodec⟩
    · exact Or.inl ⟨hidle, hcodec, hbuilds⟩
    · exact Or.inl ⟨nofun, hcodec, hbuilds⟩
    · exact Or.inr (Or.inl ⟨source, c, hstep, hbuild, hanswer, hcodec⟩)
    · exact Or.inr (Or.inr ⟨c, hneeds, hmissing, hbuild, hcodec⟩)
  · intro v t now r hr
    obtain ⟨c, u, hcodec, hdecode⟩ := exists_decoded_of_generate hsound hr
    refine ⟨u, fun later hlater => ?_⟩
    rw [hafter, after_nil] at hlater
    rw [hafter, step_decode_result (after_codec hcodec hlater), hdecode]
    rfl

end Host

section Ample

attribute [local instance] Host.ample

/-- An identifier of the default codec outlives a change of the epoch and an
attempt at another one. A default codec that is configured is the one that its
settings make with the epoch. -/
theorem keeps_epoch_and_codec_default : ∃ x u,
    ((fresh.after [.setEpoch (.moment ⟨.start, none⟩)]).step
        (.generate (.int 7) (.moment ⟨.start, none⟩) ⟨.start, none⟩)).1.result =
      .ok (.identifier ⟨x, .start, 7⟩) ∧
    ((fresh.after [.setEpoch (.moment ⟨.start, none⟩),
        .generate (.int 7) (.moment ⟨.start, none⟩) ⟨.start, none⟩,
        .setEpoch (.moment ⟨⟨1, by decide⟩, none⟩), .setEpoch .null]).step
        (.decode (.text x))).1.result = .ok (.identifier ⟨x, u, 7⟩) ∧
    ((fresh.after [.setEpoch (.moment ⟨⟨1, by decide⟩, none⟩), .setEpoch .null]).step
        .getEpoch).1.result = .ok (.instant ⟨1, by decide⟩) ∧
    ∃ c, (Codec.build .defaults none (some .start)).result = .ok c ∧
      ((fresh.after [.setEpoch (.moment ⟨.start, none⟩)]).step
        (.configureDefault .defaults)).1.result = .ok (.instrument (.codec c)) ∧
      ((fresh.after [.setEpoch (.moment ⟨.start, none⟩)]).step
        (.configureDefault .defaults)).2.codec = some c := by
  obtain ⟨c, hc, hsettings, htimestamps, hn⟩ := Codec.exists_build_defaults .start
  obtain ⟨x, hx, -⟩ := Codec.exists_createAt_default (s := 7) (t := .start) (by decide) hn hsettings
    htimestamps (by decide) (by decide) (by decide)
  have hstate : fresh.after [.setEpoch (.moment ⟨.start, none⟩)] = { epoch := some .start } := rfl
  have hconfigured : (Session.configure { epoch := some .start } .defaults).1.result = .ok c := by
    simp only [configure, hc]
  have hgenerate : ((fresh.after [.setEpoch (.moment ⟨.start, none⟩)]).step
      (.generate (.int 7) (.moment ⟨.start, none⟩) ⟨.start, none⟩)).1.result =
        .ok (.identifier ⟨x, .start, 7⟩) := by
    have hcurrent : (fresh.after [.setEpoch (.moment ⟨.start, none⟩)]).current.1.result = .ok c := by
      rw [hstate]
      exact hconfigured
    rw [step_generate_result, hcurrent, bind_ok, Codec.create_of_ok (s := 7) rfl rfl, hx]
    rfl
  obtain ⟨-, -, -, hcodecs, hkept⟩ := keeps_epoch_and_codec [.setEpoch (.moment ⟨.start, none⟩)]
  obtain ⟨u, hu⟩ := hkept _ _ _ _ hgenerate
  obtain ⟨-, hset, -⟩ := keeps_epoch_and_codec []
  obtain ⟨t, i, ht, hi, hepoch⟩ := hset (.moment ⟨⟨1, by decide⟩, none⟩) .nothing rfl
  cases ht
  cases hi
  refine ⟨x, u, hgenerate, hu _ ?_, hepoch [.setEpoch .null] ?_, ?_⟩
  · intro hsucceeded
    obtain ⟨step, hmem, hkind⟩ := exists_mem_of_succeeded hsucceeded
    simp only [List.mem_cons, List.not_mem_nil, or_false] at hmem
    rcases hmem with rfl | rfl <;> cases hkind
  · rw [succeeded_cons_iff]
    rintro (⟨-, a, ha⟩ | hnone)
    · cases ha
    · obtain ⟨step, hmem, -⟩ := exists_mem_of_succeeded hnone
      cases hmem
  · rcases hcodecs (.configureDefault .defaults) with
      ⟨hidle, -⟩ | ⟨source, d, hstep, hd⟩ | ⟨_, hneeds, -⟩
    · refine absurd ?_ (hidle rfl (.instrument (.codec c)))
      rw [hstate, step_configureDefault_result, hconfigured]
      rfl
    · cases hstep
      exact ⟨d, hd⟩
    · cases hneeds

end Ample

end Session
end ChronoId
