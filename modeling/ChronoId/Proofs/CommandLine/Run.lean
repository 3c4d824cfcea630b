/-
# What a command line makes of what it has printed

A run that ends with status zero and has printed an identifier has created it
with the codec of its options and environment. The same options and the same
environment make the same codec, so an identifier that is a plain word is
decoded and found valid. One that is not is taken for an option, and the run
stops before there is a codec.

Key definitions: `Outcome.output?`, `Outcome.IsFailure`, `CommandLine.settingsOf`.
Key theorems: `CommandLine.exists_created_of_run`, `CommandLine.run_of_printed`.
-/
import ChronoId.CommandLine.Run
import ChronoId.Proofs.Codec.RoundTrip
import ChronoId.Proofs.CommandLine.Reading
import ChronoId.Proofs.Json

namespace ChronoId

/-! ### Outcomes -/

namespace Outcome

/-- What a run that ends with status zero has printed. -/
def output? : Outcome → Option String
  | .finished 0 output _ => some output
  | _ => none

/-- What ends a run early: an error, or a word that is refused. -/
inductive IsFailure : Outcome → Prop
  | ofError (e : Error) : IsFailure (ofError e)
  | refused (why : String) : IsFailure (refused why)

theorem output?_printed (line : String) : (printed line).output? = some (line ++ "\n") := rfl

theorem IsFailure.output? {o : Outcome} (h : o.IsFailure) : o.output? = none := by
  cases h with
  | ofError e =>
    unfold Outcome.ofError
    split <;> rfl
  | refused why => rfl

end Outcome

namespace CommandLine

variable {env : List (String × String)} {files : String → FileAnswer} {now : DateTime}
  {inv : Invocation} {c : Codec} {o : Outcome}

theorem orEnd_eq_ok_iff {α : Type} {r : Except Error α} {a : α} : orEnd r = .ok a ↔ r = .ok a := by
  cases r with
  | error e => exact ⟨nofun, nofun⟩
  | ok b => exact ⟨fun h => by cases h; rfl, fun h => by cases h; rfl⟩

/-- Whether what ends a run early is a failure. -/
def Fails {α : Type} (r : Except Outcome α) : Prop := ∀ o, r = .error o → o.IsFailure

theorem fails_orEnd {α : Type} (r : Except Error α) : Fails (orEnd r) := by
  intro o h
  cases r with
  | error e =>
    cases h
    exact .ofError e
  | ok a => cases h

theorem fails_readTimestamp (option text : String) : Fails (readTimestamp option text) := by
  unfold readTimestamp
  split
  · exact nofun
  · intro o h
    cases h
    exact .refused _

theorem Fails.bind {α β : Type} {r : Except Outcome α} {f : α → Except Outcome β} (hr : Fails r)
    (hf : ∀ a, Fails (f a)) : Fails (r >>= f) := by
  intro o h
  rcases bind_eq_error_iff.mp h with h | ⟨a, -, h⟩
  · exact hr o h
  · exact hf a o h

/-! ### The codec of a run -/

section Host

variable [Host]

/-- The settings of a run, with the epoch that an option gives. -/
def settingsOf (inv : Invocation) (env : List (String × String)) (files : String → FileAnswer) :
    Except Outcome Settings := do
  let settings ← orEnd (loadSettings inv env files)
  match inv.epoch? with
  | some text => do return settings.withEpoch (← readTimestamp "--epoch" text)
  | none => return settings

/-- The codec is made of settings with their epoch. -/
theorem loadCodec_eq (inv : Invocation) (env : List (String × String))
    (files : String → FileAnswer) : loadCodec inv env files =
      settingsOf inv env files >>= fun s => orEnd (Codec.build (.ready s) none none).result := by
  rw [loadCodec, settingsOf]
  cases orEnd (loadSettings inv env files) with
  | error o => rfl
  | ok s =>
    cases inv.epoch? with
    | none => rfl
    | some text =>
      simp only [bind_ok]
      cases readTimestamp "--epoch" text <;> rfl

theorem loadCodec_eq_ok_iff : loadCodec inv env files = .ok c ↔
    ∃ s, settingsOf inv env files = .ok s ∧ (Codec.build (.ready s) none none).result = .ok c := by
  simp only [loadCodec_eq, bind_eq_ok_iff, orEnd_eq_ok_iff]

theorem exists_build_of_loadCodec (h : loadCodec inv env files = .ok c) :
    ∃ s, (Codec.build (.ready s) none none).result = .ok c := by
  obtain ⟨s, -, hbuild⟩ := loadCodec_eq_ok_iff.mp h
  exact ⟨s, hbuild⟩

theorem fails_settingsOf (inv : Invocation) (env : List (String × String))
    (files : String → FileAnswer) : Fails (settingsOf inv env files) := by
  apply (fails_orEnd _).bind
  intro s
  split
  · apply (fails_readTimestamp _ _).bind
    exact fun _ => nofun
  · exact nofun

theorem fails_loadCodec (inv : Invocation) (env : List (String × String))
    (files : String → FileAnswer) : Fails (loadCodec inv env files) := by
  rw [loadCodec_eq]
  exact (fails_settingsOf inv env files).bind fun _ => fails_orEnd _

end Host

/-! ### Making an identifier -/

/-- The timestamp that an option gives, if it is given. -/
def timestampOf : Option String → Except Outcome Value
  | some text => do return .moment (← readTimestamp "--timestamp" text)
  | none => .ok .null

theorem fails_timestampOf (timestamp? : Option String) : Fails (timestampOf timestamp?) := by
  cases timestamp? with
  | none => exact nofun
  | some text =>
    apply (fails_readTimestamp "--timestamp" text).bind
    intro t
    exact nofun

/-- With a timestamp or without, what was created is printed. -/
theorem encode_eq (c : Codec) (sequence : Int) (timestamp? : Option String) (now : DateTime) :
    encode c sequence timestamp? now = do
      let t ← timestampOf timestamp?
      let x ← orEnd (c.create (.int sequence) t now).result
      return .printed x.json := by
  cases timestamp? with
  | none => rfl
  | some text =>
    simp only [encode, timestampOf]
    cases readTimestamp "--timestamp" text <;> rfl

theorem exists_created_of_encode {sequence : Int} {timestamp? : Option String}
    (h : encode c sequence timestamp? now = .ok o) :
    ∃ t x, (c.create (.int sequence) t now).result = .ok x ∧ o = .printed x.json := by
  rw [encode_eq] at h
  obtain ⟨t, -, h⟩ := bind_eq_ok_iff.mp h
  obtain ⟨x, hx, ho⟩ := bind_eq_ok_iff.mp h
  exact ⟨t, x, orEnd_eq_ok_iff.mp hx, (Except.ok.inj ho).symm⟩

theorem fails_encode (c : Codec) (sequence : Int) (timestamp? : Option String) (now : DateTime) :
    Fails (encode c sequence timestamp? now) := by
  rw [encode_eq]
  apply (fails_timestampOf timestamp?).bind
  intro t
  apply (fails_orEnd _).bind
  intro x
  exact nofun

/-! ### Runs of commands -/

section Host

variable [Host]

/-- What a run prints that is to make an identifier is one that the codec of
the run has created. -/
theorem exists_created_of_run {words : List String} {path? epoch? timestamp? : Option String}
    {sequence : Int} {output : String}
    (hread : Invocation.read words = .read ⟨path?, epoch?, .encode sequence timestamp?⟩)
    (h : (run words env files now).output? = some output) :
    ∃ c t x, loadCodec ⟨path?, epoch?, .encode sequence timestamp?⟩ env files = .ok c ∧
      (c.create (.int sequence) t now).result = .ok x ∧ output = x.json ++ "\n" := by
  have hfails := (fails_loadCodec ⟨path?, epoch?, .encode sequence timestamp?⟩ env files).bind
    (fun c => fails_encode c sequence timestamp? now)
  rw [run, hread] at h
  simp only [perform] at h
  split at h
  · next o hresult =>
    obtain ⟨c, hc, hresult⟩ := bind_eq_ok_iff.mp hresult
    obtain ⟨t, x, hx, rfl⟩ := exists_created_of_encode hresult
    rw [Outcome.output?_printed] at h
    exact ⟨c, t, x, hc, hx, (Option.some.inj h).symm⟩
  · next o hresult => exact absurd ((hfails o hresult).output?.symm.trans h) nofun

theorem run_decode {words : List String} {path? epoch? : Option String} {id : String}
    {x : Identifier} (hread : Invocation.read words = .read ⟨path?, epoch?, .decode id⟩)
    (hc : loadCodec ⟨path?, epoch?, .decode id⟩ env files = .ok c)
    (hx : (c.decode (.text id)).result = .ok (some x)) :
    run words env files now = .printed x.json := by
  simp only [run, hread, perform, hc, bind_ok, decode, hx, orEnd]
  rfl

theorem run_validate {words : List String} {path? epoch? : Option String} {id : String}
    {valid : Bool} (hread : Invocation.read words = .read ⟨path?, epoch?, .validate id⟩)
    (hc : loadCodec ⟨path?, epoch?, .validate id⟩ env files = .ok c)
    (hvalid : (c.isValid (.text id)).result = .ok valid) :
    run words env files now = .verdict valid := by
  simp only [run, hread, perform, hc, bind_ok, validate, hvalid, orEnd]
  rfl

/-- Words that are not read stop a run before there is a codec. -/
theorem run_of_not_read {words : List String}
    (h : Invocation.read words = .help ∨ Invocation.read words = .misused) :
    ∃ status, run words env files now = .stopped status := by
  rcases h with h | h
  · exact ⟨0, by rw [run, h]⟩
  · exact ⟨2, by rw [run, h]⟩

/-! ### What was printed is read again -/

/-- Let a run print, with status zero, what it was told to make. That is an
identifier. If it is a plain word, then behind the same options and in the same
environment it is decoded to the same sequence, and it is valid. If it is not,
then a run stops at it. -/
theorem run_of_printed {options arguments : List String} {output : String}
    (hoptions : Invocation.Options options)
    (h : (run (options ++ "encode" :: arguments) env files now).output? = some output) :
    ∃ (x : Identifier) (u : Instant), output = x.json ++ "\n" ∧
      (Word.IsPlain x.id → ∀ now',
        run (options ++ ["decode", x.id]) env files now' =
            .printed (Identifier.json ⟨x.id, u, x.sequence⟩) ∧
          run (options ++ ["validate", x.id]) env files now' = .verdict true) ∧
      (¬ Word.IsPlain x.id → ∀ now',
        (∃ status, run (options ++ ["decode", x.id]) env files now' = .stopped status) ∧
          ∃ status, run (options ++ ["validate", x.id]) env files now' = .stopped status) := by
  obtain ⟨g, hg, hread⟩ := Invocation.exists_gathered hoptions
  obtain ⟨sequence, timestamp?, hencode⟩ : ∃ sequence timestamp?,
      Invocation.read (options ++ "encode" :: arguments) = .read ⟨Invocation.given? g "--settings",
        Invocation.given? g "--epoch", .encode sequence timestamp?⟩ := by
    rcases Invocation.readFrom_encode hg arguments with hnot | hencode
    · rw [← hread] at hnot
      obtain ⟨status, hstopped⟩ : ∃ status,
          run (options ++ "encode" :: arguments) env files now = .stopped status :=
        run_of_not_read hnot
      rw [hstopped] at h
      cases h
    · rw [hread]
      exact hencode
  obtain ⟨c, t, x, hc, hx, rfl⟩ := exists_created_of_run hencode h
  obtain ⟨s, hbuild⟩ := exists_build_of_loadCodec hc
  obtain ⟨n, hn⟩ := Codec.exists_uses_of_build hbuild
  obtain ⟨-, -, p, d, u, -, -, hw, hdecode⟩ := Codec.exists_decoded_of_create hn hx
  refine ⟨x, u, rfl, fun hplain now' => ⟨?_, ?_⟩, fun hplain now' => ⟨?_, ?_⟩⟩
  · apply run_decode _ hc hdecode
    rw [hread]
    exact Invocation.readFrom_of_isPlain Invocation.isSimple_decode hg hplain
  · apply run_validate _ hc (Codec.isValid_of_decode hdecode)
    rw [hread]
    exact Invocation.readFrom_of_isPlain Invocation.isSimple_validate hg hplain
  · apply run_of_not_read
    rw [hread]
    exact Invocation.readFrom_of_not_isPlain Invocation.isSimple_decode hg hplain hw.space_notMem
      hw.two_le_length
  · apply run_of_not_read
    rw [hread]
    exact Invocation.readFrom_of_not_isPlain Invocation.isSimple_validate hg hplain hw.space_notMem
      hw.two_le_length

end Host

/-- An environment whose identifiers have a hyphen for zero. -/
def hyphenated : List (String × String) :=
  [(Settings.textVariable, "\x7b\"alphabet\":\"-0123456789\"\x7d")]

section Ample

attribute [local instance] Host.ample

/-- With a hyphen for zero, the run that is to decode an identifier of the epoch
stops at it; an identifier of two days later starts with another digit, and is
valid. -/
theorem run_of_printed_hyphenated : ∃ x y : Identifier,
    (run ["--epoch", "0001-01-01", "encode", "7", "--timestamp", "0001-01-01"] hyphenated
        (fun _ => .missing) ⟨.start, none⟩).output? = some (x.json ++ "\n") ∧
      x.id = "---------59" ∧
      (∃ status, run ["--epoch", "0001-01-01", "decode", x.id] hyphenated (fun _ => .missing)
        ⟨.start, none⟩ = .stopped status) ∧
      (run ["--epoch", "0001-01-01", "encode", "7", "--timestamp", "0001-01-03"] hyphenated
        (fun _ => .missing) ⟨.start, none⟩).output? = some (y.json ++ "\n") ∧
      y.id = "06073400158" ∧
      run ["--epoch", "0001-01-01", "validate", y.id] hyphenated (fun _ => .missing)
        ⟨.start, none⟩ = .verdict true := by
  have hoptions : Invocation.Options ["--epoch", "0001-01-01"] := .separate rfl rfl .nil
  have hx : (run (["--epoch", "0001-01-01"] ++ "encode" :: ["7", "--timestamp", "0001-01-01"])
      hyphenated (fun _ => .missing) ⟨.start, none⟩).output? =
        some (Identifier.json ⟨"---------59", .start, 7⟩ ++ "\n") := by decide +kernel
  have hy : (run (["--epoch", "0001-01-01"] ++ "encode" :: ["7", "--timestamp", "0001-01-03"])
      hyphenated (fun _ => .missing) ⟨.start, none⟩).output? =
        some (Identifier.json ⟨"06073400158", ⟨2 * microsPerDay, by decide⟩, 7⟩ ++ "\n") := by
    decide +kernel
  obtain ⟨x, u, houtput, -, hstopped⟩ := run_of_printed hoptions hx
  obtain ⟨y, u', houtput', hread, -⟩ := run_of_printed hoptions hy
  have hxid : "---------59" = x.id :=
    (Identifier.json_inj ((String.append_left_inj _).mp houtput)).1
  have hyid : "06073400158" = y.id :=
    (Identifier.json_inj ((String.append_left_inj _).mp houtput')).1
  refine ⟨x, y, houtput ▸ hx, hxid.symm, ?_, houtput' ▸ hy, hyid.symm, ?_⟩
  · exact (hstopped (by rw [← hxid]; decide) _).1
  · exact (hread (by rw [← hyid]; decide) _).2

end Ample

end CommandLine
end ChronoId
