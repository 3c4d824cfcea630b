/-
# How runs end

Whatever it is told and whatever it finds, a run ends with status zero, one or
two, or it crashes. It crashes without a codec if an algorithm is asked for
without saying which, where two hyphens behind an equals sign are no value. With
one it crashes if the settings cannot be read, for
example because their file is not UTF-8; if they make no codec, though they are
accepted; or if they make one, and there is neither an identifier nor a refusal
of the sequence and the timestamp. What it is to decode or to validate does not
matter.

Key definitions: `Outcome.status?`, `CommandLine.Crash`.
Key theorems: `CommandLine.run_eq_crashed_iff`, `CommandLine.status_run_le`,
`CommandLine.run_ends_or_crashes`.
-/
import ChronoId.Proofs.Codec.Crashes
import ChronoId.Proofs.CommandLine.Run
import ChronoId.Proofs.Settings.Environment

namespace ChronoId

/-! ### Statuses -/

namespace Outcome

/-- The status that a run ends with, if it ends with one. -/
def status? : Outcome → Option Nat
  | .finished status _ _ => some status
  | .stopped status => some status
  | .crashed _ => none

/-- The status is zero, one or two, if there is one. -/
def Regular (o : Outcome) : Prop := ∀ status, o.status? = some status → status ≤ 2

theorem status?_eq_none_iff {o : Outcome} : o.status? = none ↔ ∃ e, o = .crashed e := by
  cases o <;> simp [status?]

theorem regular_printed (line : String) : (printed line).Regular := by
  rintro _ ⟨⟩
  decide

theorem regular_refused (why : String) : (refused why).Regular := by
  rintro _ ⟨⟩
  decide

theorem regular_verdict (valid : Bool) : (verdict valid).Regular := by
  cases valid <;> rintro _ ⟨⟩ <;> decide

theorem IsFailure.regular {o : Outcome} (h : o.IsFailure) : o.Regular := by
  cases h with
  | ofError e =>
    unfold Outcome.ofError
    split
    · exact regular_refused _
    · exact nofun
  | refused why => exact regular_refused why

end Outcome

/-- Whether a command needs a codec. -/
def Command.NeedsCodec : Command → Prop
  | .checkDigit _ _ _ _ => False
  | _ => True

namespace CheckDigit

theorem not_crashes_compute (s : String) (a : Algorithm) (alphabet : Value) (e : Error) :
    ¬ Crashes (compute (.text s) (.algorithm a) alphabet).result e := by
  rintro ⟨he, hown⟩
  by_cases hs : s.toList = []
  · rw [compute, if_pos (by rw [hs]; rfl)] at he
    cases he
    cases hown
  · obtain ⟨f, rfl⟩ | ⟨f, rfl⟩ := compute_error hs he <;> cases hown

theorem not_crashes_isValid (s : String) (a : Algorithm) (alphabet : Value) (e : Error) :
    ¬ Crashes (isValid (.text s) (.algorithm a) alphabet).result e := by
  simp only [isValid]
  split
  · exact not_crashes_ok _
  · split
    · exact not_crashes_ok _
    · rw [crashes_map_iff]
      exact not_crashes_compute _ a alphabet e

end CheckDigit

namespace CommandLine

open Outcome

variable {env : List (String × String)} {files : String → FileAnswer} {now : DateTime}
  {inv : Invocation} {words : List String} {c : Codec} {o : Outcome} {e : Error}

/-- How a command has ended, early or not. -/
def ended : Except Outcome Outcome → Outcome
  | .ok o => o
  | .error o => o

theorem run_of_read [Host] (h : Invocation.read words = .read inv) :
    run words env files now = ended (perform inv env files now) := by
  simp only [run, h]
  cases perform inv env files now <;> rfl

theorem ended_bind_eq_iff {α : Type} {r : Except Outcome α} {f : α → Except Outcome Outcome} :
    ended (r >>= f) = o ↔ r = .error o ∨ ∃ a, r = .ok a ∧ ended (f a) = o := by
  cases r with
  | error o' =>
    show o' = o ↔ _
    simp
  | ok a => simp [bind_ok]

theorem Fails.regular {α : Type} {r : Except Outcome α} {f : α → Except Outcome Outcome}
    (hr : Fails r) (hf : ∀ a, (ended (f a)).Regular) : (ended (r >>= f)).Regular := by
  cases r with
  | error o => exact (hr o rfl).regular
  | ok a => exact hf a

/-! ### Regular endings -/

theorem regular_encode (c : Codec) (sequence : Int) (timestamp? : Option String) (now : DateTime) :
    (ended (encode c sequence timestamp? now)).Regular := by
  rw [encode_eq]
  apply (fails_timestampOf timestamp?).regular
  intro t
  apply (fails_orEnd _).regular
  exact fun x => regular_printed x.json

theorem regular_decode (c : Codec) (id : String) : (ended (decode c id)).Regular := by
  apply (fails_orEnd _).regular
  rintro (_ | x)
  · exact regular_refused _
  · exact regular_printed x.json

theorem regular_validate (c : Codec) (id : String) : (ended (validate c id)).Regular :=
  (fails_orEnd _).regular fun valid => regular_verdict valid

theorem regular_checkDigit (payload : String) (a : Algorithm) (alphabet : Value) (verify : Bool) :
    (checkDigit payload a alphabet verify).Regular := by
  have herror (e : Error) : (checkDigitError e).Regular := by
    unfold checkDigitError
    split
    · rintro _ ⟨⟩
      decide
    · exact nofun
  unfold checkDigit
  split
  · split
    · exact regular_verdict _
    · exact herror _
  · split
    · exact regular_printed _
    · exact herror _

/-- No run ends with another status than zero, one or two. -/
theorem regular_run [Host] (words : List String) (env : List (String × String))
    (files : String → FileAnswer) (now : DateTime) : (run words env files now).Regular := by
  cases h : Invocation.read words with
  | help =>
    rw [run, h]
    rintro _ ⟨⟩
    decide
  | misused =>
    rw [run, h]
    rintro _ ⟨⟩
    decide
  | read inv =>
    rw [run_of_read h]
    obtain ⟨path?, epoch?, command⟩ := inv
    cases command with
    | encode sequence timestamp? =>
      exact (fails_loadCodec _ env files).regular fun c => regular_encode c sequence timestamp? now
    | decode id => exact (fails_loadCodec _ env files).regular fun c => regular_decode c id
    | validate id => exact (fails_loadCodec _ env files).regular fun c => regular_validate c id
    | checkDigit payload algorithm? alphabet? verify =>
      cases algorithm? with
      | none => rintro _ ⟨⟩
      | some a => exact regular_checkDigit payload a _ verify

/-! ### Crashes -/

theorem ofError_eq_crashed_iff {e' : Error} :
    ofError e' = .crashed e ↔ e' = e ∧ e.isOwn = false := by
  unfold ofError
  split
  · next h =>
    refine iff_of_false nofun ?_
    rintro ⟨rfl, hown⟩
    cases h.symm.trans hown
  · next h =>
    rw [crashed.injEq]
    exact (and_iff_left_of_imp fun he => he ▸ Bool.eq_false_iff.mpr h).symm

theorem orEnd_eq_crashed_iff {α : Type} {r : Except Error α} :
    orEnd r = .error (.crashed e) ↔ Crashes r e := by
  cases r with
  | ok a => exact iff_of_false nofun (not_crashes_ok a)
  | error e' => simp only [orEnd, Crashes, Except.error.injEq, ofError_eq_crashed_iff]

theorem readTimestamp_ne_crashed (option text : String) :
    readTimestamp option text ≠ .error (.crashed e) := by
  unfold readTimestamp
  split <;> exact nofun

theorem readTimestamp_eq_ok_iff {option text : String} {t : DateTime} :
    readTimestamp option text = .ok t ↔ Iso8601.read? text.toList = some t := by
  rw [readTimestamp]
  cases Iso8601.read? text.toList with
  | none => exact ⟨nofun, nofun⟩
  | some t' => rw [Except.ok.injEq, Option.some.injEq]

/-- Where a run looks for its settings. -/
def settingsEnvironment (inv : Invocation) (env : List (String × String)) :
    List (String × String) :=
  match inv.settingsFile? with
  | some path => [(Settings.fileVariable, path)]
  | none => env

section Host

variable [Host]

theorem loadSettings_eq (inv : Invocation) (env : List (String × String))
    (files : String → FileAnswer) :
    loadSettings inv env files = Settings.ofEnvironment (settingsEnvironment inv env) files := by
  unfold loadSettings settingsEnvironment
  cases inv.settingsFile? <;> rfl

theorem settingsOf_eq_crashed_iff : settingsOf inv env files = .error (.crashed e) ↔
    Settings.Unread (settingsEnvironment inv env) files e := by
  rw [settingsOf, bind_eq_error_iff, orEnd_eq_crashed_iff, loadSettings_eq,
    Settings.crashes_ofEnvironment_iff, or_iff_left]
  rintro ⟨s, -, h⟩
  split at h
  · next text _ =>
    rcases bind_eq_error_iff.mp h with h | ⟨t, -, h⟩
    · exact readTimestamp_ne_crashed "--epoch" text h
    · cases h
  · cases h

/-- With an epoch of an option, settings keep their types. -/
theorem typed_of_settingsOf {s : Settings} (h : settingsOf inv env files = .ok s) :
    ∃ t : SettingsFields.Typed, s.toSettingsFields = t.fields := by
  rw [settingsOf, loadSettings_eq] at h
  obtain ⟨s', hs', h⟩ := bind_eq_ok_iff.mp h
  obtain ⟨t, ht⟩ := Settings.typed_of_ofEnvironment (orEnd_eq_ok_iff.mp hs')
  split at h
  · obtain ⟨d, -, h⟩ := bind_eq_ok_iff.mp h
    cases h
    exact ⟨{ t with customEpoch := some d },
      congrArg (fun f : SettingsFields => { f with customEpoch := .moment d }) ht⟩
  · cases h
    exact ⟨t, ht⟩

theorem loadCodec_eq_crashed_iff : loadCodec inv env files = .error (.crashed e) ↔
    Settings.Unread (settingsEnvironment inv env) files e ∨
      ∃ s, settingsOf inv env files = .ok s ∧ Codec.Unbuildable s e := by
  rw [loadCodec_eq, bind_eq_error_iff, settingsOf_eq_crashed_iff]
  refine or_congr_right (exists_congr fun s => and_congr_right fun hs => ?_)
  obtain ⟨t, ht⟩ := typed_of_settingsOf hs
  rw [orEnd_eq_crashed_iff, Codec.crashes_build_iff ht]

/-- A codec of a run writes with numerals, and its check digits are chosen from
a text. -/
theorem parts_of_loadCodec (h : loadCodec inv env files = .ok c) :
    (∃ n, c.Uses n) ∧ ∃ ds, c.settings.checkDigitAlphabet = .text ds := by
  obtain ⟨s, hs, hbuild⟩ := loadCodec_eq_ok_iff.mp h
  obtain ⟨t, ht⟩ := typed_of_settingsOf hs
  have hload : c.settings = s := (Except.ok.inj (Codec.parts_of_build hbuild).1).symm
  exact ⟨Codec.exists_uses_of_build hbuild, t.checkDigitAlphabet, by rw [hload, ht]; rfl⟩

end Host

/-- The time of a new identifier: that of an option, or the present time. -/
inductive TimeOf (now : DateTime) : Option String → DateTime → Prop
  | present : TimeOf now none now
  | given {text : String} {t : DateTime} (hread : Iso8601.read? text.toList = some t) :
    TimeOf now (some text) t

theorem timestampOf_ne_crashed (timestamp? : Option String) :
    timestampOf timestamp? ≠ .error (.crashed e) := by
  cases timestamp? with
  | none => exact nofun
  | some text =>
    intro h
    rcases bind_eq_error_iff.mp h with h | ⟨t, -, h⟩
    · exact readTimestamp_ne_crashed "--timestamp" text h
    · cases h

theorem exists_timeOf {timestamp? : Option String} {v : Value} (now : DateTime)
    (h : timestampOf timestamp? = .ok v) :
    ∃ t, TimeOf now timestamp? t ∧ Codec.instantOf v now = t.toUtc := by
  cases timestamp? with
  | none =>
    cases h
    exact ⟨now, .present, rfl⟩
  | some text =>
    obtain ⟨t, ht, h⟩ := bind_eq_ok_iff.mp h
    cases h
    exact ⟨t, .given (readTimestamp_eq_ok_iff.mp ht), rfl⟩

theorem TimeOf.exists_timestampOf {timestamp? : Option String} {t : DateTime}
    (h : TimeOf now timestamp? t) :
    ∃ v, timestampOf timestamp? = .ok v ∧ Codec.instantOf v now = t.toUtc := by
  cases h with
  | present => exact ⟨.null, rfl, rfl⟩
  | given hread =>
    refine ⟨.moment t, ?_, rfl⟩
    rw [timestampOf, readTimestamp_eq_ok_iff.mpr hread]
    rfl

theorem ended_encode_eq_crashed_iff [Host] {n : Numeral} {ds : String} (hn : c.Uses n)
    (hds : c.settings.checkDigitAlphabet = .text ds) {i : Int} {timestamp? : Option String}
    (hshown : i.natAbs < 10 ^ Integer.maxDigits) :
    ended (encode c i timestamp? now) = .crashed e ↔ ∃ (t : DateTime) (s : Nat),
      TimeOf now timestamp? t ∧ i = s ∧ s ≤ Settings.maxSequence ∧ c.Uncreatable n s t e := by
  rw [encode_eq, ended_bind_eq_iff, or_iff_right (timestampOf_ne_crashed timestamp?)]
  simp only [ended_bind_eq_iff, orEnd_eq_crashed_iff]
  constructor
  · rintro ⟨v, hv, hcrash | ⟨x, -, hprinted⟩⟩
    · obtain ⟨t, htime, hinstant⟩ := exists_timeOf now hv
      rcases (Codec.crashes_create_iff hn hds hinstant).mp hcrash with
        ⟨s, hi, hs, hidentifier⟩ | ⟨hlong, -⟩
      · exact ⟨t, s, htime, hi, hs, hidentifier⟩
      · exact absurd hshown (not_lt.mpr hlong)
    · cases hprinted
  · rintro ⟨t, s, htime, hi, hs, hidentifier⟩
    obtain ⟨v, hv, hinstant⟩ := htime.exists_timestampOf
    have hcrash := (Codec.crashes_create_iff hn hds hinstant).mpr (Or.inl ⟨s, hi, hs, hidentifier⟩)
    exact ⟨v, hv, Or.inl hcrash⟩

/-- A text is decoded, or it is refused. -/
theorem ended_decode_ne_crashed [Host] {n : Numeral} (hn : c.Uses n) (id : String) :
    ended (decode c id) ≠ .crashed e := by
  rw [decode, ne_eq, ended_bind_eq_iff, orEnd_eq_crashed_iff]
  rintro (h | ⟨x?, -, h⟩)
  · exact Codec.not_crashes_decode hn id h
  · cases x? <;> cases h

theorem ended_validate_ne_crashed [Host] {n : Numeral} (hn : c.Uses n) (id : String) :
    ended (validate c id) ≠ .crashed e := by
  rw [validate, ne_eq, ended_bind_eq_iff, orEnd_eq_crashed_iff]
  rintro (h | ⟨valid, -, h⟩)
  · exact Codec.not_crashes_isValid hn id h
  · cases valid <;> cases h

theorem checkDigitError_ne_crashed {α : Type} {r : Except Error α} {e' : Error}
    (hr : ∀ e, ¬ Crashes r e) (h : r = .error e') : checkDigitError e' ≠ .crashed e := by
  unfold checkDigitError
  split
  · exact nofun
  · next hown => exact absurd ⟨h, Bool.eq_false_iff.mpr hown⟩ (hr e')

/-- Whatever the alphabet, no algorithm crashes. -/
theorem checkDigit_ne_crashed (payload : String) (a : Algorithm) (alphabet : Value)
    (verify : Bool) : checkDigit payload a alphabet verify ≠ .crashed e := by
  unfold checkDigit
  split
  · split
    · next valid _ => cases valid <;> exact nofun
    · next h =>
      exact checkDigitError_ne_crashed (CheckDigit.not_crashes_isValid payload a alphabet) h
  · split
    · exact nofun
    · next h =>
      exact checkDigitError_ne_crashed (CheckDigit.not_crashes_compute payload a alphabet) h

section Host

variable [Host]

/-- Why a run crashes. -/
inductive Crash (words : List String) (env : List (String × String)) (files : String → FileAnswer)
    (now : DateTime) : Error → Prop
  | algorithm {inv : Invocation} {payload : String} {alphabet? : Option String} {verify : Bool}
    (hhyphens : Host.takesHyphens = false) (hread : Invocation.read words = .read inv)
    (hcommand : inv.command = .checkDigit payload none alphabet? verify) :
    Crash words env files now (.unknownAlgorithm "")
  | settings {inv : Invocation} {e : Error} (hread : Invocation.read words = .read inv)
    (hcommand : inv.command.NeedsCodec)
    (hsettings : Settings.Unread (settingsEnvironment inv env) files e) :
    Crash words env files now e
  | codec {inv : Invocation} {s : Settings} {e : Error} (hread : Invocation.read words = .read inv)
    (hcommand : inv.command.NeedsCodec) (hsettings : settingsOf inv env files = .ok s)
    (hcodec : Codec.Unbuildable s e) : Crash words env files now e
  | identifier {inv : Invocation} {i : Int} {timestamp? : Option String} {c : Codec} {n : Numeral}
    {s : Nat} {t : DateTime} {e : Error} (hread : Invocation.read words = .read inv)
    (hcommand : inv.command = .encode i timestamp?) (hcodec : loadCodec inv env files = .ok c)
    (hnumerals : c.Uses n) (htime : TimeOf now timestamp? t) (hi : i = s)
    (hs : s ≤ Settings.maxSequence) (hidentifier : c.Uncreatable n s t e) :
    Crash words env files now e

/-- A command that needs a codec ends as soon as it gets none. -/
theorem run_of_loadCodec_eq_error (hread : Invocation.read words = .read inv)
    (hcommand : inv.command.NeedsCodec) (h : loadCodec inv env files = .error o) :
    run words env files now = o := by
  rw [run_of_read hread, perform]
  split
  · exact ended_bind_eq_iff.mpr (Or.inl h)
  · exact ended_bind_eq_iff.mpr (Or.inl h)
  · exact ended_bind_eq_iff.mpr (Or.inl h)
  -- check digits need none
  · next hcheck =>
    rw [hcheck] at hcommand
    exact hcommand.elim
  · next hcheck =>
    rw [hcheck] at hcommand
    exact hcommand.elim

theorem Crash.run_eq (h : Crash words env files now e) : run words env files now = .crashed e := by
  cases h with
  | algorithm _ hread hcommand =>
    rw [run_of_read hread, perform, hcommand]
    rfl
  | settings hread hcommand hsettings =>
    exact run_of_loadCodec_eq_error hread hcommand
      (loadCodec_eq_crashed_iff.mpr (Or.inl hsettings))
  | codec hread hcommand hsettings hcodec =>
    exact run_of_loadCodec_eq_error hread hcommand
      (loadCodec_eq_crashed_iff.mpr (Or.inr ⟨_, hsettings, hcodec⟩))
  | identifier hread hcommand hcodec hnumerals htime hi hs hidentifier =>
    obtain ⟨-, ds, hds⟩ := parts_of_loadCodec hcodec
    rw [run_of_read hread, perform, hcommand]
    exact ended_bind_eq_iff.mpr (Or.inr ⟨_, hcodec,
      (ended_encode_eq_crashed_iff hnumerals hds (Invocation.natAbs_lt_of_read hread hcommand)).mpr
        ⟨_, _, htime, hi, hs, hidentifier⟩⟩)

/-- A command that needs a codec crashes on the way to it, or with it. -/
theorem crash_or_codec {f : Codec → Except Outcome Outcome}
    (hread : Invocation.read words = .read inv) (hcommand : inv.command.NeedsCodec)
    (h : ended (loadCodec inv env files >>= f) = .crashed e) :
    Crash words env files now e ∨
      ∃ c, loadCodec inv env files = .ok c ∧ ended (f c) = .crashed e := by
  rw [ended_bind_eq_iff, loadCodec_eq_crashed_iff] at h
  obtain (hsettings | ⟨s, hsettings, hcodec⟩) | hc := h
  · exact Or.inl (.settings hread hcommand hsettings)
  · exact Or.inl (.codec hread hcommand hsettings hcodec)
  · exact Or.inr hc

theorem crash_of_run (h : run words env files now = .crashed e) : Crash words env files now e := by
  cases hread : Invocation.read words with
  | help =>
    rw [run, hread] at h
    cases h
  | misused =>
    rw [run, hread] at h
    cases h
  | read inv =>
    rw [run_of_read hread, perform] at h
    split at h
    · next i timestamp? hcommand =>
      rcases crash_or_codec hread (by rw [hcommand]; trivial) h with hcrash | ⟨c, hcodec, h⟩
      · exact hcrash
      · obtain ⟨⟨n, hn⟩, ds, hds⟩ := parts_of_loadCodec hcodec
        have hshown := Invocation.natAbs_lt_of_read hread hcommand
        obtain ⟨t, s, htime, hi, hs, hidentifier⟩ :=
          (ended_encode_eq_crashed_iff hn hds hshown).mp h
        exact .identifier hread hcommand hcodec hn htime hi hs hidentifier
    · next id hcommand =>
      rcases crash_or_codec hread (by rw [hcommand]; trivial) h with hcrash | ⟨c, hcodec, h⟩
      · exact hcrash
      · obtain ⟨⟨n, hn⟩, -⟩ := parts_of_loadCodec hcodec
        exact absurd h (ended_decode_ne_crashed hn id)
    · next id hcommand =>
      rcases crash_or_codec hread (by rw [hcommand]; trivial) h with hcrash | ⟨c, hcodec, h⟩
      · exact hcrash
      · obtain ⟨⟨n, hn⟩, -⟩ := parts_of_loadCodec hcodec
        exact absurd h (ended_validate_ne_crashed hn id)
    · exact absurd h (checkDigit_ne_crashed _ _ _ _)
    · next hcommand =>
      cases h
      exact .algorithm (Invocation.takesHyphens_of_read hread hcommand) hread hcommand

theorem run_eq_crashed_iff : run words env files now = .crashed e ↔ Crash words env files now e :=
  ⟨crash_of_run, Crash.run_eq⟩

/-- On every host a run ends with a status, and then with zero, one or two, unless
there is a reason for it to crash; and each reason is what it crashes with. Words,
variables and the names of files are Unicode texts, and what is printed finds an
output that takes it. -/
theorem run_ends_or_crashes (words : List String) (env : List (String × String))
    (files : String → FileAnswer) (now : DateTime) :
    ((∃ status ≤ 2, (run words env files now).status? = some status) ↔
        ∀ e, ¬ Crash words env files now e) ∧
      ∀ e, run words env files now = .crashed e ↔ Crash words env files now e := by
  refine ⟨?_, fun e => run_eq_crashed_iff⟩
  simp only [← run_eq_crashed_iff, ← not_exists, ← status?_eq_none_iff]
  cases h : (run words env files now).status? with
  | none => exact iff_of_false nofun (not_not.mpr rfl)
  | some status => exact iff_of_true ⟨status, regular_run words env files now status h, rfl⟩ nofun

end Host

section Ample

attribute [local instance] Host.ample

/-- A settings file of the single byte 255 is no text, and decoding crashes for
it. -/
example : run ["--settings", "settings.json", "decode", "x"] [] (fun _ => .contents ⟨#[255]⟩)
    ⟨.start, none⟩ = .crashed (.settingsFile .notText) := rfl

end Ample

end CommandLine
end ChronoId
