/-
# Sessions

A process shares an epoch and a default codec among its callers. Both are
unset at first. Setting the epoch affects only codecs that are built later,
and the default codec is built when it is first needed or configured anew. A
step that fails leaves both as they were, except that a default codec which
was built on the way to a later failure stays.

A session also holds objects under names: timestamp codecs and codecs, which
never change once they are built.

Key definitions: `Session`, `Session.Step`, `Session.step`, `Session.run`.
-/
import ChronoId.Codec

namespace ChronoId

/-- An object that a caller has built. -/
inductive Instrument where
  | timestamps (codec : TimestampCodec)
  | codec (codec : Codec)

/-- What an object can be asked. -/
inductive Request where
  | properties
  | pack (timestamp : Value)
  | unpack (packed : Value)
  | encode (timestamp : Value)
  | decode (text : Value)
  | create (sequence timestamp : Value) (now : DateTime)
  | isValid (id : Value)

/-- The answers of objects and sessions. -/
inductive Answer where
  | nothing
  | number (n : Nat)
  | text (s : String)
  | flag (b : Bool)
  | instant (i : Instant)
  | identifier (x : Identifier)
  | noIdentifier
  | instrument (x : Instrument)
  | defaultCodec (sameAsBefore : Bool) (codec : Codec)

namespace Answer

/-- The answer of a decoding. -/
def ofDecoded : Option Identifier → Answer
  | some x => .identifier x
  | none => .noIdentifier

end Answer

namespace TimestampCodec

/-- Answers a request; what is not about timestamps is answered by the codec
itself. -/
def answer (c : TimestampCodec) : Request → Except Error Answer
  | .pack t => do return .number (← c.pack (← t.toDateTime))
  | .unpack v => do return .instant (← c.unpackValue v)
  | .encode t => do return .text (← c.encode (← t.toDateTime))
  | .decode v => do return .instant (← c.decode v)
  | _ => .ok (.instrument (.timestamps c))

end TimestampCodec

namespace Codec

/-- Answers a request; what is not about identifiers is answered by the codec
itself. -/
def answer (c : Codec) : Request → Logged Answer
  | .create sequence timestamp now => do return .identifier (← c.create sequence timestamp now)
  | .decode v => do return .ofDecoded (← c.decode v)
  | .isValid v => do return .flag (← c.isValid v)
  | _ => return .instrument (.codec c)

end Codec

namespace Instrument

/-- Answers a request. -/
def answer : Instrument → Request → Logged Answer
  | .timestamps c, r => Logged.ofExcept (c.answer r)
  | .codec c, r => c.answer r

end Instrument

/-- The state that callers share. -/
structure Session where
  /-- The epoch of codecs without one of their own. -/
  epoch : Option Instant := none
  /-- The default codec. -/
  codec : Option Codec := none
  /-- How many default codecs have been built. -/
  builds : Nat := 0
  /-- Which of them was handed out last. -/
  shown : Option Nat := none
  /-- The named objects, the latest first. -/
  instruments : List (String × Instrument) := []

namespace Session

/-- What a caller may do. -/
inductive Step where
  | setEpoch (value : Value)
  | getEpoch
  | configureDefault (source : Settings.Source)
  | getDefault
  | generate (sequence timestamp : Value) (now : DateTime)
  | decode (id : Value)
  | isValid (id : Value)
  | newTimestamps (name : String) (encoder : Option Encoder) (width bits digits epoch : Value)
  | newCodec (name : String) (source : Settings.Source) (encoder : Option Encoder)
  | ask (name : String) (request : Request)

variable [Host] (s : Session)

/-- Builds a default codec and makes it the one in use. -/
def configure (source : Settings.Source) : Logged Codec × Session :=
  let built := Codec.build source none s.epoch
  match built.result with
  | .ok c => (built, { s with codec := some c, builds := s.builds + 1 })
  | .error _ => (built, s)

/-- The default codec, built of default settings if there is none. -/
def current : Logged Codec × Session :=
  match s.codec with
  | some c => (pure c, s)
  | none => s.configure .defaults

/-- Asks the default codec. -/
def askCurrent (request : Request) : Logged Answer × Session :=
  let (codec, s) := s.current
  (codec >>= fun c => c.answer request, s)

/-- The shared epoch of a value that should be a date-time. -/
def epochOfValue : Value → Except Error Instant
  | .moment t => t.toUtc
  | v => .error (.configuration (.epochType v.typeName))

/-- Keeps an object under a name if it could be built. -/
def keep (name : String) (built : Logged Instrument) : Logged Answer × Session :=
  match built.result with
  | .ok x => (⟨.ok .nothing, built.events⟩, { s with instruments := (name, x) :: s.instruments })
  | .error e => (⟨.error e, built.events⟩, s)

/-- One step. -/
def step : Step → Logged Answer × Session
  | .setEpoch v =>
    match epochOfValue v with
    | .ok i => (pure .nothing, { s with epoch := some i })
    | .error e => (Logged.fail e, s)
  | .getEpoch =>
    match s.epoch with
    | some i => (pure (.instant i), s)
    | none => (Logged.fail (.configuration .epochUnset), s)
  | .configureDefault source =>
    let (codec, s) := s.configure source
    (codec >>= fun c => pure (.instrument (.codec c)),
      match codec.result with
      | .ok _ => { s with shown := some s.builds }
      | .error _ => s)
  | .getDefault =>
    let (codec, s) := s.current
    (codec >>= fun c => pure (.defaultCodec (s.shown = some s.builds) c),
      match codec.result with
      | .ok _ => { s with shown := some s.builds }
      | .error _ => s)
  | .generate sequence timestamp now => s.askCurrent (.create sequence timestamp now)
  | .decode v => s.askCurrent (.decode v)
  | .isValid v => s.askCurrent (.isValid v)
  | .newTimestamps name encoder width bits digits epoch =>
    s.keep name (Logged.ofExcept
      ((TimestampCodec.build encoder width bits digits epoch s.epoch).map fun c =>
        .timestamps c.val))
  | .newCodec name source encoder =>
    s.keep name (Codec.build source encoder s.epoch >>= fun c => pure (.codec c))
  | .ask name request =>
    match s.instruments.lookup name with
    | some x => (x.answer request, s)
    | none => (Logged.fail (.nothingNamed name), s)

/-- The answers of steps in order, and the state behind them. -/
def run : Session → List Step → List (Logged Answer) × Session
  | s, [] => ([], s)
  | s, step :: steps =>
    let (answer, s) := s.step step
    let (answers, s) := run s steps
    (answer :: answers, s)

end Session
end ChronoId
