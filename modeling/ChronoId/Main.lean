/-
# The program

Reads the command line, the environment, the settings file and the clock, runs
the command, and prints what it has to say.
-/
import ChronoId.CommandLine.Run
import Std.Time.DateTime.Timestamp

namespace ChronoId
namespace Main

/-- What the program allows itself. -/
@[reducible]
def host : Host where
  memory := 4294967296
  memory_le := by decide
  depth := 1000
  depth_pos := by decide
  takesHyphens := true
  takesTails := true

/-- What the file system has under a name. -/
def findFile (path : String) : IO FileAnswer := do
  try
    return .contents (← IO.FS.readBinFile path)
  catch
    | .noFileOrDirectory .. => return .missing
    | .inappropriateType .. => return .unreadable .isDirectory
    | _ => return .unreadable .throughFile

/-- The variables that settings may come from. -/
def environment : IO (List (String × String)) := do
  let mut found := []
  for name in [Settings.textVariable, Settings.fileVariable] do
    if let some value ← IO.getEnv name then
      found := (name, value) :: found
  return found

/-- The days from the start of the calendar to the start of the clock's
count. -/
def clockOrigin : Nat := Date.daysBeforeYear 1970

/-- The present time. -/
def now : IO DateTime := do
  let t ← Std.Time.Timestamp.now
  let micros := t.toNanosecondsSinceUnixEpoch.val / 1000
  match WallTime.ofMicros? (clockOrigin * microsPerDay + micros) with
  | some i => return DateTime.ofInstant i
  | none => return DateTime.ofInstant ⟨0, by decide⟩

end Main
end ChronoId

open ChronoId in
/-- The command line program. -/
def main (words : List String) : IO UInt32 := do
  let _ : Host := Main.host
  let env ← Main.environment
  let found ← match CommandLine.settingsFile? words env with
    | some path => Main.findFile path
    | none => pure .missing
  match CommandLine.run words env (fun _ => found) (← Main.now) with
  | .finished status output errors =>
    IO.print output
    IO.eprint errors
    return status.toUInt32
  | .stopped status =>
    if status ≠ 0 then IO.eprintln "usage: chronoid [--settings FILE] [--epoch TIME] COMMAND ..."
    else IO.println "usage: chronoid [--settings FILE] [--epoch TIME] COMMAND ..."
    return status.toUInt32
  | .crashed e =>
    IO.eprintln (e.message?.getD "unexpected error")
    return 1
