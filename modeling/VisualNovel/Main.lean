import VisualNovel.Command.Run

/-!
# The program

The outermost layer: the files of the machine, and a play in real time. What is done with them is
decided elsewhere.

* `Play.live`   a play that follows the clock and the lines of the player;
* `main`        runs the command of the arguments.
-/

namespace VisualNovel

/-! ## Files -/

/-- the number of an error, which some operations give with a minus sign -/
def errorNumber (code : UInt32) : UInt32 := if code < 0x80000000 then code else -code

/-- 20 and 21 are the numbers of the two errors of a wrong kind of file, 36 is the one of a long name -/
def FileError.ofError (e : IO.Error) : FileError :=
  match e with
  | .noFileOrDirectory _ _ _ => notFound
  | .inappropriateType _ code _ | .invalidArgument _ code _ =>
    match errorNumber code with
    | 20 => notAFolder
    | 21 => isAFolder
    | 36 => nameTooLong
    | _ => other (toString e)
  | _ => other (toString e)

def attemptFile {α : Type} (act : IO α) : IO (Except FileError α) := do
  match ← act.toBaseIO with
  | .ok a => return .ok a
  | .error e => return .error (.ofError e)

/-- the way to every file below a folder; links are not followed -/
partial def filesOf (folder : String) : IO (List (List String)) := do
  let entries ← (← IO.FS.realPath folder).readDir
  let sorted := entries.toList.mergeSort fun a b => !(b.fileName < a.fileName)
  let ways ← sorted.mapM fun entry => do
    match (← entry.path.symlinkMetadata).type with
    | .file => return [[entry.fileName]]
    | .dir => return (← filesOf entry.path.toString).map (entry.fileName :: ·)
    | _ => return []
  return ways.flatten

instance : FileSystem IO where
  pathExists path := return (← (IO.FS.realPath path).toBaseIO).toBool
  readBytes path := attemptFile (IO.FS.readBinFile path)
  writeText path text := attemptFile (IO.FS.writeFile path text)
  filesBelow path := do
    match ← (IO.FS.realPath path).toBaseIO with
    | .error _ => return []
    | .ok place => if ← place.isDir then filesOf path else return [[]]

/-! ## Playing -/

/-- bounds the timers that fire at once -/
def timersAtOnce : Nat := 1000000000

def Play.flush (p : Play) : IO Play := do
  let (text, p) := p.takeOutput
  IO.print text
  (← IO.getStdout).flush
  return p

/-- until the line has been typed or the time has come -/
partial def pause (line : Task (Except IO.Error String)) (elapsed : IO Nat) (deadline : Option Nat) : IO Unit := do
  if ← IO.hasFinished line then return
  if (← elapsed) < deadline.getD endOfTime then
    IO.sleep 5
    pause line elapsed deadline

/-- `line` is the line that the player is typing; the end of the input ends the play -/
partial def Play.live (elapsed : IO Nat) (line : Task (Except IO.Error String)) (p : Play) : IO (Option Play) := do
  let some p := p.wake timersAtOnce (← elapsed) | return none
  let p ← p.flush
  if p.isOver then return some p
  pause line elapsed p.session.deadline?
  if ← IO.hasFinished line then
    let text ← IO.ofExcept line.get
    if text.isEmpty then return some p
    let some p := p.enter timersAtOnce (← elapsed) text | return none
    let p ← p.flush
    if p.isOver then return some p
    live elapsed (← IO.asTask (← IO.getStdin).getLine) p
  else live elapsed line p

def Play.follow (p : Play) : IO (Option Play) := do
  let p ← p.flush
  let start ← IO.monoMsNow
  p.live (return (← IO.monoMsNow) - start) (← IO.asTask (← IO.getStdin).getLine)

end VisualNovel

def main (args : List String) : IO UInt32 := do
  match ← VisualNovel.runProgram VisualNovel.timersAtOnce VisualNovel.Play.follow args with
  | some outcome =>
    IO.print outcome.stdout
    IO.eprint outcome.stderr
    return outcome.exitCode.toUInt32
  | none =>
    IO.eprintln "Error: the game never rests"
    return 1
