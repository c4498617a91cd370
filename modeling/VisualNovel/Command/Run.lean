import VisualNovel.Asset.Scan
import VisualNovel.Command.Arguments
import VisualNovel.Command.Play
import VisualNovel.Game.Store
import VisualNovel.Review.Check
import VisualNovel.Script.Writer
import VisualNovel.Session.Rehearsal
import VisualNovel.Transcript.Convert

/-!
# Running a command

* `Outcome`       what a command prints, and its exit code;
* `Failure`       why a command has failed, with what lies behind it;
* `Command.run`   a command, on any file system; how a play goes on is left to whoever runs it;
* `runProgram`    the command of a list of arguments.
-/

namespace VisualNovel

structure Outcome where
  exitCode : Nat := 0
  stdout : String := ""
  stderr : String := ""
deriving DecidableEq

structure Failure where
  message : String
  reasons : List String := []

def GameError.failure (e : GameError) : Failure := ⟨e.message, e.reasons⟩

def Failure.text (f : Failure) : String :=
  s!"Error: {f.message}\n" ++ String.join (f.reasons.map fun r => s!"Reason: {r}\n")

def usage : String :=
  "objection - Courtroom Visual Novel Player\n\nUSAGE:\n" ++
    "    objection <command> [args] [--debug]\n\nCOMMANDS:\n" ++
    "    play <dir>                      Play a game in the terminal\n" ++
    "    dry-run <dir> [--choice N] [--json]\n" ++
    "                                    Play headless, taking choice N (1-based) every time\n" ++
    "    check <dir> [--lint-config F]   Check script labels, assets and timing\n" ++
    "    convert <transcript> [out]      Convert a transcript into script JSON\n" ++
    "    map-assets <dir>                Write assets.json from the asset directories\n" ++
    "    --help, -h                      Show this help message\n\n" ++
    "A game directory holds script.json, assets.json and an optional config.json.\n\nOPTIONS:\n" ++
    "    --debug    Show playback state after every input and enable debug logs\n" ++
    "               (RUST_LOG overrides the log filter)\n\nEXAMPLES:\n" ++
    "    objection play games/turnabout\n" ++
    "    objection convert transcript.txt games/turnabout/script.json\n"

def UsageError.outcome : UsageError → Outcome
  | noCommand => { exitCode := 1, stdout := usage }
  | missing what => { exitCode := 1, stdout := usage, stderr := s!"Error: Missing {what}\n\n" }
  | unknownCommand name => { exitCode := 1, stdout := usage, stderr := s!"Error: Unknown command '{name}'\n\n" }

namespace Command

/-! ## Reports -/

def seconds (milliseconds : Nat) : Float := milliseconds.toUInt64.toFloat / 1000

def reportText (r : Report) : String :=
  String.join (r.trace.map fun s => s.line ++ "\n") ++ "\n" ++
    (if r.finished then "Finished" else "Stopped") ++
    s!" after {r.steps} steps: {r.lines} lines, {r.choices} choices, {r.sounds} sounds, " ++
    s!"{r.musicStarts} music changes, {Decimal.fixed 1 (seconds r.elapsed)}s\n"

def rehearsalOutcome (json : Bool) (r : Report) : Outcome :=
  let stdout := if json then Json.render r.toValue ++ "\n" else reportText r
  if r.stalled then
    { exitCode := 1, stdout, stderr := (Failure.mk "playback stalled before the end of the script" []).text }
  else { stdout }

def reviewOutcome (v : Verdict) : Outcome :=
  let stdout :=
    String.join (v.issues.map fun i => i.line ++ "\n") ++
      s!"\n{v.count .error} errors, {v.count .warning} warnings, {v.count .info} info\n"
  if v.hasErrors then { exitCode := 1, stdout, stderr := (Failure.mk "script check failed" []).text }
  else { stdout }

/-! ## Commands -/

variable {m : Type → Type} [Monad m] [FileSystem m]

abbrev Attempt (m : Type → Type) (α : Type) : Type := ExceptT Failure m α

def loadGame (directory : String) : Attempt m Game :=
  ((GameStore.ofDirectory directory).load (m := m)).adapt GameError.failure

/-- the locators whose files can be read and are not empty -/
def audibleLocators (directory : String) (assets : AssetTable) : m (List String) :=
  assets.values.filterM fun locator => do
    match ← FileSystem.readBytes (joinPath directory locator) with
    | .ok bytes => return !bytes.isEmpty
    | .error _ => return false

def reviewConfig : Option String → Attempt m ReviewConfig
  | none => return {}
  | some path => do
    match ← readText path with
    | .error cause => throw ⟨s!"failed to read lint config {path}: {cause.message}", []⟩
    | .ok text =>
      match ReviewConfig.parse? text with
      | some config => return config
      | none => throw ⟨"malformed document", []⟩

def convertFile (transcript : String) (output : Option String) : Attempt m Outcome := do
  match ← readText transcript with
  | .error cause => throw ⟨s!"failed to read {transcript}: {cause.message}", []⟩
  | .ok text =>
    match ({} : Converter).convert text with
    | .error e => throw ⟨e.message, []⟩
    | .ok events =>
      match output with
      | none => return { stdout := renderEvents events ++ "\n" }
      | some path =>
        match ← FileSystem.writeText path (renderEvents events) with
        | .error cause => throw ⟨s!"failed to write {path}: {cause.message}", []⟩
        | .ok () => return { stdout := s!"Wrote {events.length} events to {path}\n" }

def mapFolder (directory : String) : Attempt m Outcome := do
  let assets ← AssetTable.scan directory assetFolders
  ((GameStore.ofDirectory directory).saveAssets assets (m := m)).adapt GameError.failure
  return { stdout := s!"Mapped {assets.size} assets into {GameStore.assetsPath directory}\n" }

/-- nothing if a game runs on for ever; `fuel` bounds the timers that fire at once -/
def attempt (fuel : Nat) (follow : Play → m (Option Play)) : Command → Attempt m (Option Outcome)
  | help => return some { stdout := usage }
  | play directory debug => do
    let game ← loadGame directory
    let audible ← audibleLocators directory game.assets
    return (← follow (.begin game audible debug)).map fun p => { stdout := p.takeOutput.1 }
  | rehearse directory choice json => do
    let game ← loadGame directory
    return (VisualNovel.rehearse game { choice } fuel).map (rehearsalOutcome json)
  | review directory path => do
    let game ← loadGame directory
    let config ← reviewConfig path
    return some (reviewOutcome (VisualNovel.review game config))
  | convert transcript output => do return some (← convertFile transcript output)
  | mapAssets directory => do return some (← mapFolder directory)

def run (fuel : Nat) (follow : Play → m (Option Play)) (c : Command) : m (Option Outcome) := do
  match ← (c.attempt fuel follow).run with
  | .ok outcome => return outcome
  | .error f => return some { exitCode := 1, stderr := f.text }

end Command

def runProgram {m : Type → Type} [Monad m] [FileSystem m] (fuel : Nat) (follow : Play → m (Option Play))
    (args : List String) : m (Option Outcome) :=
  match Command.parse args with
  | .ok command => command.run fuel follow
  | .error e => return some e.outcome

end VisualNovel
