import VisualNovel.Script.Cue
import VisualNovel.Text.Blank
import VisualNovel.Text.Fragment
import VisualNovel.Transcript.Token

/-!
# From a transcript to a script

A transcript is a text in lines. A line `[Command]` changes the background, the music or the characters;
a line `Speaker:` names the speaker of the lines that follow; any other line is spoken as far as it holds
`<text>`. A black screen opens an intro, whose lines are collected until a background fades in.

* `Converter.command`   what a command does on a line of its own;
* `Converter.line`      what a line does;
* `Converter.convert`   the cues of a transcript, or the intro that is never closed.
-/

namespace VisualNovel

structure Converter where
  /-- the names that fade in and out as backgrounds -/
  backgrounds : List String := ["Defense_Lobby"]
  /-- lines before the first one that starts so do not count -/
  startMarker : String := "Episode 1"

inductive TranscriptError
  /-- the number of the line that opened it -/
  | unclosedIntro (line : Nat)
deriving DecidableEq

def TranscriptError.message : TranscriptError → String
  | unclosedIntro line => s!"intro card opened at line {line} is never closed by a background fade-in"

namespace Transcript

open Text

structure OpenIntro where
  openedAt : Nat
  lines : List String := []
deriving DecidableEq

/-- what a line leaves to the lines after it -/
structure State where
  speaker : Option String := none
  intro : Option OpenIntro := none
deriving DecidableEq

/-! ## Commands -/

def startsWith (start : String) (cs : List Char) : Bool := start.toList.isPrefixOf cs

/-- the last word of a command is the name of the character -/
def characterCue? (command : List Char) : Option Cue :=
  let named (action : CastAction) := (lastWord? command).map fun w => .character (some (String.ofList w)) action
  if startsWith "Load" command || startsWith "Fade in" command then named .show
  else if startsWith "Fade out" command then named .hide
  else none

def isMusic (command : List Char) : Bool := holds ".ogg".toList command

def background? (c : Converter) (target : List Char) : Option String :=
  c.backgrounds.find? fun b => holds b.toList target

/-- the card with the lines of an intro, if it has any -/
def OpenIntro.card : Option OpenIntro → List Cue
  | some { lines := l :: ls, .. } => [.introCard (l :: ls)]
  | _ => []

/-- the background that a command fades in -/
def fadesIn? (c : Converter) (command : List Char) : Option String :=
  if isMusic command then none
  else (dropStart? "Fade in".toList command).bind fun target => background? c (trim target)

/-- what a command fades out, other than a character -/
def fadesOut? (c : Converter) (command : List Char) : Option Cue :=
  (dropStart? "Fade out".toList command).bind fun target =>
    if isMusic command then some (.music .stop none)
    else (background? c (trim target)).map fun _ => .background "black"

def plays? (command : List Char) : Option Cue :=
  (dropStart? "Play".toList command).map fun name => .music .play (some (String.ofList (trim name)))

end Transcript

open Transcript Text

namespace Converter

/-- a command on the line with this number -/
def command (c : Converter) (s : State) (number : Nat) (command : List Char) : List Cue × State :=
  if command = "Black Screen".toList then
    ([.background "black"], { s with intro := some { openedAt := number } })
  else
    match fadesIn? c command with
    | some name => (OpenIntro.card s.intro ++ [.background name], { s with intro := none })
    | none =>
      match fadesOut? c command, plays? command with
      | some cue, _ => ([cue], s)
      | none, some cue => ([cue], s)
      | none, none => (if isMusic command then [] else (characterCue? command).toList, s)

/-- a text in round brackets is a thought -/
def dialogue (speaker : Option String) (text : List Char) : Cue :=
  .dialogue ⟨String.ofList text, speaker, text.head? == some '(' && text.getLast? == some ')', false⟩

def token? (speaker : Option String) : Token → Option Cue
  | .text body => some (dialogue speaker body)
  | .command body => characterCue? body

/-- the command of a line that holds nothing else -/
def wholeCommand? (line : List Char) : Option (List Char) := do
  let body ← dropEnd? [']'] (← dropStart? ['['] line)
  if body.contains ']' then none else some (trim body)

/-- a line whose first text is not closed at its end is closed there -/
def repair (line : List Char) : List Char :=
  if line.head? == some '<' && line.getLast? != some '>' && line.getLast? != some ']' then line ++ ['>']
  else line

/-- a trimmed line that is not empty -/
def line (c : Converter) (s : State) (number : Nat) (line : List Char) : List Cue × State :=
  if startsWith "__" line then ([], s)
  else
    match wholeCommand? line with
    | some command => c.command s number command
    | none =>
      match s.intro with
      | some intro => ([], { s with intro := some { intro with lines := intro.lines ++ [String.ofList line] } })
      | none =>
        match dropEnd? [':'] line with
        | some name => ([], { s with speaker := some (String.ofList (trim name)) })
        | none => ((tokens (repair line)).filterMap (token? s.speaker), s)

def run (c : Converter) (s : State) : List (Nat × List Char) → List Cue × State
  | [] => ([], s)
  | (number, line) :: lines =>
    let (cues, s) := c.line s number line
    let (rest, s) := c.run s lines
    (cues ++ rest, s)

/-- the trimmed lines that are not empty, with their numbers -/
def numbered (transcript : String) : List (Nat × List Char) :=
  (Text.lines transcript.toList).zipIdx.filterMap fun (l, i) =>
    let l := trim l
    if l.isEmpty then none else some (i + 1, l)

/-- the lines from the start marker on, all lines if there is none -/
def fromStart (c : Converter) (lines : List (Nat × List Char)) : List (Nat × List Char) :=
  match lines.dropWhile fun l => !startsWith c.startMarker l.2 with
  | [] => lines
  | rest => rest

def convertCues (c : Converter) (transcript : String) : Except TranscriptError (List Cue) :=
  match c.run {} (c.fromStart (numbered transcript)) with
  | (cues, { intro := none, .. }) => .ok cues
  | (_, { intro := some intro, .. }) => .error (.unclosedIntro intro.openedAt)

def convert (c : Converter) (transcript : String) : Except TranscriptError (List Event) :=
  (c.convertCues transcript).map (·.map .single)

end Converter

end VisualNovel
