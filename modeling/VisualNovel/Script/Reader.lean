import VisualNovel.Json.Reader
import VisualNovel.Json.Record
import VisualNovel.Script.Basic

/-!
# Reading a script

A script is written as an array of events. An event that is not understood, or written wrongly, is
kept as an unknown cue, so that the places of the others do not change; a block with such an event in
it is an unknown cue as a whole. A block inside a block makes the script unusable.

* `Cue.read?`       a cue from its word and its fields;
* `Entry.read?`     an event, or the finding that it nests blocks;
* `Script.parse`    the script of a text, or why there is none.
-/

namespace VisualNovel

open Json (Value Record)

/-! ## Fields -/

def MusicAction.ofName : String → MusicAction
  | "play" => play
  | "pause" => pause
  | "resume" => resume
  | _ => stop

def CastAction.ofName? : String → Option CastAction
  | "show" => some .show
  | "add" => some .add
  | "hide" => some .hide
  | _ => none

def ChoiceOption.read? (v : Value) : Option ChoiceOption :=
  v.read? 2 fun r => do
    return {
      text := ← r.get? 0 ["text"] Value.text? (some "")
      target := ← r.get? 1 ["target"] (Value.option? Value.text?) (some none) }

/-! ## Cues -/

/-- the words for events, in the order in which a number can stand for them inside a block -/
def eventWords : List String :=
  ["bg", "view", "music", "sfx", "character", "dialogue", "wait", "video", "wait_video", "intro_start",
    "intro_end", "intro_card", "sequence", "label", "jump", "choice", "simultaneous", "unknown"]

def readName? (r : Record) (name : String) : Option String :=
  if r.fits 1 then r.get? 0 [name] Value.text? (some "") else none

def readSeconds? (r : Record) : Option Float :=
  if r.fits 1 then r.get? 0 ["time", "seconds"] Value.float? (some 0) else none

def Line.read? (r : Record) : Option Line :=
  if r.fits 4 then do
    return {
      text := ← r.get? 0 ["text"] Value.text? (some "")
      speaker := ← r.get? 1 ["speaker"] (Value.option? Value.text?) (some none)
      thought := ← r.get? 2 ["isThought"] Value.bool? (some false)
      autoAdvance := ← r.get? 3 ["auto_advance", "autoAdvance"] Value.bool? (some false) }
  else none

/-- a cue that has no fields, where a list of fields is empty -/
def bare? (r : Record) (cue : Cue) : Option Cue := if r.fits 0 then some cue else none

def Cue.read? (word : String) (r : Record) : Option Cue :=
  match word with
  | "bg" => (readName? r "name").map .background
  | "view" => (readName? r "name").map .view
  | "music" =>
    if r.fits 2 then do
      let action ← r.get? 0 ["action"] (fun v => v.variant?.map .ofName) (some .stop)
      return .music action (← r.get? 1 ["name"] (Value.option? Value.text?) (some none))
    else none
  | "sfx" => (readName? r "name").map .sound
  | "character" =>
    if r.fits 2 then do
      let name ← r.get? 0 ["name"] (Value.option? Value.text?) (some none)
      return .character name (← r.get? 1 ["action"] (fun v => v.variant?.bind CastAction.ofName?) (some .show))
    else none
  | "dialogue" => (Line.read? r).map .dialogue
  | "wait" => (readSeconds? r).map .wait
  | "video" => (readName? r "name").map .video
  | "wait_video" => (readSeconds? r).map .waitVideo
  | "intro_start" => bare? r .introStart
  | "intro_end" => bare? r .introEnd
  | "intro_card" =>
    if r.fits 1 then (r.get? 0 ["lines"] (Value.list? Value.text?) (some [])).map .introCard else none
  | "sequence" =>
    if r.fits 3 then do
      let frames ← r.get? 0 ["frames"] (Value.list? Value.text?) (some [])
      let fps ← r.get? 1 ["fps"] Value.float? (some 0)
      return .sequence frames fps (← r.get? 2 ["keepLast"] Value.bool? (some false))
    else none
  | "label" => (readName? r "name").map .label
  | "jump" => (readName? r "target").map .jump
  | "choice" =>
    if r.fits 1 then
      (r.get? 0 ["choices", "options"] (Value.list? ChoiceOption.read?) (some [])).map .choice
    else none
  | _ => bare? r .unknown

/-! ## Events -/

/-- an event, or a block with a block inside -/
inductive Entry
  | event (e : Event)
  | nested

/-- a block of what has been read of its events -/
def Entry.block (children : List Entry) : Entry :=
  match children.mapM fun | .event (.single c) => some c | _ => none with
  | some cues => .event (.together cues)
  | none => .nested

/-- the word for an event; inside a block a number may stand for it -/
def readWord? (inner : Bool) : Value → Option String
  | .text s => some s
  | v => if inner then v.natural?.map fun n => eventWords.getD n "unknown" else none

/-- the word and the fields of an event -/
def readHead? (inner : Bool) : Value → Option (String × Record)
  | .object members =>
    match members.find? (·.1 == "type") with
    | some (_, v) => (readWord? inner v).map (·, .named members)
    | none => none
  | .array (v :: fields) => (readWord? inner v).map (·, .listed fields)
  | _ => none

/-- events may nest `room` deep; all of them have to be understood -/
def Entry.read? (room : Nat) (inner : Bool) (v : Value) : Option Entry := do
  let (word, r) ← readHead? inner v
  if word = "simultaneous" then
    match room with
    | 0 => none
    | room + 1 =>
      if r.fits 1 then
        (r.get? 0 ["events"] (Value.list? (read? room true)) (some [])).map .block
      else none
  else (Cue.read? word r).map (.event <| .single ·)

/-! ## Scripts -/

inductive ScriptError
  | notADocument
  | nestedBlock (position : Nat)
deriving DecidableEq

/-- how deep brackets may nest in a script -/
def scriptDepth : Nat := 127

def Script.ofEntries (entries : List Entry) : Except ScriptError Script :=
  match entries.findIdx? fun | .nested => true | _ => false with
  | some position => .error (.nestedBlock position)
  | none => .ok (.ofEvents (entries.filterMap fun | .event e => some e | .nested => none))

/-- one level of brackets is the script itself -/
def Script.parse (text : String) : Except ScriptError Script :=
  match (Json.parse? text).bind (·.settle? scriptDepth) with
  | some (.array items) =>
    Script.ofEntries (items.map fun v => (Entry.read? scriptDepth false v).getD (.event (.single .unknown)))
  | _ => .error .notADocument

end VisualNovel
