import VisualNovel.Decimal.Shortest
import VisualNovel.Json.Writer
import VisualNovel.Session.Basic

/-!
# Snapshots of a session

* `Snapshot`          where a playback stands at one moment;
* `Session.snapshot`  the snapshot of a session;
* `Snapshot.line`     the snapshot in one line of text.
-/

namespace VisualNovel

open Json (Value)

structure Snapshot where
  position : Nat
  /-- the word for the next event, `end` after the last one -/
  nextEvent : String
  now : Nat
  epoch : Nat
  typing : Bool
  waitingForInput : Bool
  introMode : Bool
  suspension : Option String
  music : Option String
  characters : List String
  choices : List String
deriving DecidableEq

def Suspension.name : Suspension → String
  | typing => "typing"
  | autoAdvance => "auto-advance"
  | waiting => "wait"
  | videoWait target => "wait_video(" ++ Decimal.plain target ++ "s)"
  | introCard => "intro-card"
  | sequence => "sequence"
  | choice options => s!"choice({options.length})"

/-- the texts of the open menu -/
def Suspension.menu : Option Suspension → List String
  | some (choice options) => options.map ChoiceOption.text
  | _ => []

def Session.snapshot {σ : Type} (game : Game) (s : Session σ) : Snapshot where
  position := s.position
  nextEvent := match game.script.events[s.position]? with | some e => e.kind | none => "end"
  now := s.now
  epoch := s.epoch
  typing := s.typing
  waitingForInput := s.waitingForInput
  introMode := s.introMode
  suspension := s.suspension.map Suspension.name
  music := s.currentMusic
  characters := s.scene.cast.map Actor.name
  choices := Suspension.menu s.suspension

namespace Snapshot

/-- a list between brackets; nothing if it is empty -/
def listed (name separator : String) : List String → String
  | [] => ""
  | items => " " ++ name ++ "=[" ++ separator.intercalate items ++ "]"

def given (name : String) : Option String → String
  | some value => " " ++ name ++ "=" ++ value
  | none => ""

def line (s : Snapshot) : String :=
  s!"PC={s.position} next={s.nextEvent} t={s.now}ms epoch={s.epoch}" ++ given "suspended" s.suspension ++
    (if s.waitingForInput then " waiting" else "") ++ (if s.introMode then " intro" else "") ++
    given "music" s.music ++ listed "characters" ", " s.characters ++ listed "choices" " | " s.choices

def toValue (s : Snapshot) : Value :=
  .object
    [("pc", .nat s.position), ("next_event", .text s.nextEvent), ("now_ms", .nat s.now),
      ("epoch", .nat s.epoch), ("typing", .bool s.typing), ("waiting_for_input", .bool s.waitingForInput),
      ("intro_mode", .bool s.introMode), ("suspension", .ofOption .text s.suspension),
      ("music", .ofOption .text s.music), ("characters", .array (s.characters.map .text)),
      ("pending_choices", .array (s.choices.map .text))]

end Snapshot

end VisualNovel
