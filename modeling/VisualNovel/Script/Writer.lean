import VisualNovel.Json.Writer
import VisualNovel.Script.Cue

/-!
# Writing a script

Every field of an event is written, the word for the event first.

* `Cue.toValue`, `Event.toValue`   the value of an event;
* `renderEvents`                   the document of a list of events.
-/

namespace VisualNovel

open Json (Value)

def MusicAction.name : MusicAction → String
  | play => "play"
  | pause => "pause"
  | resume => "resume"
  | stop => "stop"

def CastAction.name : CastAction → String
  | .show => "show"
  | .add => "add"
  | .hide => "hide"

def textOrNull : Option String → Value := .ofOption .text
def texts (l : List String) : Value := .array (l.map .text)
def real (x : Float) : Value := .number (.float x)

def ChoiceOption.toValue (o : ChoiceOption) : Value :=
  .object [("text", .text o.text), ("target", textOrNull o.target)]

def Cue.fields : Cue → List (String × Value)
  | background name | view name | sound name | video name | label name => [("name", .text name)]
  | music action name => [("action", .text action.name), ("name", textOrNull name)]
  | character name action => [("name", textOrNull name), ("action", .text action.name)]
  | dialogue line =>
    [("text", .text line.text), ("speaker", textOrNull line.speaker), ("isThought", .bool line.thought),
      ("auto_advance", .bool line.autoAdvance)]
  | wait seconds | waitVideo seconds => [("time", real seconds)]
  | introStart | introEnd | unknown => []
  | introCard lines => [("lines", texts lines)]
  | sequence frames fps keepLast =>
    [("frames", texts frames), ("fps", real fps), ("keepLast", .bool keepLast)]
  | jump target => [("target", .text target)]
  | choice options => [("choices", .array (options.map ChoiceOption.toValue))]

def Cue.toValue (c : Cue) : Value := .object (("type", .text c.kind) :: c.fields)

def Event.toValue : Event → Value
  | single cue => cue.toValue
  | together cues =>
    .object [("type", .text "simultaneous"), ("events", .array (cues.map Cue.toValue))]

def renderEvents (events : List Event) : String := Json.render (.array (events.map Event.toValue))

end VisualNovel
