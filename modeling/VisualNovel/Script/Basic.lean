import VisualNovel.Script.Cue
import VisualNovel.Table

/-!
# Scripts

A script is a list of events together with the places of its labels.

* `labelTable`       where each label stands; of two labels with one name the later one counts;
* `Script.ofEvents`  the script of a list of events;
* `Script.find?`     the place of a label;
* `Script.walk`      every event, and after it every cue of a block, with its place.
-/

namespace VisualNovel

/-- enters the label of the event at `place`, if it is one -/
def enterLabel (t : Table String Nat) : Event × Nat → Table String Nat
  | (.single (.label name), place) => t.insert name place
  | _ => t

/-- the places of the labels; a label inside a block has none -/
def labelTable (events : List Event) : Table String Nat := events.zipIdx.foldl enterLabel .empty

structure Script where
  events : Array Event
  labels : Table String Nat
  labels_eq : labels = labelTable events.toList

namespace Script

def ofEvents (events : List Event) : Script := ⟨events.toArray, labelTable events, by simp⟩

def size (s : Script) : Nat := s.events.size
def isEmpty (s : Script) : Bool := s.events.isEmpty

/-- the place of a label -/
def find? (s : Script) (label : String) : Option Nat := s.labels.get? label

@[simp] theorem toList_ofEvents (events : List Event) : (ofEvents events).events.toList = events := by
  simp [ofEvents]

instance : BEq Script := ⟨fun s t => s.events == t.events && s.labels == t.labels⟩

/-- the events with their places, each block followed by its cues at the place of the block -/
def walk (s : Script) : List (Nat × Event) :=
  s.events.toList.zipIdx.flatMap fun (e, place) =>
    match e with
    | .single _ => [(place, e)]
    | .together cues => (place, e) :: cues.map fun c => (place, .single c)

end Script

end VisualNovel
