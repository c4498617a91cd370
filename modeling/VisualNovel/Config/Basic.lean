import VisualNovel.Table

/-!
# The player configuration

Every value has a default, so a configuration names only what it changes.

* `Timing`, `AudioSettings`   intervals in milliseconds, volumes and names of sounds;
* `SpeakerAlias`              name fragments of the sprites that belong to a speaker;
* `ViewPreset`                the background and the desk of a camera position;
* `PlayerConfig`              all of these, and the suffix of talking sprites.
-/

namespace VisualNovel

structure Timing where
  typing : Nat := 30
  autoAdvance : Nat := 500
  introChar : Nat := 50
  introLine : Nat := 500
  videoPoll : Nat := 100
  /-- a started video that is still paused after so long has stalled -/
  videoStall : Nat := 500
deriving DecidableEq

structure AudioSettings where
  soundVolume : Float32 := 1.0
  blipVolume : Float32 := 0.8
  musicVolume : Float32 := 0.5
  defaultBlip : String := "blip.wav"
  speakerBlips : Table String String := .ofList [("Mia", "blip-female.wav")]
  introBlip : String := "blip-machine.wav"
deriving BEq

/-- the sprites of a speaker are those with one of these fragments in their names -/
structure SpeakerAlias where
  speaker : String
  fragments : List String
deriving DecidableEq

structure ViewPreset where
  background : String
  desk : Option String
deriving DecidableEq

def defaultAliases : List SpeakerAlias :=
  [⟨"larry", ["butz"]⟩, ⟨"butz", ["butz"]⟩, ⟨"???", ["butz"]⟩, ⟨"phoenix", ["wright", "defense"]⟩,
    ⟨"judge", ["judge"]⟩, ⟨"payne", ["payne"]⟩, ⟨"mia", ["mia", "fey"]⟩]

def defaultViews : Table String ViewPreset :=
  .ofList
    [("gallery", ⟨"Gallery", none⟩), ("judge", ⟨"Judge", some "Judge_Desk"⟩),
      ("defense", ⟨"Defense", some "Defense_Desk"⟩),
      ("prosecution", ⟨"Prosecution", some "Prosecution_Desk"⟩),
      ("witness", ⟨"Witness", some "Witness_Desk"⟩), ("counsel", ⟨"Defense_Counsel", none⟩)]

structure PlayerConfig where
  timing : Timing := {}
  audio : AudioSettings := {}
  /-- the end of the name of a talking sprite -/
  talkSuffix : String := "_Talk"
  aliases : List SpeakerAlias := defaultAliases
  views : Table String ViewPreset := defaultViews
deriving BEq

end VisualNovel
