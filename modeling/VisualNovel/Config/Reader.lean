import VisualNovel.Config.Basic
import VisualNovel.Json.Reader
import VisualNovel.Json.Record

/-!
# Reading a player configuration

* `PlayerConfig.parse?`   the configuration of a text; nothing if any value is of the wrong kind.
-/

namespace VisualNovel

open Json (Value Record)

def Timing.read? (v : Value) : Option Timing :=
  v.read? 6 fun r => do
    let natural (index : Nat) (name : String) (absent : Nat) :=
      r.get? index [name] Value.natural? (some absent)
    let absent : Timing := {}
    return {
      typing := ← natural 0 "typing_interval_ms" absent.typing
      autoAdvance := ← natural 1 "auto_advance_delay_ms" absent.autoAdvance
      introChar := ← natural 2 "intro_char_interval_ms" absent.introChar
      introLine := ← natural 3 "intro_line_pause_ms" absent.introLine
      videoPoll := ← natural 4 "video_poll_interval_ms" absent.videoPoll
      videoStall := ← natural 5 "video_stall_check_ms" absent.videoStall }

def AudioSettings.read? (v : Value) : Option AudioSettings :=
  v.read? 6 fun r => do
    let absent : AudioSettings := {}
    return {
      soundVolume := ← r.get? 0 ["sfx_volume"] Value.float32? (some absent.soundVolume)
      blipVolume := ← r.get? 1 ["blip_volume"] Value.float32? (some absent.blipVolume)
      musicVolume := ← r.get? 2 ["music_volume"] Value.float32? (some absent.musicVolume)
      defaultBlip := ← r.get? 3 ["default_blip"] Value.text? (some absent.defaultBlip)
      speakerBlips := ← r.get? 4 ["speaker_blips"] (Value.table? Value.text?) (some absent.speakerBlips)
      introBlip := ← r.get? 5 ["intro_blip"] Value.text? (some absent.introBlip) }

def SpeakerAlias.read? (v : Value) : Option SpeakerAlias :=
  v.read? 2 fun r => do
    return {
      speaker := ← r.get? 0 ["speaker"] Value.text? none
      fragments := ← r.get? 1 ["matches"] (Value.list? Value.text?) none }

def ViewPreset.read? (v : Value) : Option ViewPreset :=
  v.read? 2 fun r => do
    return {
      background := ← r.get? 0 ["background"] Value.text? none
      desk := ← r.get? 1 ["desk"] (Value.option? Value.text?) (some none) }

def PlayerConfig.read? (v : Value) : Option PlayerConfig :=
  v.read? 5 fun r => do
    let absent : PlayerConfig := {}
    return {
      timing := ← r.get? 0 ["timing"] Timing.read? (some absent.timing)
      audio := ← r.get? 1 ["audio"] AudioSettings.read? (some absent.audio)
      talkSuffix := ← r.get? 2 ["talk_suffix"] Value.text? (some absent.talkSuffix)
      aliases := ← r.get? 3 ["speaker_aliases"] (Value.list? SpeakerAlias.read?) (some absent.aliases)
      views := ← r.get? 4 ["views"] (Value.table? ViewPreset.read?) (some absent.views) }

def PlayerConfig.parse? (text : String) : Option PlayerConfig := (Json.parse? text).bind read?

end VisualNovel
