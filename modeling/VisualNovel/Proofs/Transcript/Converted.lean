import VisualNovel.Proofs.Script.RoundTrip
import VisualNovel.Transcript.Convert

/-!
# What transcripts are made into

Whatever stands in a transcript, only cues of a few kinds come of it: pictures, music, characters that
enter and leave, lines that wait for the player, and cards with lines on them. None has a number, and so
the script that is written is read as it was.

* `Cue.Transcribed`          the cues that transcripts are made into;
* `Converter.transcribed_of_convert`   there are no others;
* `converted_scripts_read_back`        the script of a transcript is read back.
-/

namespace VisualNovel

open Transcript Text

/-- the cues that transcripts are made into -/
inductive Cue.Transcribed : Cue → Prop
  | background (name : String) : Transcribed (.background name)
  | musicStarts (name : String) : Transcribed (.music .play (some name))
  | musicStops : Transcribed (.music .stop none)
  | enters (name : String) : Transcribed (.character (some name) .show)
  | leaves (name : String) : Transcribed (.character (some name) .hide)
  | said (text : String) (speaker : Option String) (thought : Bool) :
    Transcribed (.dialogue ⟨text, speaker, thought, false⟩)
  | card (first : String) (lines : List String) : Transcribed (.introCard (first :: lines))

namespace Transcript

theorem transcribed_of_characterCue? {command : List Char} {cue : Cue}
    (found : characterCue? command = some cue) : cue.Transcribed := by
  unfold characterCue? at found
  dsimp only at found
  split at found
  · obtain ⟨name, -, rfl⟩ := Option.map_eq_some_iff.1 found
    exact .enters _
  · split at found
    · obtain ⟨name, -, rfl⟩ := Option.map_eq_some_iff.1 found
      exact .leaves _
    · cases found

theorem transcribed_of_fadesOut? {c : Converter} {command : List Char} {cue : Cue}
    (found : fadesOut? c command = some cue) : cue.Transcribed := by
  obtain ⟨target, -, found⟩ := Option.bind_eq_some_iff.1 found
  split at found
  · cases found
    exact .musicStops
  · obtain ⟨name, -, rfl⟩ := Option.map_eq_some_iff.1 found
    exact .background _

theorem transcribed_of_plays? {command : List Char} {cue : Cue} (found : plays? command = some cue) :
    cue.Transcribed := by
  obtain ⟨name, -, rfl⟩ := Option.map_eq_some_iff.1 found
  exact .musicStarts _

theorem transcribed_of_mem_card {intro : Option OpenIntro} {cue : Cue} (m : cue ∈ OpenIntro.card intro) :
    cue.Transcribed := by
  unfold OpenIntro.card at m
  split at m
  · rw [List.mem_singleton.1 m]
    exact .card _ _
  · cases m

end Transcript

namespace Converter

variable (c : Converter)

theorem transcribed_command (s : State) (number : Nat) (command : List Char) :
    ∀ cue ∈ (c.command s number command).1, cue.Transcribed := by
  intro cue m
  unfold Converter.command at m
  split at m
  · rw [List.mem_singleton.1 m]
    exact .background _
  split at m
  · rcases List.mem_append.1 m with m | m
    · exact transcribed_of_mem_card m
    · rw [List.mem_singleton.1 m]
      exact .background _
  split at m
  · rename_i out
    rw [List.mem_singleton.1 m]
    exact transcribed_of_fadesOut? out
  · rename_i plays
    rw [List.mem_singleton.1 m]
    exact transcribed_of_plays? plays
  · dsimp only at m
    split at m
    · cases m
    · exact transcribed_of_characterCue? (Option.mem_toList.1 m)

theorem transcribed_token? {speaker : Option String} {token : Token} {cue : Cue}
    (found : token? speaker token = some cue) : cue.Transcribed := by
  cases token with
  | text body =>
    cases found
    exact .said _ _ _
  | command body => exact transcribed_of_characterCue? found

theorem transcribed_line (s : State) (number : Nat) (line : List Char) :
    ∀ cue ∈ (c.line s number line).1, cue.Transcribed := by
  intro cue m
  unfold Converter.line at m
  split at m
  · cases m
  split at m
  · exact c.transcribed_command s number _ cue m
  split at m
  · cases m
  split at m
  · cases m
  · obtain ⟨token, -, found⟩ := List.mem_filterMap.1 m
    exact transcribed_token? found

theorem transcribed_run (s : State) (lines : List (Nat × List Char)) :
    ∀ cue ∈ (c.run s lines).1, cue.Transcribed := by
  induction lines generalizing s with
  | nil => exact nofun
  | cons entry lines ih =>
    obtain ⟨number, line⟩ := entry
    intro cue m
    rcases List.mem_append.1 m with m | m
    · exact c.transcribed_line s number line cue m
    · exact ih _ cue m

variable {c}

theorem transcribed_of_convert {transcript : String} {events : List Event}
    (converted : c.convert transcript = .ok events) :
    ∃ cues : List Cue, events = cues.map .single ∧ ∀ cue ∈ cues, cue.Transcribed := by
  have each := c.transcribed_run {} (c.fromStart (numbered transcript))
  unfold convert convertCues at converted
  split at converted
  · rename_i cues _ ran
    rw [ran] at each
    cases converted
    exact ⟨cues, rfl, each⟩
  · cases converted

end Converter

theorem Cue.Transcribed.hasNumber {cue : Cue} (h : cue.Transcribed) : cue.hasNumber = false := by
  cases h <;> rfl

/-- **The script of a transcript is read back as it was written.** Whenever a transcript is converted,
its events make a script; the text that is written of them, with an end of line after it or without, is
read as the script of these very events, and none of them is an unknown cue. -/
theorem converted_scripts_read_back (c : Converter) {transcript : String} {events : List Event}
    (converted : c.convert transcript = .ok events) :
    Script.ofEntries (events.map .event) = .ok (.ofEvents events) ∧
      Script.parse (renderEvents events) = .ok (.ofEvents events) ∧
      Script.parse (renderEvents events ++ "\n") = .ok (.ofEvents events) ∧
      (Script.ofEvents events).events.toList = events ∧ .single .unknown ∉ events := by
  obtain ⟨cues, rfl, each⟩ := Converter.transcribed_of_convert converted
  have wordy : ∀ event ∈ cues.map Event.single, ∀ cue ∈ event.cues, cue.hasNumber = false := by
    intro event m cue m'
    obtain ⟨single, among, rfl⟩ := List.mem_map.1 m
    rw [List.mem_singleton.1 m']
    exact (each single among).hasNumber
  have read : Script.parse (renderEvents (cues.map .single) ++ String.ofList []) =
      .ok (.ofEvents (cues.map .single)) := Script.parse_renderEvents wordy nofun
  rw [String.ofList_nil, String.append_empty] at read
  refine ⟨Script.ofEntries_event _, read, ?_, Script.toList_ofEvents _, fun m => ?_⟩
  · refine Script.parse_renderEvents wordy fun c m => ?_
    rw [List.mem_singleton.1 m]
    rfl
  · obtain ⟨cue, among, e⟩ := List.mem_map.1 m
    cases e
    cases each _ among

/-- a line with quotes, a backslash, a control character and letters beyond the Latin ones -/
theorem quoted_line_reads_back :
    let transcript :=
      "Zoë:\n<\"\\o/\" \x01 ☃>\n[Play theme.ogg]\n[Black Screen]\nOnce\n[Fade in Defense_Lobby]"
    ∃ events, ({} : Converter).convert transcript = .ok events ∧ events.length = 5 ∧
      Script.parse (renderEvents events) = .ok (.ofEvents events) := by
  intro transcript
  have succeeds : ((({} : Converter).convert transcript).toOption.map List.length) = some 5 := by
    decide +kernel
  cases converted : ({} : Converter).convert transcript with
  | error e =>
    rw [converted] at succeeds
    cases succeeds
  | ok events =>
    rw [converted] at succeeds
    exact ⟨events, rfl, Option.some.inj succeeds, (converted_scripts_read_back {} converted).2.1⟩

end VisualNovel
