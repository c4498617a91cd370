import Mathlib.Data.List.Basic
import VisualNovel.Reveal.Line

/-!
# Stages that match

A scene is played on a stage without looking at it: of all that the stage answers, only the handles of
new sprites, whether music and videos have started, and the clock of the video count. So two stages
that answer alike take one scene through the same characters. A relation of stages is a matching if
every single call keeps it. It may depend on the sprites that the scene holds handles of, and on what
has been shown of the lines so far.

* `Direction`          what a scene tells a stage without waiting for an answer;
* `Matching`           a relation of stages that every call keeps;
* `Scene.Alike`        one scene on two matching stages;
* `Scene.Alike.enter`, `Scene.Alike.leave`, `Scene.Alike.animate`   characters come, go and talk alike;
* `Scene.Alike.tick`, `Scene.Alike.skip`   lines are revealed alike.
-/

set_option linter.unusedSectionVars false

namespace VisualNovel

open Presentation Audio

/-! ## Calls -/

inductive Direction
  | preload (locators : List String)
  | background (locator : Option String)
  | desk (locator : Option String)
  | layer (layer : Layer)
  | spritesVisible (visible : Bool)
  | textbox (visible : Bool)
  | speaker (name : Option String)
  | continueIndicator (visible : Bool)
  | card (visible : Bool)
  | cardNewLine
  | cardChar (c : Char)
  | stopVideo
  | choices (labels : List String)
  | hideChoices
  | stopMusic
  | suspendAudio
  | resumeAudio

def Direction.on {σ : Type} [Presentation σ] [Audio σ] (d : Direction) (stage : σ) : σ :=
  match d with
  | preload locators => Presentation.preload stage locators
  | background locator => setBackground stage locator
  | desk locator => setDesk stage locator
  | .layer front => setLayer stage front
  | spritesVisible visible => setSpritesVisible stage visible
  | textbox visible => showTextbox stage visible
  | speaker name => setSpeaker stage name
  | continueIndicator visible => showContinue stage visible
  | card visible => showCard stage visible
  | cardNewLine => Presentation.cardNewLine stage
  | cardChar c => cardPushChar stage c
  | stopVideo => Presentation.stopVideo stage
  | choices labels => showChoices stage labels
  | hideChoices => Presentation.hideChoices stage
  | stopMusic => Audio.stopMusic stage
  | suspendAudio => Audio.suspendAudio stage
  | resumeAudio => Audio.resumeAudio stage

variable {σ τ : Type} [Presentation σ] [Audio σ] [Presentation τ] [Audio τ]

/-- a relation of stages that every call keeps. It knows the handles of the sprites that are used, and
what has been shown of each line so far; a line is only ever set to a text that begins with what has
been shown of it -/
structure Matching (assets : AssetTable) (R : List Handle → List String → σ → τ → Prop) : Prop where
  directed {hs : List Handle} {texts : List String} {p : σ} {q : τ} (d : Direction)
    (h : R hs texts p q) : R hs texts (d.on p) (d.on q)
  /-- whether the sound is off may differ -/
  switchedOn {hs : List Handle} {texts : List String} {p : σ} {q : τ} (h : R hs texts p q) :
    R hs texts (if audioSuspended p then resumeAudio p else p)
      (if audioSuspended q then resumeAudio q else q)
  added {hs : List Handle} {texts : List String} {p : σ} {q : τ} (locator : String)
    (h : R hs texts p q) :
    (addSprite p locator).1 = (addSprite q locator).1 ∧
      R (hs ++ [(addSprite p locator).1]) texts (addSprite p locator).2 (addSprite q locator).2
  replaced {hs : List Handle} {texts : List String} {p : σ} {q : τ} {handle : Handle}
    (locator : String) (m : handle ∈ hs) (h : R hs texts p q) :
    R hs texts (replaceSprite p handle locator) (replaceSprite q handle locator)
  removed {hs hs' : List Handle} {texts : List String} {p : σ} {q : τ} {handle : Handle}
    (h : R (hs ++ handle :: hs') texts p q) :
    R (hs ++ hs') texts (removeSprite p handle) (removeSprite q handle)
  cleared {hs : List Handle} {texts : List String} {p : σ} {q : τ} (h : R hs texts p q) :
    R [] texts (clearSprites p) (clearSprites q)
  begun {hs : List Handle} {texts : List String} {p : σ} {q : τ} (style : TextStyle)
    (h : R hs texts p q) : R hs (texts ++ [""]) (clearText p style) (clearText q style)
  pushed {hs : List Handle} {texts : List String} {shown : String} {p : σ} {q : τ} (c : Char)
    (h : R hs (texts ++ [shown]) p q) :
    R hs (texts ++ [shown.push c]) (pushChar p c) (pushChar q c)
  filled {hs : List Handle} {texts : List String} {shown text : String} {p : σ} {q : τ}
    (begins : shown.toList <+: text.toList) (h : R hs (texts ++ [shown]) p q) :
    R hs (texts ++ [text]) (setText p text) (setText q text)
  videoPlayed {hs : List Handle} {texts : List String} {p : σ} {q : τ} (locator : String)
    (h : R hs texts p q) :
    (playVideo p locator).1.isOk = (playVideo q locator).1.isOk ∧
      R hs texts (playVideo p locator).2 (playVideo q locator).2
  videoSeen {hs : List Handle} {texts : List String} {p : σ} {q : τ} (h : R hs texts p q) :
    videoTime p = videoTime q ∧ videoPaused p = videoPaused q ∧ videoEnded p = videoEnded q
  soundPlayed {hs : List Handle} {texts : List String} {p : σ} {q : τ} {key locator : String}
    (volume : Float32) (found : assets.get? key = some locator) (h : R hs texts p q) :
    R hs texts (playSound p key locator volume).2 (playSound q key locator volume).2
  musicPlayed {hs : List Handle} {texts : List String} {p : σ} {q : τ} {key locator : String}
    (volume : Float32) (found : assets.get? key = some locator) (h : R hs texts p q) :
    (playMusic p key locator volume).1 = (playMusic q key locator volume).1 ∧
      R hs texts (playMusic p key locator volume).2 (playMusic q key locator volume).2

/-! ## Scenes -/

namespace Scene

def onto (s : Scene σ) (stage : τ) : Scene τ := ⟨stage, s.cast, s.spritesHidden⟩

/-- the cast around the first actor that `p` holds of, and without it -/
theorem split_of_find? {cast : List Actor} {p : Actor → Bool} {actor : Actor}
    (found : cast.find? p = some actor) :
    ∃ before after, cast = before ++ actor :: after ∧ cast.eraseP p = before ++ after := by
  obtain ⟨holds, before, after, rfl, others⟩ := List.find?_eq_some_iff_append.1 found
  refine ⟨before, after, rfl, ?_⟩
  rw [List.eraseP_append_right _ fun x m => by simpa using others x m, List.eraseP_cons_of_pos holds]

def handles (s : Scene σ) : List Handle := s.cast.map Actor.handle

def Alike (R : List Handle → List String → σ → τ → Prop) (texts : List String) (a : Scene σ)
    (b : Scene τ) : Prop :=
  ∃ stage, b = a.onto stage ∧ R a.handles texts a.stage stage

namespace Alike

variable {game : Game} {R : List Handle → List String → σ → τ → Prop} {texts : List String}
  {a : Scene σ} {b : Scene τ}

theorem direct (matching : Matching game.assets R) (h : Alike R texts a b) (d : Direction) :
    Alike R texts (a.onStage d.on) (b.onStage d.on) := by
  obtain ⟨stage, rfl, h⟩ := h
  exact ⟨d.on stage, rfl, matching.directed d h⟩

theorem clear (matching : Matching game.assets R) (h : Alike R texts a b) :
    Alike R texts a.clear b.clear := by
  obtain ⟨stage, rfl, h⟩ := h
  exact ⟨clearSprites stage, rfl, matching.cleared h⟩

theorem unhide (matching : Matching game.assets R) (h : Alike R texts a b) :
    Alike R texts a.unhide b.unhide := by
  obtain ⟨stage, rfl, h⟩ := h
  unfold Scene.unhide
  cases hidden : a.spritesHidden with
  | true =>
    simp only [onto, hidden, if_true]
    exact ⟨_, rfl, matching.directed (.spritesVisible true) h⟩
  | false =>
    simp only [onto, hidden, Bool.false_eq_true, if_false]
    exact ⟨stage, by rw [onto, hidden], h⟩

theorem enter (matching : Matching game.assets R) (h : Alike R texts a b) (name locator : String) :
    Alike R texts (a.enter name locator) (b.enter name locator) := by
  obtain ⟨stage, e, h⟩ := h.unhide matching
  obtain ⟨handle, added⟩ := matching.added locator h
  refine ⟨(addSprite stage locator).2, ?_, ?_⟩
  · simp only [Scene.enter, e, onto, handle]
  · simpa [Scene.enter, handles] using added

theorem leave (matching : Matching game.assets R) (h : Alike R texts a b) (suffix name : String) :
    Alike R texts (a.leave suffix name) (b.leave suffix name) := by
  obtain ⟨stage, rfl, h⟩ := h
  unfold Scene.leave onto
  dsimp only
  cases found : a.cast.find? (answersTo suffix name) with
  | none => exact ⟨stage, rfl, h⟩
  | some actor =>
    refine ⟨removeSprite stage actor.handle, rfl, ?_⟩
    obtain ⟨before, after, split, rest⟩ := split_of_find? found
    rw [handles, split, List.map_append, List.map_cons] at h
    rw [handles, rest, List.map_append]
    exact matching.removed h

theorem animateCast (matching : Matching game.assets R) (suffix : String) (talking : Bool)
    (p : String → Bool) (cast : List Actor) {hs : List Handle} {x : σ} {y : τ} (h : R hs texts x y)
    (subset : cast.map Actor.handle ⊆ hs) :
    (Scene.animateCast game.assets suffix talking p cast x).1 =
        (Scene.animateCast game.assets suffix talking p cast y).1 ∧
      (Scene.animateCast game.assets suffix talking p cast x).2.1 =
        (Scene.animateCast game.assets suffix talking p cast y).2.1 ∧
      R hs texts (Scene.animateCast game.assets suffix talking p cast x).2.2
        (Scene.animateCast game.assets suffix talking p cast y).2.2 := by
  induction cast generalizing x y with
  | nil => exact ⟨rfl, rfl, h⟩
  | cons actor cast ih =>
    rw [List.map_cons, List.cons_subset] at subset
    simp only [Scene.animateCast]
    split
    · rename_i locator _
      obtain ⟨count, same, h⟩ := ih (matching.replaced locator subset.1 h) subset.2
      rw [count, same]
      exact ⟨rfl, rfl, h⟩
    · obtain ⟨count, same, h⟩ := ih h subset.2
      rw [count, same]
      exact ⟨rfl, rfl, h⟩

theorem animate (matching : Matching game.assets R) (h : Alike R texts a b) (speaker : String)
    (talking : Bool) :
    Alike R texts (a.animate game.assets game.config speaker talking).2
      (b.animate game.assets game.config speaker talking).2 := by
  obtain ⟨stage, rfl, h⟩ := h
  obtain ⟨-, cast, h⟩ := animateCast matching game.config.talkSuffix talking
    (belongs (keywords speaker game.config.aliases)) a.cast h (List.Subset.refl _)
  refine ⟨(Scene.animateCast game.assets game.config.talkSuffix talking
    (belongs (keywords speaker game.config.aliases)) a.cast stage).2.2, ?_, ?_⟩
  · simp only [animate_eq, onto, cast]
  · rw [handles, animate_eq, handles_animateCast]
    exact h

end Alike

end Scene

/-! ## Lines -/

def shownOf (lines : List Line) : LineReveal → List String
  | .revealing line n => lines.dropLast.map Line.text ++ [String.ofList (line.text.toList.take n)]
  | _ => lines.map Line.text

/-- once the last line is done, all of every line has been shown -/
theorem map_text_eq {lines : List Line} {line : Line} (last : lines.getLast? = some line) :
    lines.dropLast.map Line.text ++ [line.text] = lines.map Line.text := by
  rw [← List.map_singleton (f := Line.text), ← List.map_append,
    List.dropLast_append_getLast? line last]

theorem push_ofList_take {text : List Char} {n : Nat} {c : Char} (next : text[n]? = some c) :
    (String.ofList (text.take n)).push c = String.ofList (text.take (n + 1)) := by
  rw [← String.toList_inj, String.toList_push, String.toList_ofList, String.toList_ofList,
    List.take_add_one, next, Option.toList_some]

namespace Scene.Alike

variable {game : Game} {R : List Handle → List String → σ → τ → Prop} {texts : List String}
  {a : Scene σ} {b : Scene τ}

theorem begin (matching : Matching game.assets R) (h : Alike R texts a b) (line : Line) :
    Alike R (texts ++ [""]) (LineReveal.begin line a).2 (LineReveal.begin line b).2 := by
  obtain ⟨stage, rfl, h⟩ := h
  have quiet := matching.directed (.continueIndicator false) h
  have begun := matching.begun (if line.thought then .thought else .spoken) quiet
  exact ⟨_, rfl, matching.directed (.speaker line.speaker) begun⟩

theorem playBlip (matching : Matching game.assets R) (h : Alike R texts a b)
    (speaker : Option String) :
    Alike R texts (LineReveal.playBlip game speaker a) (LineReveal.playBlip game speaker b) := by
  obtain ⟨stage, rfl, h⟩ := h
  unfold LineReveal.playBlip
  dsimp only
  split
  · rename_i locator found
    exact ⟨_, rfl, matching.soundPlayed _ found h⟩
  · exact ⟨stage, rfl, h⟩

theorem talk (matching : Matching game.assets R) (h : Alike R texts a b) (line : Line)
    (talking : Bool) :
    Alike R texts (LineReveal.talk game line talking a) (LineReveal.talk game line talking b) := by
  unfold LineReveal.talk
  split
  · exact h.animate matching _ talking
  · exact h

theorem voice (matching : Matching game.assets R) (h : Alike R texts a b) (line : Line) (c : Char) :
    Alike R texts (LineReveal.voice game line c a) (LineReveal.voice game line c b) := by
  unfold LineReveal.voice
  split
  · exact (h.playBlip matching line.speaker).talk matching line true
  · exact h

theorem finish (matching : Matching game.assets R) (h : Alike R texts a b) (line : Line) :
    (LineReveal.finish game line a).1 = (LineReveal.finish game line b).1 ∧
      Alike R texts (LineReveal.finish game line a).2 (LineReveal.finish game line b).2 := by
  have talked := h.talk matching line false
  unfold LineReveal.finish
  dsimp only
  split
  · exact ⟨rfl, talked⟩
  · exact ⟨rfl, talked.direct matching (.continueIndicator true)⟩

variable {lines : List Line} {reveal : LineReveal}

theorem complete (matching : Matching game.assets R) {line : Line} (last : lines.getLast? = some line)
    (h : Alike R (lines.dropLast.map Line.text ++ [line.text]) a b) :
    ∃ completion a' b', LineReveal.complete game line a = (some completion, .done line, a') ∧
      LineReveal.complete game line b = (some completion, .done line, b') ∧
      Alike R (shownOf lines (.done line)) a' b' := by
  rw [map_text_eq last] at h
  obtain ⟨completion, h⟩ := h.finish matching line
  refine ⟨(LineReveal.finish game line a).1, _, _, rfl, ?_, h⟩
  rw [completion]
  rfl

theorem tick (matching : Matching game.assets R)
    (last : ∀ line n, reveal = .revealing line n → lines.getLast? = some line)
    (h : Alike R (shownOf lines reveal) a b) :
    ∃ completed shown a' b', LineReveal.tick game reveal a = (completed, shown, a') ∧
      LineReveal.tick game reveal b = (completed, shown, b') ∧ Alike R (shownOf lines shown) a' b' ∧
      ∀ line n, shown = .revealing line n → lines.getLast? = some line := by
  unfold LineReveal.tick
  split
  · rename_i line n
    cases next : line.text.toList[n]? with
    | none =>
      have whole : line.text.toList.take n = line.text.toList :=
        List.take_of_length_le (List.getElem?_eq_none_iff.1 next)
      rw [shownOf, whole, String.ofList_toList] at h
      obtain ⟨completion, a', b', here, there, h⟩ := h.complete matching (last line n rfl)
      refine ⟨_, _, a', b', here, there, h, ?_⟩
      rintro _ _ ⟨⟩
    | some c =>
      obtain ⟨stage, rfl, h⟩ := h
      have pushed := matching.pushed c h
      rw [push_ofList_take next] at pushed
      have shown : Alike R (shownOf lines (.revealing line (n + 1))) (a.onStage (pushChar · c))
          ((a.onto stage).onStage (pushChar · c)) := ⟨pushChar stage c, rfl, pushed⟩
      refine ⟨_, _, _, _, rfl, rfl, shown.voice matching line c, fun line' n' e => ?_⟩
      cases e
      exact last line n rfl
  · exact ⟨_, _, _, _, rfl, rfl, h, last⟩

theorem skip (matching : Matching game.assets R)
    (last : ∀ line n, reveal = .revealing line n → lines.getLast? = some line)
    (h : Alike R (shownOf lines reveal) a b) :
    ∃ completed shown a' b', LineReveal.skip game reveal a = (completed, shown, a') ∧
      LineReveal.skip game reveal b = (completed, shown, b') ∧ Alike R (shownOf lines shown) a' b' ∧
      ∀ line n, shown = .revealing line n → lines.getLast? = some line := by
  unfold LineReveal.skip
  split
  · rename_i line n
    obtain ⟨stage, rfl, h⟩ := h
    have begins : (String.ofList (line.text.toList.take n)).toList <+: line.text.toList := by
      rw [String.toList_ofList]
      exact List.take_prefix n _
    have filled := matching.filled begins h
    have shown : Alike R (lines.dropLast.map Line.text ++ [line.text])
        (a.onStage (setText · line.text)) ((a.onto stage).onStage (setText · line.text)) :=
      ⟨setText stage line.text, rfl, filled⟩
    obtain ⟨completion, a', b', here, there, h⟩ := shown.complete matching (last line n rfl)
    exact ⟨_, _, a', b', here, there, h, nofun⟩
  · exact ⟨_, _, _, _, rfl, rfl, h, last⟩

end Scene.Alike

end VisualNovel
