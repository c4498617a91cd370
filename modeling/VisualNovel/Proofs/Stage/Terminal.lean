import Mathlib.Data.List.Nodup
import VisualNovel.Proofs.Stage.Parallel
import VisualNovel.Stage.Recording
import VisualNovel.Stage.Terminal

/-!
# The terminal shows what a recording stage records

The terminal and a recording stage do not do the same: the one changes a sprite only if it has it and
prints the rest of a line, the other enters any sprite and takes a line as it is. On what a session
does with them they agree all the same, since a session only changes sprites that it has put on stage,
and only fills up lines that it has begun.

* `Terminal.Shows`              the picture, the text and the music are those of the recording stage;
* `Terminal.Follows`            with what is needed to keep it so;
* `Terminal.Follows.replaced`, `Terminal.Follows.filled`   sprites are changed and lines filled up
                                alike, if the sprite is on stage and the line has been begun;
* `Terminal.Follows.matching`   the two stages match.
-/

namespace VisualNovel

open Presentation Audio

/-! ## The view -/

namespace View

theorem setBackground_snd (v : View) (locator : Option String) :
    (v.setBackground locator).2 = { v with background := locator } := by
  unfold View.setBackground
  split
  · rename_i same
    rw [← same]
  · rfl

theorem setDesk_snd (v : View) (locator : Option String) :
    (v.setDesk locator).2 = { v with desk := locator } := by
  unfold View.setDesk
  split
  · rename_i same
    rw [← same]
  · rfl

theorem setLayer_snd (v : View) (layer : Layer) :
    (v.setLayer layer).2 = { v with layer := layer } := by
  unfold View.setLayer
  split
  · rename_i same
    rw [← same]
  · rfl

/-- what is printed of a line after its beginning is the rest of it -/
theorem append_unprinted {v : View} {text : String} (begins : v.text.toList <+: text.toList) :
    v.text ++ v.unprinted text = text := by
  obtain ⟨rest, whole⟩ := begins
  have found := Text.dropStart?_iff.2 whole.symm
  rw [← String.toList_inj, String.toList_append]
  simp only [View.unprinted, found, String.toList_ofList, whole]

end View

namespace Terminal

/-! ## Terminal and recording stage -/

/-- a terminal shows the picture and the text of a recording stage, to the same music -/
structure Shows (p : Terminal) (q : RecordingStage) : Prop where
  background : p.view.background = q.screen.background
  desk : p.view.desk = q.screen.desk
  sprites : p.view.sprites = q.screen.sprites
  spritesVisible : p.view.spritesVisible = q.screen.spritesVisible
  speaker : p.view.speaker = q.screen.speaker
  text : p.view.text = q.screen.text
  music : p.music = q.sound.music

/-- and it goes on doing so: no video starts, the sprites that are used are on stage, the last line is
the one that has been begun, and the sounds that fail are those that cannot be loaded -/
structure Follows (assets : AssetTable) (hs : List Handle) (texts : List String) (p : Terminal)
    (q : RecordingStage) : Prop extends Shows p q where
  fails : q.screen.videoBehavior = .fails
  noVideo : q.screen.video = none
  videoTime : q.screen.videoTime = 0
  videoEnded : q.screen.videoEnded = false
  lastHandle : p.view.lastHandle = q.screen.lastHandle
  present : ∀ handle ∈ hs, (p.view.sprites.get? handle.id).isSome
  earlier : ∀ handle ∈ hs, handle.id ≤ p.view.lastHandle
  distinct : hs.Nodup
  shown : ∀ text, texts.getLast? = some text → p.view.text = text
  loaded : ∀ key locator sound, assets.get? key = some locator →
    p.cache.outcomes.get? key = some sound → sound.isSome = p.audible locator
  failing : ∀ key locator, assets.get? key = some locator →
    (key ∈ q.sound.failing ↔ p.audible locator = false)

theorem loads_of_cached {p : Terminal} {key : String} {sound : Option Unit}
    (h : p.cache.outcomes.get? key = some sound) (locator : String) :
    p.loads key locator = (sound.isSome, p) := by
  simp only [Terminal.loads, SoundCache.fetch, h]
  rfl

theorem loads_of_new {p : Terminal} {key : String} (h : p.cache.outcomes.get? key = none)
    (locator : String) :
    p.loads key locator = (p.audible locator, { p with
      cache := ⟨p.cache.outcomes.insert key (if p.audible locator then some () else none)⟩ }) := by
  simp only [Terminal.loads, SoundCache.fetch, h]
  cases p.audible locator <;> rfl

variable {assets : AssetTable} {hs : List Handle} {texts : List String} {p : Terminal}
  {q : RecordingStage}

/-- once a sprite is removed, a terminal says so, if it has been on stage -/
theorem removeSprite_cases (p : Terminal) (handle : Handle) :
    removeSprite p handle = { p with view := (p.view.removeSprite handle).2 } ∨
      ∃ line, removeSprite p handle =
        { p with view := (p.view.removeSprite handle).2 }.printLine line := by
  simp only [Presentation.removeSprite, View.removeSprite]
  cases p.view.sprites.get? handle.id with
  | none => exact .inl rfl
  | some locator => exact .inr ⟨_, rfl⟩

namespace Follows

theorem note (h : Follows assets hs texts p q) (news : Option String) :
    Follows assets hs texts (p.note news) q := by
  cases news with
  | none => exact h
  | some news => exact { h with }

theorem directed (d : Direction) (h : Follows assets hs texts p q) :
    Follows assets hs texts (d.on p) (d.on q) := by
  cases d with
  | background locator =>
    have shown : Follows assets hs texts
        { p with view := (p.view.setBackground locator).2 } (setBackground q locator) := by
      rw [View.setBackground_snd]
      exact { h with background := rfl }
    exact shown.note _
  | desk locator =>
    have shown : Follows assets hs texts
        { p with view := (p.view.setDesk locator).2 } (setDesk q locator) := by
      rw [View.setDesk_snd]
      exact { h with desk := rfl }
    exact shown.note _
  | layer front =>
    have shown : Follows assets hs texts
        { p with view := (p.view.setLayer front).2 } (setLayer q front) := by
      rw [View.setLayer_snd]
      exact { h with }
    exact shown.note _
  | spritesVisible visible => exact { h with spritesVisible := rfl }
  | speaker name => exact { h with speaker := rfl }
  | stopVideo => exact { h with noVideo := rfl }
  | continueIndicator visible =>
    cases visible with
    | true => exact { h with }
    | false => exact { h with }
  | stopMusic =>
    show Follows assets hs texts
      (if p.music.isSome then { p with music := none }.printLine "  [Music stopped]" else p) _
    cases music : p.music with
    | some key => exact { h with music := rfl }
    | none => exact { h with music := music }
  | _ => exact { h with }

theorem added (locator : String) (h : Follows assets hs texts p q) :
    (addSprite p locator).1 = (addSprite q locator).1 ∧
      Follows assets (hs ++ [(addSprite p locator).1]) texts (addSprite p locator).2
        (addSprite q locator).2 := by
  have handle : (addSprite p locator).1 = ⟨p.view.lastHandle + 1⟩ := rfl
  have sprites : (addSprite p locator).2.view.sprites =
      p.view.sprites.insert (p.view.lastHandle + 1) locator := rfl
  refine ⟨congrArg (fun n => Handle.mk (n + 1)) h.lastHandle, ?_⟩
  rw [handle]
  refine { h with
    sprites := ?_
    lastHandle := congrArg (· + 1) h.lastHandle
    present := fun old m => ?_
    earlier := fun old m => ?_
    distinct := ?_ }
  · rw [sprites, h.sprites, h.lastHandle]
    rfl
  · rw [sprites, Table.get?_insert]
    split
    · rfl
    · rename_i other
      rcases List.mem_append.1 m with m | m
      · exact h.present old m
      · rw [List.mem_singleton.1 m] at other
        exact absurd rfl other
  · show old.id ≤ p.view.lastHandle + 1
    rcases List.mem_append.1 m with m | m
    · exact Nat.le_succ_of_le (h.earlier old m)
    · obtain rfl := List.mem_singleton.1 m
      exact Nat.le_refl _
  · refine List.nodup_append.2 ⟨h.distinct, List.nodup_singleton _, fun old m new m' same => ?_⟩
    have le := h.earlier old m
    rw [same, List.mem_singleton.1 m'] at le
    exact absurd le (Nat.not_succ_le_self _)

theorem replaced {handle : Handle} (locator : String) (m : handle ∈ hs)
    (h : Follows assets hs texts p q) :
    Follows assets hs texts (replaceSprite p handle locator) (replaceSprite q handle locator) := by
  have present := h.present handle m
  have sprites : (replaceSprite p handle locator).view.sprites =
      p.view.sprites.insert handle.id locator := Table.replace_eq_insert present locator
  refine { h with sprites := ?_, present := fun other m => ?_ }
  · rw [sprites, h.sprites]
    rfl
  · rw [sprites, Table.get?_insert]
    split
    · rfl
    · exact h.present other m

theorem removed {hs' : List Handle} {handle : Handle}
    (h : Follows assets (hs ++ handle :: hs') texts p q) :
    Follows assets (hs ++ hs') texts (removeSprite p handle) (removeSprite q handle) := by
  have apart := List.nodup_middle.1 h.distinct
  obtain ⟨out, distinct⟩ := List.nodup_cons.1 apart
  have kept {other : Handle} (m : other ∈ hs ++ hs') : other ∈ hs ++ handle :: hs' :=
    List.perm_middle.mem_iff.2 (List.mem_cons_of_mem _ m)
  have gone : Follows assets (hs ++ hs') texts
      { p with view := (p.view.removeSprite handle).2 } (removeSprite q handle) := by
    refine { h with
      sprites := congrArg (Table.erase · handle.id) h.sprites
      present := fun other m => ?_
      earlier := fun other m => h.earlier other (kept m)
      distinct := distinct }
    show ((p.view.sprites.erase handle.id).get? other.id).isSome
    rw [Table.get?_erase, if_neg]
    · exact h.present other (kept m)
    · intro same
      obtain rfl : other = handle := congrArg Handle.mk same
      exact out m
  rcases removeSprite_cases p handle with e | ⟨line, e⟩
  · rw [e]
    exact gone
  · rw [e]
    exact { gone with }

theorem cleared (h : Follows assets hs texts p q) :
    Follows assets [] texts (clearSprites p) (clearSprites q) := by
  have gone : Follows assets [] texts
      { p with view := p.view.clearSprites.2 } (clearSprites q) :=
    { h with sprites := rfl, present := nofun, earlier := nofun, distinct := List.nodup_nil }
  show Follows assets [] texts
    (if p.view.clearSprites.1 then
      { p with view := p.view.clearSprites.2 }.printLine "  [characters cleared]"
    else { p with view := p.view.clearSprites.2 }) _
  split
  · exact { gone with }
  · exact gone

theorem begun (style : TextStyle) (h : Follows assets hs texts p q) :
    Follows assets hs (texts ++ [""]) (clearText p style) (clearText q style) := by
  refine { h with text := rfl, shown := fun text last => ?_ }
  rw [List.getLast?_concat] at last
  exact Option.some.inj last

theorem text_eq {shown : String} (h : Follows assets hs (texts ++ [shown]) p q) :
    p.view.text = shown :=
  h.shown shown List.getLast?_concat

theorem pushed {shown : String} (c : Char) (h : Follows assets hs (texts ++ [shown]) p q) :
    Follows assets hs (texts ++ [shown.push c]) (pushChar p c) (pushChar q c) := by
  have longer : (pushChar p c).view.text = p.view.text.push c := String.append_singleton
  refine { h with text := ?_, shown := fun text last => ?_ }
  · rw [longer, h.text]
    rfl
  · rw [List.getLast?_concat] at last
    rw [longer, h.text_eq]
    exact Option.some.inj last

theorem filled {shown text : String} (begins : shown.toList <+: text.toList)
    (h : Follows assets hs (texts ++ [shown]) p q) :
    Follows assets hs (texts ++ [text]) (setText p text) (setText q text) := by
  rw [← h.text_eq] at begins
  have whole : (setText p text).view.text = text := View.append_unprinted begins
  refine { h with text := whole, shown := fun other last => ?_ }
  rw [List.getLast?_concat] at last
  rw [whole]
  exact Option.some.inj last

theorem videoPlayed (locator : String) (h : Follows assets hs texts p q) :
    (playVideo p locator).1.isOk = (playVideo q locator).1.isOk ∧
      Follows assets hs texts (playVideo p locator).2 (playVideo q locator).2 := by
  have refused : playVideo q locator =
      (.error (.startFailed locator Screen.failure),
        { q with screen := { { q.screen with videoTime := 0, videoEnded := false }.log
            (.playVideo locator) with video := none } }) := by
    have fails := h.fails
    simp [playVideo, Screen.log, fails]
  rw [refused]
  exact ⟨rfl, { h with noVideo := rfl, videoTime := rfl, videoEnded := rfl }⟩

theorem loads {key locator : String} (found : assets.get? key = some locator)
    (h : Follows assets hs texts p q) :
    (p.loads key locator).1 = p.audible locator ∧
      Follows assets hs texts (p.loads key locator).2 q := by
  cases cached : p.cache.outcomes.get? key with
  | some sound =>
    rw [loads_of_cached cached]
    exact ⟨h.loaded key locator sound found cached, h⟩
  | none =>
    rw [loads_of_new cached]
    refine ⟨rfl, { h with loaded := fun other locator' sound found' known => ?_ }⟩
    rw [Table.get?_insert] at known
    split at known
    · rename_i same
      subst same
      obtain rfl : locator' = locator := Option.some.inj (found'.symm.trans found)
      cases Option.some.inj known
      cases p.audible locator' <;> rfl
    · exact h.loaded other locator' sound found' known

theorem heard_iff {key locator : String} (found : assets.get? key = some locator)
    (h : Follows assets hs texts p q) :
    q.sound.failing.contains key = !p.audible locator := by
  rw [Bool.eq_iff_iff, List.contains_iff_mem, h.failing key locator found, Bool.not_eq_true']

theorem soundPlayed {key locator : String} (volume : Float32)
    (found : assets.get? key = some locator) (h : Follows assets hs texts p q) :
    Follows assets hs texts (playSound p key locator volume).2 (playSound q key locator volume).2 := by
  obtain ⟨-, loaded⟩ := h.loads found
  have played : playSound p key locator volume = p.loads key locator := rfl
  rw [played]
  generalize (p.loads key locator).2 = p' at loaded ⊢
  show Follows assets hs texts p' { q with sound := (playSound q.sound key locator volume).2 }
  simp only [Audio.playSound]
  split
  · exact { loaded with }
  · exact { loaded with }

theorem musicPlayed {key locator : String} (volume : Float32)
    (found : assets.get? key = some locator) (h : Follows assets hs texts p q) :
    (playMusic p key locator volume).1 = (playMusic q key locator volume).1 ∧
      Follows assets hs texts (playMusic p key locator volume).2
        (playMusic q key locator volume).2 := by
  have heard := h.heard_iff found
  obtain ⟨audible, loaded⟩ := h.loads found
  simp only [Audio.playMusic, heard, audible]
  cases p.audible locator with
  | true => exact ⟨rfl, { loaded with music := rfl }⟩
  | false => exact ⟨rfl, loaded⟩

theorem new (audible : String → Bool) {failing : List String}
    (unheard : ∀ key locator, assets.get? key = some locator →
      (key ∈ failing ↔ audible locator = false)) :
    Follows assets [] [] { audible }
      { screen := { videoBehavior := .fails }, sound := { failing } } where
  background := rfl
  desk := rfl
  sprites := rfl
  spritesVisible := rfl
  speaker := rfl
  text := rfl
  music := rfl
  fails := rfl
  noVideo := rfl
  videoTime := rfl
  videoEnded := rfl
  lastHandle := rfl
  present := nofun
  earlier := nofun
  distinct := List.nodup_nil
  shown := nofun
  loaded := nofun
  failing := unheard

theorem matching (assets : AssetTable) : Matching assets (Follows assets) where
  directed := directed
  switchedOn h := by
    split <;> split <;> exact { h with }
  added := added
  replaced := replaced
  removed := removed
  cleared := cleared
  begun := begun
  pushed := pushed
  filled := filled
  videoPlayed := videoPlayed
  videoSeen {_ _ p q} h := by
    have paused : videoPaused q = true := by
      show (q.screen.video.isNone || q.screen.videoBehavior = .stalls) = true
      rw [h.noVideo]
      rfl
    exact ⟨h.videoTime.symm, paused.symm, h.videoEnded.symm⟩
  soundPlayed := soundPlayed
  musicPlayed := musicPlayed

end Follows

end Terminal

end VisualNovel
