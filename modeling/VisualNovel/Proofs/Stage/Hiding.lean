import VisualNovel.Proofs.Session.History
import VisualNovel.Proofs.Stage.Talking

/-!
# Characters leave by the name under which they have entered

A script that sends a character away gives a name, and the first actor on stage leaves that shows the
name or talks under it. By then talking may have changed the name of the sprite many times. Yet a name
without the suffix of talking sprites is never more than one suffix away. A name that has the suffix
itself is lost as soon as its idle sprite is put on, and then nobody leaves by it.

* `Shows`                      the names that a character may show which has entered under another;
* `answersTo_iff_of_shows`     which of them answer to the name of the entrance;
* `Remembered`, `Staged.remembered`   every actor on stage shows such a name;
* `Met.staged`                 this holds between the cues of a turn as well;
* `EntersAs`                   an entrance under a name, and its handle;
* `Session.Dismisses`          the first actor that answers to a name has left;
* `leaves_by_name`             what this means for a session that playback comes by.
-/

set_option linter.unusedSectionVars false

namespace VisualNovel

open Session Presentation

/-! ## Names that are shown -/

/-- a character that has entered under `name` may show `shown`: the name without some of its suffixes,
or the talking sprite of a name that has none -/
def Shows (suffix name shown : String) : Prop :=
  Stem suffix shown name ∨ shown = name ++ suffix ∧ ¬ suffix.toList <:+ name.toList

namespace Stem

variable {suffix base name : String}

/-- a name is its stem, or at least one suffix is left out -/
theorem eq_or_longer (h : Stem suffix base name) :
    name = base ∨
      ∃ m, name.toList = base.toList ++ (List.replicate (m + 1) suffix.toList).flatten := by
  obtain ⟨m, h⟩ := h
  cases m with
  | zero =>
    rw [List.replicate_zero, List.flatten_nil, List.append_nil] at h
    exact .inl (String.toList_inj.1 h)
  | succ m => exact .inr ⟨m, h⟩

theorem eq_or_suffix (h : Stem suffix base name) : name = base ∨ suffix.toList <:+ name.toList := by
  refine h.eq_or_longer.imp_right ?_
  rintro ⟨m, h⟩
  rw [List.replicate_succ', List.flatten_concat, ← List.append_assoc] at h
  exact ⟨_, h.symm⟩

theorem eq_or_append (h : Stem suffix base name) : name = base ∨ Stem suffix (base ++ suffix) name := by
  refine h.eq_or_longer.imp_right ?_
  rintro ⟨m, h⟩
  rw [List.replicate_succ, List.flatten_cons, ← List.append_assoc, ← String.toList_append] at h
  exact ⟨m, h⟩

theorem length_le (h : Stem suffix base name) : base.toList.length ≤ name.toList.length := by
  obtain ⟨m, h⟩ := h
  rw [h, List.length_append]
  exact Nat.le_add_right _ _

end Stem

namespace Shows

variable {suffix name shown : String}

theorem refl (suffix name : String) : Shows suffix name name := .inl (.refl suffix name)

theorem idle (h : Shows suffix name shown) : Shows suffix name (baseName suffix shown) := by
  rcases h with stem | ⟨rfl, -⟩
  · exact .inl stem.baseName
  · rw [baseName_append]
    exact .refl suffix name

theorem talking (h : Shows suffix name shown) : Shows suffix name (baseName suffix shown ++ suffix) := by
  rcases baseName_cases suffix shown with already | ⟨own, plain⟩
  · rw [← already]
    exact h
  · rw [own]
    rcases h with stem | ⟨rfl, -⟩
    · rcases stem.eq_or_append with rfl | stem
      · exact .inr ⟨rfl, plain⟩
      · exact .inl stem
    · refine absurd ?_ plain
      rw [String.toList_append]
      exact List.suffix_append _ _

theorem talkTarget (h : Shows suffix name shown) (talks : Bool) :
    Shows suffix name (VisualNovel.talkTarget suffix shown talks) := by
  cases talks with
  | true => exact h.talking
  | false => exact h.idle

/-- the base is the name of the entrance only if this has no suffix, or is shown as it is -/
theorem eq_of_baseName (h : Shows suffix name shown) (base : baseName suffix shown = name)
    (has : suffix.toList <:+ name.toList) : shown = name := by
  rcases h with stem | ⟨-, plain⟩
  · rcases baseName_cases suffix shown with longer | ⟨own, -⟩
    · -- a stem is no longer than the name, so there is no room for a suffix
      rw [base] at longer
      have room := stem.length_le
      rw [longer, String.toList_append, List.length_append] at room
      have blank : suffix.toList = [] := List.length_eq_zero_iff.1 (by omega)
      rw [longer, ← String.toList_inj, String.toList_append, blank, List.append_nil]
    · exact own.symm.trans base
  · exact absurd has plain

end Shows

/-- a character answers to the name under which it has entered, unless this has the suffix and
another name is shown -/
theorem answersTo_iff_of_shows {suffix name : String} {actor : Actor}
    (h : Shows suffix name actor.name) :
    Scene.answersTo suffix name actor = true ↔
      (suffix.toList <:+ name.toList → actor.name = name) := by
  rw [Scene.answersTo, Bool.or_eq_true, beq_iff_eq, beq_iff_eq, talkTarget,
    if_neg Bool.false_ne_true]
  constructor
  · rintro (own | base) has
    · exact own
    · exact h.eq_of_baseName base has
  · intro kept
    by_cases has : suffix.toList <:+ name.toList
    · exact .inl (kept has)
    · rcases h with stem | ⟨talks, -⟩
      · exact .inl (stem.eq_or_suffix.resolve_right has).symm
      · rw [talks, baseName_append]
        exact .inr rfl

/-! ## The names on stage -/

structure Remembered (suffix : String) (names : List String) (a : Scene RecordingStage) : Prop where
  count : a.stage.screen.lastHandle = names.length
  shows : ∀ actor ∈ a.cast, ∃ k name, actor.handle = ⟨k + 1⟩ ∧ names[k]? = some name ∧
    Shows suffix name actor.name

namespace Remembered

variable {game : Game} {suffix : String} {names : List String} {a b : Scene RecordingStage}

theorem step (h : Remembered suffix names a)
    (lastHandle : b.stage.screen.lastHandle = a.stage.screen.lastHandle)
    (cast : b.cast ⊆ a.cast) : Remembered suffix names b :=
  ⟨lastHandle.trans h.count, fun actor m => h.shows actor (cast m)⟩

theorem enter {name locator : String} (h : Remembered suffix names a)
    (seen : a.spritesHidden = false) :
    Remembered suffix (names ++ [name]) (a.enter name locator) := by
  rw [Scene.enter_of_seen seen]
  refine ⟨?_, fun actor m => ?_⟩
  · show a.stage.screen.lastHandle + 1 = _
    rw [h.count, List.length_append, List.length_singleton]
  · rcases List.mem_append.1 m with m | m
    · obtain ⟨k, known, handle, entered, shows⟩ := h.shows actor m
      have lt : k < names.length := (List.getElem?_eq_some_iff.1 entered).1
      exact ⟨k, known, handle, by rw [List.getElem?_append_left lt, entered], shows⟩
    · rw [List.mem_singleton.1 m, h.count]
      exact ⟨names.length, name, rfl, List.getElem?_concat_length, .refl suffix name⟩

theorem talk (h : Remembered game.config.talkSuffix names a) (line : Line) (talking : Bool) :
    Remembered game.config.talkSuffix names (LineReveal.talk game line talking a) := by
  obtain ⟨sprites, calls, same⟩ := switchSprites_eq game line talking a.cast a.stage
  rw [talk_eq]
  refine ⟨?_, fun actor m => ?_⟩
  · rw [same]
    exact h.count
  · obtain ⟨actor₀, m₀, rfl⟩ := List.mem_map.1 m
    obtain ⟨k, name, handle, entered, shows⟩ := h.shows actor₀ m₀
    refine ⟨k, name, by rw [switched_handle, handle], entered, ?_⟩
    cases change : game.switch? line talking actor₀ with
    | none =>
      rw [switched_of_none change]
      exact shows
    | some target =>
      obtain ⟨shown, locator⟩ := target
      obtain ⟨-, -, -, rfl, -⟩ := switch?_eq_some_iff.1 change
      rw [switched_of_some change]
      exact shows.talkTarget talking

end Remembered

theorem Staged.remembered {game : Game} {stage : RecordingStage} {names : List String}
    {r : LineReveal} {a : Scene RecordingStage} (first : stage.screen.lastHandle = 0)
    (h : Staged game stage names r a) : Remembered game.config.talkSuffix names a := by
  induction h with
  | new => exact ⟨first, nofun⟩
  | quiet cast quiet _ ih => exact ih.step quiet.lastHandle (cast ▸ List.Subset.refl _)
  | cleared _ ih => exact ih.step rfl (List.nil_subset _)
  | entered _ seen _ ih => exact ih.enter seen
  | left split _ ih =>
    refine ih.step rfl ?_
    rw [split]
    exact ((List.sublist_cons_self _ _).append_left _).subset
  | begun _ _ _ _ ih | pushed _ _ ih | filled _ ih => exact ih.step rfl (List.Subset.refl _)
  | talked _ ih => exact ih.talk _ true
  | completed _ _ ih => exact ih.talk _ false

/-! ## Between the cues of a turn -/

section
variable {game : Game} {stage : RecordingStage} {deeds : List Deed} {s : Session RecordingStage}

/-- **Every session that playback comes by on a recording stage has been staged in such steps.** -/
theorem Session.Met.staged (h : Met Operation.Gentle game (.ofStage stage) deeds s) :
    s.Staged game stage (entrances game deeds) := by
  let P (deeds : List Deed) (s : Session RecordingStage) : Prop :=
    s.InMode ∧ s.Staged game stage (entrances game deeds)
  have does {deeds : List Deed} {s : Session RecordingStage} (cue : Cue)
      (held : s.isBusy = true → cue.suspends = false) (h : P deeds s) :
      P (deeds ++ [.does cue]) (s.execute game cue).2 := by
    refine ⟨inMode_execute game cue held h.1, ?_⟩
    rw [entrances_append]
    exact h.2.execute cue (Session.Staged.done_of_held h.1 held)
  have takes {deeds : List Deed} {s : Session RecordingStage} (h : P deeds s) :
      P (deeds ++ [.takes s.position]) { s with position := s.position + 1 } := by
    refine ⟨h.1, ?_⟩
    rw [entrances_append, entrances_cons_of_none rfl, entrances, entrances, List.filterMap_nil,
      List.append_nil]
    exact h.2
  have inMode {deeds : List Deed} {turn : Turn RecordingStage}
      (reached : Reaches game (.ofStage stage) deeds turn) : turn.session.InMode :=
    reached.inMode (inStep_new stage) (inMode_new stage)
  have found : P deeds s := (staged_keeps game stage).met
    (fun h => finds_turnHistory does takes (fun _ h => h) ⟨inMode h.1, h.2⟩)
    (fun _ h => ⟨inMode h.1, h.2⟩) ⟨.refl, .new⟩ h
  exact found.2

end

/-! ## Leaving -/

/-- the handle of an entrance under the name -/
def EntersAs (game : Game) (deeds : List Deed) (name : String) (handle : Handle) : Prop :=
  ∃ k, handle = ⟨k + 1⟩ ∧ (entrances game deeds)[k]? = some name

/-- the first actor that answers to the name has left together with its sprite, and nothing else has
changed -/
structure Session.Dismisses (suffix name : String) (actor : Actor) (s s' : Session RecordingStage) :
    Prop where
  answers : Scene.answersTo suffix name actor = true
  cast : ∃ before after, s.scene.cast = before ++ actor :: after ∧ s'.scene.cast = before ++ after ∧
    (∀ other ∈ before, Scene.answersTo suffix name other = false) ∧
    ∀ other ∈ before ++ after, other.handle ≠ actor.handle
  shown : s.stage.screen.sprites.contains actor.handle.id = true
  sprites : ∀ k, s'.stage.screen.sprites.get? k =
    if k = actor.handle.id then none else s.stage.screen.sprites.get? k
  rest : s' = { s with scene := { s.scene with
    cast := s'.scene.cast, stage := removeSprite s.stage actor.handle } }

namespace Scene.Agrees

variable {assets : AssetTable} {a : Scene RecordingStage}

theorem apart (h : a.Agrees assets) {actor : Actor} {before after : List Actor}
    (split : a.cast = before ++ actor :: after) :
    ∀ other ∈ before ++ after, other.handle ≠ actor.handle := by
  have increasing := h.increasing
  rw [split, List.pairwise_append] at increasing
  obtain ⟨-, later, earlier⟩ := increasing
  intro other m same
  rcases List.mem_append.1 m with m | m
  · have lt := earlier other m actor List.mem_cons_self
    rw [same] at lt
    exact Nat.lt_irrefl _ lt
  · have lt := (List.pairwise_cons.1 later).1 other m
    rw [same] at lt
    exact Nat.lt_irrefl _ lt

end Scene.Agrees

section
variable {game : Game} {s : Session RecordingStage} {name : String}

theorem execute_hide_of_none
    (nobody : ∀ actor ∈ s.scene.cast,
      Scene.answersTo game.config.talkSuffix name actor = false) :
    s.execute game (.character (some name) .hide) = (.goOn, s) := by
  have none : s.scene.cast.find? (Scene.answersTo game.config.talkSuffix name) = none :=
    List.find?_eq_none.2 fun actor m => by rw [nobody actor m]; exact Bool.false_ne_true
  simp only [execute, moveCharacter, Scene.leave, none]

theorem execute_hide_of_some (agrees : s.scene.Agrees game.assets)
    (somebody : ∃ actor ∈ s.scene.cast,
      Scene.answersTo game.config.talkSuffix name actor = true) :
    ∃ actor s', s.execute game (.character (some name) .hide) = (.goOn, s') ∧
      Dismisses game.config.talkSuffix name actor s s' := by
  obtain ⟨actor, found⟩ := Option.isSome_iff_exists.1 (List.find?_isSome.2 somebody)
  obtain ⟨answers, before, after, split, others⟩ := List.find?_eq_some_iff_append.1 found
  have others : ∀ other ∈ before, Scene.answersTo game.config.talkSuffix name other = false :=
    fun other m => by simpa using others other m
  have rest : s.scene.cast.eraseP (Scene.answersTo game.config.talkSuffix name) = before ++ after := by
    rw [split, List.eraseP_append_right _ fun other m => by simp [others other m],
      List.eraseP_cons_of_pos answers]
  have left : s.execute game (.character (some name) .hide) = (.goOn, { s with
      scene := { s.scene with
        stage := removeSprite s.stage actor.handle, cast := before ++ after } }) := by
    simp only [execute, moveCharacter, Scene.leave, found, rest]
    rfl
  have m : actor ∈ s.scene.cast := by
    rw [split]
    exact List.mem_append_right _ List.mem_cons_self
  obtain ⟨locator, -, displayed⟩ := agrees.shown actor m
  refine ⟨actor, _, left, answers, ⟨before, after, split, rfl, others, agrees.apart split⟩, ?_,
    fun k => Table.get?_erase _ _ _, rfl⟩
  exact Option.isSome_iff_exists.2 ⟨locator, displayed⟩

end

/-- **Characters leave by the name under which they have entered.** Let a session play on a recording
stage without sprites, and let its host do anything but change sprites or text by itself. At every
moment, also between the cues of a turn, each character on stage has the handle of an entrance. It
answers to the name of this entrance, whatever talking has done to its name since, unless that name ends
with the suffix of talking sprites and the character shows another one. If anybody answers to a name,
then the first one who does leaves by it: its sprite is removed from the stage, and all others keep
their names, handles, sprites and places. If nobody does, nothing changes. -/
theorem leaves_by_name (game : Game) {stage : RecordingStage}
    (empty : stage.screen.sprites = .empty) (first : stage.screen.lastHandle = 0) {deeds : List Deed}
    {s : Session RecordingStage} (h : Met Operation.Gentle game (.ofStage stage) deeds s) :
    (∀ actor ∈ s.scene.cast, ∃ name, EntersAs game deeds name actor.handle) ∧
    (∀ actor ∈ s.scene.cast, ∀ name, EntersAs game deeds name actor.handle →
      (Scene.answersTo game.config.talkSuffix name actor = true ↔
        (game.config.talkSuffix.toList <:+ name.toList → actor.name = name))) ∧
    ∀ name,
      ((∃ actor ∈ s.scene.cast, Scene.answersTo game.config.talkSuffix name actor = true) →
        ∃ actor s', s.execute game (.character (some name) .hide) = (.goOn, s') ∧
          Dismisses game.config.talkSuffix name actor s s') ∧
      ((∀ actor ∈ s.scene.cast, Scene.answersTo game.config.talkSuffix name actor = false) →
        s.execute game (.character (some name) .hide) = (.goOn, s)) := by
  have remembered := h.staged.remembered first
  have agrees := h.staged.agrees empty
  refine ⟨fun actor m => ?_, fun actor m name entered => ?_, fun name => ⟨?_, ?_⟩⟩
  · obtain ⟨k, name, handle, entered, -⟩ := remembered.shows actor m
    exact ⟨name, k, handle, entered⟩
  · obtain ⟨k, known, handle, entered', shows⟩ := remembered.shows actor m
    obtain ⟨j, same, entered⟩ := entered
    rw [handle] at same
    obtain rfl : k = j := Nat.succ.inj (congrArg Handle.id same)
    rw [entered', Option.some.injEq] at entered
    rw [entered] at shows
    exact answersTo_iff_of_shows shows
  · exact execute_hide_of_some agrees
  · exact execute_hide_of_none

/-- a character leaves in the middle of its line -/
theorem leaves_while_talking :
    let enters (name : String) : Event := .single (.character (some name) .add)
    let game : Game :=
      { script := .ofEvents [enters "Bob", enters "Ann",
          .single (.dialogue ⟨"Hi", some "Bob", false, false⟩)]
        assets := .ofList [("Ann", "a.png"), ("Bob", "b.png"), ("Bob_Talk", "t.png")] }
    ∃ deeds, ∃ s : Session RecordingStage, Met Operation.Gentle game (.ofStage {}) deeds s ∧
      s.scene.cast = [⟨"Bob_Talk", ⟨1⟩⟩, ⟨"Ann", ⟨2⟩⟩] ∧
      ∃ actor s', s.execute game (.character (some "Bob") .hide) = (.goOn, s') ∧
        Dismisses game.config.talkSuffix "Bob" actor s s' ∧ s'.scene.cast = [⟨"Ann", ⟨2⟩⟩] := by
  intro enters game
  have plays : ∃ deeds, ∃ s : Session RecordingStage, Met Operation.Gentle game (.ofStage {}) deeds s ∧
      s.scene.cast = [⟨"Bob_Talk", ⟨1⟩⟩, ⟨"Ann", ⟨2⟩⟩] ∧ entrances game deeds = ["Bob", "Ann"] ∧
      (s.execute game (.character (some "Bob") .hide)).2.scene.cast = [⟨"Ann", ⟨2⟩⟩] := by
    refine ⟨_, _, .rests (.operation (.runUntil 40 10) trivial (.operation .start trivial .refl rfl) rfl),
      ?_⟩
    decide +kernel
  obtain ⟨deeds, s, met, cast, names, left⟩ := plays
  obtain ⟨-, answers, leaves⟩ := leaves_by_name game rfl rfl met
  have m : ⟨"Bob_Talk", ⟨1⟩⟩ ∈ s.scene.cast := by
    rw [cast]
    exact List.mem_cons_self
  have entered : EntersAs game deeds "Bob" ⟨1⟩ := ⟨0, rfl, by rw [names]; rfl⟩
  have plain : ¬ game.config.talkSuffix.toList <:+ "Bob".toList := by decide +kernel
  have bob := (answers _ m "Bob" entered).2 fun has => absurd has plain
  obtain ⟨actor, s', goes, dismisses⟩ := (leaves "Bob").1 ⟨_, m, bob⟩
  rw [goes] at left
  exact ⟨deeds, s, met, cast, actor, s', goes, dismisses, left⟩

/-- a sprite that has entered under the name of its talking one is idle when the line is done, and then
nobody leaves by this name -/
theorem stays_under_another_name :
    let game : Game :=
      { script := .ofEvents [.single (.character (some "Bob_Talk") .show),
          .single (.dialogue ⟨"Hi", some "Bob", false, false⟩)]
        assets := .ofList [("Bob", "b.png"), ("Bob_Talk", "t.png")] }
    ∃ deeds, ∃ s : Session RecordingStage, Met Operation.Gentle game (.ofStage {}) deeds s ∧
      s.scene.cast = [⟨"Bob", ⟨1⟩⟩] ∧ EntersAs game deeds "Bob_Talk" ⟨1⟩ ∧
      s.execute game (.character (some "Bob_Talk") .hide) = (.goOn, s) := by
  intro game
  have plays : ∃ deeds, ∃ s : Session RecordingStage, Met Operation.Gentle game (.ofStage {}) deeds s ∧
      s.scene.cast = [⟨"Bob", ⟨1⟩⟩] ∧ entrances game deeds = ["Bob_Talk"] ∧
      ∀ actor ∈ s.scene.cast, Scene.answersTo game.config.talkSuffix "Bob_Talk" actor = false := by
    refine ⟨_, _, .rests (.operation (.runUntil 100 10) trivial (.operation .start trivial .refl rfl) rfl),
      ?_⟩
    decide +kernel
  obtain ⟨deeds, s, met, cast, names, nobody⟩ := plays
  exact ⟨deeds, s, met, cast, ⟨0, rfl, by rw [names]; rfl⟩, execute_hide_of_none nobody⟩

end VisualNovel
