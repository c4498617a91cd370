import VisualNovel.Proofs.Session.Idle
import VisualNovel.Proofs.Session.Patience
import VisualNovel.Proofs.Stage.Talking

/-!
# Skipping a line comes to the same as watching it

A line is watched character by character, and its speaker may start talking at any of them; or the
player skips it, and all of its text is shown at once. By the time at which the last character would
have been shown, both have led to the same scene and the same session. Only the logs tell them apart.

* `RecordingStage.unlogged`, `Session.unlogged`   what is left without the logs;
* `LineReveal.closed`     the scene once a line is done that waits for the player;
* `closed_voice`          a character that is shown before the line is skipped makes no difference to it;
* `Session.skipped`       the session once a line is skipped;
* `Game.doneAt`           when the timers alone will have shown the rest of a line;
* `Session.Played`        playback on a recording stage has led to the session;
* `Watching`              a line is being revealed, and the timer of its next character is pending;
* `Watching.passes`, `Watching.ticks`, `Watching.ends`   what a timer does meanwhile;
* `Watching.watched`      what a session comes to that watches the line;
* `skipping_is_watching`  what this means for a session that operations bring about.
-/

set_option linter.unusedSectionVars false

namespace VisualNovel

open Session Presentation Audio

/-! ## Without the logs -/

namespace RecordingStage

/-- the stage without its logs -/
def unlogged (p : RecordingStage) : RecordingStage where
  screen := { p.screen with calls := #[] }
  sound := { p.sound with calls := #[] }

def backdrop (p : RecordingStage) : RecordingStage :=
  p.unlogged.onScreen fun screen => { screen with sprites := .empty, text := "" }

theorem unlogged_eq {p q : RecordingStage} (backdrop : p.backdrop = q.backdrop)
    (sprites : p.screen.sprites = q.screen.sprites) (text : p.screen.text = q.screen.text) :
    p.unlogged = q.unlogged := by
  have whole (p : RecordingStage) : p.unlogged = p.backdrop.onScreen fun screen =>
    { screen with sprites := p.screen.sprites, text := p.screen.text } := rfl
  rw [whole p, whole q, backdrop, sprites, text]

theorem backdrop_showContinue {p q : RecordingStage} (h : p.backdrop = q.backdrop) (visible : Bool) :
    (showContinue p visible).backdrop = (showContinue q visible).backdrop := by
  have lit (p : RecordingStage) : (showContinue p visible).backdrop =
    p.backdrop.onScreen fun screen => { screen with continueVisible := visible } := rfl
  rw [lit p, lit q, h]

theorem backdrop_playSound (p : RecordingStage) (key locator : String) (volume : Float32) :
    (Audio.playSound p key locator volume).2.backdrop = p.backdrop := by
  show RecordingStage.backdrop ⟨p.screen, (Audio.playSound p.sound key locator volume).2⟩ = _
  simp only [Audio.playSound]
  split
  · rfl
  · rfl

theorem backdrop_switchSprites (game : Game) (line : Line) (talking : Bool) (cast : List Actor)
    (p : RecordingStage) : (game.switchSprites line talking cast p).backdrop = p.backdrop := by
  obtain ⟨_, _, e⟩ := switchSprites_eq game line talking cast p
  rw [e]
  rfl

/-- whether the video is paused is seen without the logs, the sprites and the text -/
theorem videoPaused_backdrop (p : RecordingStage) : videoPaused p.backdrop = videoPaused p := rfl

end RecordingStage

/-- a session without the logs of its stage -/
def Session.unlogged (s : Session RecordingStage) : Session RecordingStage :=
  s.onStage RecordingStage.unlogged

/-! ## Scenes -/

/-- the scene once a line is done that waits for the player -/
def LineReveal.closed {σ : Type} [Presentation σ] (game : Game) (line : Line) (a : Scene σ) : Scene σ :=
  (talk game line false a).onStage (showContinue · true)

section
variable {game : Game} {stage : RecordingStage} {names : List String} {line : Line} {n : Nat}
  {a b : Scene RecordingStage}

theorem backdrop_closed (a : Scene RecordingStage) :
    (LineReveal.closed game line a).stage.backdrop = (showContinue a.stage true).backdrop := by
  refine RecordingStage.backdrop_showContinue ?_ true
  rw [talk_eq]
  exact RecordingStage.backdrop_switchSprites ..

theorem videoPaused_closed (a : Scene RecordingStage) :
    videoPaused (LineReveal.closed game line a).stage = videoPaused a.stage := by
  rw [← RecordingStage.videoPaused_backdrop, backdrop_closed]
  rfl

theorem text_closed (a : Scene RecordingStage) :
    (LineReveal.closed game line a).stage.screen.text = a.stage.screen.text := by
  obtain ⟨_, _, e⟩ := switchSprites_eq game line false a.cast a.stage
  unfold LineReveal.closed
  rw [talk_eq, e]
  rfl

theorem entries_closed (h : a.Agrees game.assets) :
    (LineReveal.closed game line a).stage.screen.sprites.entries =
      (a.cast.map (game.switched line false)).map fun actor =>
        (actor.handle.id, (game.assets.get? actor.name).getD "") := by
  have talked := (h.talk line false).entries_eq
  rw [talk_eq] at talked
  unfold LineReveal.closed
  rw [talk_eq]
  exact talked

theorem closed_unlogged (a : Scene RecordingStage) :
    (LineReveal.closed game line a).onStage RecordingStage.unlogged =
      ⟨(LineReveal.closed game line a).stage.unlogged, a.cast.map (game.switched line false),
        a.spritesHidden⟩ := by
  unfold LineReveal.closed
  rw [talk_eq]
  rfl

/-- the scene is the same in the end if its backdrop and its text are, and the names of the cast are
once the speaker has stopped talking -/
theorem closed_eq (ha : a.Agrees game.assets) (hb : b.Agrees game.assets)
    (cast : a.cast.map (game.switched line false) = b.cast.map (game.switched line false))
    (hidden : a.spritesHidden = b.spritesHidden) (backdrop : a.stage.backdrop = b.stage.backdrop)
    (text : a.stage.screen.text = b.stage.screen.text) :
    (LineReveal.closed game line a).onStage RecordingStage.unlogged =
      (LineReveal.closed game line b).onStage RecordingStage.unlogged := by
  rw [closed_unlogged a, closed_unlogged b, cast, hidden, RecordingStage.unlogged_eq]
  · rw [backdrop_closed, backdrop_closed]
    exact RecordingStage.backdrop_showContinue backdrop true
  · refine Table.entries_inj ?_
    rw [entries_closed ha, entries_closed hb, cast]
  · rw [text_closed, text_closed, text]

theorem Staged.text {r : LineReveal} (h : Staged game stage names r a) :
    ∀ line n, r = .revealing line n →
      a.stage.screen.text = String.ofList (line.text.toList.take n) := by
  induction h with
  | new => exact nofun
  | quiet _ quiet _ ih =>
    rw [quiet.text]
    exact ih
  | cleared _ ih | left _ _ ih => exact ih
  | entered _ seen _ ih =>
    rw [Scene.enter_of_seen seen]
    exact ih
  | begun =>
    rintro _ _ ⟨⟩
    rfl
  | @pushed _ line n c a next _ ih =>
    rintro _ _ ⟨⟩
    show a.stage.screen.text.push c = _
    rw [ih line n rfl, push_ofList_take next]
  | filled _ ih =>
    rintro line _ ⟨⟩
    rw [List.take_length, String.ofList_toList]
    rfl
  | @talked _ line _ a _ ih =>
    obtain ⟨_, _, e⟩ := switchSprites_eq game line true a.cast a.stage
    rw [talk_eq, e]
    exact ih
  | completed => exact nofun

/-- whoever starts talking stops again, and then is as if it had not started -/
theorem switched_false_of_true (lowers : game.LowersByLetter) {actor : Actor}
    (found : game.assets.contains actor.name = true) :
    game.switched line false (game.switched line true actor) = game.switched line false actor := by
  cases change : game.switch? line true actor with
  | none => rw [switched_of_none change]
  | some target =>
    obtain ⟨talking, locator⟩ := target
    obtain ⟨speaker, said, speaks, rfl, other, talks⟩ := switch?_eq_some_iff.1 change
    rw [switched_of_some change]
    simp only [talkTarget, if_true] at other talks ⊢
    -- an actor that changes had no suffix before
    have plain : baseName game.config.talkSuffix actor.name = actor.name := by
      rcases baseName_cases game.config.talkSuffix actor.name with e | e
      · exact absurd e.symm other
      · exact e.1
    rw [plain] at other talks ⊢
    have still : game.switch? line false actor = none := by
      cases change : game.switch? line false actor with
      | none => rfl
      | some target =>
        obtain ⟨-, -, -, e, ne, -⟩ := switch?_eq_some_iff.1 change
        rw [talkTarget, if_neg Bool.false_ne_true, plain] at e
        exact absurd e.symm ne
    obtain ⟨base, present⟩ := Option.isSome_iff_exists.1 found
    have back : game.switch? line false
        { actor with name := actor.name ++ game.config.talkSuffix } = some (actor.name, base) := by
      refine switch?_eq_some_iff.2 ⟨speaker, said, ?_, ?_, Ne.symm other, present⟩
      · exact belongs_talking lowers found (contains_of_get? talks) speaks
      · rw [talkTarget, if_neg Bool.false_ne_true, baseName_append]
    rw [switched_of_none still, switched_of_some back]

theorem playBlip_eq (game : Game) (speaker : Option String) (a : Scene RecordingStage) :
    ∃ p, LineReveal.playBlip game speaker a = { a with stage := p } ∧
      p.backdrop = a.stage.backdrop := by
  unfold LineReveal.playBlip
  dsimp only
  split
  · exact ⟨_, rfl, RecordingStage.backdrop_playSound ..⟩
  · exact ⟨_, rfl, rfl⟩

/-- a character that is shown changes neither the backdrop nor who will be on stage in the end -/
theorem voice_eq (lowers : game.LowersByLetter) (agrees : a.Agrees game.assets) (line : Line)
    (c : Char) :
    ∃ p cast, LineReveal.voice game line c (a.onStage (pushChar · c)) =
        { a with stage := p, cast := cast } ∧
      p.backdrop = a.stage.backdrop ∧
      cast.map (game.switched line false) = a.cast.map (game.switched line false) := by
  unfold LineReveal.voice
  split
  · obtain ⟨p, blip, backdrop⟩ := playBlip_eq game line.speaker (a.onStage (pushChar · c))
    rw [blip, talk_eq]
    refine ⟨_, _, rfl, (RecordingStage.backdrop_switchSprites ..).trans backdrop, ?_⟩
    rw [List.map_map]
    refine List.map_congr_left fun actor m => ?_
    obtain ⟨locator, found, -⟩ := agrees.shown actor m
    exact switched_false_of_true lowers (contains_of_get? found)
  · exact ⟨_, _, rfl, rfl, rfl⟩

theorem closed_voice (lowers : game.LowersByLetter) (empty : stage.screen.sprites = .empty)
    {c : Char} (next : line.text.toList[n]? = some c)
    (h : Staged game stage names (.revealing line n) a) :
    (LineReveal.closed game line ((LineReveal.voice game line c (a.onStage (pushChar · c))).onStage
        (setText · line.text))).onStage RecordingStage.unlogged =
      (LineReveal.closed game line (a.onStage (setText · line.text))).onStage
        RecordingStage.unlogged := by
  have agrees := h.agrees empty
  have voiced := (h.voice next).agrees empty
  obtain ⟨p, cast, e, backdrop, same⟩ := voice_eq lowers agrees line c
  rw [e] at voiced ⊢
  exact closed_eq (voiced.of_eq rfl rfl rfl) (agrees.of_eq rfl rfl rfl) same rfl backdrop rfl

/-- after the last character there is nothing left to skip -/
theorem closed_last (empty : stage.screen.sprites = .empty) (last : line.text.toList[n]? = none)
    (h : Staged game stage names (.revealing line n) a) :
    (LineReveal.closed game line a).onStage RecordingStage.unlogged =
      (LineReveal.closed game line (a.onStage (setText · line.text))).onStage
        RecordingStage.unlogged := by
  have agrees := h.agrees empty
  refine closed_eq agrees (agrees.of_eq rfl rfl rfl) rfl rfl rfl ?_
  rw [h.text line n rfl, List.take_of_length_le (List.getElem?_eq_none_iff.1 last),
    String.ofList_toList]
  rfl

end

/-! ## Sessions -/

/-- the session once a line is skipped that waits for the player -/
def Session.skipped {σ : Type} [Presentation σ] (game : Game) (line : Line) (s : Session σ) :
    Session σ :=
  { { s with
      scene := LineReveal.closed game line (s.scene.onStage (setText · line.text))
      reveal := .done line
      typing := false }.resume with
    waitingForInput := true }

/-- two sessions that wait for no timer come to the same, up to their logs, if their queues are the
same but for timers of some epoch that are due by then -/
theorem idleUntil_eq (epoch : Nat) {limit : Nat} {x y : Session RecordingStage}
    (same : y.unlogged = { x.unlogged with timers := y.timers })
    (pending : ∀ p : Timer → Bool, (∀ u, u.due ≤ limit → u.guard = .epoch epoch → p u = false) →
      y.timers.pending.filter p = x.timers.pending.filter p) :
    (y.idleUntil limit).unlogged = (x.idleUntil limit).unlogged := by
  have late := pending (limit < ·.due) fun u le _ => by simpa using le
  have checks := pending (x.unlogged.checksBy limit) fun u _ own => by simp [checksBy, own]
  show y.unlogged.idleUntil limit = x.unlogged.idleUntil limit
  rw [same]
  show { x.unlogged with
      timers := ⟨limit, y.timers.pending.filter (limit < ·.due)⟩
      videoFailedAt := x.unlogged.failedBy (y.timers.pending.filter (x.unlogged.checksBy limit)) } = _
  rw [late, checks]
  rfl

/-- when so many characters will have been shown and the line be done, if the timer of the next one is
due at `due` -/
def tickAfter (interval : Nat) : Nat → Nat → Nat
  | 0, due => due
  | n + 1, due => tickAfter interval n (later due interval)

theorem le_tickAfter {due : Nat} (le : due ≤ endOfTime) (interval n : Nat) :
    due ≤ tickAfter interval n due ∧ tickAfter interval n due ≤ endOfTime := by
  induction n generalizing due with
  | zero => exact ⟨Nat.le_refl _, le⟩
  | succ n ih =>
    obtain ⟨further, within⟩ := ih (later_le_endOfTime due interval)
    exact ⟨Nat.le_trans (le_later le interval) further, within⟩

/-- when the timers alone will have shown the rest of the line, if so many of its characters are shown
and the timer of the next one is due at `due` -/
def Game.doneAt (game : Game) (line : Line) (n due : Nat) : Nat :=
  tickAfter game.config.timing.typing (line.text.toList.length - n) due

theorem doneAt_of_last (game : Game) {line : Line} {n : Nat} (last : line.text.toList[n]? = none)
    (due : Nat) : game.doneAt line n due = due := by
  rw [Game.doneAt, Nat.sub_eq_zero_of_le (List.getElem?_eq_none_iff.1 last), tickAfter]

theorem doneAt_of_next (game : Game) {line : Line} {n : Nat} {c : Char}
    (next : line.text.toList[n]? = some c) (due : Nat) :
    game.doneAt line n due = game.doneAt line (n + 1) (later due game.config.timing.typing) := by
  obtain ⟨lt, -⟩ := List.getElem?_eq_some_iff.1 next
  have one_more : line.text.toList.length - n = line.text.toList.length - (n + 1) + 1 := by omega
  rw [Game.doneAt, Game.doneAt, one_more, tickAfter]

def Session.Played (game : Game) (stage : RecordingStage) (s : Session RecordingStage) : Prop :=
  ∃ deeds, Reaches game (.ofStage stage) deeds (.rests s) ∧
    s.Staged game stage (entrances game deeds)

namespace Session.Played

variable {game : Game} {stage : RecordingStage} {limit : Nat} {t : Timer} {timers : Timers}
  {s s₁ : Session RecordingStage}

theorem inStep (h : s.Played game stage) : s.InStep := by
  obtain ⟨_, reached, -⟩ := h
  exact reached.inStep (inStep_new stage)

theorem inTime (h : s.Played game stage) : s.timers.InTime := by
  obtain ⟨_, reached, -⟩ := h
  exact (reached.onTime (onTime_new stage)).pending

theorem inMode (h : s.Played game stage) : s.InMode := by
  obtain ⟨_, reached, -⟩ := h
  exact reached.inMode (inStep_new stage) (inMode_new stage)

theorem unhurried (h : s.Played game stage) : s.Unhurried := by
  obtain ⟨_, reached, -⟩ := h
  exact reached.unhurried (inStep_new stage) (unhurried_new stage)

theorem act (h : s.Played game stage) (due : s.timers.popDue? limit = some (t, timers))
    (acted : { s with timers := timers }.act game t = some s₁) : s₁.Played game stage := by
  obtain ⟨deeds, known⟩ := h
  have keeps := (staged_keeps game stage).toSteps
  unfold Session.act at acted
  split at acted
  · rename_i live
    exact ⟨_, keeps.settle (keeps.fired due live known) acted⟩
  · rename_i stale
    cases acted
    exact ⟨_, keeps.dropped due (by simpa using stale) known⟩

theorem activate (h : s.Played game stage) (acted : s.activate game = some s₁) :
    s₁.Played game stage := by
  obtain ⟨deeds, known⟩ := h
  exact ⟨_, (staged_keeps game stage).perform .activate trivial known acted⟩

end Session.Played

/-- a session in which a line is being revealed, and `t`, the timer of its next character, is pending -/
structure Watching (game : Game) (stage : RecordingStage) (line : Line) (n : Nat) (t : Timer)
    (s : Session RecordingStage) : Prop where
  played : s.Played game stage
  suspension : s.suspension = some .typing
  reveal : s.reveal = .revealing line n
  pending : t ∈ s.timers.pending
  live : t.guard = .epoch s.epoch

namespace Watching

variable {game : Game} {stage : RecordingStage} {line : Line} {n limit : Nat} {t u : Timer}
  {timers : Timers} {s : Session RecordingStage}

theorem typing (h : Watching game stage line n t s) : s.typing = true :=
  h.played.inMode.typing.2 (.inl h.suspension)

theorem kind (h : Watching game stage line n t s) : t.kind = .typeTick := by
  have awaits := h.played.inStep.awaited t h.pending h.live
  rw [awaits?, h.suspension] at awaits
  exact (Option.some.inj awaits).symm

theorem eq_of_first (h : Watching game stage line n t s)
    (due : s.timers.popDue? limit = some (u, timers)) (own : u.guard = .epoch s.epoch) : u = t := by
  obtain ⟨first, -, -⟩ := Timers.popDue?_eq_some_iff.1 due
  have inStep := h.played.inStep
  have pending := h.pending
  unfold Session.InStep at inStep
  rw [first] at inStep pending
  rcases List.mem_cons.1 pending with e | later
  · exact e.symm
  · exact absurd h.live (inStep.stale_tail own t later)

/-! ### Skipping -/

theorem activate (h : Watching game stage line n t s) (waits : line.autoAdvance = false) :
    s.activate game = some (s.skipped game line) := by
  have started : s.started = true := by
    rw [← Bool.not_eq_false]
    intro idle
    have free := (h.played.unhurried.idle idle).1
    rw [h.suspension] at free
    cases free
  have choosing : s.isChoosing = false := by rw [isChoosing, h.suspension]
  have busy : s.waitingForInput = false := h.played.unhurried.apart h.typing
  have pressed : s.pressed game = .rests (s.skipped game line) := by
    simp only [Session.pressed, choosing, busy, h.typing, h.reveal, LineReveal.skip,
      LineReveal.complete, LineReveal.finish, waits]
    rfl
  rw [Session.activate, if_pos started, pressed, Turn.settle]

/-- skipping the line before or after another timer comes to the same -/
theorem skipped_passed (game : Game) (line : Line) (u : Timer) (timers : Timers)
    (s : Session RecordingStage) :
    (s.passed u timers).skipped game line = (s.skipped game line).passed u timers := by
  have failed (checks : List Timer) :
      (s.skipped game line).failedBy checks = s.failedBy checks := by
    have paused : videoPaused (s.skipped game line).stage = videoPaused s.stage :=
      videoPaused_closed _
    unfold failedBy
    rw [paused]
    rfl
  rw [passed, passed, failed]
  rfl

/-! ### Watching -/

theorem passes (h : Watching game stage line n t s)
    (due : s.timers.popDue? limit = some (u, timers)) (other : u.guard ≠ .epoch s.epoch) :
    { s with timers := timers }.act game u = some (s.passed u timers) ∧
      Watching game stage line n t (s.passed u timers) := by
  have acted := act_eq_passed game h.played.inStep h.played.inTime due other
  refine ⟨acted, h.played.act due acted, h.suspension, h.reveal, ?_, h.live⟩
  obtain ⟨first, -, -⟩ := Timers.popDue?_eq_some_iff.1 due
  have pending := h.pending
  rw [first] at pending
  rcases List.mem_cons.1 pending with rfl | later
  · exact absurd h.live other
  · exact later

theorem ticks (lowers : game.LowersByLetter) (empty : stage.screen.sprites = .empty)
    (h : Watching game stage line n t s) {c : Char} (next : line.text.toList[n]? = some c)
    (due : s.timers.popDue? limit = some (t, timers)) :
    ∃ s₁, { s with timers := timers }.act game t = some s₁ ∧
      Watching game stage line (n + 1)
        ⟨later t.due game.config.timing.typing, .typeTick, .epoch s.epoch⟩ s₁ ∧
      s₁.timers = timers.schedule game.config.timing.typing .typeTick (.epoch s.epoch) ∧
      (s₁.skipped game line).unlogged =
        { (s.skipped game line).unlogged with timers := s₁.timers } := by
  obtain ⟨-, -, now⟩ := h.played.inTime.popDue? due
  obtain ⟨_, -, staged⟩ := h.played
  have acted : { s with timers := timers }.act game t = some ({ s with
      timers := timers
      reveal := .revealing line (n + 1)
      scene := LineReveal.voice game line c (s.scene.onStage (pushChar · c)) }.schedule
        game.config.timing.typing .typeTick) := by
    have live : isLive { s with timers := timers } t = true := by simp [isLive, h.live]
    rw [Session.act, if_pos live, h.kind]
    simp only [Session.fire, typeTick, h.reveal, LineReveal.isRevealing_revealing, if_true,
      LineReveal.tick, next]
    rfl
  refine ⟨_, acted, ⟨h.played.act due acted, h.suspension, rfl, ?_, rfl⟩, rfl, ?_⟩
  · refine (Timers.enter_perm _ _).mem_iff.2 (List.mem_cons.2 (.inl ?_))
    rw [← now]
  · unfold Session.Staged at staged
    rw [h.reveal] at staged
    exact congrArg (fun a => { s.skipped game line with
      scene := a
      timers := timers.schedule game.config.timing.typing .typeTick (.epoch s.epoch) })
      (closed_voice lowers empty next staged)

theorem ends (empty : stage.screen.sprites = .empty) (h : Watching game stage line n t s)
    (waits : line.autoAdvance = false) (last : line.text.toList[n]? = none)
    (due : s.timers.popDue? limit = some (t, timers)) :
    ∃ s₁, { s with timers := timers }.act game t = some s₁ ∧ s₁.Played game stage ∧
      s₁.reveal = .done line ∧ s₁.suspension = none ∧
      s₁.unlogged = { (s.skipped game line).unlogged with timers } := by
  obtain ⟨_, -, staged⟩ := h.played
  have acted : { s with timers := timers }.act game t = some { { s with
      timers := timers
      scene := LineReveal.closed game line s.scene
      reveal := .done line
      typing := false }.resume with waitingForInput := true } := by
    have live : isLive { s with timers := timers } t = true := by simp [isLive, h.live]
    rw [Session.act, if_pos live, h.kind]
    simp only [Session.fire, typeTick, h.reveal, LineReveal.isRevealing_revealing, if_true,
      LineReveal.tick, last, LineReveal.complete, LineReveal.finish, waits]
    rfl
  refine ⟨_, acted, h.played.act due acted, rfl, rfl, ?_⟩
  unfold Session.Staged at staged
  rw [h.reveal] at staged
  exact congrArg (fun a => { s.skipped game line with scene := a, timers })
    (closed_last empty last staged)

/-- sooner or later it is the first timer of the queue, and the timers before it make no difference -/
theorem comes_up (h : Watching game stage line n t s) (le : t.due ≤ limit) :
    ∃ s₁ timers passed, Watching game stage line n t s₁ ∧
      s₁.timers.popDue? limit = some (t, timers) ∧
      (s₁.skipped game line).idleUntil limit = (s.skipped game line).idleUntil limit ∧
      ∀ fuel, s.runUntil game limit (fuel + passed) = s₁.runUntil game limit fuel := by
  induction pending : s.timers.pending generalizing s with
  | nil =>
    have m := h.pending
    rw [pending] at m
    cases m
  | cons u rest ih =>
    have before : u.due ≤ t.due := by
      have m := h.pending
      have ordered := h.played.inTime.ordered
      rw [pending] at m ordered
      rcases List.mem_cons.1 m with rfl | m
      · exact Nat.le_refl _
      · exact (List.pairwise_cons.1 ordered).1 t m
    obtain ⟨timers, due, rfl⟩ : ∃ timers, s.timers.popDue? limit = some (u, timers) ∧
        timers.pending = rest :=
      ⟨⟨max s.timers.now u.due, rest⟩,
        Timers.popDue?_eq_some_iff.2 ⟨pending, Nat.le_trans before le, rfl⟩, rfl⟩
    by_cases own : u.guard = .epoch s.epoch
    · obtain rfl := h.eq_of_first due own
      exact ⟨s, timers, 0, h, due, rfl, fun _ => rfl⟩
    · obtain ⟨acted, watching⟩ := h.passes due own
      obtain ⟨s₁, timers₁, passed, watching₁, due₁, same, runs⟩ := ih watching rfl
      refine ⟨s₁, timers₁, passed + 1, watching₁, due₁, ?_, fun fuel => ?_⟩
      · rw [same, skipped_passed]
        exact idleUntil_passed due
      · rw [← Nat.add_assoc, runUntil_of_some due, acted, Option.bind_some, runs]

theorem le_doneAt (h : Watching game stage line n t s) :
    t.due ≤ game.doneAt line n t.due ∧ game.doneAt line n t.due ≤ endOfTime :=
  le_tickAfter (h.played.inTime.due t h.pending).2 _ _

/-- **What a session comes to that watches a line.** -/
theorem watched (lowers : game.LowersByLetter) (empty : stage.screen.sprites = .empty)
    (waits : line.autoAdvance = false) (h : Watching game stage line n t s) :
    ∃ fuel watched, s.runUntil game (game.doneAt line n t.due) fuel = some watched ∧
      watched.reveal = .done line ∧
      watched.unlogged = ((s.skipped game line).idleUntil (game.doneAt line n t.due)).unlogged := by
  induction left : line.text.toList.length - n generalizing n t s with
  | zero =>
    have last : line.text.toList[n]? = none := List.getElem?_eq_none_iff.2 (by omega)
    rw [doneAt_of_last game last]
    obtain ⟨s₁, timers, passed, watching, due, same, runs⟩ := h.comes_up (Nat.le_refl _)
    obtain ⟨first, -, -⟩ := Timers.popDue?_eq_some_iff.1 due
    obtain ⟨-, -, now⟩ := watching.played.inTime.popDue? due
    obtain ⟨s₂, acted, played, done, free, ended⟩ := watching.ends empty waits last due
    have queue : s₂.timers = timers := congrArg Session.timers ended
    have le : s₂.now ≤ t.due := by
      rw [Session.now, queue]
      exact Nat.le_of_eq now
    obtain ⟨fuel, idle⟩ := runUntil_idle game played.inStep played.inTime
      (awaits_none_of_suspension (.inl free)) le
    refine ⟨fuel + 1 + passed, s₂.idleUntil t.due, ?_, done, ?_⟩
    · rw [runs, runUntil_of_some due, acted, Option.bind_some, idle]
    · rw [← same]
      refine idleUntil_eq s₁.epoch (by rw [ended, queue]) fun p none => ?_
      show s₂.timers.pending.filter p = s₁.timers.pending.filter p
      have ticked : p t = false := none t (Nat.le_refl _) watching.live
      rw [queue, first, List.filter_cons_of_neg (by simp [ticked])]
  | succ left ih =>
    obtain ⟨c, next⟩ : ∃ c, line.text.toList[n]? = some c :=
      ⟨_, List.getElem?_eq_getElem (by omega)⟩
    obtain ⟨le, -⟩ := h.le_doneAt
    obtain ⟨s₁, timers, passed, watching, due, same, runs⟩ := h.comes_up le
    obtain ⟨first, -, -⟩ := Timers.popDue?_eq_some_iff.1 due
    obtain ⟨-, -, now⟩ := watching.played.inTime.popDue? due
    obtain ⟨s₂, acted, further, queue, skipped⟩ := watching.ticks lowers empty next due
    obtain ⟨soon, -⟩ := further.le_doneAt
    obtain ⟨fuel, watched, run, done, ended⟩ := ih further (by omega)
    rw [← doneAt_of_next game next] at soon run ended
    refine ⟨fuel + 1 + passed, watched, ?_, done, ?_⟩
    · rw [runs, runUntil_of_some due, acted, Option.bind_some, run]
    · rw [ended, ← same]
      refine idleUntil_eq s₁.epoch skipped fun p none => ?_
      show s₂.timers.pending.filter p = s₁.timers.pending.filter p
      have ticked : p t = false := none t le watching.live
      rw [queue, first, Timers.schedule, now, Timers.filter_enter_of_neg (none _ soon rfl),
        List.filter_cons_of_neg (by simp [ticked])]

theorem revealing (lowers : game.LowersByLetter) (empty : stage.screen.sprites = .empty)
    (h : Watching game stage line n t s) (early : limit < game.doneAt line n t.due) {fuel : Nat}
    {s' : Session RecordingStage} (run : s.runUntil game limit fuel = some s') :
    s'.reveal.isRevealing = true := by
  induction fuel generalizing n t s with
  | zero => cases run
  | succ fuel ih =>
    cases due : s.timers.popDue? limit with
    | none =>
      rw [runUntil_of_none due] at run
      cases run
      exact congrArg LineReveal.isRevealing h.reveal
    | some popped =>
      obtain ⟨u, timers⟩ := popped
      rw [runUntil_of_some due] at run
      by_cases own : u.guard = .epoch s.epoch
      · obtain rfl := h.eq_of_first due own
        obtain ⟨-, le, -⟩ := Timers.popDue?_eq_some_iff.1 due
        cases next : line.text.toList[n]? with
        | none =>
          rw [doneAt_of_last game next] at early
          omega
        | some c =>
          obtain ⟨s₁, acted, further, -⟩ := h.ticks lowers empty next due
          rw [acted, Option.bind_some] at run
          rw [doneAt_of_next game next] at early
          exact ih further early run
      · obtain ⟨acted, watching⟩ := h.passes due own
        rw [acted, Option.bind_some] at run
        exact ih watching early run

end Watching

/-! ## Playback -/

/-- **Skipping a line comes to the same as watching it.** Let a session play on a recording stage that
is empty at first, and let its host do anything but change sprites or text by itself. Suppose that the
names of the sprites are lowered letter by letter, that a line which waits for the player is being
revealed, and that the timer of its next character is pending and live. By this timer and those that
follow it the line is done at some moment, and not before. Whether the player skips the line now or not,
at that moment the session is the same, but for the logs of the stage. -/
theorem skipping_is_watching (game : Game) (lowers : game.LowersByLetter) {stage : RecordingStage}
    (empty : stage.screen.sprites = .empty) {deeds : List Deed} {s : Session RecordingStage}
    (h : ContinuesWithin Operation.Gentle game (.ofStage stage) deeds s) {line : Line} {n : Nat}
    (typing : s.suspension = some .typing) (reveal : s.reveal = .revealing line n)
    (waits : line.autoAdvance = false) {t : Timer} (pending : t ∈ s.timers.pending)
    (live : s.isLive t) (tick : t.kind = .typeTick) :
    game.doneAt line n t.due ≤ endOfTime ∧
    (∀ early < game.doneAt line n t.due, ∃ fuel s', s.runUntil game early fuel = some s' ∧
      s'.reveal.isRevealing = true) ∧
    ∃ skipped, s.activate game = some skipped ∧
      ∃ fuel fuel' watched after,
        s.runUntil game (game.doneAt line n t.due) fuel = some watched ∧
        skipped.runUntil game (game.doneAt line n t.due) fuel' = some after ∧
        watched.reveal = .done line ∧ watched.unlogged = after.unlogged := by
  have played : s.Played game stage :=
    ⟨deeds, h.continues.reaches, h.staged⟩
  have own : t.guard = .epoch s.epoch := by
    cases guard : t.guard with
    | epoch m => rw [epoch_of_live live guard]
    | video m =>
      have check := (played.inStep.video_le t pending m guard).2
      rw [tick] at check
      cases check
  have watching : Watching game stage line n t s := ⟨played, typing, reveal, pending, own⟩
  obtain ⟨soon, within⟩ := watching.le_doneAt
  obtain ⟨fuel, watched, run, done, ended⟩ := watching.watched lowers empty waits
  refine ⟨within, fun early lt => ?_, s.skipped game line, watching.activate waits, ?_⟩
  · -- the run to the end stops at the earlier moment on its way
    rw [← Nat.max_eq_right (Nat.le_of_lt lt), runUntil_max_iff] at run
    obtain ⟨fuel, _, s', -, first, -⟩ := run
    exact ⟨fuel, s', first, watching.revealing lowers empty lt first⟩
  · have skipped := played.activate (watching.activate waits)
    have now : s.now ≤ game.doneAt line n t.due :=
      Nat.le_trans (played.inTime.due t pending).1 soon
    obtain ⟨fuel', idle⟩ := runUntil_idle game skipped.inStep skipped.inTime
      (awaits_none_of_suspension (.inl rfl)) now
    exact ⟨fuel, fuel', watched, _, run, idle, done, ended⟩

/-- a line is skipped while its speaker talks -/
theorem line_skipped_half_way :
    let line : Cue := .dialogue ⟨"Hi", some "bob", false, false⟩
    let game : Game :=
      { script := .ofEvents [.single (.character (some "Bob") .show), .single line]
        assets := .ofList [("Bob", "b.png"), ("Bob_Talk", "t.png")] }
    ∃ deeds, ∃ s skipped : Session RecordingStage,
      ContinuesWithin Operation.Gentle game (.ofStage {}) deeds s ∧
        s.stage.screen.spriteLocators = ["t.png"] ∧ s.activate game = some skipped ∧
        ∃ fuel fuel' watched after,
          s.runUntil game 90 fuel = some watched ∧ skipped.runUntil game 90 fuel' = some after ∧
          watched.reveal.isRevealing = false ∧ watched.unlogged = after.unlogged := by
  intro line game
  have plays : ∃ deeds, ∃ s : Session RecordingStage,
      ContinuesWithin Operation.Gentle game (.ofStage {}) deeds s ∧ s.suspension = some .typing ∧
        s.stage.screen.spriteLocators = ["t.png"] ∧
        s.reveal = .revealing ⟨"Hi", some "bob", false, false⟩ 1 ∧
        s.timers.pending = [⟨60, .typeTick, .epoch 1⟩] ∧ s.epoch = 1 := by
    refine ⟨_, _, .operation (.runUntil 40 10) trivial (.operation .start trivial .refl rfl) rfl,
      rfl, ?_⟩
    decide +kernel
  obtain ⟨deeds, s, host, typing, talks, reveal, pending, epoch⟩ := plays
  have lowers : game.LowersByLetter := lowersByLetter_of_no_sigma (by decide +kernel)
  have live : s.isLive ⟨60, .typeTick, .epoch 1⟩ := by rw [isLive, epoch]; rfl
  obtain ⟨-, -, skipped, pressed, fuel, fuel', watched, after, run, run', done, same⟩ :=
    skipping_is_watching game lowers rfl host typing reveal rfl
      (pending ▸ List.mem_singleton_self _) live rfl
  exact ⟨deeds, s, skipped, host, talks, pressed, fuel, fuel', watched, after, run, run',
    congrArg LineReveal.isRevealing done, same⟩

end VisualNovel
