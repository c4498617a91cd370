import VisualNovel.Proofs.Rehearsal.Through
import VisualNovel.Proofs.Session.Moves
import VisualNovel.Proofs.Session.Patience
import VisualNovel.Proofs.Stage.Sprites

/-!
# What the lines of a transcript are shown over

A card puts a session in intro mode, in which lines are shown over the video. Of the cues that
transcripts are made into none ends this mode, and none plays a video. So a line is shown over the
background as long as no card has come before it, and over a video that is not there from the first card
on.

* `layer_typeTick`        a line is revealed without a change of what is behind it;
* `Script.Plain`          a script of single cues that transcripts are made into;
* `Session.Lit`           how far such a script has been played, and what its line is shown over;
* `Session.Lit.execute`, `Session.Lit.fire`, `lit_keeps`   playback keeps to it;
* `Session.Playing.advanceTo`, `line_revealed`             every line comes to be revealed;
* `lines_before_cards_iff`                                 what this means for transcripts.
-/

set_option linter.unusedSectionVars false

namespace VisualNovel

open Session Presentation

/-! ## A line leaves what is behind it alone -/

section
variable (game : Game) (line : Line)

theorem layer_talk (talking : Bool) (a : Scene RecordingStage) :
    (LineReveal.talk game line talking a).stage.screen.layer = a.stage.screen.layer := by
  obtain ⟨sprites, calls, e⟩ := switchSprites_eq game line talking a.cast a.stage
  rw [talk_eq, e]

theorem layer_voice (c : Char) (a : Scene RecordingStage) :
    (LineReveal.voice game line c a).stage.screen.layer = a.stage.screen.layer := by
  unfold LineReveal.voice
  split
  · rw [layer_talk]
    unfold LineReveal.playBlip
    dsimp only
    split <;> rfl
  · rfl

theorem layer_complete (a : Scene RecordingStage) :
    (LineReveal.complete game line a).2.2.stage.screen.layer = a.stage.screen.layer := by
  have talked := layer_talk game line false a
  simp only [LineReveal.complete, LineReveal.finish]
  split
  · exact talked
  · exact talked

theorem layer_tick (r : LineReveal) (a : Scene RecordingStage) :
    (LineReveal.tick game r a).2.2.stage.screen.layer = a.stage.screen.layer := by
  unfold LineReveal.tick
  split
  · split
    · exact layer_complete game _ a
    · exact layer_voice game _ _ _
  · rfl

theorem layer_typeTick (s : Session RecordingStage) :
    (s.typeTick game).stage.screen.layer = s.stage.screen.layer := by
  have ticked := layer_tick game s.reveal s.scene
  unfold typeTick
  split
  · split
    · rename_i completion reveal scene e
      rw [e] at ticked
      cases completion <;> exact ticked
    · rename_i reveal scene e
      rw [e] at ticked
      exact ticked
  · rfl

end

/-! ## Sessions that play a transcript -/

/-- a card with lines on it puts the session in intro mode and is being revealed -/
theorem execute_card {σ : Type} [Presentation σ] [Audio σ] (game : Game) (first : String)
    (lines : List String) (s : Session σ) :
    ∃ scene card timers, (s.execute game (.introCard (first :: lines))).2 =
      { s.suspend .introCard with
        scene, waitingForInput := false, typing := true, introMode := true, cardShown := true
        card := some card, timers } := by
  have outcome := execute_outcome game (.introCard (first :: lines)) s
  generalize (s.execute game (.introCard (first :: lines))).1 = flow at outcome
  generalize (s.execute game (.introCard (first :: lines))).2 = s' at outcome ⊢
  cases outcome with
  | quiet goesOn => cases goesOn
  | card => exact ⟨_, _, _, rfl⟩

/-- each event is a single cue that transcripts are made into -/
def Script.Plain (script : Script) : Prop :=
  ∀ event ∈ script.events.toList, ∃ cue : Cue, event = .single cue ∧ cue.Transcribed

def lineLayer (introMode : Bool) : Layer := if introMode then .video else .background

namespace Session

/-- nothing is held back and no menu is open; the session is in intro mode if there is a card among the
events so far, and the line that is being revealed is the last of them, over the layer of the mode -/
structure Lit (game : Game) (s : Session RecordingStage) : Prop where
  unheld : s.deferred = []
  menuless : s.isChoosing = false
  intro : s.introMode = (game.script.events.toList.take s.position).any Event.isCard
  line : ∀ line shown, s.reveal = .revealing line shown →
    ∃ place, s.position = place + 1 ∧ game.script.events[place]? = some (.single (.dialogue line))
  layer : s.reveal.isRevealing = true → s.stage.screen.layer = some (lineLayer s.introMode)

namespace Lit

variable {game : Game} {s s' : Session RecordingStage}

theorem new (game : Game) (stage : RecordingStage) : (Session.ofStage stage).Lit game :=
  ⟨rfl, rfl, rfl, nofun, nofun⟩

/-- while no line is being revealed, it does not matter what is behind -/
theorem of_still (still : s.reveal.isRevealing = false) (unheld : s.deferred = [])
    (menuless : s.isChoosing = false)
    (intro : s.introMode = (game.script.events.toList.take s.position).any Event.isCard) :
    s.Lit game where
  unheld := unheld
  menuless := menuless
  intro := intro
  line line shown revealing := by
    rw [revealing] at still
    cases still
  layer revealing := by
    rw [still] at revealing
    cases revealing

theorem intro_succ {event : Event} (h : s.Lit game) (next : game.script.events[s.position]? = some event) :
    (game.script.events.toList.take (s.position + 1)).any Event.isCard =
      (s.introMode || event.isCard) := by
  rw [← Array.getElem?_toList] at next
  rw [List.take_add_one, next, List.any_append, ← h.intro, Option.toList_some, List.any_cons,
    List.any_nil, Bool.or_false]

theorem dressed {cue : Cue} (h : s.Lit game) (still : s.reveal.isRevealing = false)
    (next : game.script.events[s.position]? = some (.single cue))
    (other : (Event.single cue).isCard = false)
    (bare : s'.bare = { s with position := s.position + 1 }.bare) : s'.Lit game := by
  obtain ⟨scene, music, heard, rfl⟩ := exists_of_bare_eq bare.symm
  refine of_still still h.unheld h.menuless ?_
  show s.introMode = _
  rw [h.intro_succ next, other, Bool.or_false]

theorem execute {cue : Cue} (h : s.Lit game) (still : s.reveal.isRevealing = false)
    (next : game.script.events[s.position]? = some (.single cue)) (transcribed : cue.Transcribed) :
    ({ s with position := s.position + 1 }.execute game cue).2.Lit game := by
  cases transcribed with
  | background name => exact h.dressed still next rfl (bare_showBackground game name _)
  | musicStarts name => exact h.dressed still next rfl (bare_music game .play (some name) _)
  | musicStops => exact h.dressed still next rfl (bare_music game .stop none _)
  | enters name => exact h.dressed still next rfl (bare_moveCharacter game (some name) .show _)
  | leaves name => exact h.dressed still next rfl (bare_moveCharacter game (some name) .hide _)
  | said text speaker thought =>
    refine ⟨h.unheld, rfl, ?_, fun line shown revealing => ?_, fun _ => rfl⟩
    · show s.introMode = (game.script.events.toList.take (s.position + 1)).any Event.isCard
      rw [h.intro_succ next]
      exact (Bool.or_false _).symm
    · cases revealing
      exact ⟨s.position, rfl, next⟩
  | card first lines =>
    obtain ⟨scene, reveal, timers, e⟩ :=
      execute_card game first lines { s with position := s.position + 1 }
    rw [e]
    refine of_still still h.unheld rfl ?_
    show true = (game.script.events.toList.take (s.position + 1)).any Event.isCard
    rw [h.intro_succ next]
    exact (Bool.or_true _).symm

theorem turn (plain : game.script.Plain) (inMode : s.InMode) (h : s.Lit game) :
    (s.turn game).session.Lit game := by
  have turned := turn_turned game s
  generalize s.turnDeeds game = deeds at turned
  generalize s.turn game = turn at turned ⊢
  have plain {event : Event} (next : game.script.events[s.position]? = some event) :
      ∃ cue : Cue, event = .single cue ∧ cue.Transcribed := by
    rw [← Array.getElem?_toList] at next
    exact plain event (List.mem_of_getElem? next)
  cases turned with
  | busy | ended => exact h
  | deferred _ held =>
    rw [h.unheld] at held
    cases held
  | @single cue free _ next =>
    obtain ⟨_, e, transcribed⟩ := plain next
    cases e
    rw [Turn.session_ofFlow]
    exact h.execute (nothing_of_free inMode (suspension_of_free free)).2.1 next transcribed
  | together _ _ next =>
    obtain ⟨_, e, -⟩ := plain next
    cases e

/-! ## The player and the timers -/

theorem completeLine (h : s.Lit game) (scene : Scene RecordingStage) (line : Line)
    (completion : Completion) :
    ({ s with scene := scene, reveal := .done line }.completeLine game completion).Lit game := by
  cases completion with
  | autoAdvance => exact of_still rfl h.unheld rfl h.intro
  | waitForInput => exact of_still rfl h.unheld rfl h.intro

theorem fire {kind : TimerKind} (awaits : s.awaits? = some kind) (inMode : s.InMode)
    (h : s.Lit game) : (s.fire game kind).session.Lit game := by
  have layer : kind = .typeTick →
      (s.fire game kind).session.stage.screen.layer = s.stage.screen.layer := by
    rintro rfl
    exact layer_typeTick game s
  have still (other : kind ≠ .typeTick) : s.reveal.isRevealing = false := by
    rw [Bool.eq_false_iff]
    intro revealing
    rw [awaits?, inMode.reveal.1 revealing] at awaits
    exact other (Option.some.inj awaits).symm
  have fired := fire_fired game kind s
  generalize s.fire game kind = turn at fired layer ⊢
  cases fired with
  | noLine => exact h
  | @typed line shown revealing =>
    refine ⟨h.unheld, h.menuless, h.intro, fun line' shown' revealing' => ?_, fun _ => ?_⟩
    · cases revealing'
      exact h.line line shown revealing
    · exact (layer rfl).trans (h.layer (by rw [revealing]; rfl))
  | lineDone _ scene completion => exact h.completeLine scene _ completion
  | advance | cardDone | framesDone | videoReached =>
    exact of_still (still (by decide)) h.unheld rfl h.intro
  | noCard | carded | noFrames | frame | noVideo | polled | checked =>
    exact of_still (still (by decide)) h.unheld h.menuless h.intro

theorem opened (h : s.Lit game) : (s.opened game).session.Lit game := by
  unfold Session.opened
  split
  · exact h
  · exact ⟨h.unheld, h.menuless, h.intro, h.line, h.layer⟩

theorem pressed (inMode : s.InMode) (unhurried : s.Unhurried) (h : s.Lit game) :
    (s.pressed game).session.Lit game := by
  have pressed := pressed_pressed game s
  generalize s.pressed game = turn at pressed ⊢
  cases pressed with
  | idle => exact h
  | goesOn waits =>
    have still : s.reveal.isRevealing = false := by
      rw [Bool.eq_false_iff]
      intro revealing
      have typing := inMode.typing.2 (.inl (inMode.reveal.1 revealing))
      exact Bool.false_ne_true ((unhurried.apart typing).symm.trans waits)
    exact of_still still h.unheld h.menuless h.intro
  | skipped _ scene completion => exact h.completeLine scene _ completion

theorem chosen (index : Nat) (h : s.Lit game) : s.chosen game index = .rests s := by
  have menuless := h.menuless
  unfold isChoosing at menuless
  unfold Session.chosen
  split
  · rename_i menu
    rw [menu] at menuless
    cases menuless
  · rfl

end Lit

end Session

/-- the host may do anything but change what fills the stage behind the characters -/
def Operation.KeepsLayer : Operation RecordingStage → Prop
  | .stage f => ∀ p : RecordingStage, (f p).screen.layer = p.screen.layer
  | _ => True

theorem lit_keeps {game : Game} (plain : game.script.Plain) (stage : RecordingStage) :
    Keeps game Operation.KeepsLayer fun deeds turn =>
      Reaches game (.ofStage stage) deeds turn ∧ turn.session.Lit game where
  turn started h :=
    ⟨h.1.turn started, Lit.turn plain (h.1.inMode (inStep_new stage) (inMode_new stage)) h.2⟩
  idle idle h := ⟨h.1.idle idle, h.2⟩
  fired {_ s _ timer timers} due live h := by
    obtain ⟨reached, lit⟩ := h
    have inMode : s.InMode := reached.inMode (inStep_new stage) (inMode_new stage)
    have popped : Session.Lit game { s with timers := timers } :=
      ⟨lit.unheld, lit.menuless, lit.intro, lit.line, lit.layer⟩
    refine ⟨reached.fired due live, ?_⟩
    rcases inStep_live (s := s) (reached.inStep (inStep_new stage)) due live with
      ⟨-, awaits, -⟩ | ⟨-, kind⟩
    · exact Lit.fire (s := { s with timers := timers }) awaits inMode popped
    · obtain ⟨failed, e⟩ := fire_videoCheck game { s with timers := timers }
      rw [kind, e]
      exact ⟨lit.unheld, lit.menuless, lit.intro, lit.line, lit.layer⟩
  dropped due stale h :=
    ⟨h.1.dropped due stale, h.2.unheld, h.2.menuless, h.2.intro, h.2.line, h.2.layer⟩
  clock le nothing h :=
    ⟨h.1.clock le nothing, h.2.unheld, h.2.menuless, h.2.intro, h.2.line, h.2.layer⟩
  opened h := ⟨h.1.opened, h.2.opened⟩
  pressed _ started h :=
    ⟨h.1.pressed started, h.2.pressed (h.1.inMode (inStep_new stage) (inMode_new stage))
      (h.1.unhurried (inStep_new stage) (unhurried_new stage))⟩
  chosen {_ s} index h := by
    have rests : s.chosen game index = .rests s := Lit.chosen index h.2
    rw [rests]
    exact h
  advanced _ started h := ⟨h.1.advanced started, h.2⟩
  stage {_ s f} kept h := by
    refine ⟨h.1.stage f, h.2.unheld, h.2.menuless, h.2.intro, h.2.line, fun revealing => ?_⟩
    exact (kept s.stage).trans (h.2.layer revealing)

/-! ## Every line is revealed -/

section
variable {σ : Type} [Presentation σ] [Audio σ] {game : Game} {s : Session σ} {cues before after : List Cue}
  {line : Line} {n : Nat}

namespace Session.Playing

theorem advanceWithinTo (h : s.Playing game (before ++ .dialogue line :: after) 0) {turns : Nat}
    (enough : before.length < turns) :
    ∃ s' left n, s.advanceWithin game turns = some s' ∧
      (s'.reveal = .revealing line 0 ∧ s'.Playing game after n ∨
        left.length < before.length ∧ s'.Playing game (left ++ .dialogue line :: after) (n + 1)) := by
  induction before generalizing s turns with
  | nil =>
    obtain ⟨turns, rfl⟩ := Nat.exists_eq_add_one_of_ne_zero (Nat.ne_zero_of_lt enough)
    have manual : line.autoAdvance = false := by
      cases h.each (.dialogue line) List.mem_cons_self
      rfl
    obtain ⟨s', e, playing⟩ := h.turn_of_line manual
    have shown := h.turn_of_cons.symm.trans e
    refine ⟨s', [], _, (advanceWithin_of_rests e turns).1, .inl ⟨?_, playing⟩⟩
    cases shown
    rfl
  | cons cue before ih =>
    obtain ⟨turns, rfl⟩ := Nat.exists_eq_add_one_of_ne_zero (Nat.ne_zero_of_lt enough)
    rw [List.cons_append] at h
    cases pauses : cue.pauses with
    | false =>
      obtain ⟨s₁, e, playing⟩ := h.turn_of_quiet pauses
      obtain ⟨s', left, n, ran, found⟩ := ih playing (Nat.lt_of_succ_lt_succ enough)
      refine ⟨s', left, n, (advanceWithin_of_goesOn e turns).1.trans ran, ?_⟩
      exact found.imp_right fun ⟨fewer, playing⟩ => ⟨Nat.lt_succ_of_lt fewer, playing⟩
    | true =>
      obtain ⟨s', n, e, playing, -⟩ := h.turn_of_pauses pauses
      exact ⟨s', before, n, (advanceWithin_of_rests e turns).1, .inr ⟨Nat.lt_succ_self _, playing⟩⟩

theorem advanceTo (h : s.Playing game (before ++ .dialogue line :: after) 0) :
    ∃ s' left n, s.advance game = some s' ∧
      (s'.reveal = .revealing line 0 ∧ s'.Playing game after n ∨
        left.length < before.length ∧ s'.Playing game (left ++ .dialogue line :: after) (n + 1)) := by
  have enough : before.length < s.turns game := by
    have le := h.length_le
    rw [List.length_append, List.length_cons] at le
    rw [turns]
    omega
  obtain ⟨s', left, n, ran, found⟩ := h.advanceWithinTo enough
  exact ⟨s', left, n, by rw [Session.advance, if_pos h.started, ran], found⟩

theorem take_position (h : s.Playing game after n)
    (events : game.script.events.toList = (before ++ after).map .single) :
    game.script.events.toList.take s.position = before.map .single := by
  have whole := List.take_append_drop s.position game.script.events.toList
  rw [h.ahead] at whole
  apply List.append_cancel_right
  rw [whole, events, List.map_append]

theorem runOut {may : Operation σ → Prop} {stage : σ} {deeds : List Deed}
    (runs : ∀ limit fuel, may (.runUntil limit fuel))
    (run : ContinuesWithin may game (.ofStage stage) deeds s) (h : s.Playing game cues (n + 1)) :
    ∃ deeds' s', ContinuesWithin may game (.ofStage stage) deeds' s' ∧ s'.Playing game cues 1 := by
  obtain ⟨s', m, ran, playing, -⟩ := h.runUntil endOfTime (Nat.lt_succ_self n)
  have limit : (UInt64.ofNat endOfTime).toNat = endOfTime := UInt64.toNat_ofNat_of_lt' (by decide)
  have later := run.operation (.runUntil (.ofNat endOfTime) (n + 1)) (runs _ _)
    (by rw [Operation.perform, limit]; exact ran)
  refine ⟨_, s', later, ?_⟩
  cases m with
  | zero => exact playing
  | succ m =>
    obtain ⟨t, one⟩ := playing.awaits
    obtain ⟨s₁, -, late, e⟩ := runUntil_iff_hops.1 ⟨n + 1, ran⟩
    have pending : s₁.timers.pending = [t] := by
      rw [e] at one
      exact one
    have past : endOfTime < t.due := late t.due (by rw [deadline?, Timers.deadline?, pending]; rfl)
    have inTime := (later.continues.reaches.onTime (onTime_new stage)).pending
    have due := (inTime.due t (by rw [Turn.session_rests, one]; exact List.mem_singleton_self t)).2
    exact absurd past (Nat.not_lt.2 due)

end Session.Playing

/-- the player goes on from each line and card to the next, until the line is revealed -/
theorem line_revealed_from {may : Operation σ → Prop} {stage : σ} {deeds : List Deed}
    (presses : may .activate) (runs : ∀ limit fuel, may (.runUntil limit fuel))
    (run : ContinuesWithin may game (.ofStage stage) deeds s)
    (h : s.Playing game (before ++ .dialogue line :: after) (n + 1)) :
    ∃ deeds' s' m, ContinuesWithin may game (.ofStage stage) deeds' s' ∧
      s'.reveal = .revealing line 0 ∧ s'.Playing game after m := by
  induction size : before.length using Nat.strongRecOn generalizing before deeds s n with
  | ind size ih =>
    obtain ⟨deeds₁, s₁, run₁, waits⟩ := h.runOut runs run
    obtain ⟨s₂, pressed, playing⟩ := waits.pressed
    obtain ⟨s₃, left, m, advanced, found⟩ := playing.advanceTo
    have later : ContinuesWithin may game (.ofStage stage) _ s₃ := run₁.operation .activate presses
      (by rw [Operation.perform, activate, if_pos waits.started, pressed, Turn.settle, advanced])
    rcases found with ⟨revealing, playing⟩ | ⟨fewer, playing⟩
    · exact ⟨_, s₃, m, later, revealing, playing⟩
    · exact ih left.length (size ▸ fewer) later playing rfl

theorem line_revealed (game : Game) {may : Operation σ → Prop} (starts : may .start)
    (presses : may .activate) (runs : ∀ limit fuel, may (.runUntil limit fuel)) (stage : σ)
    (each : ∀ cue ∈ before ++ .dialogue line :: after, cue.Transcribed)
    (events : game.script.events.toList = (before ++ .dialogue line :: after).map .single) :
    ∃ deeds s m, ContinuesWithin may game (.ofStage stage) deeds s ∧
      s.reveal = .revealing line 0 ∧ s.Playing game after m := by
  obtain ⟨s₁, opened, playing⟩ := playing_of_opened each events stage
  obtain ⟨s₂, left, m, advanced, found⟩ := playing.advanceTo
  have run : ContinuesWithin may game (.ofStage stage) _ s₂ := ContinuesWithin.refl.operation .start starts
    (by rw [Operation.perform, start, opened, Turn.settle, advanced])
  rcases found with ⟨revealing, playing⟩ | ⟨-, playing⟩
  · exact ⟨_, s₂, m, run, revealing, playing⟩
  · exact line_revealed_from presses runs run playing

end

/-! ## Transcripts -/

/-- from the first card on, no event is a line -/
def LinesFirst (events : List Event) : Prop :=
  ∀ event ∈ events.dropWhile (!Event.isCard ·), event.isLine = false

instance (events : List Event) : Decidable (LinesFirst events) :=
  inferInstanceAs (Decidable (∀ event ∈ events.dropWhile (!Event.isCard ·), event.isLine = false))

theorem linesFirst_iff {events : List Event} :
    LinesFirst events ↔ ∀ before line after, events = before ++ .single (.dialogue line) :: after →
      before.any Event.isCard = false := by
  constructor
  · rintro first before line after rfl
    rw [← Bool.not_eq_true]
    intro card
    have later : before.dropWhile (!Event.isCard ·) ≠ [] := by
      intro none
      obtain ⟨event, m, isCard⟩ := List.any_eq_true.1 card
      have := List.dropWhile_eq_nil_iff.1 none event m
      simp [isCard] at this
    have behind := first (.single (.dialogue line)) (by
      rw [List.dropWhile_append, if_neg (by simpa using later)]
      simp)
    cases behind
  · intro first event m
    rw [← Bool.not_eq_true]
    intro isLine
    obtain ⟨line, rfl⟩ : ∃ line, event = .single (.dialogue line) := by
      unfold Event.isLine at isLine
      split at isLine
      · exact ⟨_, rfl⟩
      · cases isLine
    obtain ⟨between, after, split⟩ := List.append_of_mem m
    have noCard := first (events.takeWhile (!Event.isCard ·) ++ between) line after (by
      rw [List.append_assoc, ← split, List.takeWhile_append_dropWhile])
    have head := List.head?_dropWhile_not (!Event.isCard ·) events
    rw [split] at head
    cases between with
    | nil => cases head
    | cons card between =>
      simp only [List.any_append, List.any_cons, Bool.or_eq_false_iff] at noCard
      simp [noCard.2.1] at head

section
variable {events : List Event} {assets : AssetTable} {config : PlayerConfig} {stage : RecordingStage}
  {deeds : List Deed} {s : Session RecordingStage}

theorem lit_of_converted {cues : List Cue} (each : ∀ cue ∈ cues, cue.Transcribed)
    (run : ContinuesWithin Operation.KeepsLayer
      { script := .ofEvents (cues.map .single), assets, config } (.ofStage stage) deeds s) :
    s.Lit { script := .ofEvents (cues.map .single), assets, config } := by
  have plain : (Script.ofEvents (cues.map .single)).Plain := by
    intro event m
    rw [Script.toList_ofEvents] at m
    obtain ⟨cue, among, rfl⟩ := List.mem_map.1 m
    exact ⟨cue, rfl, each cue among⟩
  exact (run.keeps (lit_keeps plain stage) ⟨.refl, .new _ stage⟩).2

/-- a line is over the layer that the events so far make for -/
theorem Session.Lit.layer_sofar (lit : s.Lit { script := .ofEvents events, assets, config })
    (revealing : s.reveal.isRevealing = true) :
    s.stage.screen.layer = some (lineLayer ((events.take s.position).any Event.isCard)) := by
  have intro := lit.intro
  rw [Script.toList_ofEvents] at intro
  rw [lit.layer revealing, intro]

/-- a line is over the background if no card stands before it -/
theorem Session.Lit.layer_of_linesFirst
    (lit : s.Lit { script := .ofEvents events, assets, config }) (first : LinesFirst events)
    (revealing : s.reveal.isRevealing = true) : s.stage.screen.layer = some .background := by
  cases reveal : s.reveal with
  | idle | done =>
    rw [reveal] at revealing
    cases revealing
  | revealing line shown =>
    obtain ⟨place, sofar, found⟩ := lit.line line shown reveal
    rw [← Array.getElem?_toList, Script.toList_ofEvents] at found
    have split : events = events.take place ++ .single (.dialogue line) :: events.drop (place + 1) := by
      conv_lhs => rw [← List.take_append_drop place events, List.drop_eq_getElem?_toList_append, found]
      rfl
    rw [lit.layer_sofar revealing, sofar, List.take_add_one, found, List.any_append,
      linesFirst_iff.1 first _ _ _ split]
    rfl

end

/-- **What the lines of a transcript are shown over.** Whenever a transcript is converted, with any
assets, configuration and stage, and whatever the host does but to the layer itself, a line that is being
revealed is shown over the background if there is no card among the events so far, and else over the
video, which no event has ever played. So all lines are shown over their backgrounds, in all runs, if and
only if none stands behind a card. -/
theorem lines_before_cards_iff (c : Converter) {transcript : String} {events : List Event}
    (converted : c.convert transcript = .ok events) (assets : AssetTable) (config : PlayerConfig)
    (stage : RecordingStage) :
    (∀ deeds s, ContinuesWithin Operation.KeepsLayer { script := .ofEvents events, assets, config }
        (.ofStage stage) deeds s → s.reveal.isRevealing = true →
      s.stage.screen.layer = some (lineLayer ((events.take s.position).any Event.isCard))) ∧
    ((∀ deeds s, ContinuesWithin Operation.KeepsLayer { script := .ofEvents events, assets, config }
        (.ofStage stage) deeds s → s.reveal.isRevealing = true →
      s.stage.screen.layer = some .background) ↔ LinesFirst events) := by
  obtain ⟨cues, rfl, each⟩ := Converter.transcribed_of_convert converted
  refine ⟨fun deeds s run => (lit_of_converted each run).layer_sofar,
    fun background => linesFirst_iff.2 fun before line after split => ?_,
    fun first deeds s run => (lit_of_converted each run).layer_of_linesFirst first⟩
  obtain ⟨before', rest, rfl, rfl, e⟩ := List.map_eq_append_iff.1 split
  obtain ⟨cue, after', rfl, e', rfl⟩ := List.map_eq_cons_iff.1 e
  cases e'
  have keeps (limit : UInt64) (fuel : Nat) : Operation.KeepsLayer (.runUntil limit fuel) := trivial
  obtain ⟨deeds, s, m, run, reveal, playing⟩ := line_revealed
    { script := .ofEvents ((before' ++ .dialogue line :: after').map .single), assets, config }
    trivial trivial keeps stage each (Script.toList_ofEvents _)
  have revealing : s.reveal.isRevealing = true := by
    rw [reveal]
    rfl
  have sofar := playing.take_position
    ((Script.toList_ofEvents _).trans (congrArg _ (List.append_cons before' _ after')))
  have layer := (lit_of_converted each run).layer_sofar revealing
  rw [Script.toList_ofEvents] at sofar
  rw [background deeds s run revealing, sofar, List.map_append, List.any_append] at layer
  cases card : (before'.map Event.single).any Event.isCard with
  | false => rfl
  | true =>
    rw [card] at layer
    cases layer

/-- a card behind the last line does no harm -/
theorem line_before_a_card :
    let transcript := "<Once.>\n[Black Screen]\nTwice\n[Fade in Defense_Lobby]"
    ∃ events, ({} : Converter).convert transcript = .ok events ∧ events.any Event.isCard = true ∧
      ∀ assets config stage deeds s, ContinuesWithin Operation.KeepsLayer
        { script := .ofEvents events, assets, config } (.ofStage stage) deeds s →
        s.reveal.isRevealing = true → s.stage.screen.layer = some .background := by
  intro transcript
  have succeeds : (({} : Converter).convert transcript).toOption.map (fun events =>
      (events.any Event.isCard, decide (LinesFirst events))) = some (true, true) := by
    decide +kernel
  cases converted : ({} : Converter).convert transcript with
  | error e =>
    rw [converted] at succeeds
    cases succeeds
  | ok events =>
    rw [converted] at succeeds
    obtain ⟨card, first⟩ := Prod.mk.inj (Option.some.inj succeeds)
    refine ⟨events, rfl, card, fun assets config stage => ?_⟩
    exact (lines_before_cards_iff {} converted assets config stage).2.2 (of_decide_eq_true first)

/-- a background has faded in behind the card, but the line is shown over a video -/
theorem line_over_no_video :
    let transcript := "[Black Screen]\nOnce\n[Fade in Defense_Lobby]\n<Hi>"
    let assets : AssetTable := .ofList [("Defense_Lobby", "lobby.png")]
    ∃ events, ({} : Converter).convert transcript = .ok events ∧
      ∃ deeds s, ContinuesWithin Operation.KeepsLayer { script := .ofEvents events, assets }
        (.ofStage {}) deeds s ∧ s.reveal.isRevealing = true ∧
        s.stage.screen.background = some "lobby.png" ∧ s.stage.screen.layer = some .video ∧
        s.stage.screen.video = none := by
  intro transcript assets
  let moves : List Move := [.start, .runUntil 10000 100, .activate]
  have succeeds : (({} : Converter).convert transcript).toOption.any (fun events =>
      ((Session.ofStage ({} : RecordingStage)).follow { script := .ofEvents events, assets } moves).any
        fun s => s.reveal.isRevealing && s.stage.screen.background == some "lobby.png" &&
          s.stage.screen.layer == some Layer.video && s.stage.screen.video == none) = true := by
    decide +kernel
  cases converted : ({} : Converter).convert transcript with
  | error e =>
    rw [converted] at succeeds
    cases succeeds
  | ok events =>
    rw [converted, Except.toOption, Option.any_some] at succeeds
    obtain ⟨s, result, shown⟩ := (Option.any_eq_true _ _).1 succeeds
    simp only [Bool.and_eq_true, beq_iff_eq] at shown
    obtain ⟨⟨⟨revealing, background⟩, layer⟩, video⟩ := shown
    have allowed (move : Move) : Operation.KeepsLayer move.operation := by cases move <;> trivial
    exact ⟨events, rfl, _, s, ContinuesWithin.refl.follow allowed result, revealing, background, layer,
      video⟩

end VisualNovel
