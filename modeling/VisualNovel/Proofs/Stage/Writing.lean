import Mathlib.Logic.Function.Iterate
import VisualNovel.Proofs.Rehearsal.Through
import VisualNovel.Proofs.Session.Beats
import VisualNovel.Proofs.Stage.Typing

/-!
# Cards are written on time

An intro card is written line by line and character by character, each character with a blip. The first
step is taken when the card begins, and every other one by a timer; after the last line the timer comes
once more and ends the card.

* `writeLine`, `writeCard`   what writing lines does to a stage;
* `CardReveal.put`           what a single step does to it;
* `CardReveal.unwritten`     what is left of a card;
* `unwritten_step`           a step and what is left after it come to what was left before;
* `CardReveal.time`          the time that is left of a card;
* `Session.cardRhythm`       each timer takes a step;
* `cards_are_written_on_time`   what this means for a session that comes to a card.
-/

set_option linter.unusedSectionVars false

namespace VisualNovel

open Session Presentation Audio

/-! ## Writing on a stage -/

section
variable {σ : Type} [Presentation σ] [Audio σ] (game : Game)

/-- the blip of a card is heard, if it has an asset -/
def introBlip (p : σ) : σ :=
  let key := game.soundKey game.config.audio.introBlip
  match game.assets.get? key with
  | some locator => (Audio.playSound p key locator game.config.audio.soundVolume).2
  | none => p

def writeChars (cs : List Char) (p : σ) : σ := cs.foldl (fun p c => introBlip game (cardPushChar p c)) p

def writeLine (p : σ) (line : List Char) : σ := writeChars game line (cardNewLine p)

def writeCard (lines : List String) (p : σ) : σ := (lines.map String.toList).foldl (writeLine game) p

namespace CardReveal

def put (step : CardStep) (p : σ) : σ :=
  let newLine (needed : Bool) (p : σ) : σ := if needed then cardNewLine p else p
  match step with
  | .char needed c => introBlip game (cardPushChar (newLine needed p) c)
  | .lineEnd needed => newLine needed p
  | .finished => p

def step (x : CardReveal × σ) : CardReveal × σ := (x.1.next.2, put game x.1.next.1 x.2)

def unwritten (x : CardReveal × σ) : σ :=
  match x.1.rest with
  | [] => x.2
  | line :: lines =>
    lines.foldl (writeLine game) (if x.1.started then writeChars game line x.2 else writeLine game x.2 line)

variable {game}

theorem unwritten_step (x : CardReveal × σ) : unwritten game (step game x) = unwritten game x := by
  obtain ⟨⟨rest, started⟩, p⟩ := x
  rcases rest with _ | ⟨_ | ⟨c, cs⟩, lines⟩
  · rfl
  · cases started <;> cases lines <;> rfl
  · cases started <;> rfl

theorem unwritten_iterate (n : Nat) (x : CardReveal × σ) :
    unwritten game ((step game)^[n] x) = unwritten game x := by
  induction n with
  | zero => rfl
  | succ n ih => rw [Function.iterate_succ_apply', unwritten_step, ih]

theorem unwritten_of_nil {x : CardReveal × σ} (nil : x.1.rest = []) : unwritten game x = x.2 := by
  rw [unwritten, nil]

theorem unwritten_ofLines (lines : List String) (p : σ) :
    unwritten game (.ofLines lines, p) = writeCard game lines p := by
  cases lines <;> rfl

end CardReveal

end

/-! ## What is left of a card -/

namespace CardReveal

variable {σ : Type} [Presentation σ] [Audio σ] {game : Game} {r : CardReveal}

theorem left_eq_zero_iff : r.left = 0 ↔ r.rest = [] := by
  constructor
  · intro none
    obtain ⟨rest, started⟩ := r
    cases rest with
    | nil => rfl
    | cons line lines =>
      rw [left, List.map_cons, List.sum_cons] at none
      omega
  · exact left_eq_zero_of_nil

theorem left_next_eq (r : CardReveal) : r.next.2.left = r.left - 1 := by
  by_cases nil : r.rest = []
  · have same : r.next.2 = r := by rw [next, nil]
    rw [same, left_eq_zero_of_nil nil]
  · rw [← left_next nil, Nat.add_sub_cancel]

theorem left_iterate (n : Nat) (x : CardReveal × σ) : ((step game)^[n] x).1.left = x.1.left - n := by
  induction n with
  | zero => rfl
  | succ n ih => rw [Function.iterate_succ_apply', step, left_next_eq, ih, Nat.sub_sub]

theorem rest_of_last (game : Game) (more : r.rest ≠ []) (p : σ) :
    ((step game)^[r.left - 1 + 1] (r, p)).1.rest = [] := by
  have some := left_eq_zero_iff.not.2 more
  rw [← left_eq_zero_iff, left_iterate]
  show r.left - (r.left - 1 + 1) = 0
  omega

theorem written_of_last (game : Game) (more : r.rest ≠ []) (p : σ) :
    ((step game)^[r.left - 1 + 1] (r, p)).2 = unwritten game (r, p) := by
  rw [← unwritten_of_nil (rest_of_last game more p), unwritten_iterate]

def pause (game : Game) : CardStep → Nat
  | .char _ _ => game.config.timing.introChar
  | .lineEnd _ => game.config.timing.introLine
  | .finished => 0

def time (game : Game) (r : CardReveal) : Nat :=
  (r.rest.map fun line => line.length * game.config.timing.introChar + game.config.timing.introLine).sum

theorem time_next (game : Game) (r : CardReveal) :
    r.time game = pause game r.next.1 + r.next.2.time game := by
  obtain ⟨rest, started⟩ := r
  rcases rest with _ | ⟨_ | ⟨c, cs⟩, lines⟩
  · rfl
  · simp [time, next, pause]
  · simp only [time, next, pause, List.map_cons, List.sum_cons, List.length_cons, Nat.succ_mul]
    omega

theorem time_of_nil (game : Game) (nil : r.rest = []) : r.time game = 0 := by
  rw [time, nil, List.map_nil, List.sum_nil]

theorem time_iterate_succ (n : Nat) (x : CardReveal × σ) :
    ((step game)^[n] x).1.time game = pause game ((step game)^[n] x).1.next.1 +
      ((step game)^[n + 1] x).1.time game := by
  rw [Function.iterate_succ_apply', step, ← time_next]

theorem time_iterate_le (n : Nat) (x : CardReveal × σ) :
    ((step game)^[n] x).1.time game ≤ x.1.time game := by
  induction n with
  | zero => exact Nat.le_refl _
  | succ n ih =>
    rw [time_iterate_succ] at ih
    omega

theorem time_ofLines (game : Game) (lines : List String) :
    (ofLines lines).time game = game.config.timing.introChar * (lines.map String.length).sum +
      game.config.timing.introLine * lines.length := by
  induction lines with
  | nil => rfl
  | cons line lines ih =>
    have head : (ofLines (line :: lines)).time game =
        line.length * game.config.timing.introChar + game.config.timing.introLine +
          (ofLines lines).time game := by
      rw [← String.length_toList]
      rfl
    rw [head, ih, List.map_cons, List.sum_cons, List.length_cons, Nat.mul_add, Nat.mul_succ,
      Nat.mul_comm line.length]
    omega

end CardReveal

/-! ## The beats of a card -/

namespace Session

section
variable {σ : Type} [Presentation σ] [Audio σ] {game : Game} {s : Session σ} {r : CardReveal}

def cardBegun (lines : List String) (s : Session σ) : Session σ :=
  let s := { s with typing := true, introMode := true, waitingForInput := false }.suspend .introCard
  let s := s.onStage fun p => showCard (showTextbox p false) true
  { s with cardShown := true, card := some (.ofLines lines) }

def written (x : CardReveal × σ) (s : Session σ) : Session σ :=
  { s with card := some x.1, scene := { s.scene with stage := x.2 } }

/-- a step is taken, and the timer of the next one is set -/
theorem stepCard_of_more (game : Game) (card : s.card = some r) (more : r.rest ≠ []) :
    s.stepCard game = (s.written (CardReveal.step game (r, s.scene.stage))).schedule
      (CardReveal.pause game r.next.1) .cardTick := by
  obtain ⟨rest, started⟩ := r
  rcases rest with _ | ⟨_ | ⟨c, cs⟩, lines⟩
  · exact absurd rfl more
  · simp only [stepCard, card, CardReveal.next, CardReveal.step, CardReveal.put, CardReveal.pause, written]
    cases started <;> rfl
  · simp only [stepCard, card, CardReveal.next, CardReveal.step, CardReveal.put, CardReveal.pause, written,
      playSound, introBlip]
    cases game.assets.get? (game.soundKey game.config.audio.introBlip) <;> cases started <;> rfl

theorem stepCard_of_none (game : Game) (card : s.card = some r) (nil : r.rest = []) :
    s.stepCard game =
      { { s with card := none, typing := false }.resume with waitingForInput := true } := by
  simp only [stepCard, card, CardReveal.next, nil]

def cardRhythm (game : Game) (r : CardReveal) (s : Session σ) : Rhythm σ where
  kind := .cardTick
  epoch := s.epoch
  count := r.left - 1
  due k := s.now + (r.time game - ((CardReveal.step game)^[k + 1] (r, s.scene.stage)).1.time game)
  shows k := s.written ((CardReveal.step game)^[k + 1] (r, s.scene.stage))

theorem due_of_last (game : Game) (s : Session σ) (more : r.rest ≠ []) :
    (s.cardRhythm game r).due (s.cardRhythm game r).count = s.now + r.time game := by
  have none := CardReveal.time_of_nil game (CardReveal.rest_of_last game more s.scene.stage)
  show s.now + (r.time game -
    ((CardReveal.step game)^[r.left - 1 + 1] (r, s.scene.stage)).1.time game) = _
  rw [none, Nat.sub_zero]

/-- from one beat to the next there is the pause of a step -/
theorem later_due (within : s.now + r.time game ≤ endOfTime) (k : Nat) :
    later ((s.cardRhythm game r).due k)
        (CardReveal.pause game ((CardReveal.step game)^[k + 1] (r, s.scene.stage)).1.next.1) =
      (s.cardRhythm game r).due (k + 1) := by
  have time : ((CardReveal.step game)^[k + 1] (r, s.scene.stage)).1.time game =
      CardReveal.pause game ((CardReveal.step game)^[k + 1] (r, s.scene.stage)).1.next.1 +
        ((CardReveal.step game)^[k + 1 + 1] (r, s.scene.stage)).1.time game :=
    CardReveal.time_iterate_succ _ _
  have le : ((CardReveal.step game)^[k + 1] (r, s.scene.stage)).1.time game ≤ r.time game :=
    CardReveal.time_iterate_le _ _
  simp only [cardRhythm]
  unfold later
  omega

theorem lawful_cardRhythm (within : s.now + r.time game ≤ endOfTime) :
    (s.cardRhythm game r).Lawful game where
  epoch _ _ := rfl
  beats k more timers failed now := by
    have ahead : k < r.left - 1 := more
    have some : ((CardReveal.step game)^[k + 1] (r, s.scene.stage)).1.rest ≠ [] := by
      rw [Ne, ← CardReveal.left_eq_zero_iff, CardReveal.left_iterate]
      show ¬ r.left - (k + 1) = 0
      omega
    have due := later_due within k
    rw [← now] at due
    have stepped : (((s.cardRhythm game r).shows k).clocked timers failed).stepCard game = _ :=
      stepCard_of_more game rfl some
    have timer : (s.cardRhythm game r).timer (k + 1) = ⟨_, .cardTick, .epoch s.epoch⟩ :=
      congrArg (Timer.mk · .cardTick (.epoch s.epoch)) due.symm
    have shows : (s.cardRhythm game r).shows (k + 1) = s.written (CardReveal.step game _) :=
      congrArg (written · s) (Function.iterate_succ_apply' _ _ _)
    refine congrArg Turn.rests (stepped.trans ?_)
    rw [timer, shows]
    rfl

theorem follows_cardRhythm (within : s.now + r.time game ≤ endOfTime) (card : s.card = some r)
    (some : r.rest ≠ []) (h : (s.stepCard game).Brought game) :
    (s.cardRhythm game r).Follows game 0 (s.stepCard game) := by
  have time := CardReveal.time_next game r
  have due : later s.now (CardReveal.pause game r.next.1) =
      s.now + (r.time game - r.next.2.time game) := by
    unfold later
    omega
  refine ⟨Nat.zero_le _, ?_, ?_, h⟩
  · rw [stepCard_of_more game card some]
    exact ⟨_, _, rfl⟩
  · rw [stepCard_of_more game card some, cardRhythm, Rhythm.timer]
    exact (Timers.enter_perm _ _).mem_iff.2
      (List.mem_cons.2 (.inl (congrArg (Timer.mk · .cardTick (.epoch s.epoch)) due.symm)))

/-- while a card is being written, the player's key does nothing -/
theorem activate_of_card (h : s.Brought game) (started : s.started)
    (why : s.suspension = some .introCard) (unasked : s.waitingForInput = false) :
    s.activate game = some s := by
  have noLine : s.reveal.isRevealing = false := by
    rw [← Bool.not_eq_true, h.inMode.reveal, why]
    nofun
  have noMenu : s.isChoosing = false := by rw [isChoosing, why]
  rw [activate, if_pos started, pressed, noMenu, if_neg Bool.false_ne_true, unasked,
    if_neg Bool.false_ne_true, noLine, Bool.and_false, if_neg Bool.false_ne_true, Turn.settle]

end

end Session

/-! ## What is seen and heard -/

def Game.introBlips (game : Game) (failing : List String) : List SoundCall :=
  if (game.assets.get? (game.soundKey game.config.audio.introBlip)).isSome then
    SoundLog.accepted failing (game.soundKey game.config.audio.introBlip) game.config.audio.soundVolume
  else []

section
variable (game : Game)

theorem introBlip_eq (p : RecordingStage) :
    introBlip game p = { p with sound := p.sound.plays (game.introBlips p.sound.failing) } := by
  unfold introBlip Game.introBlips
  dsimp only
  cases game.assets.get? (game.soundKey game.config.audio.introBlip) with
  | none =>
    rw [Option.isSome_none, if_neg Bool.false_ne_true, SoundLog.plays_nil]
  | some locator =>
    rw [Option.isSome_some, if_pos rfl, ← SoundLog.playSound_eq _ _ locator]
    rfl

theorem push_ofList (text : List Char) (c : Char) :
    (String.ofList text).push c = String.ofList (text ++ [c]) := by
  rw [← String.toList_inj, String.toList_push, String.toList_ofList, String.toList_ofList]

theorem writeChars_recorded {shown : List String} (text cs : List Char)
    {p : RecordingStage} (last : p.screen.cardLines = shown ++ [String.ofList text]) :
    (writeChars game cs p).screen.cardLines = shown ++ [String.ofList (text ++ cs)] ∧
      (writeChars game cs p).sound =
        p.sound.plays (cs.flatMap fun _ => game.introBlips p.sound.failing) := by
  induction cs generalizing text p with
  | nil => exact ⟨by rw [List.append_nil]; exact last, (SoundLog.plays_nil _).symm⟩
  | cons c cs ih =>
    have pushed : (introBlip game (cardPushChar p c)).screen.cardLines =
        shown ++ [String.ofList (text ++ [c])] := by
      rw [introBlip_eq]
      show pushOnLast c p.screen.cardLines = _
      rw [last, pushOnLast_concat, push_ofList]
    obtain ⟨lines, sound⟩ := ih (text ++ [c]) pushed
    refine ⟨?_, ?_⟩
    · rw [List.append_assoc, List.singleton_append] at lines
      exact lines
    · refine sound.trans ?_
      rw [introBlip_eq, List.flatMap_cons, SoundLog.plays_append]
      rfl

theorem writeLine_recorded (line : List Char) (p : RecordingStage) :
    (writeLine game p line).screen.cardLines = p.screen.cardLines ++ [String.ofList line] ∧
      (writeLine game p line).sound =
        p.sound.plays (line.flatMap fun _ => game.introBlips p.sound.failing) :=
  writeChars_recorded game [] line rfl

/-- the lines stand on the card, and each character has made its blip -/
theorem writeCard_recorded (lines : List String) (p : RecordingStage) :
    (writeCard game lines p).screen.cardLines = p.screen.cardLines ++ lines ∧
      (writeCard game lines p).sound =
        p.sound.plays ((lines.flatMap String.toList).flatMap fun _ =>
          game.introBlips p.sound.failing) := by
  induction lines generalizing p with
  | nil => exact ⟨(List.append_nil _).symm, (SoundLog.plays_nil _).symm⟩
  | cons line lines ih =>
    obtain ⟨shown, heard⟩ := writeLine_recorded game line.toList p
    obtain ⟨shown', heard'⟩ := ih (writeLine game p line.toList)
    refine ⟨?_, ?_⟩
    · refine shown'.trans ?_
      rw [shown, String.ofList_toList, List.append_assoc, List.singleton_append]
    · refine heard'.trans ?_
      rw [heard, SoundLog.plays_failing, List.flatMap_cons, List.flatMap_append, SoundLog.plays_append]

end

/-! ## Playback -/

/-- when a card is done that begins at some moment -/
def cardEnd (game : Game) (lines : List String) (start : Nat) : Nat :=
  start + game.config.timing.introChar * (lines.map String.length).sum +
    game.config.timing.introLine * lines.length

/-- the card has been written on the stage that it found, and the player is asked to go on -/
structure Session.CardDone (game : Game) (lines : List String) (before : RecordingStage)
    (s : Session RecordingStage) : Prop where
  free : s.suspension = none
  still : s.typing = false
  asks : s.waitingForInput = true
  stage : s.stage = writeCard game lines (showCard (showTextbox before false) true)
  shown : s.stage.screen.cardLines = lines
  heard : s.stage.sound = before.sound.plays
    ((lines.flatMap String.toList).flatMap fun _ => game.introBlips before.sound.failing)
  lasts : ∀ moment, s.LastsUntil game moment

section
variable {game : Game} {lines : List String} {before : RecordingStage} {s : Session RecordingStage}

theorem cardDone_of_stepCard (lines : List String) (before : RecordingStage) {r : CardReveal}
    (card : s.card = some r) (nil : r.rest = []) (brought : (s.stepCard game).Brought game)
    (stage : s.stage = writeCard game lines (showCard (showTextbox before false) true)) :
    (s.stepCard game).CardDone game lines before := by
  rw [stepCard_of_none game card nil] at brought ⊢
  obtain ⟨shown, heard⟩ := writeCard_recorded game lines (showCard (showTextbox before false) true)
  refine ⟨rfl, rfl, rfl, stage, ?_, ?_, lastsUntil_of_free brought rfl⟩
  · exact (congrArg (fun p : RecordingStage => p.screen.cardLines) stage).trans shown
  · exact (congrArg RecordingStage.sound stage).trans heard

/-- in the end the timer finds the card written, and ends it -/
theorem card_written {b : Session RecordingStage} (some : lines ≠ [])
    (follows : (b.cardRhythm game (.ofLines lines)).Follows game 0 s)
    (lawful : (b.cardRhythm game (.ofLines lines)).Lawful game)
    (stage : b.scene.stage = showCard (showTextbox before false) true) :
    ∃ history c, s.Via game (cardEnd game lines b.now) history c ∧
      c.now = cardEnd game lines b.now ∧ c.CardDone game lines before := by
  have more : (CardReveal.ofLines lines).rest ≠ [] := List.map_eq_nil_iff.not.2 some
  have due := due_of_last game b more
  rw [CardReveal.time_ofLines, ← Nat.add_assoc, ← cardEnd] at due
  have written := CardReveal.written_of_last game more b.scene.stage
  rw [CardReveal.unwritten_ofLines] at written
  obtain ⟨-, entries, x, found, told, settles, fires⟩ := follows.ends lawful
  obtain ⟨⟨timers, failed, rfl⟩, now⟩ := found
  have done := cardDone_of_stepCard lines before rfl
    (CardReveal.rest_of_last game more _) (settles _ rfl) (written.trans (congrArg (writeCard game lines) stage))
  have via := (fires.elapsesVia rfl).via
  have moment : ((b.cardRhythm game (.ofLines lines)).timer _).due = cardEnd game lines b.now := due
  rw [moment] at via
  refine ⟨_, _, via, ?_, done⟩
  rw [stepCard_of_none game rfl (CardReveal.rest_of_last game more _)]
  exact now.trans due

end

/-- **Cards are written on time.** Let playback go on with an intro card at some moment. However the host
splits the time from then on, as long as it stops before the time of all characters and of a pause for
each line has passed, the card is still being written, and the player's key does nothing. Then, and not
before, the card is done: all runs that get there come by the same session, which waits for the player.
On the stage each line has been put on the card, empty ones too, and each character has been put on its
line and has made its blip, one after the other. -/
theorem cards_are_written_on_time (game : Game) {stage : RecordingStage} {deeds : List Deed}
    {s : Session RecordingStage} (reached : Reaches game (.ofStage stage) deeds (.goesOn s))
    {lines : List String} (takes : s.Takes game (.introCard lines))
    (within : cardEnd game lines s.now ≤ endOfTime) :
    ∃ s₁, s.turn game = .rests s₁ ∧
      (lines ≠ [] → ∀ limits : List UInt64,
        (∀ limit ∈ limits, limit.toNat < cardEnd game lines s.now) →
        ∃ history s', s₁.RunsTo game limits history s' ∧ s'.now = max s.now (latest limits) ∧
          s'.suspension = some .introCard ∧ s'.typing = true ∧ s'.waitingForInput = false ∧
          s'.activate game = some s') ∧
      ∃ history c, s₁.Via game (cardEnd game lines s.now) history c ∧
        c.now = cardEnd game lines s.now ∧ c.CardDone game lines s.stage := by
  obtain ⟨b, begun⟩ : ∃ b, b = ({ s with position := s.position + 1 } : Session RecordingStage).cardBegun
      lines := ⟨_, rfl⟩
  have rests : s.turn game = .rests (b.stepCard game) := begun ▸ takes.turn
  have brought := takes.brought reached rests
  have card : b.card = some (.ofLines lines) := by rw [begun]; rfl
  have now : b.now = s.now := by rw [begun]; rfl
  have stage : b.scene.stage = showCard (showTextbox s.stage false) true := by rw [begun]; rfl
  refine ⟨_, rests, ?_⟩
  rw [← now] at within ⊢
  by_cases none : lines = []
  · subst none
    refine ⟨fun some => absurd rfl some, [], _, .refl game _ _, ?_, ?_⟩
    · rw [stepCard_of_none game card rfl]
      rfl
    · exact cardDone_of_stepCard [] s.stage card rfl brought stage
  · have more : (CardReveal.ofLines lines).rest ≠ [] := List.map_eq_nil_iff.not.2 none
    have remaining : b.now + (CardReveal.ofLines lines).time game = cardEnd game lines b.now := by
      rw [CardReveal.time_ofLines, cardEnd, Nat.add_assoc]
    have lawful : (b.cardRhythm game (.ofLines lines)).Lawful game :=
      lawful_cardRhythm (remaining ▸ within)
    have follows := follows_cardRhythm (remaining ▸ within) card more brought
    refine ⟨fun _ limits early => ?_, card_written none follows lawful stage⟩
    have last : (b.cardRhythm game (.ofLines lines)).due _ = cardEnd game lines b.now :=
      (due_of_last game b more).trans remaining
    obtain ⟨j, history, s', run, follows', told, now', -, -⟩ := follows.runs_within lawful
      (fun limit m => last ▸ early limit m)
    have key := follows'.brought
    obtain ⟨timers, failed, rfl⟩ := follows'.shown
    have started : b.started := by
      rw [begun]
      exact takes.started
    have why : b.suspension = some .introCard := by rw [begun]; rfl
    have typing : b.typing = true := by rw [begun]; rfl
    have unasked : b.waitingForInput = false := by rw [begun]; rfl
    refine ⟨history, _, run, ?_, why, typing, unasked, activate_of_card key started why unasked⟩
    have same : (b.stepCard game).now = b.now := by
      rw [stepCard_of_more game card more]
      rfl
    exact same ▸ now'

/-- a card with an empty line is looked at before it is done -/
theorem card_with_empty_line_written :
    let lines := ["Hi", "", "A"]
    let game : Game :=
      { script := .ofEvents [.single (.introCard lines)]
        assets := .ofList [("blip-machine.wav", "m.wav")] }
    ∃ (deeds : List Deed) (s s₁ : Session RecordingStage),
      Reaches game (.ofStage {}) deeds (.goesOn s) ∧ s.Takes game (.introCard lines) ∧
        cardEnd game lines s.now ≤ endOfTime ∧ s.turn game = .rests s₁ ∧
        (∃ history s', s₁.RunsTo game [900, 100, 1649] history s' ∧ s'.typing = true ∧
          s'.activate game = some s') ∧
        ∃ history c, s₁.Via game 1650 history c ∧ c.now = 1650 ∧
          c.stage.screen.cardLines = ["Hi", "", "A"] ∧
          c.stage.sound = s.stage.sound.plays
            (List.replicate 3 (.sound "blip-machine.wav" game.config.audio.soundVolume)) := by
  intro lines game
  have playing : ∃ (deeds : List Deed) (s : Session RecordingStage),
      Reaches game (.ofStage {}) deeds (.goesOn s) ∧ s.Takes game (.introCard lines) ∧
        s.now = 0 ∧ s.stage.sound.failing = [] := by
    have opened : Reaches game (.ofStage ({} : RecordingStage)) [] (.goesOn _) := .opened .refl
    exact ⟨_, _, opened, ⟨rfl, rfl, rfl, rfl⟩, rfl, rfl⟩
  obtain ⟨deeds, s, reached, takes, now, heard⟩ := playing
  have ends : cardEnd game lines s.now = 1650 := by
    rw [now]
    decide +kernel
  have within : cardEnd game lines s.now ≤ endOfTime := by
    rw [ends]
    decide
  obtain ⟨s₁, turn, early, history, c, via, here, done⟩ :=
    cards_are_written_on_time game reached takes within
  rw [ends] at early via here
  have before : ∀ limit ∈ [900, 100, 1649], UInt64.toNat limit < 1650 := by
    rw [← latest_lt_iff (List.cons_ne_nil _ _)]
    decide
  obtain ⟨history', s', run, -, -, typing, -, key⟩ := early (by decide) [900, 100, 1649] before
  refine ⟨deeds, s, s₁, reached, takes, within, turn, ⟨history', s', run, typing, key⟩, history, c, via,
    here, done.shown, done.heard.trans ?_⟩
  have key : game.soundKey game.config.audio.introBlip = "blip-machine.wav" := by decide +kernel
  have found : game.assets.get? "blip-machine.wav" = some "m.wav" := by decide +kernel
  have blips : game.introBlips [] = [.sound "blip-machine.wav" game.config.audio.soundVolume] := by
    simp [Game.introBlips, key, found, SoundLog.accepted]
  have chars : lines.flatMap String.toList = ['H', 'i', 'A'] := by decide +kernel
  rw [heard, blips, chars]
  rfl

end VisualNovel
