import VisualNovel.Proofs.Session.Epoch

/-!
# Flags and suspensions agree

What holds playback is said twice: by the suspension, and by the flags and the things that are being
revealed. They agree at every moment of playback, and a session that has come to rest is busy, waits
for the player, or is at the end of the script.

* `InMode`             the flags that go with a suspension;
* `Reaches.inMode`     playback keeps the flags and the suspension in agreement;
* `Settled`            a session has nothing more to do by itself;
* `Continues.settled`  an operation leaves a session that has nothing more to do;
* `Session.HasWork`    what a timer goes on with is there;
* `flags_agree`        what this means for a session that operations bring about.
-/

set_option linter.unusedSectionVars false

namespace VisualNovel

open Session

/-- what is being revealed goes with what holds playback -/
structure InMode (why : Option Suspension) (typing : Bool) (reveal : LineReveal)
    (card : Option CardReveal)
    (flipbook : Option Flipbook) : Prop where
  typing : typing = true ↔ why = some .typing ∨ why = some .introCard
  reveal : reveal.isRevealing = true ↔ why = some .typing
  card : card.isSome = true ↔ why = some .introCard
  flipbook : flipbook.isSome = true ↔ why = some .sequence
  menu : ∀ options, why = some (.choice options) → options ≠ []

variable {σ : Type} [Presentation σ] [Audio σ]

def Session.InMode (s : Session σ) : Prop :=
  VisualNovel.InMode s.suspension s.typing s.reveal s.card s.flipbook

section
variable {s : Session σ} (game : Game)

theorem isBusy_eq_of_inMode (h : s.InMode) : s.isBusy = s.suspension.isSome := by
  unfold isBusy
  cases typing : s.typing with
  | false => rfl
  | true =>
    rcases h.typing.1 typing with e | e
    · simp [e]
    · simp [e]

theorem suspension_of_free (free : s.isBusy = false) : s.suspension = none := by
  unfold isBusy at free
  cases e : s.suspension with
  | none => rfl
  | some why => simp [e] at free

theorem nothing_of_free (h : s.InMode) (free : s.suspension = none) :
    s.typing = false ∧ s.reveal.isRevealing = false ∧ s.card = none ∧ s.flipbook = none := by
  refine ⟨?_, ?_, ?_, ?_⟩
  · rw [Bool.eq_false_iff]
    intro e
    simpa [free] using h.typing.1 e
  · rw [Bool.eq_false_iff]
    intro e
    simpa [free] using h.reveal.1 e
  · rw [← Option.not_isSome_iff_eq_none]
    intro e
    simpa [free] using h.card.1 e
  · rw [← Option.not_isSome_iff_eq_none]
    intro e
    simpa [free] using h.flipbook.1 e

/-! ## What keeps the agreement -/

theorem inMode_new (stage : σ) : (Session.ofStage stage).InMode := by
  refine ⟨?_, ?_, ?_, ?_, ?_⟩ <;> simp [ofStage]

theorem inMode_resume (h : s.InMode) (typing : s.suspension ≠ some .typing)
    (card : s.suspension ≠ some .introCard)
    (flipbook : s.suspension ≠ some .sequence) : s.resume.InMode := by
  refine ⟨?_, ?_, ?_, ?_, nofun⟩
  · simpa [resume, typing, card] using h.typing
  · simpa [resume, typing] using h.reveal
  · simpa [resume, card] using h.card
  · simpa [resume, flipbook] using h.flipbook

theorem inMode_completeLine (h : s.InMode) (line : Line) (scene : Scene σ) (completion : Completion)
    (revealing : s.suspension = some .typing) :
    ({ s with scene := scene, reveal := .done line }.completeLine game completion).InMode := by
  have card : s.card = none := by simpa [revealing] using h.card
  have flipbook : s.flipbook = none := by simpa [revealing] using h.flipbook
  cases completion with
  | autoAdvance =>
    refine ⟨?_, ?_, ?_, ?_, nofun⟩ <;>
      simp [completeLine, suspend, schedule, card, flipbook]
  | waitForInput =>
    refine ⟨?_, ?_, ?_, ?_, nofun⟩ <;>
      simp [completeLine, resume, card, flipbook]

theorem inMode_execute (cue : Cue) (held : s.isBusy = true → cue.suspends = false) (h : s.InMode) :
    (s.execute game cue).2.InMode := by
  have outcome := execute_outcome game cue s
  generalize (s.execute game cue).1 = flow at outcome
  generalize (s.execute game cue).2 = s' at outcome ⊢
  have nothing (suspends : cue.suspends = true) :
      s.typing = false ∧ s.reveal.isRevealing = false ∧ s.card = none ∧ s.flipbook = none := by
    refine nothing_of_free h (suspension_of_free ?_)
    rw [Bool.eq_false_iff]
    intro busy
    simp [held busy] at suspends
  cases outcome with
  | quiet _ d =>
    obtain ⟨_, _, _, _, rfl⟩ := d
    exact h
  | video | videoStarted | jumped | noMenu => exact h
  | menu | wait | waitVideo | line | card | noCard | sequence =>
    obtain ⟨typing, reveal, card, flipbook⟩ := nothing rfl
    refine ⟨?_, ?_, ?_, ?_, ?_⟩ <;>
      simp [suspend, resume, schedule, typing, reveal, card, flipbook]

theorem inMode_turn (h : s.InMode) : (s.turn game).session.InMode :=
  turn_keeps game (P := Session.InMode) (fun _ cue held h => inMode_execute game cue held h)
    (fun _ _ h => h)
    (fun _ _ h => h) s h

theorem inMode_pressed (h : s.InMode) : (s.pressed game).session.InMode := by
  have pressed := pressed_pressed game s
  generalize s.pressed game = turn at pressed ⊢
  cases pressed with
  | idle => exact h
  | goesOn => exact h
  | skipped revealing scene completion =>
    exact inMode_completeLine game h _ scene completion (h.reveal.1 (by simp [revealing]))

theorem inMode_chosen (index : Nat) (h : s.InMode) : (s.chosen game index).session.InMode := by
  have chosen := chosen_chosen game index s
  generalize s.chosen game index = turn at chosen ⊢
  cases chosen with
  | idle => exact h
  | taken e scene =>
    exact inMode_resume (s := { s with scene := scene }) h (by simp [e]) (by simp [e]) (by simp [e])
  | jumped e scene =>
    exact inMode_resume (s := { s with scene := scene }) h (by simp [e]) (by simp [e]) (by simp [e])

/-- the timer that the session waits for keeps the agreement -/
theorem inMode_fire {kind : TimerKind} (h : s.InMode) (awaits : s.awaits? = some kind) :
    (s.fire game kind).session.InMode := by
  have fired := fire_fired game kind s
  generalize s.fire game kind = turn at fired ⊢
  cases fired with
  | advance =>
    refine inMode_resume h ?_ ?_ ?_ <;>
    · intro e
      simp [awaits?, e, Suspension.timer?] at awaits
  | noLine | noCard | noFrames | noVideo | checked => exact h
  | typed revealing scene delay =>
    have e := h.reveal.1 (by simp [revealing])
    exact ⟨h.typing, by simp [schedule, e], h.card, h.flipbook, h.menu⟩
  | lineDone revealing scene completion =>
    exact inMode_completeLine game h _ scene completion (h.reveal.1 (by simp [revealing]))
  | carded isSome scene card delay =>
    have e := h.card.1 isSome
    exact ⟨h.typing, h.reveal, by simp [schedule, e], h.flipbook, h.menu⟩
  | cardDone isSome =>
    have e := h.card.1 isSome
    have reveal : s.reveal.isRevealing = false := by simpa [e] using h.reveal
    have flipbook : s.flipbook = none := by simpa [e] using h.flipbook
    refine ⟨?_, ?_, ?_, ?_, ?_⟩ <;> simp [resume, reveal, flipbook]
  | frame isSome scene flipbook delay =>
    have e := h.flipbook.1 isSome
    exact ⟨h.typing, h.reveal, h.card, by simp [schedule, e], h.menu⟩
  | framesDone isSome scene =>
    have e := h.flipbook.1 isSome
    have typing : s.typing = false := by simpa [e] using h.typing
    have reveal : s.reveal.isRevealing = false := by simpa [e] using h.reveal
    have card : s.card = none := by simpa [e] using h.card
    refine ⟨?_, ?_, ?_, ?_, ?_⟩ <;> simp [resume, typing, reveal, card]
  | polled => exact h
  | videoReached e => exact inMode_resume h (by simp [e]) (by simp [e]) (by simp [e])

end

variable {game : Game}

theorem Reaches.inMode {s₀ : Session σ} {deeds : List Deed} {turn : Turn σ}
    (h : Reaches game s₀ deeds turn)
    (inStep : s₀.InStep) (h₀ : s₀.InMode) : turn.session.InMode := by
  induction h with
  | refl => exact h₀
  | stage _ _ ih => exact ih
  | @opened _ s _ ih =>
    obtain ⟨scene, started, e, -⟩ := opened_session game s
    rw [e]
    exact ih
  | pressed _ _ ih => exact inMode_pressed game ih
  | chosen index _ ih => exact inMode_chosen game index ih
  | advanced _ _ ih => exact ih
  | turn _ _ ih => exact inMode_turn game ih
  | idle _ _ ih => exact ih
  | @fired _ s _ timer timers due live reached ih =>
    rcases inStep_live (reached.inStep inStep) due live with ⟨-, awaits, -⟩ | ⟨-, kind⟩
    · exact inMode_fire (s := { s with timers := timers }) game ih awaits
    · obtain ⟨failed, e⟩ := fire_videoCheck game { s with timers := timers }
      rw [kind, e]
      exact ih
  | dropped _ _ _ ih => exact ih
  | clock _ _ _ ih => exact ih

/-! ## Sessions at rest -/

def Session.Settled (game : Game) (s : Session σ) : Prop :=
  s.started = true →
    s.isBusy = true ∨ s.waitingForInput = true ∨ game.script.size ≤ s.position ∧ s.deferred = []

section
variable {s : Session σ} (game : Game)

theorem settled_completeLine (completion : Completion) :
    (s.completeLine game completion).Settled game := by
  intro _
  cases completion with
  | autoAdvance => exact .inl (by simp [completeLine, suspend, schedule, isBusy])
  | waitForInput => exact .inr (.inl rfl)

/-- a cue that holds playback leaves the session busy, or waiting for the player -/
theorem settled_of_hold {cue : Cue} (hold : (s.execute game cue).1 = .hold) :
    (s.execute game cue).2.Settled game := by
  intro _
  have outcome := execute_outcome game cue s
  rw [hold] at outcome
  generalize (s.execute game cue).2 = s' at outcome ⊢
  cases outcome with
  | noCard => exact .inr (.inl rfl)
  | _ => exact .inl (by simp [suspend, schedule, isBusy])

theorem settled_ofFlow {r : Flow × Session σ} (h : r.1 = .hold → r.2.Settled game) {s' : Session σ}
    (e : Turn.ofFlow r = .rests s') : s'.Settled game := by
  obtain ⟨flow, s₁⟩ := r
  cases flow with
  | goOn => cases e
  | hold =>
    cases e
    exact h rfl

theorem settled_turn {s' : Session σ} (e : s.turn game = .rests s') : s'.Settled game := by
  unfold turn at e
  split at e
  · rename_i busy
    cases e
    exact fun _ => .inl busy
  split at e
  · exact settled_ofFlow game (settled_of_hold game) e
  · rename_i deferred
    split at e
    · rename_i last
      cases e
      exact fun _ => .inr (.inr ⟨Array.getElem?_eq_none_iff.1 last, deferred⟩)
    · exact settled_ofFlow game (settled_of_hold game) e
    · cases e

theorem settled_fire {kind : TimerKind} (h : s.Settled game) {s' : Session σ}
    (e : s.fire game kind = .rests s') :
    s'.Settled game := by
  have fired := fire_fired game kind s
  rw [e] at fired
  cases fired with
  | noLine | noCard | noFrames | noVideo | typed | carded | frame | polled | checked => exact h
  | lineDone => exact settled_completeLine game _
  | cardDone => exact fun _ => .inr (.inl rfl)

end

theorem Reaches.settled {s₀ : Session σ} {deeds : List Deed} {turn : Turn σ}
    (h : Reaches game s₀ deeds turn)
    (h₀ : s₀.Settled game) {s : Session σ} (rests : turn = .rests s) : s.Settled game := by
  induction h generalizing s with
  | refl =>
    cases rests
    exact h₀
  | @stage _ s₁ f _ ih =>
    cases rests
    have settled : s₁.Settled game := ih rfl
    exact settled
  | @opened _ s₁ _ ih =>
    unfold Session.opened at rests
    split at rests
    · cases rests
      exact ih rfl
    · cases rests
  | @pressed _ s₁ _ _ ih =>
    have pressed := pressed_pressed game s₁
    rw [rests] at pressed
    cases pressed with
    | idle => exact ih rfl
    | skipped => exact settled_completeLine game _
  | @chosen _ s₁ index _ ih =>
    have chosen := chosen_chosen game index s₁
    rw [rests] at chosen
    cases chosen with
    | idle => exact ih rfl
  | advanced => cases rests
  | turn _ _ _ => exact settled_turn game rests
  | idle idle _ _ =>
    cases rests
    exact fun started => absurd (idle.symm.trans started) nofun
  | @fired _ s₁ _ timer timers _ _ _ ih =>
    have settled : s₁.Settled game := ih rfl
    exact settled_fire (s := { s₁ with timers := timers }) game settled rests
  | @dropped _ s₁ _ _ _ _ _ _ ih =>
    cases rests
    have settled : s₁.Settled game := ih rfl
    exact settled
  | @clock _ s₁ _ _ _ _ ih =>
    cases rests
    have settled : s₁.Settled game := ih rfl
    exact settled

/-- **An operation leaves a session that has nothing more to do by itself.** -/
theorem Continues.settled {s₀ s : Session σ} {deeds : List Deed} (h : Continues game s₀ deeds s)
    (h₀ : s₀.Settled game) : s.Settled game :=
  h.reaches.settled h₀ rfl

/-! ## What flags tell -/

/-- what a timer of some kind goes on with, or puts an end to, is there -/
def Session.HasWork (s : Session σ) : TimerKind → Prop
  | .typeTick => s.reveal.isRevealing = true
  | .cardTick => s.card.isSome = true
  | .frame => s.flipbook.isSome = true
  | .videoPoll => ∃ target, s.suspension = some (.videoWait target)
  | .advance => s.suspension = some .autoAdvance ∨ s.suspension = some .waiting
  | .videoCheck => True

theorem hasWork_of_awaits {s : Session σ} {kind : TimerKind} (h : s.InMode)
    (awaits : s.awaits? = some kind) : s.HasWork kind := by
  obtain ⟨why, held, ends⟩ := Option.bind_eq_some_iff.1 awaits
  cases why with
  | typing =>
    cases ends
    exact h.reveal.2 held
  | introCard =>
    cases ends
    exact h.card.2 held
  | sequence =>
    cases ends
    exact h.flipbook.2 held
  | videoWait target =>
    cases ends
    exact ⟨target, held⟩
  | autoAdvance =>
    cases ends
    exact .inl held
  | waiting =>
    cases ends
    exact .inr held
  | choice options => cases ends

theorem hasWork_of_mem_firings {s₀ s : Session σ} {deeds : List Deed}
    (h : Reaches game s₀ deeds (.rests s)) (inStep : s₀.InStep) (h₀ : s₀.InMode) {limit fuel : Nat}
    {f : Timer × Session σ} (m : f ∈ s.firings game limit fuel) : f.2.HasWork f.1.kind := by
  obtain ⟨_, s₁, timers, reached, due, found, live⟩ := h.of_mem_firings m
  have inMode₁ : s₁.InMode := reached.inMode inStep h₀
  have inStep₁ : s₁.InStep := reached.inStep inStep
  rw [found] at live ⊢
  rcases inStep_live inStep₁ due live with ⟨-, awaits, -⟩ | ⟨-, kind⟩
  · have inMode : ({ s₁ with timers := timers } : Session σ).InMode := inMode₁
    exact hasWork_of_awaits inMode awaits
  · rw [kind]
    trivial

/-- **The flags agree with what holds playback.** A session types exactly while a line or a card is
being revealed, a line is being revealed exactly while playback waits for one, a card and frames are
there exactly while playback waits for them, and an open menu has options. It is so between any two
turns and timers of what the session does next, too, and each timer that fires finds the line, the
card, the frames, the wait or the video that it is set for. -/
theorem flags_agree (game : Game) {deeds : List Deed} {s : Session σ} (h : Plays game deeds s) :
    ((s.typing = true ↔ s.suspension = some .typing ∨ s.suspension = some .introCard) ∧
      (s.reveal.isRevealing = true ↔ s.suspension = some .typing) ∧
      (s.card.isSome = true ↔ s.suspension = some .introCard) ∧
      (s.flipbook.isSome = true ↔ s.suspension = some .sequence) ∧
      ∀ options, s.suspension = some (.choice options) → options ≠ []) ∧
    (∀ deeds' turn, Reaches game s deeds' turn → turn.session.InMode) ∧
    ∀ limit fuel, ∀ f ∈ s.firings game limit fuel, f.2.HasWork f.1.kind := by
  obtain ⟨stage, run⟩ := h
  have inStep : s.InStep := run.reaches.inStep (inStep_new stage)
  have inMode : s.InMode := run.reaches.inMode (inStep_new stage) (inMode_new stage)
  refine ⟨⟨inMode.typing, inMode.reveal, inMode.card, inMode.flipbook, inMode.menu⟩, ?_, ?_⟩
  · intro deeds' turn later
    exact later.inMode inStep inMode
  · intro limit fuel f m
    exact hasWork_of_mem_firings .refl inStep inMode m

/-- a card without lines is done within its own event, and the line after it types -/
theorem types_after_a_blank_card :
    let game : Game :=
      { script := .ofEvents [.together [.introCard [], .dialogue ⟨"Hi", none, false, true⟩]] }
    ∃ (deeds : List Deed) (s : Session RecordingStage), Plays game deeds s ∧ s.cardShown = true ∧
      s.typing = true ∧ s.suspension = some .typing ∧ s.card.isSome = false := by
  intro game
  have plays : ∃ (deeds : List Deed) (s : Session RecordingStage), Plays game deeds s ∧
      s.cardShown = true ∧ s.reveal.isRevealing = true := by
    refine ⟨_, _, ⟨rehearsalStage, .operation .start .refl rfl⟩, ?_⟩
    decide +kernel
  obtain ⟨deeds, s, plays, shown, revealing⟩ := plays
  obtain ⟨typing, reveal, card, -⟩ := (flags_agree game plays).1
  have held := reveal.1 revealing
  refine ⟨deeds, s, plays, shown, typing.2 (.inl held), held, ?_⟩
  rw [← Bool.not_eq_true, card, held]
  nofun

end VisualNovel
