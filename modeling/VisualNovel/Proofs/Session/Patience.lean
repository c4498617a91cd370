import VisualNovel.Proofs.Session.Blocks
import VisualNovel.Proofs.Session.History
import VisualNovel.Proofs.Session.WakeUp
import VisualNovel.Stage.Recording

/-!
# Playback waits for the player

A session that waits for the player is held by nothing else, and carries out nothing until the player
goes on. Waiting does not make a session busy, so whatever leaves it waiting has to end the turn, too.
A block does not: it may come upon a card without lines, which is done as soon as it is shown, and
the block goes on with the session waiting. Nothing else goes on so.

* `Game.PassesCardAt`      a block comes upon such a card before a cue that holds playback;
* `Session.Unhurried`      a session does not reveal while it waits, and does neither before it starts;
* `Patient`                a session that waits is not suspended, and its turn is over;
* `together_waits`, `together_overruns`   a block leaves off waiting, or runs on while the session waits;
* `patient_keeps`          playback is patient as long as it takes no such block;
* `player_is_waited_for`   what this means for a session that operations bring about.
-/

set_option linter.unusedSectionVars false

namespace VisualNovel

open Session

/-! ## Blocks that pass over a card -/

/-- a card without lines is done as soon as it is shown -/
def Cue.isBlankCard : Cue → Bool
  | .introCard [] => true
  | _ => false

/-- a block comes upon a blank card before a cue that holds playback -/
def passesCard : List Cue → Bool
  | [] => false
  | cue :: cues => !cue.holds && (cue.isBlankCard || passesCard cues)

def Game.PassesCardAt (game : Game) (place : Nat) : Prop :=
  ∃ cues, game.script.events[place]? = some (.together cues) ∧ passesCard cues = true

variable {σ : Type} [Presentation σ] [Audio σ]

/-- a turn carries out something while the session waits, or leaves it waiting and is followed by
another turn -/
def Session.Overruns (game : Game) (s : Session σ) : Prop :=
  (∃ entry ∈ s.turnHistory game, entry.2.waitingForInput = true) ∨
    ∃ s₁, s.turn game = .goesOn s₁ ∧ s₁.waitingForInput = true

/-! ## Cues and blocks -/

section
variable (game : Game) {s : Session σ}

theorem Cue.isBlankCard_of_not_suspends {cue : Cue} (quiet : cue.suspends = false) :
    cue.isBlankCard = false := by
  cases cue <;> first | rfl | cases quiet

theorem Cue.holds_of_isBlankCard {cue : Cue} (blank : cue.isBlankCard = true) : cue.holds = false := by
  cases cue with
  | introCard lines =>
    cases lines with
    | nil => rfl
    | cons line lines => cases blank
  | _ => cases blank

theorem waiting_execute (cue : Cue) (h : s.waitingForInput = false) :
    (s.execute game cue).2.waitingForInput = cue.isBlankCard := by
  have outcome := execute_outcome game cue s
  generalize (s.execute game cue).1 = flow at outcome
  generalize (s.execute game cue).2 = s' at outcome ⊢
  cases outcome with
  | quiet quiet d =>
    obtain ⟨_, _, _, _, rfl⟩ := d
    rw [Cue.isBlankCard_of_not_suspends quiet]
    exact h
  | video | videoStarted | jumped | noMenu | menu | wait | waitVideo | sequence => exact h
  | line | card | noCard => rfl

/-- a busy session goes on with those cues of a block that neither suspend nor wait -/
theorem together_waits_of_busy (cues : List Cue) (busy : s.isBusy = true)
    (h : s.waitingForInput = false) :
    (s.together game cues).waitingForInput = false ∧
      ∀ entry ∈ s.togetherHistory game cues, entry.2.waitingForInput = false := by
  induction cues generalizing s with
  | nil => exact ⟨h, fun _ m => absurd m List.not_mem_nil⟩
  | cons cue cues ih =>
    simp only [together, togetherHistory, busy, Bool.true_and]
    cases quiet : cue.suspends with
    | true => exact ⟨h, fun _ m => absurd m List.not_mem_nil⟩
    | false =>
      have busy' := (busy_execute_of_not_suspends (s := s) game quiet).trans busy
      have h' := waiting_execute game cue h
      rw [Cue.isBlankCard_of_not_suspends quiet] at h'
      obtain ⟨waits, inside⟩ := ih busy' h'
      exact ⟨waits, List.forall_mem_cons.2 ⟨h, inside⟩⟩

theorem together_waits (cues : List Cue) (free : s.isBusy = false) (h : s.waitingForInput = false)
    (stays : passesCard cues = false) :
    (s.together game cues).waitingForInput = false ∧
      ∀ entry ∈ s.togetherHistory game cues, entry.2.waitingForInput = false := by
  induction cues generalizing s with
  | nil => exact ⟨h, fun _ m => absurd m List.not_mem_nil⟩
  | cons cue cues ih =>
    have busy' := (busy_execute_of_free game cue free).1
    have h' := waiting_execute game cue h
    simp only [together, togetherHistory, free, Bool.false_and, Bool.false_eq_true, if_false]
    rw [List.forall_mem_cons]
    cases holds : cue.holds with
    | true =>
      have blank : cue.isBlankCard = false := by
        rw [Bool.eq_false_iff]
        intro blank
        rw [Cue.holds_of_isBlankCard blank] at holds
        cases holds
      obtain ⟨waits, inside⟩ :=
        together_waits_of_busy game cues (busy'.trans holds) (h'.trans blank)
      exact ⟨waits, h, inside⟩
    | false =>
      simp only [passesCard, holds, Bool.not_false, Bool.true_and, Bool.or_eq_false_iff] at stays
      obtain ⟨waits, inside⟩ := ih (busy'.trans holds) (h'.trans stays.1) stays.2
      exact ⟨waits, h, inside⟩

theorem together_overruns (cues : List Cue) (free : s.isBusy = false)
    (h : s.waitingForInput = false) (passes : passesCard cues = true) :
    (∃ entry ∈ s.togetherHistory game cues, entry.2.waitingForInput = true) ∨
      (s.together game cues).waitingForInput = true := by
  induction cues generalizing s with
  | nil => cases passes
  | cons cue cues ih =>
    simp only [passesCard, Bool.and_eq_true, Bool.not_eq_true', Bool.or_eq_true] at passes
    obtain ⟨holds, passes⟩ := passes
    have busy' := (busy_execute_of_free game cue free).1.trans holds
    have h' := waiting_execute game cue h
    simp only [together, togetherHistory, free, Bool.false_and, Bool.false_eq_true, if_false]
    cases blank : cue.isBlankCard with
    | true =>
      have waits := h'.trans blank
      cases cues with
      | nil => exact .inr waits
      | cons next cues =>
        refine .inl ⟨(.does next, (s.execute game cue).2), List.mem_cons_of_mem _ ?_, waits⟩
        simp only [togetherHistory, busy', Bool.false_and, Bool.false_eq_true, if_false]
        exact List.mem_cons_self
    | false =>
      have passes : passesCard cues = true := passes.resolve_left (by rw [blank]; exact Bool.false_ne_true)
      refine (ih busy' (h'.trans blank) passes).imp_left ?_
      rintro ⟨entry, m, waits⟩
      exact ⟨entry, List.mem_cons_of_mem _ m, waits⟩

theorem turnHistory_together {cues : List Cue} (free : s.isBusy = false) (held : s.deferred = [])
    (next : game.script.events[s.position]? = some (.together cues)) :
    s.turnHistory game =
      (.takes s.position, s) :: togetherHistory game cues { s with position := s.position + 1 } := by
  simp [turnHistory, free, held, next]

/-- a turn that takes a block which passes over a card does not wait for the player -/
theorem overruns_of_passesCardAt {place : Nat} (taken : .takes place ∈ s.turnDeeds game)
    (passes : game.PassesCardAt place) : s.Overruns game := by
  obtain ⟨cues, found, passes⟩ := passes
  have turned := turn_turned game s
  generalize deeds_eq : s.turnDeeds game = deeds at turned taken
  generalize turn_eq : s.turn game = turn at turned
  cases turned with
  | busy | ended => cases taken
  | deferred => cases List.mem_singleton.1 taken
  | @single cue free held next =>
    simp only [List.mem_cons, Deed.takes.injEq, reduceCtorEq, List.not_mem_nil, or_false] at taken
    rw [taken, next] at found
    cases found
  | @together others free held next =>
    obtain ⟨done, _, -, deeds, -⟩ := together_split game others { s with position := s.position + 1 }
    rw [deeds] at taken
    simp only [List.mem_cons, Deed.takes.injEq, List.mem_map, reduceCtorEq, and_false, exists_false,
      or_false] at taken
    rw [taken, next] at found
    cases found
    have history := turnHistory_together game free held next
    cases waits : s.waitingForInput with
    | true => exact .inl ⟨_, by rw [history]; exact List.mem_cons_self, waits⟩
    | false =>
      rcases together_overruns (s := { s with position := s.position + 1 }) game cues free waits
        passes with ⟨entry, m, found⟩ | after
      · exact .inl ⟨entry, by rw [history]; exact List.mem_cons_of_mem _ m, found⟩
      · exact .inr ⟨_, turn_eq, after⟩

/-! ## Nothing is revealed while a session waits -/

/-- a session does not reveal anything while it waits, and does neither before it is started -/
structure Session.Unhurried (s : Session σ) : Prop where
  idle : s.started = false → s.suspension = none ∧ s.waitingForInput = false
  apart : s.typing = true → s.waitingForInput = false

theorem unhurried_new (stage : σ) : (Session.ofStage stage).Unhurried :=
  ⟨fun _ => ⟨rfl, rfl⟩, nofun⟩

theorem apart_execute (cue : Cue) (h : s.typing = true → s.waitingForInput = false) :
    (s.execute game cue).2.typing = true → (s.execute game cue).2.waitingForInput = false := by
  have outcome := execute_outcome game cue s
  generalize (s.execute game cue).1 = flow at outcome
  generalize (s.execute game cue).2 = s' at outcome ⊢
  cases outcome with
  | quiet _ d =>
    obtain ⟨_, _, _, _, rfl⟩ := d
    exact h
  | video | videoStarted | jumped | noMenu | menu | wait | waitVideo | sequence => exact h
  | line | card => exact fun _ => rfl
  | noCard => nofun

theorem Session.Unhurried.of_started {s : Session σ} (started : s.started = true)
    (apart : s.typing = true → s.waitingForInput = false) : s.Unhurried :=
  ⟨fun idle => absurd (idle.symm.trans started) nofun, apart⟩

theorem typing_completeLine (completion : Completion) :
    (s.completeLine game completion).typing = false := by
  cases completion <;> rfl

end

variable {game : Game}

/-- the timer that the session waits for leaves it waiting only if nothing is being revealed -/
theorem unhurried_fire {s : Session σ} {kind : TimerKind} (awaits : s.awaits? = some kind)
    (h : s.Unhurried) : (s.fire game kind).session.Unhurried := by
  have started : s.started = true := by
    rw [← Bool.not_eq_false]
    intro idle
    rw [awaits?, (h.idle idle).1] at awaits
    cases awaits
  refine .of_started ((frame_fire game kind s).1.trans started) ?_
  have fired := fire_fired game kind s
  generalize s.fire game kind = turn at fired ⊢
  cases fired with
  | lineDone _ scene completion =>
    intro typing
    rw [Turn.session_rests, typing_completeLine] at typing
    cases typing
  | cardDone =>
    intro typing
    cases typing
  | _ => exact h.apart

theorem Reaches.unhurried {s₀ : Session σ} {deeds : List Deed} {turn : Turn σ}
    (h : Reaches game s₀ deeds turn) (inStep : s₀.InStep) (h₀ : s₀.Unhurried) :
    turn.session.Unhurried := by
  induction h with
  | refl => exact h₀
  | stage _ _ ih => exact ⟨ih.idle, ih.apart⟩
  | @opened _ s _ ih =>
    unfold Session.opened
    split
    · exact ih
    · exact .of_started rfl ih.apart
  | @pressed _ s started _ ih =>
    have started' := (frame_pressed game s).1.trans started
    refine .of_started started' ?_
    have pressed := pressed_pressed game s
    generalize s.pressed game = turn at pressed ⊢
    cases pressed with
    | idle => exact ih.apart
    | goesOn => exact fun _ => rfl
    | skipped _ scene completion =>
      intro typing
      rw [Turn.session_rests, typing_completeLine] at typing
      cases typing
  | @chosen _ s index _ ih =>
    have chosen := chosen_chosen game index s
    generalize s.chosen game index = turn at chosen ⊢
    cases chosen with
    | idle => exact ih
    | taken menu | jumped menu =>
      refine ⟨fun idle => ?_, ih.apart⟩
      have free := (ih.idle idle).1
      rw [Turn.session_rests, menu] at free
      cases free
  | advanced _ _ ih => exact ih
  | @turn _ s started _ ih =>
    exact .of_started (started_turn game started)
      (turn_keeps game (P := fun s => s.typing = true → s.waitingForInput = false)
        (fun _ cue _ h => apart_execute game cue h) (fun _ _ h => h) (fun _ _ h => h) s ih.apart)
  | idle _ _ ih => exact ih
  | @fired _ s _ timer timers due live reached ih =>
    rcases inStep_live (reached.inStep inStep) due live with ⟨-, awaits, -⟩ | ⟨-, kind⟩
    · exact unhurried_fire (s := { s with timers := timers }) awaits ⟨ih.idle, ih.apart⟩
    · obtain ⟨failed, e⟩ := fire_videoCheck game { s with timers := timers }
      rw [kind, e]
      exact ⟨ih.idle, ih.apart⟩
  | dropped _ _ _ ih => exact ⟨ih.idle, ih.apart⟩
  | clock _ _ _ ih => exact ⟨ih.idle, ih.apart⟩

/-! ## Patience -/

/-- a session that waits is not suspended, and its turn is over; nothing of the kind is so before
the start -/
structure Patient (turn : Turn σ) : Prop where
  waits : turn.session.waitingForInput = true → turn.session.suspension = none
  turned : ∀ s, turn = .goesOn s → s.waitingForInput = false

theorem Patient.of_not_waiting {turn : Turn σ} (h : turn.session.waitingForInput = false) :
    Patient turn := by
  refine ⟨fun waits => absurd (h.symm.trans waits) nofun, ?_⟩
  rintro s rfl
  exact h

theorem Patient.of_rests {s : Session σ} (h : s.waitingForInput = true → s.suspension = none) :
    Patient (.rests s) := by
  refine ⟨h, ?_⟩
  rintro s' ⟨⟩

/-- what holds a session for anything but the player does not make it wait -/
theorem Patient.not_waiting {turn : Turn σ} (h : Patient turn)
    (held : turn.session.suspension ≠ none) : turn.session.waitingForInput = false := by
  rw [Bool.eq_false_iff]
  exact fun waits => held (h.waits waits)

section
variable (game : Game) {s : Session σ}

theorem patient_execute (cue : Cue) (h : s.waitingForInput = false) :
    Patient (.ofFlow (s.execute game cue)) := by
  have outcome := execute_outcome game cue s
  generalize s.execute game cue = result at outcome ⊢
  obtain ⟨flow, s'⟩ := result
  dsimp only at outcome
  cases outcome with
  | quiet _ d =>
    obtain ⟨_, _, _, _, rfl⟩ := d
    exact .of_not_waiting h
  | video | videoStarted | jumped | noMenu | menu | wait | waitVideo | sequence =>
    exact .of_not_waiting h
  | line | card => exact .of_not_waiting rfl
  | noCard => exact .of_rests fun _ => rfl

theorem patient_completeLine (completion : Completion) (h : s.waitingForInput = false) :
    Patient (.rests (s.completeLine game completion)) := by
  cases completion with
  | autoAdvance => exact .of_not_waiting h
  | waitForInput => exact .of_rests fun _ => rfl

theorem patient_turn (h : s.waitingForInput = false)
    (stays : ∀ place, .takes place ∈ s.turnDeeds game → ¬ game.PassesCardAt place) :
    Patient (s.turn game) := by
  have turned := turn_turned game s
  generalize s.turnDeeds game = deeds at turned stays
  generalize s.turn game = turn at turned ⊢
  cases turned with
  | busy | ended => exact .of_not_waiting h
  | @deferred cue cues => exact patient_execute (s := { s with deferred := cues }) game cue h
  | @single cue =>
    exact patient_execute (s := { s with position := s.position + 1 }) game cue h
  | @together cues free held next =>
    have stays : passesCard cues = false := by
      rw [Bool.eq_false_iff]
      exact fun passes => stays s.position List.mem_cons_self ⟨cues, next, passes⟩
    exact .of_not_waiting
      (together_waits (s := { s with position := s.position + 1 }) game cues free h stays).1

/-- nothing of such a turn is carried out while the session waits -/
theorem turnHistory_waits (h : s.waitingForInput = false)
    (stays : ∀ place, .takes place ∈ s.turnDeeds game → ¬ game.PassesCardAt place) :
    ∀ entry ∈ s.turnHistory game, entry.2.waitingForInput = false := by
  intro entry m
  cases free : s.isBusy with
  | true => simp [turnHistory, free] at m
  | false =>
    cases held : s.deferred with
    | cons cue cues =>
      simp only [turnHistory, free, held, Bool.false_eq_true, if_false, List.mem_singleton] at m
      rw [m]
      exact h
    | nil =>
      cases next : game.script.events[s.position]? with
      | none => simp [turnHistory, free, held, next] at m
      | some event =>
        cases event with
        | single cue =>
          simp only [turnHistory, free, held, next, Bool.false_eq_true, if_false, List.mem_cons,
            List.not_mem_nil, or_false] at m
          rcases m with rfl | rfl <;> exact h
        | together cues =>
          have taken : .takes s.position ∈ s.turnDeeds game := by
            simp [turnDeeds, free, held, next]
          have stays : passesCard cues = false := by
            rw [Bool.eq_false_iff]
            exact fun passes => stays s.position taken ⟨cues, next, passes⟩
          rw [turnHistory_together game free held next, List.mem_cons] at m
          rcases m with rfl | m
          · exact h
          · exact (together_waits (s := { s with position := s.position + 1 }) game cues free h
              stays).2 entry m

theorem patient_pressed (h : Patient (.rests s)) (inMode : s.InMode) : Patient (s.pressed game) := by
  have pressed := pressed_pressed game s
  generalize s.pressed game = turn at pressed ⊢
  cases pressed with
  | idle => exact h
  | goesOn => exact .of_not_waiting rfl
  | skipped revealing scene completion =>
    have typing : s.suspension = some .typing := inMode.reveal.1 (by simp [revealing])
    exact patient_completeLine (s := { s with scene := scene, reveal := .done _ }) game completion
      (h.not_waiting (by simp [typing]))

theorem patient_chosen (index : Nat) (h : Patient (.rests s)) : Patient (s.chosen game index) := by
  have chosen := chosen_chosen game index s
  generalize s.chosen game index = turn at chosen ⊢
  cases chosen with
  | idle => exact h
  | taken menu | jumped menu => exact .of_not_waiting (h.not_waiting (by simp [menu]))

/-- the timer that the session waits for finds it suspended, so not waiting for the player -/
theorem patient_fire {kind : TimerKind} (h : Patient (.rests s)) (awaits : s.awaits? = some kind) :
    Patient (s.fire game kind) := by
  have held : s.waitingForInput = false := by
    refine h.not_waiting fun free => ?_
    rw [Turn.session_rests] at free
    rw [awaits?, free] at awaits
    cases awaits
  have fired := fire_fired game kind s
  generalize s.fire game kind = turn at fired ⊢
  cases fired with
  | lineDone _ scene completion =>
    exact patient_completeLine (s := { s with scene := scene, reveal := .done _ }) game completion
      held
  | cardDone => exact .of_rests fun _ => rfl
  | _ => exact .of_not_waiting held

end

def PatientAt (game : Game) (stage : σ) (deeds : List Deed) (turn : Turn σ) : Prop :=
  Reaches game (.ofStage stage) deeds turn ∧
    ((∀ place, .takes place ∈ deeds → ¬ game.PassesCardAt place) → Patient turn)

theorem patient_keeps (game : Game) (stage : σ) :
    Keeps game (· ≠ .advance) (PatientAt game stage) where
  turn started h := by
    obtain ⟨reached, patient⟩ := h
    refine ⟨reached.turn started, fun stays => ?_⟩
    have waits := (patient fun place m => stays place (List.mem_append_left _ m)).turned _ rfl
    exact patient_turn game waits fun place m => stays place (List.mem_append_right _ m)
  idle idle h := ⟨h.1.idle idle, fun stays => .of_not_waiting ((h.2 stays).turned _ rfl)⟩
  fired {_ s _ timer timers} due live h := by
    obtain ⟨reached, patient⟩ := h
    refine ⟨reached.fired due live, fun stays => ?_⟩
    have patient := patient fun place m => stays place (List.mem_append_left _ m)
    rcases inStep_live (reached.inStep (inStep_new stage)) due live with ⟨-, awaits, -⟩ | ⟨-, kind⟩
    · exact patient_fire (s := { s with timers := timers }) game (.of_rests patient.waits) awaits
    · obtain ⟨failed, e⟩ := fire_videoCheck game { s with timers := timers }
      rw [kind, e]
      exact .of_rests patient.waits
  dropped due stale h := ⟨h.1.dropped due stale, fun stays => .of_rests (h.2 stays).waits⟩
  clock le nothing h := ⟨h.1.clock le nothing, fun stays => .of_rests (h.2 stays).waits⟩
  opened {_ s} h := by
    obtain ⟨reached, patient⟩ := h
    refine ⟨reached.opened, fun stays => ?_⟩
    have unhurried := reached.unhurried (inStep_new stage) (unhurried_new stage)
    unfold Session.opened
    split
    · exact patient stays
    · rename_i idle
      exact .of_not_waiting (unhurried.idle (Bool.not_eq_true _ ▸ idle)).2
  pressed _ started h :=
    ⟨h.1.pressed started, fun stays =>
      patient_pressed game (h.2 stays) (h.1.inMode (inStep_new stage) (inMode_new stage))⟩
  chosen index h := ⟨h.1.chosen index, fun stays => patient_chosen game index (h.2 stays)⟩
  advanced allowed := absurd rfl allowed
  stage _ h := ⟨h.1.stage _, fun stays => .of_rests (h.2 stays).waits⟩

/-! ## Until the player goes on -/

structure Session.Halted (s : Session σ) (deeds : List Deed) : Prop where
  started : s.started = true
  waits : s.waitingForInput = true
  free : s.suspension = none
  inStep : s.InStep
  nothing : actsIn deeds = []

/-- a session that waits goes on waiting, whatever its host does but press the key or advance -/
theorem halted_keeps (game : Game) :
    Keeps (σ := σ) game (fun o => o ≠ .advance ∧ o ≠ .activate)
      fun deeds turn => ∃ s : Session σ, turn = .rests s ∧ s.Halted deeds where
  turn _ h := by
    obtain ⟨_, ⟨⟩, -⟩ := h
  idle _ h := by
    obtain ⟨_, ⟨⟩, -⟩ := h
  fired {_ s _ timer timers} due live h := by
    obtain ⟨_, ⟨⟩, h⟩ := h
    rcases inStep_live h.inStep due live with ⟨-, awaits, -⟩ | ⟨-, kind⟩
    · rw [awaits?, h.free] at awaits
      cases awaits
    · obtain ⟨failed, e⟩ := fire_videoCheck game { s with timers := timers }
      rw [kind, e]
      have popped := inStep_popped h.inStep due
      refine ⟨_, rfl, h.started, h.waits, h.free, popped, ?_⟩
      rw [actsIn_append, h.nothing, actsIn_fires, List.append_nil]
  dropped {_ s _ _ timers} due _ h := by
    obtain ⟨_, ⟨⟩, h⟩ := h
    exact ⟨_, rfl, h.started, h.waits, h.free, inStep_popped h.inStep due, h.nothing⟩
  clock _ _ h := by
    obtain ⟨_, ⟨⟩, h⟩ := h
    exact ⟨_, rfl, h.started, h.waits, h.free, h.inStep, h.nothing⟩
  opened {_ s} h := by
    obtain ⟨_, ⟨⟩, h⟩ := h
    refine ⟨s, ?_, h⟩
    rw [Session.opened, if_pos h.started]
  pressed allowed := absurd rfl allowed.2
  chosen {_ s} index h := by
    obtain ⟨_, ⟨⟩, h⟩ := h
    refine ⟨s, ?_, h⟩
    simp only [Session.chosen, h.free]
  advanced allowed := absurd rfl allowed.1
  stage _ h := by
    obtain ⟨_, ⟨⟩, h⟩ := h
    exact ⟨_, rfl, h.started, h.waits, h.free, h.inStep, h.nothing⟩

/-- **Playback waits for the player, but for blocks that pass over a card.** Let the host start the
session, press the player's key, choose options and run the clock, in any order. As long as no block
is taken that comes upon a card without lines before a cue that holds playback, a session that waits
for the player is not suspended and reveals nothing, no event is taken and no cue is carried out, held
back or not, while the session waits, and it waits until the player's key is pressed. A turn that
takes such a block carries out a cue while the session waits, or goes on to the next turn so. -/
theorem player_is_waited_for (game : Game) :
    (∀ (stage : σ) (deeds : List Deed) (s : Session σ),
      ContinuesWithin (· ≠ .advance) game (.ofStage stage) deeds s →
      (∀ place, .takes place ∈ deeds → ¬ game.PassesCardAt place) →
      (s.waitingForInput = true → s.suspension = none ∧ s.typing = false) ∧
      (∀ o, o ≠ Operation.advance →
        (∀ place, .takes place ∈ o.deeds game s → ¬ game.PassesCardAt place) →
        ∀ entry ∈ o.history game s, entry.1.timer? = none → entry.2.waitingForInput = false) ∧
      (s.waitingForInput = true → ∀ deeds' s',
        ContinuesWithin (fun o => o ≠ .advance ∧ o ≠ .activate) game s deeds' s' →
          actsIn deeds' = [] ∧ s'.waitingForInput = true)) ∧
    ∀ (s : Session σ) (place : Nat), .takes place ∈ s.turnDeeds game → game.PassesCardAt place →
      s.Overruns game := by
  refine ⟨fun stage deeds s host stays => ?_, fun s place => overruns_of_passesCardAt game⟩
  have at_rest : PatientAt game stage deeds (.rests s) :=
    host.keeps (patient_keeps game stage) ⟨.refl, fun _ => .of_not_waiting rfl⟩
  have inStep : s.InStep := at_rest.1.inStep (inStep_new stage)
  have inMode : s.InMode := at_rest.1.inMode (inStep_new stage) (inMode_new stage)
  have unhurried : s.Unhurried := at_rest.1.unhurried (inStep_new stage) (unhurried_new stage)
  have free (waits : s.waitingForInput = true) : s.suspension = none := (at_rest.2 stays).waits waits
  refine ⟨fun waits => ⟨free waits, (nothing_of_free inMode (free waits)).1⟩,
    fun o allowed stays' entry m act => ?_, fun waits deeds' s' host' => ?_⟩
  · rcases (patient_keeps game stage).of_mem_history allowed at_rest m with
      ⟨before, s₁, reached, now, within⟩ | ⟨timer, e⟩
    · have stays₁ : ∀ place, .takes place ∈ before ++ s₁.turnDeeds game →
          ¬ game.PassesCardAt place := by
        intro place taken
        rcases List.mem_append.1 (within.mem taken) with taken | taken
        · exact stays place taken
        · exact stays' place taken
      have waits₁ := (reached.2 fun place taken => stays₁ place (List.mem_append_left _ taken)).turned _ rfl
      exact turnHistory_waits game waits₁
        (fun place taken => stays₁ place (List.mem_append_right _ taken)) entry now
    · rw [e] at act
      cases act
  · have started : s.started = true := by
      rw [← Bool.not_eq_false]
      intro idle
      exact absurd ((unhurried.idle idle).2.symm.trans waits) nofun
    obtain ⟨_, ⟨⟩, halted⟩ :=
      host'.keeps (halted_keeps game) ⟨s, rfl, started, waits, free waits, inStep, rfl⟩
    exact ⟨halted.nothing, halted.waits⟩

/-- a card without lines behind a line of its block: it is held back until the player goes on -/
theorem blank_card_held_back :
    let line : Cue := .dialogue ⟨"Hi", none, false, false⟩
    let game : Game :=
      { script := .ofEvents [.together [line, .introCard []], .single (.sound "ding")]
        assets := .ofList [("ding", "ding.wav")] }
    ∃ deeds, ∃ s : Session RecordingStage,
      ContinuesWithin (· ≠ .advance) game (.ofStage {}) deeds s ∧ s.waitingForInput = true ∧
      s.deferred = [.introCard []] ∧ s.suspension = none ∧ s.typing = false ∧
      ∀ deeds' s', ContinuesWithin (fun o => o ≠ .advance ∧ o ≠ .activate) game s deeds' s' →
        actsIn deeds' = [] ∧ s'.waitingForInput = true := by
  intro line game
  have plays : ∃ deeds, ∃ s : Session RecordingStage,
      ContinuesWithin (· ≠ .advance) game (.ofStage {}) deeds s ∧
      s.waitingForInput = true ∧ s.deferred = [.introCard []] :=
    ⟨_, _, .operation (.runUntil 1000 20) nofun (.operation .start nofun .refl rfl) rfl, rfl, rfl⟩
  obtain ⟨deeds, s, plays, waits, held⟩ := plays
  have whole (place : Nat) : ¬ game.PassesCardAt place := by
    rintro ⟨cues, found, passes⟩
    have stays : ∀ event ∈ game.script.events.toList, passesCard event.cues = false := by
      decide +kernel
    have none := stays (.together cues) (Array.mem_toList_iff.2 (Array.mem_of_getElem? found))
    cases none.symm.trans passes
  obtain ⟨free, -, halted⟩ := (player_is_waited_for game).1 _ deeds s plays fun place _ => whole place
  exact ⟨deeds, s, plays, waits, held, (free waits).1, (free waits).2, halted waits⟩

/-- after a block that is a card without lines, a sound is played and a pause begins while the session
waits -/
theorem sound_behind_a_blank_card :
    let block : Event := .together [.introCard []]
    let game : Game :=
      { script := .ofEvents [block, .single (.sound "ding"), .single (.wait 1)]
        assets := .ofList [("ding", "ding.wav")] }
    (∃ deeds, ∃ s : Session RecordingStage,
      ContinuesWithin (· ≠ .advance) game (.ofStage {}) deeds s ∧
        s.waitingForInput = true ∧ s.suspension.isSome = true) ∧
    ∃ entry ∈ Operation.start.history game (.ofStage ({} : RecordingStage)),
      entry.1.timer? = none ∧ entry.2.waitingForInput = true := by
  intro block game
  refine ⟨⟨_, _, .operation .start nofun .refl rfl, ?_⟩, ?_⟩
  · decide +kernel
  · have found : (Operation.start.history game (.ofStage ({} : RecordingStage))).any
        (fun entry => entry.1.timer?.isNone && entry.2.waitingForInput) = true := by
      decide +kernel
    obtain ⟨entry, m, both⟩ := List.any_eq_true.1 found
    rw [Bool.and_eq_true, Option.isNone_iff_eq_none] at both
    exact ⟨entry, m, both⟩

end VisualNovel
