import VisualNovel.Proofs.Session.Clock
import VisualNovel.Proofs.Session.Modes

/-!
# Wake-ups

A session that is suspended for a timer must have that timer pending, or nothing but the player can
make it go on. A jump starts a new epoch, too, and a block may jump after one of its cues has
suspended the session: then the timer is lost. It is lost in no other way.

* `Game.cutsOff`           a block jumps while one of its cues holds playback for a timer;
* `Session.Wakes`          the timer that the session waits for is pending;
* `Session.CutOff`         the session waits for a timer that will not come;
* `wakes_turn`, `cutOff_turn`   what a turn leads to, by whether it takes such a block;
* `Reaches.wakes`          as long as no such block is taken, the timer is pending;
* `fires_of_wakes`         a timer that is pending fires, if the clock runs on.
-/

set_option linter.unusedSectionVars false

namespace VisualNovel

open Session

/-! ## Blocks that cut themselves off -/

/-- the cues that hold playback whenever they are carried out; an empty card or menu does not -/
def Cue.holds : Cue → Bool
  | .dialogue _ | .wait _ | .waitVideo _ | .sequence _ _ _ => true
  | .introCard lines => !lines.isEmpty
  | .choice options => !options.isEmpty
  | _ => false

def Cue.isMenu : Cue → Bool
  | .choice _ => true
  | _ => false

def Game.jumps (game : Game) : Cue → Bool
  | .jump target => (game.script.find? target).isSome
  | _ => false

/-- the first cue that holds playback waits for a timer, and the block jumps before the next cue
that would hold it too -/
def Game.cutsOff (game : Game) : List Cue → Bool
  | [] => false
  | cue :: cues =>
    if cue.holds then !cue.isMenu && (cues.takeWhile fun c => !c.suspends).any game.jumps
    else game.cutsOff cues

def Game.CutsOffAt (game : Game) (place : Nat) : Prop :=
  ∃ event, game.script.events[place]? = some event ∧ game.cutsOff event.cues = true

variable {σ : Type} [Presentation σ] [Audio σ]

/-- the timer that the session waits for is pending -/
def Session.Wakes (s : Session σ) : Prop :=
  ∀ kind, s.awaits? = some kind → ∃ t ∈ s.timers.pending, t.kind = kind ∧ t.guard = .epoch s.epoch

/-- the session waits for a timer, but no pending one is of its epoch -/
def Session.CutOff (s : Session σ) : Prop := s.awaits?.isSome ∧ InStep.Stale s.timers.pending s.epoch

section
variable {s : Session σ}

theorem not_wakes_of_cutOff (h : s.CutOff) : ¬ s.Wakes := by
  intro wakes
  obtain ⟨awaits, stale⟩ := h
  obtain ⟨kind, awaits⟩ := Option.isSome_iff_exists.1 awaits
  obtain ⟨t, m, -, guard⟩ := wakes kind awaits
  exact stale t m guard

theorem busy_of_cutOff (h : s.CutOff) : s.isBusy = true := by
  have suspended : s.suspension.isSome := by
    cases e : s.suspension with
    | none => simpa [awaits?, e] using h.1
    | some why => rfl
  rw [isBusy, suspended, Bool.or_true]

theorem wakes_of_awaits_none (h : s.awaits? = none) : s.Wakes := by
  intro kind e
  rw [h] at e
  cases e

theorem awaits_none_of_free (free : s.isBusy = false) : s.awaits? = none := by
  rw [awaits?, suspension_of_free free]
  rfl

theorem wakes_schedule {kind : TimerKind} (awaits : s.awaits? = some kind) (delay : Nat) :
    (s.schedule delay kind).Wakes := by
  intro k e
  have same : s.awaits? = some k := e
  rw [awaits] at same
  cases same
  exact ⟨_, (Timers.enter_perm _ _).mem_iff.2 List.mem_cons_self, rfl, rfl⟩

theorem wakes_suspend_schedule {why : Suspension} {kind : TimerKind} (ends : why.timer? = some kind)
    (delay : Nat) :
    ((s.suspend why).schedule delay kind).Wakes :=
  wakes_schedule (s := s.suspend why) ends delay

variable (game : Game)

/-! ## Cues -/

theorem wakes_execute (cue : Cue) (h : s.Wakes) (timely : s.awaits? = none ∨ game.jumps cue = false) :
    (s.execute game cue).2.Wakes := by
  have outcome := execute_outcome game cue s
  generalize (s.execute game cue).1 = flow at outcome
  generalize (s.execute game cue).2 = s' at outcome ⊢
  cases outcome with
  | quiet _ d =>
    obtain ⟨_, _, _, _, rfl⟩ := d
    exact h
  | video | noMenu => exact h
  | videoStarted =>
    intro kind e
    obtain ⟨t, m, of⟩ := h kind e
    exact ⟨t, (Timers.enter_perm _ _).mem_iff.2 (List.mem_cons_of_mem _ m), of⟩
  | jumped found =>
    rcases timely with free | stays
    · exact wakes_of_awaits_none free
    · simp [Game.jumps, found] at stays
  | menu | noCard => exact wakes_of_awaits_none rfl
  | wait | waitVideo | line | card | sequence => exact wakes_suspend_schedule rfl _

/-- a cue that does not suspend leaves what holds playback as it is -/
theorem suspension_execute {cue : Cue} (quiet : cue.suspends = false) :
    (s.execute game cue).2.suspension = s.suspension ∧ (s.execute game cue).2.typing = s.typing := by
  have outcome := execute_outcome game cue s
  generalize (s.execute game cue).1 = flow at outcome
  generalize (s.execute game cue).2 = s' at outcome ⊢
  cases outcome with
  | quiet _ d =>
    obtain ⟨_, _, _, _, rfl⟩ := d
    exact ⟨rfl, rfl⟩
  | video | videoStarted | jumped | noMenu => exact ⟨rfl, rfl⟩
  | menu | wait | waitVideo | line | card | noCard | sequence => cases quiet

theorem busy_execute_of_not_suspends {cue : Cue} (quiet : cue.suspends = false) :
    (s.execute game cue).2.isBusy = s.isBusy := by
  obtain ⟨suspension, typing⟩ := suspension_execute (s := s) game quiet
  rw [isBusy, suspension, typing, ← isBusy]

theorem awaits_execute_of_not_suspends {cue : Cue} (quiet : cue.suspends = false) :
    (s.execute game cue).2.awaits? = s.awaits? := by
  rw [awaits?, (suspension_execute game quiet).1, ← awaits?]

theorem Cue.holds_of_not_suspends {cue : Cue} (quiet : cue.suspends = false) : cue.holds = false := by
  cases cue <;> first | rfl | cases quiet

/-- on a session that nothing holds, a cue leaves one that something holds if it holds playback, and
one that a timer holds if it is no menu -/
theorem busy_execute_of_free (cue : Cue) (free : s.isBusy = false) :
    (s.execute game cue).2.isBusy = cue.holds ∧
      (s.execute game cue).2.awaits?.isSome = (cue.holds && !cue.isMenu) := by
  cases quiet : cue.suspends with
  | false =>
    rw [busy_execute_of_not_suspends game quiet, awaits_execute_of_not_suspends game quiet, free,
      awaits_none_of_free free, Cue.holds_of_not_suspends quiet]
    exact ⟨rfl, rfl⟩
  | true =>
    have outcome := execute_outcome game cue s
    generalize (s.execute game cue).1 = flow at outcome
    generalize (s.execute game cue).2 = s' at outcome ⊢
    have typing : s.typing = false := by
      rw [isBusy, Bool.or_eq_false_iff] at free
      exact free.1
    cases outcome with
    | quiet h => rw [h] at quiet; cases quiet
    | video | videoStarted | jumped => cases quiet
    | noMenu =>
      refine ⟨free, ?_⟩
      rw [awaits_none_of_free free]
      rfl
    | menu | wait | waitVideo | sequence =>
      refine ⟨?_, rfl⟩
      exact Bool.or_true _
    | line | card | noCard => exact ⟨rfl, rfl⟩

/-- a session that is cut off stays so while cues that do not suspend are carried out -/
theorem cutOff_execute {cue : Cue} (quiet : cue.suspends = false) (inStep : s.InStep) (h : s.CutOff) :
    (s.execute game cue).2.CutOff := by
  obtain ⟨awaits, stale⟩ := h
  refine ⟨by rw [awaits_execute_of_not_suspends game quiet]; exact awaits, ?_⟩
  have outcome := execute_outcome game cue s
  generalize (s.execute game cue).1 = flow at outcome
  generalize (s.execute game cue).2 = s' at outcome ⊢
  cases outcome with
  | quiet _ d =>
    obtain ⟨_, _, _, _, rfl⟩ := d
    exact stale
  | video | noMenu => exact stale
  | videoStarted =>
    intro t m
    rcases List.mem_cons.1 ((Timers.enter_perm _ _).mem_iff.1 m) with rfl | m
    · nofun
    · exact stale t m
  | jumped =>
    show InStep.Stale s.timers.pending (s.epoch + 1)
    exact inStep.stale_of_lt (Nat.lt_succ_self _)
  | menu | wait | waitVideo | line | card | noCard | sequence => cases quiet

theorem cutOff_jump {cue : Cue} (jumps : game.jumps cue = true) (inStep : s.InStep)
    (awaits : s.awaits?.isSome) :
    (s.execute game cue).2.CutOff := by
  cases cue with
  | jump target =>
    have found : (game.script.find? target).isSome := jumps
    obtain ⟨place, found⟩ := Option.isSome_iff_exists.1 found
    simp only [execute, jump, found]
    show s.awaits?.isSome ∧ InStep.Stale s.timers.pending (s.epoch + 1)
    exact ⟨awaits, inStep.stale_of_lt (Nat.lt_succ_self _)⟩
  | _ => cases jumps

/-! ## Blocks -/

/-- what is left of a block once the session is busy: the timer stays pending unless it jumps -/
theorem wakes_together_of_busy (cues : List Cue) (busy : s.isBusy = true) (h : s.Wakes)
    (timely : s.awaits? = none ∨ (cues.takeWhile fun c => !c.suspends).any game.jumps = false) :
    (s.together game cues).Wakes := by
  induction cues generalizing s with
  | nil => exact h
  | cons cue cues ih =>
    simp only [together, busy, Bool.true_and]
    cases quiet : cue.suspends with
    | true => exact h
    | false =>
      simp only [List.takeWhile_cons, quiet, Bool.not_false, if_true, List.any_cons,
        Bool.or_eq_false_iff] at timely
      simp only [Bool.false_eq_true, if_false]
      refine ih ?_ (wakes_execute game cue h (timely.imp_right And.left)) ?_
      · rw [busy_execute_of_not_suspends game quiet, busy]
      · rw [awaits_execute_of_not_suspends game quiet]
        exact timely.imp_right And.right

theorem cutOff_together (cues : List Cue) (inStep : s.InStep) (h : s.CutOff) :
    (s.together game cues).CutOff := by
  induction cues generalizing s with
  | nil => exact h
  | cons cue cues ih =>
    simp only [together, busy_of_cutOff h, Bool.true_and]
    cases quiet : cue.suspends with
    | true => exact h
    | false => exact ih (inStep_execute game cue inStep) (cutOff_execute game quiet inStep h)

theorem cutOff_together_of_jump (cues : List Cue) (busy : s.isBusy = true) (inStep : s.InStep)
    (awaits : s.awaits?.isSome)
    (jumps : (cues.takeWhile fun c => !c.suspends).any game.jumps = true) :
    (s.together game cues).CutOff := by
  induction cues generalizing s with
  | nil => cases jumps
  | cons cue cues ih =>
    simp only [together, busy, Bool.true_and]
    cases quiet : cue.suspends with
    | true =>
      rw [List.takeWhile_cons_of_neg (by simp [quiet])] at jumps
      cases jumps
    | false =>
      rw [List.takeWhile_cons_of_pos (by simp [quiet]), List.any_cons, Bool.or_eq_true] at jumps
      have inStep' := inStep_execute game cue inStep
      rcases jumps with here | later
      · exact cutOff_together game cues inStep' (cutOff_jump game here inStep awaits)
      · refine ih ?_ inStep' ?_ later
        · rw [busy_execute_of_not_suspends game quiet, busy]
        · rw [awaits_execute_of_not_suspends game quiet]
          exact awaits

/-- a block that is taken leaves the timer pending, unless it cuts itself off -/
theorem together_of_free (cues : List Cue) (free : s.isBusy = false) (inStep : s.InStep) :
    (game.cutsOff cues = false → (s.together game cues).Wakes) ∧
      (game.cutsOff cues = true → (s.together game cues).CutOff) := by
  induction cues generalizing s with
  | nil => exact ⟨fun _ => wakes_of_awaits_none (awaits_none_of_free free), nofun⟩
  | cons cue cues ih =>
    obtain ⟨busy, awaits⟩ := busy_execute_of_free game cue free
    have inStep' := inStep_execute game cue inStep
    simp only [together, free, Bool.false_and, Bool.false_eq_true, if_false, Game.cutsOff]
    cases holds : cue.holds with
    | false =>
      rw [holds] at busy
      exact ih busy inStep'
    | true =>
      rw [holds] at busy awaits
      have wakes := wakes_execute game cue (wakes_of_awaits_none (awaits_none_of_free free))
        (.inl (awaits_none_of_free free))
      constructor
      · intro stays
        refine wakes_together_of_busy game cues busy wakes ?_
        rcases Bool.and_eq_false_iff.1 stays with menu | stays
        · rw [menu] at awaits
          exact .inl (Option.not_isSome_iff_eq_none.1 (by simp [awaits]))
        · exact .inr stays
      · intro jumps
        obtain ⟨menu, jumps⟩ := Bool.and_eq_true_iff.1 jumps
        rw [menu] at awaits
        exact cutOff_together_of_jump game cues busy inStep' awaits jumps

/-! ## Turns -/

theorem cutsOff_single (cue : Cue) : game.cutsOff [cue] = false := by
  simp [Game.cutsOff]

theorem cutsOffAt_iff {place : Nat} {event : Event}
    (found : game.script.events[place]? = some event) :
    game.CutsOffAt place ↔ game.cutsOff event.cues = true := by
  constructor
  · rintro ⟨event', found', h⟩
    rw [found] at found'
    cases found'
    exact h
  · intro h
    exact ⟨event, found, h⟩

theorem wakes_turn (inStep : s.InStep) (h : s.Wakes)
    (stays : ∀ place, .takes place ∈ s.turnDeeds game → ¬ game.CutsOffAt place) :
    (s.turn game).session.Wakes := by
  have turned := turn_turned game s
  generalize s.turnDeeds game = deeds at turned stays
  generalize s.turn game = turn at turned ⊢
  cases turned with
  | busy | ended => exact h
  | @deferred cue cues free held =>
    rw [Turn.session_ofFlow]
    exact wakes_execute (s := { s with deferred := cues }) game cue h
      (.inl (awaits_none_of_free free))
  | @single cue free held next =>
    rw [Turn.session_ofFlow]
    exact wakes_execute (s := { s with position := s.position + 1 }) game cue h
      (.inl (awaits_none_of_free free))
  | @together cues free held next =>
    have stays := stays s.position List.mem_cons_self
    rw [cutsOffAt_iff game next, Event.cues_together, Bool.not_eq_true] at stays
    exact (together_of_free (s := { s with position := s.position + 1 }) game cues free inStep).1
      stays

theorem cutOff_turn {place : Nat} (inStep : s.InStep) (taken : .takes place ∈ s.turnDeeds game)
    (cutsOff : game.CutsOffAt place) : (s.turn game).session.CutOff := by
  have turned := turn_turned game s
  generalize s.turnDeeds game = deeds at turned taken
  generalize s.turn game = turn at turned ⊢
  cases turned with
  | busy | ended => cases taken
  | deferred => cases List.mem_singleton.1 taken
  | @single cue free held next =>
    simp only [List.mem_cons, Deed.takes.injEq, reduceCtorEq, List.not_mem_nil, or_false] at taken
    subst taken
    rw [cutsOffAt_iff game next, Event.cues_single, cutsOff_single] at cutsOff
    cases cutsOff
  | @together cues free held next =>
    obtain ⟨done, _, -, deeds, -⟩ := together_split game cues { s with position := s.position + 1 }
    rw [deeds] at taken
    simp only [List.mem_cons, Deed.takes.injEq, List.mem_map, reduceCtorEq, and_false, exists_false,
      or_false] at taken
    subst taken
    rw [cutsOffAt_iff game next, Event.cues_together] at cutsOff
    exact (together_of_free (s := { s with position := s.position + 1 }) game cues free inStep).2
      cutsOff

/-! ## Timers and the player -/

theorem wakes_completeLine (completion : Completion) : (s.completeLine game completion).Wakes := by
  cases completion with
  | autoAdvance => exact wakes_suspend_schedule (s := { s with typing := false }) rfl _
  | waitForInput => exact wakes_of_awaits_none rfl

theorem wakes_opened (h : s.Wakes) : (s.opened game).session.Wakes := by
  obtain ⟨scene, started, e, -⟩ := opened_session game s
  rw [e]
  exact h

theorem wakes_pressed (h : s.Wakes) : (s.pressed game).session.Wakes := by
  have pressed := pressed_pressed game s
  generalize s.pressed game = turn at pressed ⊢
  cases pressed with
  | idle | goesOn => exact h
  | skipped => exact wakes_completeLine game _

theorem wakes_chosen (index : Nat) (h : s.Wakes) : (s.chosen game index).session.Wakes := by
  have chosen := chosen_chosen game index s
  generalize s.chosen game index = turn at chosen ⊢
  cases chosen with
  | idle => exact h
  | taken | jumped => exact wakes_of_awaits_none rfl

/-- the timer that is awaited sets the next one, or ends the suspension -/
theorem wakes_fire {kind : TimerKind} (inMode : s.InMode) (awaits : s.awaits? = some kind) :
    (s.fire game kind).session.Wakes := by
  -- the suspension tells what is being revealed
  have why : ∃ why, s.suspension = some why ∧ why.timer? = some kind :=
    Option.bind_eq_some_iff.1 awaits
  obtain ⟨why, suspension, timer⟩ := why
  have fired := fire_fired game kind s
  generalize s.fire game kind = turn at fired ⊢
  cases fired with
  | advance | cardDone | framesDone | videoReached => exact wakes_of_awaits_none rfl
  | typed _ scene delay =>
    exact wakes_schedule (s := { s with scene := scene, reveal := .revealing _ _ }) awaits delay
  | carded _ scene card delay =>
    exact wakes_schedule (s := { s with scene := scene, card := some card }) awaits delay
  | frame _ scene flipbook delay =>
    exact wakes_schedule (s := { s with scene := scene, flipbook := some flipbook }) awaits delay
  | polled _ delay => exact wakes_schedule awaits delay
  | lineDone => exact wakes_completeLine game _
  | noLine idle =>
    cases why with
    | typing => exact absurd ((inMode.reveal.2 suspension).symm.trans idle) nofun
    | _ => cases timer
  | noCard idle =>
    cases why with
    | introCard => exact absurd (inMode.card.2 suspension) (by simp [idle])
    | _ => cases timer
  | noFrames idle =>
    cases why with
    | sequence => exact absurd (inMode.flipbook.2 suspension) (by simp [idle])
    | _ => cases timer
  | noVideo idle =>
    cases why with
    | videoWait target => exact absurd suspension (idle target)
    | _ => cases timer
  | checked => cases why <;> cases timer

theorem wakes_popped {limit : Nat} {t : Timer} {timers : Timers} (h : s.Wakes)
    (due : s.timers.popDue? limit = some (t, timers)) (other : t.guard ≠ .epoch s.epoch) :
    ({ s with timers := timers } : Session σ).Wakes := by
  obtain ⟨first, -, -⟩ := Timers.popDue?_eq_some_iff.1 due
  intro kind e
  obtain ⟨u, m, k, guard⟩ := h kind e
  rw [first] at m
  rcases List.mem_cons.1 m with rfl | m
  · exact absurd guard other
  · exact ⟨u, m, k, guard⟩

theorem ne_of_not_live {t : Timer} (stale : s.isLive t = false) : t.guard ≠ .epoch s.epoch := by
  intro guard
  simp [isLive, guard] at stale

end

variable {game : Game}

theorem Reaches.wakes {s₀ : Session σ} {deeds : List Deed} {turn : Turn σ}
    (h : Reaches game s₀ deeds turn)
    (inStep : s₀.InStep) (inMode : s₀.InMode) (h₀ : s₀.Wakes)
    (stays : ∀ place, .takes place ∈ deeds → ¬ game.CutsOffAt place) : turn.session.Wakes := by
  induction h with
  | refl => exact h₀
  | stage _ _ ih => exact ih stays
  | opened _ ih => exact wakes_opened game (ih stays)
  | pressed _ _ ih => exact wakes_pressed game (ih stays)
  | chosen index _ ih => exact wakes_chosen game index (ih stays)
  | advanced _ _ ih => exact ih stays
  | turn _ reached ih =>
    have before := ih fun place m => stays place (List.mem_append_left _ m)
    exact wakes_turn game (reached.inStep inStep) before fun place m =>
      stays place (List.mem_append_right _ m)
  | idle _ _ ih => exact ih stays
  | @fired _ s _ timer timers due live reached ih =>
    have before : s.Wakes := ih fun place m => stays place (List.mem_append_left _ m)
    rcases inStep_live (reached.inStep inStep) due live with ⟨-, awaits, -⟩ | ⟨guard, kind⟩
    · exact wakes_fire (s := { s with timers := timers }) game (reached.inMode inStep inMode) awaits
    · obtain ⟨failed, e⟩ := fire_videoCheck game { s with timers := timers }
      have popped := wakes_popped before due (by rw [guard]; nofun)
      rw [kind, e]
      exact popped
  | @dropped _ s _ timer timers due stale _ ih =>
    have other : timer.guard ≠ .epoch s.epoch :=
      ne_of_not_live (s := { s with timers := timers }) stale
    exact wakes_popped (s := s) (ih stays) due other
  | clock _ _ _ ih => exact ih stays

/-! ## Timers that come -/

/-- the timers in front of one of the present epoch do not keep it from firing -/
theorem fires_of_pending {s : Session σ} {t : Timer} {earlier others : List Timer} (inStep : s.InStep)
    (pending : s.timers.pending = earlier ++ t :: others) (due : ∀ u ∈ earlier, u.due ≤ t.due)
    (guard : t.guard = .epoch s.epoch) :
    ∃ fuel, ∃ f ∈ s.firings game t.due fuel, f.1.guard = .epoch s.epoch ∧
      s.awaits? = some f.1.kind := by
  induction earlier generalizing s with
  | nil =>
    have popped : s.timers.popDue? t.due = some (t, ⟨max s.timers.now t.due, others⟩) :=
      Timers.popDue?_eq_some_iff.2 ⟨pending, Nat.le_refl _, rfl⟩
    have live : isLive { s with timers := ⟨max s.timers.now t.due, others⟩ } t = true := by
      simp [isLive, guard]
    refine ⟨1, (t, { s with timers := ⟨max s.timers.now t.due, others⟩ }), ?_, guard, ?_⟩
    · simp only [firings, popped, live, if_true]
      exact List.mem_cons_self
    · exact inStep.awaited t (by rw [pending]; exact List.mem_cons_self) guard
  | cons u us ih =>
    have popped : s.timers.popDue? t.due = some (u, ⟨max s.timers.now u.due, us ++ t :: others⟩) :=
      Timers.popDue?_eq_some_iff.2 ⟨pending, due u List.mem_cons_self, rfl⟩
    have due' : ∀ v ∈ us, v.due ≤ t.due := fun v m => due v (List.mem_cons_of_mem _ m)
    have inStep' := inStep_popped inStep popped
    cases live : isLive { s with timers := ⟨max s.timers.now u.due, us ++ t :: others⟩ } u with
    | false =>
      obtain ⟨fuel, f, m, fires⟩ := ih inStep' rfl due' guard
      refine ⟨fuel + 1, f, ?_, fires⟩
      simp only [firings, popped, live, Bool.false_eq_true, if_false]
      exact m
    | true =>
      rcases inStep_live inStep popped live with ⟨guard', awaits, -⟩ | ⟨-, kind⟩
      · refine ⟨1, (u, { s with timers := ⟨max s.timers.now u.due, us ++ t :: others⟩ }), ?_,
          guard', awaits⟩
        simp only [firings, popped, live, if_true]
        exact List.mem_cons_self
      · obtain ⟨failed, e⟩ := fire_videoCheck game
          { s with timers := ⟨max s.timers.now u.due, us ++ t :: others⟩ }
        obtain ⟨fuel, f, m, fires⟩ := ih (s := { s with
          timers := ⟨max s.timers.now u.due, us ++ t :: others⟩
          videoFailedAt := failed }) inStep' rfl due' guard
        refine ⟨fuel + 1, f, ?_, fires⟩
        simp only [firings, popped, live, if_true, kind, e, Turn.settle, Option.elim_some]
        exact List.mem_cons_of_mem _ m

theorem fires_of_wakes {s : Session σ} {kind : TimerKind} (inStep : s.InStep)
    (inTime : s.timers.InTime)
    (wakes : s.Wakes) (awaits : s.awaits? = some kind) :
    ∃ limit ≤ endOfTime, ∃ fuel, ∃ f ∈ s.firings game limit fuel, f.1.kind = kind ∧
      f.1.guard = .epoch s.epoch := by
  obtain ⟨t, m, -, guard⟩ := wakes kind awaits
  obtain ⟨earlier, others, pending⟩ := List.append_of_mem m
  have ordered := inTime.ordered
  rw [pending] at ordered
  have due : ∀ u ∈ earlier, u.due ≤ t.due := fun u mu =>
    (List.pairwise_append.1 ordered).2.2 u mu t List.mem_cons_self
  obtain ⟨fuel, f, mf, guard', awaits'⟩ : ∃ fuel, ∃ f ∈ s.firings game t.due fuel,
    f.1.guard = .epoch s.epoch ∧ s.awaits? = some f.1.kind :=
      fires_of_pending inStep pending due guard
  rw [awaits] at awaits'
  exact ⟨t.due, (inTime.due t m).2, fuel, f, mf, (Option.some.inj awaits').symm, guard'⟩

end VisualNovel
