import VisualNovel.Proofs.Session.Moves

/-!
# Two sessions in lockstep

Two sessions may differ in the scene, the music and the assets, and otherwise be the same. If what a
single cue, a timer and the player do keeps a relation of such sessions, then they stay together
through all moves: they take the same turns, rest at the same time, and the same timers fire.

* `Session.Turn.Rel`    two turns that lead to related sessions in the same way;
* `Lockstep`            a relation of sessions that is kept by what is done at once;
* `Lockstep.turn`, `Lockstep.settle`, `Lockstep.runUntil`   turns keep it, and runs of the clock;
* `Lockstep.follow`     all moves keep it.
-/

set_option linter.unusedSectionVars false

namespace VisualNovel

open Session

variable {σ τ : Type}

inductive Session.Turn.Rel (R : Session σ → Session τ → Prop) : Turn σ → Turn τ → Prop
  | rests {s : Session σ} {t : Session τ} (h : R s t) : Turn.Rel R (.rests s) (.rests t)
  | goesOn {s : Session σ} {t : Session τ} (h : R s t) : Turn.Rel R (.goesOn s) (.goesOn t)

theorem Session.Turn.Rel.ofFlow {R : Session σ → Session τ → Prop} {x : Flow × Session σ}
    {y : Flow × Session τ} (flow : x.1 = y.1) (h : R x.2 y.2) :
    Turn.Rel R (.ofFlow x) (.ofFlow y) := by
  obtain ⟨here, s⟩ := x
  obtain ⟨there, t⟩ := y
  obtain rfl : here = there := flow
  cases here with
  | goOn => exact .goesOn h
  | hold => exact .rests h

variable [Presentation σ] [Audio σ] [Presentation τ] [Audio τ]

/-- a relation of sessions, after some deeds, that is kept by what is done at once. `I` is what is
known of the first session besides -/
structure Lockstep (game game' : Game) (I : Session σ → Prop)
    (R : List Deed → Session σ → Session τ → Prop) : Prop where
  script : game'.script = game.script
  /-- the sessions differ in the scene and the music only -/
  same {deeds : List Deed} {s : Session σ} {t : Session τ} (h : R deeds s t) : t.bare = s.bare
  known {s₀ : Session σ} {deeds : List Deed} {turn : Turn σ} (i : I s₀)
    (h : Reaches game s₀ deeds turn) : I turn.session
  knownExecute {s : Session σ} {cue : Cue} (held : s.isBusy = true → cue.suspends = false)
    (i : I s) : I (s.execute game cue).2
  knownDeferred {s : Session σ} (cues : List Cue) (i : I s) : I { s with deferred := cues }
  knownPosition {s : Session σ} (place : Nat) (i : I s) : I { s with position := place }
  deferred {deeds : List Deed} {s : Session σ} {t : Session τ} (cues : List Cue)
    (h : R deeds s t) : R deeds { s with deferred := cues } { t with deferred := cues }
  takes {deeds : List Deed} {s : Session σ} {t : Session τ} (h : R deeds s t) :
    R (deeds ++ [.takes s.position]) { s with position := s.position + 1 }
      { t with position := s.position + 1 }
  timers {deeds : List Deed} {s : Session σ} {t : Session τ} (queue : Timers) (h : R deeds s t) :
    R deeds { s with timers := queue } { t with timers := queue }
  execute {deeds : List Deed} {s : Session σ} {t : Session τ} {cue : Cue}
    (held : s.isBusy = true → cue.suspends = false) (i : I s) (h : R deeds s t) :
    (s.execute game cue).1 = (t.execute game' cue).1 ∧
      R (deeds ++ [.does cue]) (s.execute game cue).2 (t.execute game' cue).2
  fire {deeds : List Deed} {s : Session σ} {t : Session τ} {limit : Nat} {timer : Timer}
    {timers : Timers} (due : s.timers.popDue? limit = some (timer, timers)) (i : I s)
    (h : R deeds s t) :
    Turn.Rel (R (deeds ++ [.fires timer])) ({ s with timers := timers }.fire game timer.kind)
      ({ t with timers := timers }.fire game' timer.kind)
  opened {deeds : List Deed} {s : Session σ} {t : Session τ} (h : R deeds s t) :
    Turn.Rel (R deeds) (s.opened game) (t.opened game')
  pressed {deeds : List Deed} {s : Session σ} {t : Session τ} (h : R deeds s t) :
    Turn.Rel (R deeds) (s.pressed game) (t.pressed game')
  chosen {deeds : List Deed} {s : Session σ} {t : Session τ} (index : Nat) (h : R deeds s t) :
    Turn.Rel (R deeds) (s.chosen game index) (t.chosen game' index)

namespace Lockstep

variable {game game' : Game} {I : Session σ → Prop} {R : List Deed → Session σ → Session τ → Prop}
  (L : Lockstep game game' I R) {deeds : List Deed} {s : Session σ} {t : Session τ}
include L

/-! ## Turns -/

theorem together (cues : List Cue) (h : R deeds s t) (i : I s) :
    R (deeds ++ s.togetherDeeds game cues) (s.together game cues) (t.together game' cues) := by
  induction cues generalizing s t deeds with
  | nil =>
    rw [togetherDeeds, List.append_nil]
    exact h
  | cons cue cues ih =>
    have busy : t.isBusy = s.isBusy := congrArg Session.isBusy (L.same h)
    have held : t.deferred = s.deferred := congrArg Session.deferred (L.same h)
    simp only [togetherDeeds, Session.together]
    rw [busy, held]
    split
    · rw [List.append_nil]
      exact L.deferred _ h
    · rename_i quiet
      have quiet : s.isBusy = true → cue.suspends = false := by simpa using quiet
      obtain ⟨-, done⟩ := L.execute quiet i h
      have rest := ih done (L.knownExecute quiet i)
      rw [List.append_assoc, List.singleton_append] at rest
      exact rest

theorem turn (h : R deeds s t) (i : I s) :
    Turn.Rel (R (deeds ++ s.turnDeeds game)) (s.turn game) (t.turn game') := by
  have busy : t.isBusy = s.isBusy := congrArg Session.isBusy (L.same h)
  have deferred : t.deferred = s.deferred := congrArg Session.deferred (L.same h)
  have position : t.position = s.position := congrArg Session.position (L.same h)
  have turned := turn_turned game s
  generalize s.turnDeeds game = done at turned ⊢
  generalize s.turn game = here at turned ⊢
  cases turned with
  | busy held =>
    have there : t.turn game' = .rests t := by simp [Session.turn, busy, held]
    rw [there, List.append_nil]
    exact .rests h
  | @deferred cue cues free held =>
    have there : t.turn game' = .ofFlow ({ t with deferred := cues }.execute game' cue) := by
      simp [Session.turn, busy, deferred, free, held]
    have quiet : isBusy { s with deferred := cues } = true → cue.suspends = false :=
      fun busy => absurd (free.symm.trans busy) Bool.false_ne_true
    obtain ⟨flow, done⟩ := L.execute quiet (L.knownDeferred cues i) (L.deferred cues h)
    rw [there]
    exact .ofFlow flow done
  | ended free held last =>
    have there : t.turn game' = .rests t := by
      simp [Session.turn, busy, deferred, position, L.script, free, held, last]
    rw [there, List.append_nil]
    exact .rests h
  | @single cue free held found =>
    have there : t.turn game' =
        .ofFlow ({ t with position := s.position + 1 }.execute game' cue) := by
      simp [Session.turn, busy, deferred, position, L.script, free, held, found]
    have quiet : isBusy { s with position := s.position + 1 } = true → cue.suspends = false :=
      fun busy => absurd (free.symm.trans busy) Bool.false_ne_true
    obtain ⟨flow, done⟩ := L.execute quiet (L.knownPosition (s.position + 1) i) (L.takes h)
    rw [there]
    rw [List.append_assoc] at done
    exact .ofFlow flow done
  | @together cues free held found =>
    have there : t.turn game' =
        .goesOn ({ t with position := s.position + 1 }.together game' cues) := by
      simp [Session.turn, busy, deferred, position, L.script, free, held, found]
    have done := L.together cues (L.takes h) (L.knownPosition (s.position + 1) i)
    rw [there]
    rw [List.append_assoc] at done
    exact .goesOn done

theorem knownTurn (i : I s) : I (s.turn game).session :=
  turn_keeps game (fun _ _ held i => L.knownExecute held i) (fun _ cues i => L.knownDeferred cues i)
    (fun _ place i => L.knownPosition place i) s i

theorem advanceWithin {n : Nat} (h : R deeds s t) (i : I s) :
    Option.Rel (R (deeds ++ s.deedsWithin game n)) (s.advanceWithin game n)
      (t.advanceWithin game' n) := by
  induction n generalizing s t deeds with
  | zero => exact .none
  | succ n ih =>
    have turned := L.turn h i
    have i' := L.knownTurn i
    simp only [Session.advanceWithin, deedsWithin]
    generalize s.turn game = next at turned i' ⊢
    generalize t.turn game' = next' at turned ⊢
    rw [← List.append_assoc]
    cases turned with
    | rests h =>
      rw [List.append_nil]
      exact .some h
    | goesOn h => exact ih h i'

theorem settle {turn : Turn σ} {turn' : Turn τ} (h : Turn.Rel (R deeds) turn turn')
    (i : I turn.session) :
    Option.Rel (R (deeds ++ turn.deeds game)) (turn.settle game) (turn'.settle game') := by
  cases h with
  | rests h =>
    rw [Turn.deeds, List.append_nil]
    exact .some h
  | @goesOn s t h =>
    have started : t.started = s.started := congrArg Session.started (L.same h)
    have deferred : t.deferred = s.deferred := congrArg Session.deferred (L.same h)
    have turns : t.turns game' = s.turns game := by simp only [Session.turns, deferred, L.script]
    simp only [Turn.settle, Turn.deeds, advance]
    rw [started, turns]
    split
    · exact L.advanceWithin h i
    · rw [List.append_nil]
      exact .some h

/-! ## Moves -/

theorem runUntil {limit fuel : Nat} (h : R deeds s t) (i : I s) :
    Option.Rel (R (deeds ++ (s.firings game limit fuel).flatMap (firingDeeds game)))
      (s.runUntil game limit fuel) (t.runUntil game' limit fuel) := by
  induction fuel generalizing s t deeds with
  | zero => exact .none
  | succ fuel ih =>
    have queue : t.timers = s.timers := congrArg Session.timers (L.same h)
    have reached : Reaches game s [] (.rests s) := .refl
    simp only [Session.runUntil, firings]
    rw [queue]
    cases due : s.timers.popDue? limit with
    | none =>
      rw [List.flatMap_nil, List.append_nil]
      exact .some (L.timers (s.timers.setNow limit) h)
    | some popped =>
      obtain ⟨timer, timers⟩ := popped
      have popped := L.timers timers h
      have alive : isLive { t with timers := timers } timer =
          isLive { s with timers := timers } timer :=
        congrArg (fun s : Session Unit => s.isLive timer) (L.same popped)
      dsimp only
      rw [alive]
      cases live : isLive { s with timers := timers } timer with
      | true =>
        have fired := reached.fired due live
        have settled := L.settle (L.fire due i h) (L.known i fired)
        simp only [if_true, List.flatMap_cons, firingDeeds]
        generalize step : ({ s with timers := timers }.fire game timer.kind).settle game = here
          at settled ⊢
        generalize ({ t with timers := timers }.fire game' timer.kind).settle game' = there
          at settled ⊢
        cases settled with
        | none => exact .none
        | some h =>
          have rest := ih h (L.known i (fired.settle step))
          rw [List.append_assoc, List.append_assoc, List.singleton_append] at rest
          exact rest
      | false =>
        simp only [Bool.false_eq_true, if_false]
        exact ih popped (L.known i (reached.dropped due live))

/-- **A move that is made in two related sessions leaves them related, or has no result in either.** -/
theorem perform (h : R deeds s t) (i : I s) (move : Move) :
    Option.Rel (R (deeds ++ move.operation.deeds game s)) (move.operation.perform game s)
      (move.operation.perform game' t) := by
  have reached : Reaches game s [] (.rests s) := .refl
  cases move with
  | start => exact L.settle (L.opened h) (L.known i reached.opened)
  | activate =>
    have started : t.started = s.started := congrArg Session.started (L.same h)
    simp only [Move.operation, Operation.perform, Operation.deeds, activate]
    rw [started]
    split
    · rename_i started
      exact L.settle (L.pressed h) (L.known i (reached.pressed started))
    · exact L.settle (L.opened h) (L.known i reached.opened)
  | choose index => exact L.settle (L.chosen index h) (L.known i (reached.chosen index))
  | advance => exact L.settle (.goesOn h) i
  | runUntil limit fuel => exact L.runUntil h i

theorem followFrom (moves : List Move) (h : R deeds s t) (i : I s) :
    Option.Rel (R (deeds ++ s.followed game moves)) (s.follow game moves)
      (t.follow game' moves) := by
  induction moves generalizing s t deeds with
  | nil =>
    rw [followed, List.append_nil]
    exact .some h
  | cons move moves ih =>
    have made := L.perform h i move
    simp only [Session.follow, followed]
    generalize result : move.operation.perform game s = here at made ⊢
    generalize move.operation.perform game' t = there at made ⊢
    cases made with
    | none => exact .none
    | some h =>
      have once : Continues game s _ _ := .operation move.operation .refl result
      have rest := ih h (L.known i once.reaches)
      rw [List.append_assoc] at rest
      exact rest

/-- **Moves leave two related sessions related, or have no result in either.** -/
theorem follow (moves : List Move) (h : R [] s t) (i : I s) :
    Option.Rel (R (s.followed game moves)) (s.follow game moves) (t.follow game' moves) :=
  L.followFrom moves h i

end Lockstep

end VisualNovel
