import VisualNovel.Proofs.Session.Outcome

/-!
# What a playback has done

The deeds of a playback are the events it has taken from the script, the cues it has carried out and
the timers that have fired, in order. They are read off the very sessions that the operations go
through, and no operation looks at them.

* `Deed`                     one deed;
* `turnDeeds`, `deedsWithin`, `Turn.deeds`   the deeds of a turn, of some turns, of a whole advance;
* `firings`                  the timers that fire in a run of the clock, each with the session it finds;
* `Operation`                what the host of a session may do, and what each operation does;
* `Continues`                the sessions that operations make of a session, with the deeds in between;
* `Plays`                    the sessions that they make of a new one;
* `Reaches`                  the same in small steps, within an operation too;
* `Keeps`                    a property that every small step keeps, and so every operation does;
* `Continues.reaches`        every session that operations bring about is reached by such steps;
* `ContinuesWithin`          the sessions that a host brings about who does only some operations.
-/

set_option linter.unusedSectionVars false

namespace VisualNovel

inductive Deed
  /-- the event at a place of the script is taken -/
  | takes (place : Nat)
  | does (cue : Cue)
  | fires (timer : Timer)

/-- the timer that has fired, if the deed is one -/
def Deed.timer? : Deed → Option Timer
  | .fires timer => some timer
  | _ => none

def firedIn (deeds : List Deed) : List Timer := deeds.filterMap Deed.timer?

@[simp] theorem firedIn_append (deeds deeds' : List Deed) :
    firedIn (deeds ++ deeds') = firedIn deeds ++ firedIn deeds' :=
  List.filterMap_append

@[simp] theorem firedIn_fires (timer : Timer) : firedIn [.fires timer] = [timer] := rfl

namespace Session

variable {σ : Type} [Presentation σ] [Audio σ]

/-! ## Deeds of a turn -/

def togetherDeeds (game : Game) : List Cue → Session σ → List Deed
  | [], _ => []
  | cue :: cues, s =>
    if s.isBusy && cue.suspends then []
    else .does cue :: togetherDeeds game cues (s.execute game cue).2

def turnDeeds (game : Game) (s : Session σ) : List Deed :=
  if s.isBusy then []
  else
    match s.deferred with
    | cue :: _ => [.does cue]
    | [] =>
      match game.script.events[s.position]? with
      | none => []
      | some (.single cue) => [.takes s.position, .does cue]
      | some (.together cues) =>
        .takes s.position :: togetherDeeds game cues { s with position := s.position + 1 }

inductive Turned (game : Game) (s : Session σ) : List Deed → Turn σ → Prop
  | busy (busy : s.isBusy = true) : Turned game s [] (.rests s)
  | deferred {cue : Cue} {cues : List Cue} (free : s.isBusy = false)
      (held : s.deferred = cue :: cues) :
      Turned game s [.does cue] (.ofFlow ({ s with deferred := cues }.execute game cue))
  | ended (free : s.isBusy = false) (held : s.deferred = [])
      (last : game.script.events[s.position]? = none) :
      Turned game s [] (.rests s)
  | single {cue : Cue} (free : s.isBusy = false) (held : s.deferred = [])
      (next : game.script.events[s.position]? = some (.single cue)) :
      Turned game s [.takes s.position, .does cue]
        (.ofFlow ({ s with position := s.position + 1 }.execute game cue))
  | together {cues : List Cue} (free : s.isBusy = false) (held : s.deferred = [])
      (next : game.script.events[s.position]? = some (.together cues)) :
      Turned game s
        (.takes s.position :: togetherDeeds game cues { s with position := s.position + 1 })
        (.goesOn ({ s with position := s.position + 1 }.together game cues))

theorem turn_turned (game : Game) (s : Session σ) :
    Turned game s (s.turnDeeds game) (s.turn game) := by
  cases free : s.isBusy with
  | true =>
    have deeds : s.turnDeeds game = [] := by simp [turnDeeds, free]
    have turn : s.turn game = .rests s := by simp [Session.turn, free]
    rw [deeds, turn]
    exact .busy free
  | false =>
    cases held : s.deferred with
    | cons cue cues =>
      have deeds : s.turnDeeds game = [.does cue] := by simp [turnDeeds, free, held]
      have turn : s.turn game = .ofFlow ({ s with deferred := cues }.execute game cue) := by
        simp [Session.turn, free, held]
      rw [deeds, turn]
      exact .deferred free held
    | nil =>
      cases next : game.script.events[s.position]? with
      | none =>
        have deeds : s.turnDeeds game = [] := by simp [turnDeeds, free, held, next]
        have turn : s.turn game = .rests s := by simp [Session.turn, free, held, next]
        rw [deeds, turn]
        exact .ended free held next
      | some event =>
        cases event with
        | single cue =>
          have deeds : s.turnDeeds game = [.takes s.position, .does cue] := by
            simp [turnDeeds, free, held, next]
          have turn : s.turn game =
              .ofFlow ({ s with position := s.position + 1 }.execute game cue) := by
            simp [Session.turn, free, held, next]
          rw [deeds, turn]
          exact .single free held next
        | together cues =>
          have deeds : s.turnDeeds game =
              .takes s.position :: togetherDeeds game cues { s with position := s.position + 1 } := by
            simp [turnDeeds, free, held, next]
          have turn : s.turn game =
              .goesOn ({ s with position := s.position + 1 }.together game cues) := by
            simp [Session.turn, free, held, next]
          rw [deeds, turn]
          exact .together free held next

def deedsWithin (game : Game) : Nat → Session σ → List Deed
  | 0, _ => []
  | n + 1, s =>
    s.turnDeeds game ++
      match s.turn game with
      | .rests _ => []
      | .goesOn s => deedsWithin game n s

def Turn.deeds (game : Game) : Turn σ → List Deed
  | .rests _ => []
  | .goesOn s => if s.started then deedsWithin game (s.turns game) s else []

/-- whether a session has been started, and what is held back, is not for cues to change -/
theorem frame_execute (game : Game) (cue : Cue) (s : Session σ) :
    (s.execute game cue).2.started = s.started ∧ (s.execute game cue).2.deferred = s.deferred := by
  have h := execute_outcome game cue s
  generalize (s.execute game cue).1 = flow at h
  generalize (s.execute game cue).2 = s' at h ⊢
  cases h with
  | quiet _ d =>
    obtain ⟨_, _, _, _, rfl⟩ := d
    exact ⟨rfl, rfl⟩
  | _ => exact ⟨rfl, rfl⟩

/-- one cue after the other is carried out -/
def executeAll (game : Game) (cues : List Cue) (s : Session σ) : Session σ :=
  cues.foldl (fun s cue => (s.execute game cue).2) s

/-- of a block, some first cues are carried out, which are its deeds, and the others are held back -/
theorem together_split (game : Game) (cues : List Cue) (s : Session σ) :
    ∃ done rest, cues = done ++ rest ∧ s.togetherDeeds game cues = done.map .does ∧
      s.together game cues = { s.executeAll game done with deferred := s.deferred ++ rest } := by
  induction cues generalizing s with
  | nil =>
    refine ⟨[], [], rfl, rfl, ?_⟩
    rw [List.append_nil]
    rfl
  | cons cue cues ih =>
    simp only [togetherDeeds, together]
    split
    · exact ⟨[], cue :: cues, rfl, rfl, rfl⟩
    · obtain ⟨done, rest, split, deeds, carried⟩ := ih (s.execute game cue).2
      rw [(frame_execute game cue s).2] at carried
      exact ⟨cue :: done, rest, by rw [split, List.cons_append], by rw [deeds, List.map_cons],
        carried⟩

@[simp] theorem firedIn_does (cues : List Cue) : firedIn (cues.map .does) = [] := by
  simp [firedIn, Deed.timer?]

@[simp] theorem firedIn_turnDeeds (game : Game) (s : Session σ) :
    firedIn (s.turnDeeds game) = [] := by
  have turned := turn_turned game s
  generalize s.turnDeeds game = deeds at turned ⊢
  generalize s.turn game = turn at turned
  cases turned with
  | together =>
    obtain ⟨done, _, -, deeds, -⟩ := together_split game _ { s with position := s.position + 1 }
    rw [deeds]
    exact firedIn_does done
  | _ => rfl

theorem firedIn_deedsWithin (game : Game) (n : Nat) (s : Session σ) :
    firedIn (s.deedsWithin game n) = [] := by
  induction n generalizing s with
  | zero => rfl
  | succ n ih =>
    simp only [deedsWithin]
    rw [firedIn_append, firedIn_turnDeeds]
    split
    · rfl
    · exact ih _

@[simp] theorem firedIn_deeds (game : Game) (turn : Turn σ) : firedIn (turn.deeds game) = [] := by
  cases turn with
  | rests s => rfl
  | goesOn s =>
    simp only [Turn.deeds]
    split
    · exact firedIn_deedsWithin game _ s
    · rfl

/-! ## Timers that fire -/

/-- the timers that fire by `limit`, in order, each with the session it finds -/
def firings (game : Game) (limit : Nat) : Nat → Session σ → List (Timer × Session σ)
  | 0, _ => []
  | fuel + 1, s =>
    match s.timers.popDue? limit with
    | none => []
    | some (timer, timers) =>
      let s := { s with timers }
      if s.isLive timer then
        (timer, s) :: ((s.fire game timer.kind).settle game).elim [] (firings game limit fuel)
      else firings game limit fuel s

def firingDeeds (game : Game) : Timer × Session σ → List Deed
  | (timer, s) => .fires timer :: (s.fire game timer.kind).deeds game

end Session

open Session

variable {σ : Type} [Presentation σ] [Audio σ]

/-! ## Operations -/

/-- what the host of a session may do. The fuel of a run of the clock bounds the timers that come
due -/
inductive Operation (σ : Type)
  | start
  | activate
  | choose (index : Nat)
  | advance
  | runUntil (limit : UInt64) (fuel : Nat)
  /-- the host does something to the stage itself -/
  | stage (f : σ → σ)

namespace Operation

/-- nothing if the operation has no result -/
def perform (game : Game) (s : Session σ) : Operation σ → Option (Session σ)
  | start => s.start game
  | activate => s.activate game
  | choose index => s.choose game index
  | advance => s.advance game
  | runUntil limit fuel => s.runUntil game limit.toNat fuel
  | stage f => some (s.onStage f)

def deeds (game : Game) (s : Session σ) : Operation σ → List Deed
  | start => (s.opened game).deeds game
  | activate => if s.started then (s.pressed game).deeds game else (s.opened game).deeds game
  | choose index => (s.chosen game index).deeds game
  | advance => (Turn.goesOn s).deeds game
  | runUntil limit fuel => (s.firings game limit.toNat fuel).flatMap (firingDeeds game)
  | stage _ => []

end Operation

/-- the sessions that operations make of `s`, each with the deeds in between -/
inductive Continues (game : Game) (s : Session σ) : List Deed → Session σ → Prop
  | refl : Continues game s [] s
  | operation {deeds : List Deed} {s₁ s₂ : Session σ} (o : Operation σ)
      (h : Continues game s deeds s₁)
      (result : o.perform game s₁ = some s₂) : Continues game s (deeds ++ o.deeds game s₁) s₂

/-- the sessions that operations make of a new one, each with the deeds behind it -/
def Plays (game : Game) (deeds : List Deed) (s : Session σ) : Prop :=
  ∃ stage : σ, Continues game (.ofStage stage) deeds s

/-! ## Small steps -/

/-- where playback can be from `s₀` on, between any two turns and any two timers -/
inductive Reaches (game : Game) (s₀ : Session σ) : List Deed → Turn σ → Prop
  | refl : Reaches game s₀ [] (.rests s₀)
  | stage {deeds : List Deed} {s : Session σ} (f : σ → σ) (h : Reaches game s₀ deeds (.rests s)) :
      Reaches game s₀ deeds (.rests (s.onStage f))
  | opened {deeds : List Deed} {s : Session σ} (h : Reaches game s₀ deeds (.rests s)) :
      Reaches game s₀ deeds (s.opened game)
  | pressed {deeds : List Deed} {s : Session σ} (started : s.started)
      (h : Reaches game s₀ deeds (.rests s)) :
      Reaches game s₀ deeds (s.pressed game)
  | chosen {deeds : List Deed} {s : Session σ} (index : Nat) (h : Reaches game s₀ deeds (.rests s)) :
      Reaches game s₀ deeds (s.chosen game index)
  | advanced {deeds : List Deed} {s : Session σ} (started : s.started)
      (h : Reaches game s₀ deeds (.rests s)) :
      Reaches game s₀ deeds (.goesOn s)
  | turn {deeds : List Deed} {s : Session σ} (started : s.started)
      (h : Reaches game s₀ deeds (.goesOn s)) :
      Reaches game s₀ (deeds ++ s.turnDeeds game) (s.turn game)
  | idle {deeds : List Deed} {s : Session σ} (idle : s.started = false)
      (h : Reaches game s₀ deeds (.goesOn s)) :
      Reaches game s₀ deeds (.rests s)
  | fired {deeds : List Deed} {s : Session σ} {limit : Nat} {timer : Timer} {timers : Timers}
      (due : s.timers.popDue? limit = some (timer, timers)) (live : s.isLive timer)
      (h : Reaches game s₀ deeds (.rests s)) :
      Reaches game s₀ (deeds ++ [.fires timer]) ({ s with timers := timers }.fire game timer.kind)
  | dropped {deeds : List Deed} {s : Session σ} {limit : Nat} {timer : Timer} {timers : Timers}
      (due : s.timers.popDue? limit = some (timer, timers)) (stale : s.isLive timer = false)
      (h : Reaches game s₀ deeds (.rests s)) :
      Reaches game s₀ deeds (.rests { s with timers := timers })
  | clock {deeds : List Deed} {s : Session σ} {limit : Nat} (le : limit ≤ endOfTime)
      (none : s.timers.popDue? limit = none) (h : Reaches game s₀ deeds (.rests s)) :
      Reaches game s₀ deeds (.rests { s with timers := s.timers.setNow limit })

variable (game : Game)

theorem started_turn {s : Session σ} (h : s.started) : (s.turn game).session.started :=
  turn_keeps game (P := fun s => s.started = true)
    (fun s cue _ h => (frame_execute game cue s).1.trans h)
    (fun _ _ h => h) (fun _ _ h => h) s h

theorem frame_completeLine (completion : Completion) (s : Session σ) :
    (s.completeLine game completion).started = s.started ∧
    (s.completeLine game completion).deferred = s.deferred := by
  cases completion <;> exact ⟨rfl, rfl⟩

theorem frame_pressed (s : Session σ) :
    (s.pressed game).session.started = s.started ∧
    (s.pressed game).session.deferred = s.deferred := by
  have pressed := pressed_pressed game s
  generalize s.pressed game = turn at pressed ⊢
  cases pressed with
  | idle | goesOn => exact ⟨rfl, rfl⟩
  | skipped => exact frame_completeLine game _ _

theorem frame_chosen (index : Nat) (s : Session σ) :
    (s.chosen game index).session.started = s.started ∧
    (s.chosen game index).session.deferred = s.deferred := by
  have chosen := chosen_chosen game index s
  generalize s.chosen game index = turn at chosen ⊢
  cases chosen <;> exact ⟨rfl, rfl⟩

theorem frame_fire (kind : TimerKind) (s : Session σ) :
    (s.fire game kind).session.started = s.started ∧
    (s.fire game kind).session.deferred = s.deferred := by
  have fired := fire_fired game kind s
  generalize s.fire game kind = turn at fired ⊢
  cases fired with
  | lineDone => exact frame_completeLine game _ _
  | _ => exact ⟨rfl, rfl⟩

variable {game}

/-! ## What playback keeps -/

/-- a property of where playback is, after some deeds, that its turns, its timers and the clock keep -/
structure Steps (game : Game) (K : List Deed → Turn σ → Prop) : Prop where
  turn {deeds : List Deed} {s : Session σ} (started : s.started) (h : K deeds (.goesOn s)) :
    K (deeds ++ s.turnDeeds game) (s.turn game)
  idle {deeds : List Deed} {s : Session σ} (idle : s.started = false) (h : K deeds (.goesOn s)) :
    K deeds (.rests s)
  fired {deeds : List Deed} {s : Session σ} {limit : Nat} {timer : Timer} {timers : Timers}
    (due : s.timers.popDue? limit = some (timer, timers))
    (live : isLive { s with timers := timers } timer) (h : K deeds (.rests s)) :
    K (deeds ++ [.fires timer]) ({ s with timers := timers }.fire game timer.kind)
  dropped {deeds : List Deed} {s : Session σ} {limit : Nat} {timer : Timer} {timers : Timers}
    (due : s.timers.popDue? limit = some (timer, timers))
    (stale : isLive { s with timers := timers } timer = false) (h : K deeds (.rests s)) :
    K deeds (.rests { s with timers := timers })
  clock {deeds : List Deed} {s : Session σ} {limit : Nat} (le : limit ≤ endOfTime)
    (none : s.timers.popDue? limit = none) (h : K deeds (.rests s)) :
    K deeds (.rests { s with timers := s.timers.setNow limit })

namespace Steps

variable {K : List Deed → Turn σ → Prop} (keeps : Steps game K) {deeds : List Deed}
  {s s' : Session σ}
include keeps

theorem advanceWithin {n : Nat} (started : s.started) (h : K deeds (.goesOn s))
    (result : s.advanceWithin game n = some s') :
    K (deeds ++ s.deedsWithin game n) (.rests s') := by
  induction n generalizing deeds s with
  | zero => cases result
  | succ n ih =>
    have step := keeps.turn started h
    have started' := started_turn game started
    simp only [Session.advanceWithin] at result
    simp only [deedsWithin, ← List.append_assoc]
    cases e : s.turn game with
    | rests s₁ =>
      rw [e] at step result
      cases result
      simpa using step
    | goesOn s₁ =>
      rw [e] at step result started'
      exact ih started' step result

theorem settle {turn : Turn σ} (h : K deeds turn) (result : turn.settle game = some s') :
    K (deeds ++ turn.deeds game) (.rests s') := by
  cases turn with
  | rests s =>
    cases result
    simpa [Turn.deeds] using h
  | goesOn s =>
    simp only [Turn.settle, advance] at result
    simp only [Turn.deeds]
    cases started : s.started with
    | true =>
      simp only [started, if_true] at result ⊢
      exact keeps.advanceWithin started h result
    | false =>
      simp only [started, Bool.false_eq_true, if_false] at result ⊢
      cases result
      simpa using keeps.idle started h

theorem runUntil {limit fuel : Nat} (le : limit ≤ endOfTime) (h : K deeds (.rests s))
    (result : s.runUntil game limit fuel = some s') :
    K (deeds ++ (s.firings game limit fuel).flatMap (firingDeeds game)) (.rests s') := by
  induction fuel generalizing deeds s with
  | zero => cases result
  | succ fuel ih =>
    simp only [Session.runUntil] at result
    simp only [firings]
    cases due : s.timers.popDue? limit with
    | none =>
      rw [due] at result
      cases result
      simpa using keeps.clock le due h
    | some popped =>
      obtain ⟨timer, timers⟩ := popped
      rw [due] at result
      dsimp only at result ⊢
      cases live : isLive { s with timers := timers } timer with
      | true =>
        simp only [live, if_true] at result ⊢
        obtain ⟨s₁, settled, rest⟩ := Option.bind_eq_some_iff.1 result
        have step := ih (keeps.settle (keeps.fired due live h) settled) rest
        rw [settled]
        simpa [firingDeeds] using step
      | false =>
        simp only [live, Bool.false_eq_true, if_false] at result ⊢
        exact ih (keeps.dropped due live h) result

end Steps

/-- a property that is kept by what the host does, too, as far as the host `may` do it -/
structure Keeps (game : Game) (may : Operation σ → Prop) (K : List Deed → Turn σ → Prop) : Prop
    extends Steps game K where
  opened {deeds : List Deed} {s : Session σ} (h : K deeds (.rests s)) : K deeds (s.opened game)
  pressed {deeds : List Deed} {s : Session σ} (allowed : may .activate) (started : s.started)
    (h : K deeds (.rests s)) : K deeds (s.pressed game)
  chosen {deeds : List Deed} {s : Session σ} (index : Nat) (h : K deeds (.rests s)) :
    K deeds (s.chosen game index)
  advanced {deeds : List Deed} {s : Session σ} (allowed : may .advance) (started : s.started)
    (h : K deeds (.rests s)) : K deeds (.goesOn s)
  stage {deeds : List Deed} {s : Session σ} {f : σ → σ} (allowed : may (.stage f))
    (h : K deeds (.rests s)) : K deeds (.rests (s.onStage f))

theorem Keeps.perform {may : Operation σ → Prop} {K : List Deed → Turn σ → Prop}
    (keeps : Keeps game may K) {deeds : List Deed} {s s' : Session σ} (o : Operation σ)
    (allowed : may o) (h : K deeds (.rests s)) (result : o.perform game s = some s') :
    K (deeds ++ o.deeds game s) (.rests s') := by
  cases o with
  | start => exact keeps.settle (keeps.opened h) result
  | activate =>
    simp only [Operation.perform, activate] at result
    simp only [Operation.deeds]
    cases started : s.started with
    | true =>
      simp only [started, if_true] at result ⊢
      exact keeps.settle (keeps.pressed allowed started h) result
    | false =>
      simp only [started, Bool.false_eq_true, if_false] at result ⊢
      exact keeps.settle (keeps.opened h) result
  | choose index => exact keeps.settle (keeps.chosen index h) result
  | advance =>
    simp only [Operation.perform, advance] at result
    simp only [Operation.deeds, Turn.deeds]
    cases started : s.started with
    | true =>
      simp only [started, if_true] at result ⊢
      exact keeps.advanceWithin started (keeps.advanced allowed started h) result
    | false =>
      simp only [started, Bool.false_eq_true, if_false] at result ⊢
      cases result
      simpa using h
  | runUntil limit fuel => exact keeps.runUntil (Nat.le_of_lt_succ limit.toNat_lt) h result
  | stage f =>
    cases result
    simpa [Operation.deeds] using keeps.stage allowed h

namespace Reaches

theorem keeps (game : Game) (s₀ : Session σ) : Keeps game (fun _ => True) (Reaches game s₀) where
  turn := .turn
  idle := .idle
  fired := .fired
  dropped := .dropped
  clock := .clock
  opened := .opened
  pressed _ := .pressed
  chosen := .chosen
  advanced _ := .advanced
  stage _ := .stage _

theorem settle {turn : Turn σ} {deeds : List Deed} {s₀ s' : Session σ}
    (h : Reaches game s₀ deeds turn) (result : turn.settle game = some s') :
    Reaches game s₀ (deeds ++ turn.deeds game) (.rests s') :=
  (keeps game s₀).settle h result

/-- a timer that fires in a run of the clock has been taken out of a session that is reached -/
theorem of_mem_firings {limit fuel : Nat} {deeds : List Deed} {s₀ s : Session σ}
    (h : Reaches game s₀ deeds (.rests s))
    {f : Timer × Session σ} (m : f ∈ s.firings game limit fuel) :
    ∃ deeds s₁ timers, Reaches game s₀ deeds (.rests s₁) ∧
      s₁.timers.popDue? limit = some (f.1, timers) ∧
      f.2 = { s₁ with timers := timers } ∧ f.2.isLive f.1 := by
  induction fuel generalizing deeds s with
  | zero => cases m
  | succ fuel ih =>
    simp only [firings] at m
    cases due : s.timers.popDue? limit with
    | none =>
      rw [due] at m
      cases m
    | some popped =>
      obtain ⟨timer, timers⟩ := popped
      rw [due] at m
      dsimp only at m
      cases live : isLive { s with timers := timers } timer with
      | true =>
        simp only [live, if_true] at m
        rcases List.mem_cons.1 m with rfl | m
        · exact ⟨deeds, s, timers, h, due, rfl, live⟩
        · cases settled : ({ s with timers := timers }.fire game timer.kind).settle game with
          | none =>
            rw [settled] at m
            cases m
          | some s₁ =>
            rw [settled] at m
            exact ih ((h.fired due live).settle settled) m
      | false =>
        simp only [live, Bool.false_eq_true, if_false] at m
        exact ih (h.dropped due live) m

theorem started {deeds : List Deed} {s₀ : Session σ} {turn : Turn σ} (h : Reaches game s₀ deeds turn)
    (h₀ : s₀.started) : turn.session.started := by
  induction h with
  | refl => exact h₀
  | stage _ _ ih => exact ih
  | @opened _ s _ ih =>
    obtain ⟨scene, started, e, keeps⟩ := opened_session game s
    rw [e]
    exact keeps ih
  | pressed _ _ ih => exact (frame_pressed game _).1.trans ih
  | chosen index _ ih => exact (frame_chosen game index _).1.trans ih
  | advanced started => exact started
  | turn started => exact started_turn game started
  | idle _ _ ih => exact ih
  | @fired _ s _ timer timers _ _ _ ih =>
    exact (frame_fire game timer.kind { s with timers := timers }).1.trans ih
  | dropped _ _ _ ih => exact ih
  | clock _ _ _ ih => exact ih

end Reaches

/-- **Every session that operations bring about is reached by small steps, with the same deeds.** -/
theorem Continues.reaches {deeds : List Deed} {s₀ s : Session σ} (h : Continues game s₀ deeds s) :
    Reaches game s₀ deeds (.rests s) := by
  induction h with
  | refl => exact .refl
  | operation o _ result ih => exact (Reaches.keeps game s₀).perform o trivial ih result

theorem Continues.trans {deeds deeds' : List Deed} {s₀ s s' : Session σ}
    (h : Continues game s₀ deeds s)
    (h' : Continues game s deeds' s') : Continues game s₀ (deeds ++ deeds') s' := by
  induction h' with
  | refl => simpa using h
  | operation o _ result ih =>
    rw [← List.append_assoc]
    exact ih.operation o result

/-! ## Hosts that do only some operations -/

/-- the sessions that a host makes of `s` who does only what is allowed, with the deeds in between -/
inductive ContinuesWithin (may : Operation σ → Prop) (game : Game) (s : Session σ) :
    List Deed → Session σ → Prop
  | refl : ContinuesWithin may game s [] s
  | operation {deeds : List Deed} {s₁ s₂ : Session σ} (o : Operation σ) (allowed : may o)
      (h : ContinuesWithin may game s deeds s₁) (result : o.perform game s₁ = some s₂) :
      ContinuesWithin may game s (deeds ++ o.deeds game s₁) s₂

namespace ContinuesWithin

variable {may : Operation σ → Prop} {deeds : List Deed} {s₀ s : Session σ}

theorem continues (h : ContinuesWithin may game s₀ deeds s) : Continues game s₀ deeds s := by
  induction h with
  | refl => exact .refl
  | operation o _ _ result ih => exact ih.operation o result

theorem keeps {K : List Deed → Turn σ → Prop} (keeps : Keeps game may K)
    (h : ContinuesWithin may game s₀ deeds s) (h₀ : K [] (.rests s₀)) : K deeds (.rests s) := by
  induction h with
  | refl => exact h₀
  | operation o allowed _ result ih => exact keeps.perform o allowed ih result

end ContinuesWithin

end VisualNovel
