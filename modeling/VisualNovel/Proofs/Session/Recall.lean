import VisualNovel.Proofs.Session.Epoch
import VisualNovel.Proofs.Session.History
import VisualNovel.Proofs.Session.Modes

/-!
# Looking back

A playback can be looked back on entry by entry: each deed with the session that it found. Within a
turn more than one cue may be carried out, and so what playback keeps from one entry to the next is
proved step by step, where a step makes one entry at most.

* `Recalls`                  where playback can be from a session on, with the history in between;
* `Recalls.perform`          what the host does appends the history of what is done;
* `Recalls.performAll`       the same for one operation after the other;
* `Recalls.reaches`, `Continues.recalls`   without the sessions, this is what is done in a playback;
* `Session.Step`, `Session.Path`   single steps, within a turn too, and ways made of them;
* `Session.Stirred`          how little a step does that is neither a cue nor a timer;
* `Recalls.path`             every playback goes such a way;
* `Session.Path.at_does`, `Session.Path.at_fires`   a way parts at each of its entries;
* `Session.Path.keeps`       what single steps keep, a way keeps;
* `Session.Path.inMode`      a way keeps the timers in step and the flags in agreement with what holds
                             playback.
-/

set_option linter.unusedSectionVars false

namespace VisualNovel

open Session

variable {σ : Type} [Presentation σ] [Audio σ]

namespace Session

def performAll (game : Game) : List (Operation σ) → Session σ → Option (Session σ)
  | [], s => some s
  | o :: os, s => (o.perform game s).bind (performAll game os)

def recalled (game : Game) : List (Operation σ) → Session σ → List (Deed × Session σ)
  | [], _ => []
  | o :: os, s => o.history game s ++ (o.perform game s).elim [] (recalled game os)

end Session

/-- where playback can be from `s₀` on, between any two turns and any two timers, with the history of
what has been done since -/
inductive Recalls (game : Game) (s₀ : Session σ) : List (Deed × Session σ) → Turn σ → Prop
  | refl : Recalls game s₀ [] (.rests s₀)
  | stage {entries : List (Deed × Session σ)} {s : Session σ} (f : σ → σ)
      (h : Recalls game s₀ entries (.rests s)) : Recalls game s₀ entries (.rests (s.onStage f))
  | opened {entries : List (Deed × Session σ)} {s : Session σ}
      (h : Recalls game s₀ entries (.rests s)) : Recalls game s₀ entries (s.opened game)
  | pressed {entries : List (Deed × Session σ)} {s : Session σ} (started : s.started)
      (h : Recalls game s₀ entries (.rests s)) : Recalls game s₀ entries (s.pressed game)
  | chosen {entries : List (Deed × Session σ)} {s : Session σ} (index : Nat)
      (h : Recalls game s₀ entries (.rests s)) : Recalls game s₀ entries (s.chosen game index)
  | advanced {entries : List (Deed × Session σ)} {s : Session σ} (started : s.started)
      (h : Recalls game s₀ entries (.rests s)) : Recalls game s₀ entries (.goesOn s)
  | turn {entries : List (Deed × Session σ)} {s : Session σ} (started : s.started)
      (h : Recalls game s₀ entries (.goesOn s)) :
      Recalls game s₀ (entries ++ s.turnHistory game) (s.turn game)
  | idle {entries : List (Deed × Session σ)} {s : Session σ} (idle : s.started = false)
      (h : Recalls game s₀ entries (.goesOn s)) : Recalls game s₀ entries (.rests s)
  | fired {entries : List (Deed × Session σ)} {s : Session σ} {limit : Nat} {timer : Timer}
      {timers : Timers} (due : s.timers.popDue? limit = some (timer, timers))
      (live : isLive { s with timers := timers } timer) (h : Recalls game s₀ entries (.rests s)) :
      Recalls game s₀ (entries ++ [(.fires timer, { s with timers := timers })])
        ({ s with timers := timers }.fire game timer.kind)
  | dropped {entries : List (Deed × Session σ)} {s : Session σ} {limit : Nat} {timer : Timer}
      {timers : Timers} (due : s.timers.popDue? limit = some (timer, timers))
      (stale : isLive { s with timers := timers } timer = false)
      (h : Recalls game s₀ entries (.rests s)) :
      Recalls game s₀ entries (.rests { s with timers := timers })
  | clock {entries : List (Deed × Session σ)} {s : Session σ} {limit : Nat} (le : limit ≤ endOfTime)
      (none : s.timers.popDue? limit = none) (h : Recalls game s₀ entries (.rests s)) :
      Recalls game s₀ entries (.rests { s with timers := s.timers.setNow limit })

variable {game : Game}

namespace Recalls

variable {s₀ s s' : Session σ} {entries : List (Deed × Session σ)} {turn : Turn σ}

/-! ## What the host does -/

theorem advanceWithin {n : Nat} (started : s.started) (h : Recalls game s₀ entries (.goesOn s))
    (result : s.advanceWithin game n = some s') :
    Recalls game s₀ (entries ++ s.historyWithin game n) (.rests s') := by
  induction n generalizing entries s with
  | zero => cases result
  | succ n ih =>
    have step := h.turn started
    have started' := started_turn game started
    simp only [Session.advanceWithin] at result
    simp only [historyWithin, ← List.append_assoc]
    cases e : s.turn game with
    | rests s₁ =>
      rw [e] at step result
      cases result
      simpa using step
    | goesOn s₁ =>
      rw [e] at step result started'
      exact ih started' step result

theorem settle (h : Recalls game s₀ entries turn) (result : turn.settle game = some s') :
    Recalls game s₀ (entries ++ turn.history game) (.rests s') := by
  cases turn with
  | rests s =>
    cases result
    simpa [Turn.history] using h
  | goesOn s =>
    simp only [Turn.settle, advance] at result
    simp only [Turn.history]
    cases started : s.started with
    | true =>
      simp only [started, if_true] at result ⊢
      exact h.advanceWithin started result
    | false =>
      simp only [started, Bool.false_eq_true, if_false] at result ⊢
      cases result
      simpa using h.idle started

theorem runUntil {limit fuel : Nat} (le : limit ≤ endOfTime) (h : Recalls game s₀ entries (.rests s))
    (result : s.runUntil game limit fuel = some s') :
    Recalls game s₀ (entries ++ (s.firings game limit fuel).flatMap (firingHistory game))
      (.rests s') := by
  induction fuel generalizing entries s with
  | zero => cases result
  | succ fuel ih =>
    simp only [Session.runUntil] at result
    simp only [firings]
    cases due : s.timers.popDue? limit with
    | none =>
      rw [due] at result
      cases result
      simpa using h.clock le due
    | some popped =>
      obtain ⟨timer, timers⟩ := popped
      rw [due] at result
      dsimp only at result ⊢
      cases live : isLive { s with timers := timers } timer with
      | true =>
        simp only [live, if_true] at result ⊢
        obtain ⟨s₁, settled, rest⟩ := Option.bind_eq_some_iff.1 result
        have step := ih ((h.fired due live).settle settled) rest
        rw [settled]
        simpa [firingHistory] using step
      | false =>
        simp only [live, Bool.false_eq_true, if_false] at result ⊢
        exact ih (h.dropped due live) result

theorem perform (h : Recalls game s₀ entries (.rests s)) (o : Operation σ)
    (result : o.perform game s = some s') :
    Recalls game s₀ (entries ++ o.history game s) (.rests s') := by
  cases o with
  | start => exact h.opened.settle result
  | activate =>
    simp only [Operation.perform, activate] at result
    simp only [Operation.history]
    cases started : s.started with
    | true =>
      simp only [started, if_true] at result ⊢
      exact (h.pressed started).settle result
    | false =>
      simp only [started, Bool.false_eq_true, if_false] at result ⊢
      exact h.opened.settle result
  | choose index => exact (h.chosen index).settle result
  | advance =>
    simp only [Operation.perform, advance] at result
    simp only [Operation.history, Turn.history]
    cases started : s.started with
    | true =>
      simp only [started, if_true] at result ⊢
      exact (h.advanced started).advanceWithin started result
    | false =>
      simp only [started, Bool.false_eq_true, if_false] at result ⊢
      cases result
      simpa using h
  | runUntil limit fuel => exact h.runUntil (Nat.le_of_lt_succ limit.toNat_lt) result
  | stage f =>
    cases result
    simpa [Operation.history] using h.stage f

theorem performAll {os : List (Operation σ)} (h : Recalls game s₀ entries (.rests s))
    (result : s.performAll game os = some s') :
    Recalls game s₀ (entries ++ s.recalled game os) (.rests s') := by
  induction os generalizing entries s with
  | nil =>
    cases result
    simpa [recalled] using h
  | cons o os ih =>
    obtain ⟨s₁, made, rest⟩ := Option.bind_eq_some_iff.1 result
    rw [recalled, made, Option.elim_some, ← List.append_assoc]
    exact ih (h.perform o made) rest

/-! ## Without the sessions -/

theorem reaches (h : Recalls game s₀ entries turn) :
    Reaches game s₀ (entries.map Prod.fst) turn := by
  induction h with
  | refl => exact .refl
  | stage f _ ih => exact ih.stage f
  | opened _ ih => exact ih.opened
  | pressed started _ ih => exact ih.pressed started
  | chosen index _ ih => exact ih.chosen index
  | advanced started _ ih => exact ih.advanced started
  | turn started _ ih =>
    rw [List.map_append, map_fst_turnHistory]
    exact ih.turn started
  | idle idle _ ih => exact ih.idle idle
  | fired due live _ ih =>
    rw [List.map_append]
    exact ih.fired due live
  | dropped due stale _ ih => exact ih.dropped due stale
  | clock le none _ ih => exact ih.clock le none

end Recalls

theorem exists_split_of_any {α : Type} {l : List α} {n : Nat} {p : α → Bool}
    (h : l[n]?.any p = true) : ∃ a, p a = true ∧ l = l.take n ++ a :: l.drop (n + 1) := by
  obtain ⟨a, found, holds⟩ := (Option.any_eq_true _ _).1 h
  obtain ⟨lt, rfl⟩ := List.getElem?_eq_some_iff.1 found
  refine ⟨l[n], holds, ?_⟩
  rw [List.getElem_cons_drop, List.take_append_drop]

theorem Recalls.exists_split_of_any {os : List (Operation σ)} {s₀ s : Session σ} {n m : Nat}
    {p q : Deed × Session σ → Bool} (result : s₀.performAll game os = some s)
    (first : (s₀.recalled game os)[n]?.any p = true)
    (second : ((s₀.recalled game os).drop (n + 1))[m]?.any q = true) :
    ∃ a b, p a = true ∧ q b = true ∧
      Recalls game s₀ ((s₀.recalled game os).take n ++ a ::
        (((s₀.recalled game os).drop (n + 1)).take m ++ b ::
          ((s₀.recalled game os).drop (n + 1)).drop (m + 1))) (.rests s) := by
  obtain ⟨a, isFirst, split⟩ := VisualNovel.exists_split_of_any first
  obtain ⟨b, isSecond, split'⟩ := VisualNovel.exists_split_of_any second
  refine ⟨a, b, isFirst, isSecond, ?_⟩
  rw [← split', ← split]
  exact Recalls.refl.performAll result

theorem Continues.recalls {deeds : List Deed} {s₀ s : Session σ} (h : Continues game s₀ deeds s) :
    ∃ entries, Recalls game s₀ entries (.rests s) ∧ entries.map Prod.fst = deeds := by
  induction h with
  | refl => exact ⟨[], .refl, rfl⟩
  | operation o _ result ih =>
    obtain ⟨entries, recalls, same⟩ := ih
    refine ⟨_, recalls.perform o result, ?_⟩
    rw [List.map_append, same, o.map_fst_history]

/-! ## Single steps -/

namespace Session

/-- a step of playback that makes one entry of the history at most -/
inductive Step (game : Game) : Session σ → List (Deed × Session σ) → Session σ → Prop
  | takes {s : Session σ} (free : s.isBusy = false) (held : s.deferred = []) :
      Step game s [(.takes s.position, s)] { s with position := s.position + 1 }
  | unholds {s : Session σ} {cue : Cue} {cues : List Cue} (free : s.isBusy = false)
      (held : s.deferred = cue :: cues) : Step game s [] { s with deferred := cues }
  | holds {s : Session σ} (cues : List Cue) (busy : s.isBusy = true) :
      Step game s [] { s with deferred := s.deferred ++ cues }
  | does {s : Session σ} (cue : Cue) (may : s.isBusy = true → cue.suspends = false) :
      Step game s [(.does cue, s)] (s.execute game cue).2
  | fires {s : Session σ} {limit : Nat} {timer : Timer} {timers : Timers}
      (due : s.timers.popDue? limit = some (timer, timers))
      (live : isLive { s with timers := timers } timer) :
      Step game s [(.fires timer, { s with timers := timers })]
        ({ s with timers := timers }.fire game timer.kind).session
  | drops {s : Session σ} {limit : Nat} {timer : Timer} {timers : Timers}
      (due : s.timers.popDue? limit = some (timer, timers)) :
      Step game s [] { s with timers := timers }
  | clock {s : Session σ} {limit : Nat} (le : limit ≤ endOfTime)
      (none : s.timers.popDue? limit = none) :
      Step game s [] { s with timers := s.timers.setNow limit }
  | opens (s : Session σ) : Step game s [] (s.opened game).session
  | presses (s : Session σ) : Step game s [] (s.pressed game).session
  | chooses (index : Nat) (s : Session σ) : Step game s [] (s.chosen game index).session
  | stage (f : σ → σ) (s : Session σ) : Step game s [] (s.onStage f)

inductive Stirred (game : Game) (s : Session σ) : Session σ → Prop
  | moved (scene : Scene σ) (position : Nat) (deferred : List Cue) (timers : Timers)
      (started waiting shown : Bool) :
      Stirred game s { s with
        scene := scene, position := position, deferred := deferred, timers := timers
        started := started, waitingForInput := waiting, cardShown := shown }
  | skipped (scene : Scene σ) (line : Line) (completion : Completion) :
      Stirred game s ({ s with scene := scene, reveal := .done line }.completeLine game completion)
  | chosen (scene : Scene σ) (position epoch : Nat) :
      Stirred game s { { s with scene := scene }.resume with position := position, epoch := epoch }

/-- a step carries out a cue or fires a timer, or it does little -/
theorem Step.does_or_fires {s s' : Session σ} {more : List (Deed × Session σ)}
    (step : s.Step game more s') :
    (∃ cue, more = [(.does cue, s)] ∧ s' = (s.execute game cue).2) ∨
    (∃ timer timers, more = [(.fires timer, { s with timers := timers })] ∧
      s' = ({ s with timers := timers }.fire game timer.kind).session) ∨
    s.Stirred game s' := by
  cases step with
  | does cue => exact .inl ⟨cue, rfl, rfl⟩
  | @fires _ _ timer timers => exact .inr (.inl ⟨timer, timers, rfl, rfl⟩)
  | takes | unholds | holds | drops | clock | stage => exact .inr (.inr (.moved _ _ _ _ _ _ _))
  | opens =>
    obtain ⟨scene, started, e, -⟩ := opened_session game s
    rw [e]
    exact .inr (.inr (.moved _ _ _ _ _ _ _))
  | presses =>
    have pressed := pressed_pressed game s
    generalize s.pressed game = turn at pressed ⊢
    cases pressed with
    | idle | goesOn => exact .inr (.inr (.moved _ _ _ _ _ _ _))
    | skipped _ scene completion => exact .inr (.inr (.skipped scene _ completion))
  | chooses index =>
    have chosen := chosen_chosen game index s
    generalize s.chosen game index = turn at chosen ⊢
    cases chosen with
    | idle => exact .inr (.inr (.moved _ _ _ _ _ _ _))
    | taken _ scene => exact .inr (.inr (.chosen scene _ _))
    | jumped _ scene => exact .inr (.inr (.chosen scene _ _))

/-- steps of a playback, with the history that they make -/
inductive Path (game : Game) (s₀ : Session σ) : List (Deed × Session σ) → Session σ → Prop
  | refl : Path game s₀ [] s₀
  | step {entries more : List (Deed × Session σ)} {s s' : Session σ} (h : Path game s₀ entries s)
      (step : s.Step game more s') : Path game s₀ (entries ++ more) s'

namespace Path

variable {s₀ s s' : Session σ} {entries more : List (Deed × Session σ)}

theorem quiet (h : Path game s₀ entries s) (step : s.Step game [] s') :
    Path game s₀ entries s' := by
  have longer := h.step step
  rw [List.append_nil] at longer
  exact longer

theorem trans (h : Path game s₀ entries s) (h' : Path game s more s') :
    Path game s₀ (entries ++ more) s' := by
  induction h' with
  | refl => simpa using h
  | step _ step ih =>
    rw [← List.append_assoc]
    exact ih.step step

theorem together (cues : List Cue) (s : Session σ) :
    Path game s (s.togetherHistory game cues) (s.together game cues) := by
  induction cues generalizing s with
  | nil => exact .refl
  | cons cue cues ih =>
    simp only [togetherHistory, Session.together]
    split
    · rename_i held
      rw [Bool.and_eq_true] at held
      exact Path.refl.quiet (.holds _ held.1)
    · rename_i free
      have may : s.isBusy = true → cue.suspends = false := by simpa using free
      have first : Path game s [(.does cue, s)] (s.execute game cue).2 := Path.refl.step (.does cue may)
      exact first.trans (ih _)

theorem turn (game : Game) (s : Session σ) :
    Path game s (s.turnHistory game) (s.turn game).session := by
  cases free : s.isBusy with
  | true =>
    have history : s.turnHistory game = [] := by simp [turnHistory, free]
    have turn : s.turn game = .rests s := by simp [Session.turn, free]
    rw [history, turn]
    exact .refl
  | false =>
    have may (cue : Cue) : s.isBusy = true → cue.suspends = false :=
      fun busy => absurd (free.symm.trans busy) Bool.false_ne_true
    cases held : s.deferred with
    | cons cue cues =>
      have history : s.turnHistory game = [(.does cue, { s with deferred := cues })] := by
        simp [turnHistory, free, held]
      have turn : s.turn game = .ofFlow ({ s with deferred := cues }.execute game cue) := by
        simp [Session.turn, free, held]
      rw [history, turn, Turn.session_ofFlow]
      exact (Path.refl.quiet (.unholds free held)).step (.does cue (may cue))
    | nil =>
      have taken : Path game s [(.takes s.position, s)] { s with position := s.position + 1 } :=
        Path.refl.step (.takes free held)
      cases next : game.script.events[s.position]? with
      | none =>
        have history : s.turnHistory game = [] := by simp [turnHistory, free, held, next]
        have turn : s.turn game = .rests s := by simp [Session.turn, free, held, next]
        rw [history, turn]
        exact .refl
      | some event =>
        cases event with
        | single cue =>
          have history : s.turnHistory game =
              [(.takes s.position, s), (.does cue, { s with position := s.position + 1 })] := by
            simp [turnHistory, free, held, next]
          have turn : s.turn game =
              .ofFlow ({ s with position := s.position + 1 }.execute game cue) := by
            simp [Session.turn, free, held, next]
          rw [history, turn, Turn.session_ofFlow]
          exact taken.step (.does cue (may cue))
        | together cues =>
          have history : s.turnHistory game = (.takes s.position, s) ::
              togetherHistory game cues { s with position := s.position + 1 } := by
            simp [turnHistory, free, held, next]
          have turn : s.turn game =
              .goesOn ({ s with position := s.position + 1 }.together game cues) := by
            simp [Session.turn, free, held, next]
          rw [history, turn]
          exact taken.trans (.together cues _)

theorem split {before after : List (Deed × Session σ)} {entry : Deed × Session σ}
    (h : Path game s₀ (before ++ entry :: after) s) :
    ∃ s₁ s₂, Path game s₀ before s₁ ∧ s₁.Step game [entry] s₂ ∧ Path game s₂ after s := by
  generalize whole : before ++ entry :: after = entries at h
  induction h generalizing after with
  | refl => simp at whole
  | @step entries more s s' h step ih =>
    -- the step makes the entry itself, or the entry has been made before it
    have short : more = [] ∨ ∃ entry, more = [entry] := by
      cases step with
      | takes | does | fires => exact .inr ⟨_, rfl⟩
      | _ => exact .inl rfl
    rcases short with rfl | ⟨last, rfl⟩
    · rw [List.append_nil] at whole
      obtain ⟨s₁, s₂, way, here, rest⟩ := ih whole
      exact ⟨s₁, s₂, way, here, rest.quiet step⟩
    · rcases List.eq_nil_or_concat after with rfl | ⟨after, other, rfl⟩
      · obtain ⟨rfl, same⟩ := List.append_inj' whole rfl
        cases same
        exact ⟨s, s', h, step, .refl⟩
      · rw [List.concat_eq_append, ← List.cons_append, ← List.append_assoc] at whole
        obtain ⟨earlier, same⟩ := List.append_inj' whole rfl
        cases same
        obtain ⟨s₁, s₂, way, here, rest⟩ := ih earlier
        rw [List.concat_eq_append]
        exact ⟨s₁, s₂, way, here, rest.step step⟩

theorem at_does {before after : List (Deed × Session σ)} {cue : Cue} {s₁ : Session σ}
    (h : Path game s₀ (before ++ (.does cue, s₁) :: after) s) :
    Path game s₀ before s₁ ∧ (s₁.isBusy = true → cue.suspends = false) ∧
      Path game (s₁.execute game cue).2 after s := by
  obtain ⟨s₂, s₃, way, step, rest⟩ := h.split
  cases step with
  | does _ may => exact ⟨way, may, rest⟩

theorem at_fires {before after : List (Deed × Session σ)} {timer : Timer} {s₁ : Session σ}
    (h : Path game s₀ (before ++ (.fires timer, s₁) :: after) s) :
    ∃ s₂ limit, Path game s₀ before s₂ ∧ s₂.timers.popDue? limit = some (timer, s₁.timers) ∧
      s₁ = { s₂ with timers := s₁.timers } ∧ s₁.isLive timer ∧
      Path game (s₁.fire game timer.kind).session after s := by
  obtain ⟨s₂, s₃, way, step, rest⟩ := h.split
  cases step with
  | fires due live => exact ⟨s₂, _, way, due, rfl, live, rest⟩

theorem keeps {P : Session σ → Prop} {C : Deed × Session σ → Prop}
    (step : ∀ {s s' : Session σ} {more : List (Deed × Session σ)}, s.Step game more s' →
      (∀ entry ∈ more, C entry) → P s → P s')
    (h : Path game s₀ entries s) (kind : ∀ entry ∈ entries, C entry) (h₀ : P s₀) : P s := by
  induction h with
  | refl => exact h₀
  | step _ here ih =>
    rw [List.forall_mem_append] at kind
    exact step here kind.2 (ih kind.1)

end Path

end Session

theorem Recalls.path {s₀ : Session σ} {entries : List (Deed × Session σ)} {turn : Turn σ}
    (h : Recalls game s₀ entries turn) : Path game s₀ entries turn.session := by
  induction h with
  | refl => exact .refl
  | stage f _ ih => exact ih.quiet (.stage f _)
  | opened _ ih => exact ih.quiet (.opens _)
  | pressed _ _ ih => exact ih.quiet (.presses _)
  | chosen index _ ih => exact ih.quiet (.chooses index _)
  | advanced _ _ ih => exact ih
  | turn _ _ ih => exact ih.trans (.turn game _)
  | idle _ _ ih => exact ih
  | fired due live _ ih => exact ih.step (.fires due live)
  | dropped due _ _ ih => exact ih.quiet (.drops due)
  | clock le none _ ih => exact ih.quiet (.clock le none)

/-! ## What single steps keep -/

namespace Session

variable {s s' : Session σ} {more : List (Deed × Session σ)}

theorem Step.inStep (step : s.Step game more s') (h : s.InStep) : s'.InStep := by
  cases step with
  | takes | unholds | holds | clock | stage => exact h
  | does cue _ => exact inStep_execute game cue h
  | @fires _ _ timer timers due live =>
    have popped := inStep_popped h due
    rcases inStep_live h due live with ⟨-, awaits, stale⟩ | ⟨-, kind⟩
    · exact inStep_fire game popped stale awaits
    · obtain ⟨failed, e⟩ := fire_videoCheck game { s with timers := timers }
      rw [kind, e]
      exact popped
  | drops due => exact inStep_popped h due
  | opens => exact inStep_opened game h
  | presses => exact inStep_pressed game h
  | chooses index => exact inStep_chosen game index h

theorem Step.inMode (step : s.Step game more s') (inStep : s.InStep) (h : s.InMode) :
    s'.InMode := by
  cases step with
  | takes | unholds | holds | drops | clock | stage => exact h
  | does cue may => exact inMode_execute game cue may h
  | @fires _ _ timer timers due live =>
    rcases inStep_live inStep due live with ⟨-, awaits, -⟩ | ⟨-, kind⟩
    · exact inMode_fire (s := { s with timers := timers }) game h awaits
    · obtain ⟨failed, e⟩ := fire_videoCheck game { s with timers := timers }
      rw [kind, e]
      exact h
  | opens =>
    obtain ⟨scene, started, e, -⟩ := opened_session game s
    rw [e]
    exact h
  | presses => exact inMode_pressed game h
  | chooses index => exact inMode_chosen game index h

theorem Path.inMode {s₀ : Session σ} {entries : List (Deed × Session σ)}
    (h : Path game s₀ entries s) (inStep : s₀.InStep) (h₀ : s₀.InMode) : s.InStep ∧ s.InMode :=
  h.keeps (P := fun s => s.InStep ∧ s.InMode) (C := fun _ => True)
    (fun step _ kept => ⟨step.inStep kept.1, step.inMode kept.1 kept.2⟩) (fun _ _ => trivial)
    ⟨inStep, h₀⟩

end Session

end VisualNovel
