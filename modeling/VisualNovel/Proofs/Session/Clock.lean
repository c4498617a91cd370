import VisualNovel.Proofs.Session.Deeds
import VisualNovel.Session.Rehearsal

/-!
# The grain of the clock does not matter

The host may move the clock in steps of any size: what a session does depends on where the clock
gets to only. No timer is ever due before the present moment, since the clock stops at every timer
on its way.

* `runUntil_max_iff`       two runs of the clock are one run to the later moment;
* `Hops`                   runs from one deadline to the next;
* `runUntil_iff_hops`      they amount to one run;
* `Timers.InTime`          no pending timer is overdue;
* `Reaches.onTime`         playback keeps it so, and its timers fire in the order of their due times;
* `clock_grain_does_not_matter`   what this means for a session that operations bring about.
-/

set_option linter.unusedSectionVars false

namespace VisualNovel

open Session

variable {σ : Type} [Presentation σ] [Audio σ] {game : Game}

/-! ## One run or two -/

namespace Session

def act (game : Game) (t : Timer) (s : Session σ) : Option (Session σ) :=
  if s.isLive t then (s.fire game t.kind).settle game else some s

theorem runUntil_of_none {limit : Nat} {s : Session σ} (h : s.timers.popDue? limit = none)
    (fuel : Nat) :
    s.runUntil game limit (fuel + 1) = some { s with timers := s.timers.setNow limit } := by
  simp only [runUntil, h]

theorem runUntil_of_some {limit : Nat} {s : Session σ} {t : Timer} {timers : Timers}
    (h : s.timers.popDue? limit = some (t, timers)) (fuel : Nat) :
    s.runUntil game limit (fuel + 1) =
      ({ s with timers := timers }.act game t).bind (runUntil game limit fuel) := by
  simp only [runUntil, h, act]
  split <;> rfl

theorem runUntil_mono {limit n m : Nat} {s s' : Session σ} (h : s.runUntil game limit n = some s')
    (le : n ≤ m) :
    s.runUntil game limit m = some s' := by
  induction n generalizing m s with
  | zero => cases h
  | succ n ih =>
    obtain ⟨m, rfl⟩ : ∃ k, m = k + 1 := ⟨m - 1, by omega⟩
    cases due : s.timers.popDue? limit with
    | none =>
      rw [runUntil_of_none due] at h ⊢
      exact h
    | some popped =>
      obtain ⟨t, timers⟩ := popped
      rw [runUntil_of_some due, Option.bind_eq_some_iff] at h
      obtain ⟨s₁, acted, h⟩ := h
      rw [runUntil_of_some due, acted]
      exact ih h (by omega)

end Session

theorem popDue?_max {a : Nat} {q timers : Timers} {t : Timer} (h : q.popDue? a = some (t, timers))
    (b : Nat) :
    q.popDue? (max a b) = some (t, timers) := by
  rw [Timers.popDue?_eq_some_iff] at h ⊢
  obtain ⟨first, le, now⟩ := h
  exact ⟨first, by omega, now⟩

/-- once nothing is due by `a`, the clock may stop there on its way -/
theorem runUntil_setNow {a : Nat} {s : Session σ} (h : s.timers.popDue? a = none) (b fuel : Nat) :
    runUntil game b fuel { s with timers := s.timers.setNow a } = s.runUntil game (max a b) fuel := by
  cases fuel with
  | zero => rfl
  | succ fuel =>
    have nothing := Timers.popDue?_eq_none_iff.1 h
    cases due : s.timers.popDue? (max a b) with
    | none =>
      have due' : (s.timers.setNow a).popDue? b = none := by
        rw [Timers.popDue?_eq_none_iff] at due ⊢
        intro t first
        have := due t first
        omega
      rw [runUntil_of_none due, runUntil_of_none due']
      simp only [Timers.setNow]
      rw [Nat.max_assoc]
    | some popped =>
      obtain ⟨t, timers⟩ := popped
      obtain ⟨first, le, now⟩ := Timers.popDue?_eq_some_iff.1 due
      have lt : a < t.due := nothing t (by rw [first]; rfl)
      have late : max a b = b := by omega
      have due' : (s.timers.setNow a).popDue? b = some (t, timers) := by
        refine Timers.popDue?_eq_some_iff.2 ⟨first, by omega, ?_⟩
        simp only [Timers.setNow]
        omega
      rw [runUntil_of_some due, runUntil_of_some due', late]

/-- a run to the later of two moments is a run to the one and then a run to the other; of the two
runs, each spends one unit of fuel on finding nothing more to do -/
theorem runUntil_max_iff {a b fuel : Nat} {s s₂ : Session σ} :
    s.runUntil game (max a b) fuel = some s₂ ↔
      ∃ n m s₁, n + m = fuel + 1 ∧ s.runUntil game a n = some s₁ ∧
        s₁.runUntil game b m = some s₂ := by
  induction fuel generalizing s with
  | zero =>
    constructor
    · intro h
      cases h
    · rintro ⟨n, m, s₁, sum, first, second⟩
      obtain rfl | rfl : n = 0 ∨ m = 0 := by omega
      · cases first
      · cases second
  | succ fuel ih =>
    cases due : s.timers.popDue? a with
    | none =>
      rw [← runUntil_setNow due]
      constructor
      · intro h
        exact ⟨1, fuel + 1, _, by omega, runUntil_of_none due 0, h⟩
      · rintro ⟨n, m, s₁, sum, first, second⟩
        cases n with
        | zero => cases first
        | succ n =>
          rw [runUntil_of_none due] at first
          cases first
          exact runUntil_mono second (by omega)
    | some popped =>
      obtain ⟨t, timers⟩ := popped
      rw [runUntil_of_some (popDue?_max due b), Option.bind_eq_some_iff]
      constructor
      · rintro ⟨s', acted, h⟩
        obtain ⟨n, m, s₁, sum, first, second⟩ := ih.1 h
        refine ⟨n + 1, m, s₁, by omega, ?_, second⟩
        rw [runUntil_of_some due, acted]
        exact first
      · rintro ⟨n, m, s₁, sum, first, second⟩
        cases n with
        | zero => cases first
        | succ n =>
          rw [runUntil_of_some due, Option.bind_eq_some_iff] at first
          obtain ⟨s', acted, first⟩ := first
          exact ⟨s', acted, ih.2 ⟨n, m, s₁, by omega, first, second⟩⟩

/-! ## From deadline to deadline -/

/-- runs of the clock from one deadline to the next, by `limit` -/
inductive Hops (game : Game) (limit : Nat) : Session σ → Session σ → Prop
  | here {s : Session σ} : Hops game limit s s
  | hop {s s₁ s₂ : Session σ} {deadline fuel : Nat} (next : s.deadline? = some deadline)
      (le : deadline ≤ limit) (run : s.runUntil game deadline fuel = some s₁)
      (rest : Hops game limit s₁ s₂) :
      Hops game limit s s₂

theorem popDue?_eq_none_iff_deadline {q : Timers} {limit : Nat} :
    q.popDue? limit = none ↔ ∀ deadline, q.deadline? = some deadline → limit < deadline := by
  rw [Timers.popDue?_eq_none_iff]
  simp [Timers.deadline?]

/-- at a deadline there is a timer to fire, and so a run to it takes more than one unit of fuel -/
theorem one_lt_of_runUntil_deadline {deadline fuel : Nat} {s s' : Session σ}
    (next : s.deadline? = some deadline)
    (run : s.runUntil game deadline fuel = some s') : 1 < fuel := by
  match fuel, run with
  | 1, run =>
    cases due : s.timers.popDue? deadline with
    | none => exact absurd (popDue?_eq_none_iff_deadline.1 due deadline next) (Nat.lt_irrefl _)
    | some popped =>
      obtain ⟨t, timers⟩ := popped
      rw [runUntil_of_some due, Option.bind_eq_some_iff] at run
      obtain ⟨_, _, run⟩ := run
      cases run
  | fuel + 2, _ => omega

theorem runUntil_iff_hops {limit : Nat} {s s' : Session σ} :
    (∃ fuel, s.runUntil game limit fuel = some s') ↔
      ∃ s₁, Hops game limit s s₁ ∧ (∀ deadline, s₁.deadline? = some deadline → limit < deadline) ∧
        s' = { s₁ with timers := s₁.timers.setNow limit } := by
  constructor
  · rintro ⟨fuel, run⟩
    induction fuel using Nat.strongRecOn generalizing s with
    | ind fuel ih =>
      cases due : s.timers.popDue? limit with
      | none =>
        refine ⟨s, .here, popDue?_eq_none_iff_deadline.1 due, ?_⟩
        cases fuel with
        | zero => cases run
        | succ fuel =>
          rw [runUntil_of_none due] at run
          exact (Option.some.inj run).symm
      | some popped =>
        obtain ⟨t, timers⟩ := popped
        obtain ⟨first, le, -⟩ := Timers.popDue?_eq_some_iff.1 due
        have next : s.deadline? = some t.due := by
          show s.timers.pending.head?.map Timer.due = some t.due
          rw [first]
          rfl
        have split : max t.due limit = limit := by omega
        rw [← split] at run
        obtain ⟨n, m, s₁, sum, hop, rest⟩ := runUntil_max_iff.1 run
        have := one_lt_of_runUntil_deadline next hop
        obtain ⟨s₂, hops, last, e⟩ := ih m (by omega) rest
        exact ⟨s₂, .hop next le hop hops, last, e⟩
  · rintro ⟨s₁, hops, last, rfl⟩
    induction hops with
    | here => exact ⟨1, runUntil_of_none (popDue?_eq_none_iff_deadline.2 last) 0⟩
    | @hop s _ _ deadline n _ le run _ ih =>
      obtain ⟨m, rest⟩ := ih last
      have split : max deadline limit = limit := by omega
      have whole : s.runUntil game (max deadline limit) (n + m) = some _ :=
        runUntil_max_iff.2 ⟨n, m + 1, _, by omega, run, runUntil_mono rest (by omega)⟩
      rw [split] at whole
      exact ⟨n + m, whole⟩

/-! ## No timer is overdue -/

namespace Timers

/-- the pending timers are due in order, none before the present moment -/
structure InTime (q : Timers) : Prop where
  now_le : q.now ≤ endOfTime
  ordered : Ordered q.pending
  due : ∀ t ∈ q.pending, q.now ≤ t.due ∧ t.due ≤ endOfTime

namespace InTime

variable {q : Timers}

theorem schedule (h : q.InTime) (delay : Nat) (kind : TimerKind) (guard : Guard) :
    (q.schedule delay kind guard).InTime := by
  refine ⟨h.now_le, enter_ordered _ h.ordered, fun t m => ?_⟩
  rcases List.mem_cons.1 ((enter_perm _ _).mem_iff.1 m) with rfl | m
  · have now_le := h.now_le
    show q.now ≤ later q.now delay ∧ later q.now delay ≤ endOfTime
    unfold later
    omega
  · exact h.due t m

theorem popDue? (h : q.InTime) {limit : Nat} {t : Timer} {q' : Timers}
    (due : q.popDue? limit = some (t, q')) :
    q'.InTime ∧ q.now ≤ t.due ∧ q'.now = t.due := by
  obtain ⟨first, -, now⟩ := popDue?_eq_some_iff.1 due
  have ordered := h.ordered
  rw [first] at ordered
  have head := h.due t (by rw [first]; exact List.mem_cons_self)
  have now : q'.now = t.due := by omega
  refine ⟨⟨now ▸ head.2, (List.pairwise_cons.1 ordered).2, fun u m => ⟨?_, ?_⟩⟩, head.1, now⟩
  · rw [now]
    exact (List.pairwise_cons.1 ordered).1 u m
  · exact (h.due u (by rw [first]; exact List.mem_cons_of_mem _ m)).2

theorem setNow (h : q.InTime) {limit : Nat} (le : limit ≤ endOfTime)
    (nothing : q.popDue? limit = none) :
    (q.setNow limit).InTime := by
  have now_le := h.now_le
  refine ⟨Nat.max_le.2 ⟨now_le, le⟩, h.ordered, fun t m => ⟨?_, (h.due t m).2⟩⟩
  obtain ⟨now, pending⟩ := q
  have later : limit ≤ t.due := by
    cases pending with
    | nil => cases m
    | cons u us =>
      have lt := popDue?_eq_none_iff.1 nothing u rfl
      rcases List.mem_cons.1 m with rfl | m
      · omega
      · have := (List.pairwise_cons.1 h.ordered).1 t m
        omega
  exact Nat.max_le.2 ⟨(h.due t m).1, later⟩

end InTime

end Timers

/-! ## Setting timers keeps it so -/

section
variable (game : Game) {P : Timers → Prop}
  (keeps : ∀ q delay kind guard, P q → P (q.schedule delay kind guard)) {s : Session σ}
include keeps

theorem timers_completeLine (completion : Completion) (h : P s.timers) :
    P (s.completeLine game completion).timers := by
  cases completion with
  | autoAdvance => exact keeps _ _ _ _ h
  | waitForInput => exact h

theorem timers_execute (cue : Cue) (h : P s.timers) : P (s.execute game cue).2.timers := by
  have outcome := execute_outcome game cue s
  generalize (s.execute game cue).1 = flow at outcome
  generalize (s.execute game cue).2 = s' at outcome ⊢
  cases outcome with
  | quiet _ d =>
    obtain ⟨_, _, _, _, rfl⟩ := d
    exact h
  | video | jumped | noMenu | menu | noCard => exact h
  | videoStarted | wait | waitVideo | line | card | sequence => exact keeps _ _ _ _ h

theorem timers_turn (h : P s.timers) : P (s.turn game).session.timers :=
  turn_keeps game (P := fun s => P s.timers) (fun _ cue _ h => timers_execute game keeps cue h)
    (fun _ _ h => h)
    (fun _ _ h => h) s h

theorem timers_pressed (h : P s.timers) : P (s.pressed game).session.timers := by
  have pressed := pressed_pressed game s
  generalize s.pressed game = turn at pressed ⊢
  cases pressed with
  | idle | goesOn => exact h
  | skipped _ scene completion =>
    exact timers_completeLine game keeps (s := { s with scene := scene, reveal := .done _ })
      completion h

theorem timers_fire (kind : TimerKind) (h : P s.timers) : P (s.fire game kind).session.timers := by
  have fired := fire_fired game kind s
  generalize s.fire game kind = turn at fired ⊢
  cases fired with
  | advance | noLine | noCard | cardDone | noFrames | framesDone | noVideo | videoReached
      | checked => exact h
  | typed | carded | frame | polled => exact keeps _ _ _ _ h
  | lineDone _ scene completion =>
    exact timers_completeLine game keeps (s := { s with scene := scene, reveal := .done _ })
      completion h

end

theorem timers_chosen (index : Nat) (s : Session σ) :
    (s.chosen game index).session.timers = s.timers := by
  have chosen := chosen_chosen game index s
  generalize s.chosen game index = turn at chosen ⊢
  cases chosen <;> rfl

structure OnTime (fired : List Timer) (q : Timers) : Prop where
  pending : q.InTime
  sorted : fired.Pairwise fun t u => t.due ≤ u.due
  past : ∀ t ∈ fired, t.due ≤ q.now

namespace OnTime

variable {fired : List Timer} {q : Timers}

theorem schedule (h : OnTime fired q) (delay : Nat) (kind : TimerKind) (guard : Guard) :
    OnTime fired (q.schedule delay kind guard) :=
  ⟨h.pending.schedule delay kind guard, h.sorted, h.past⟩

theorem popDue? (h : OnTime fired q) {limit : Nat} {t : Timer} {q' : Timers}
    (due : q.popDue? limit = some (t, q')) : OnTime fired q' ∧ OnTime (fired ++ [t]) q' := by
  obtain ⟨pending, le, now⟩ := h.pending.popDue? due
  have past : ∀ u ∈ fired, u.due ≤ t.due := fun u m => Nat.le_trans (h.past u m) le
  refine ⟨⟨pending, h.sorted, fun u m => now ▸ past u m⟩, ⟨pending, ?_, fun u m => ?_⟩⟩
  · rw [List.pairwise_append]
    refine ⟨h.sorted, List.pairwise_singleton _ _, fun u m v mv => ?_⟩
    rw [List.mem_singleton.1 mv]
    exact past u m
  · rcases List.mem_append.1 m with m | m
    · exact now ▸ past u m
    · rw [List.mem_singleton.1 m]
      exact Nat.le_of_eq now.symm

theorem setNow (h : OnTime fired q) {limit : Nat} (le : limit ≤ endOfTime)
    (nothing : q.popDue? limit = none) :
    OnTime fired (q.setNow limit) :=
  ⟨h.pending.setNow le nothing, h.sorted, fun t m => Nat.le_trans (h.past t m) (Nat.le_max_left _ _)⟩

end OnTime

theorem onTime_new (stage : σ) : OnTime [] (Session.ofStage stage).timers :=
  ⟨⟨Nat.zero_le _, .nil, nofun⟩, .nil, nofun⟩

theorem Reaches.onTime {s₀ : Session σ} {deeds : List Deed} {turn : Turn σ}
    (h : Reaches game s₀ deeds turn)
    (h₀ : OnTime [] s₀.timers) : OnTime (firedIn deeds) turn.session.timers := by
  have keeps (fired : List Timer) (q : Timers) (delay : Nat) (kind : TimerKind) (guard : Guard)
      (h : OnTime fired q) : OnTime fired (q.schedule delay kind guard) := h.schedule delay kind guard
  induction h with
  | refl => exact h₀
  | stage _ _ ih => exact ih
  | @opened _ s _ ih =>
    obtain ⟨scene, started, e, -⟩ := opened_session game s
    rw [e]
    exact ih
  | pressed _ _ ih => exact timers_pressed game (keeps _) ih
  | chosen index _ ih =>
    rw [timers_chosen]
    exact ih
  | advanced _ _ ih => exact ih
  | turn _ _ ih =>
    rw [firedIn_append, firedIn_turnDeeds, List.append_nil]
    exact timers_turn game (keeps _) ih
  | idle _ _ ih => exact ih
  | @fired _ s _ timer timers due _ _ ih =>
    rw [firedIn_append]
    exact timers_fire (s := { s with timers := timers }) game (keeps _) timer.kind (ih.popDue? due).2
  | dropped due _ _ ih => exact (ih.popDue? due).1
  | clock le nothing _ ih => exact ih.setNow le nothing

/-- timers fire in the order of their due times, within a run of the clock and from one run to the
next -/
theorem Reaches.firings_sorted {s₀ s : Session σ} {deeds : List Deed}
    (h : Reaches game s₀ deeds (.rests s))
    (h₀ : OnTime [] s₀.timers) {limit : Nat} (fuel : Nat) :
    (firedIn deeds ++ (s.firings game limit fuel).map Prod.fst).Pairwise
      fun t u => t.due ≤ u.due := by
  induction fuel generalizing deeds s with
  | zero => simpa [firings] using (h.onTime h₀).sorted
  | succ fuel ih =>
    simp only [firings]
    split
    · simpa using (h.onTime h₀).sorted
    rename_i timer timers due
    split
    · rename_i live
      have fired := h.fired due live
      cases settled : ({ s with timers := timers }.fire game timer.kind).settle game with
      | none =>
        have sorted := (fired.onTime h₀).sorted
        rw [firedIn_append, firedIn_fires] at sorted
        exact sorted
      | some s₁ =>
        have later := ih (fired.settle settled)
        rw [firedIn_append, firedIn_append, firedIn_deeds, firedIn_fires, List.append_nil,
          List.append_assoc] at later
        exact later
    · rename_i stale
      exact ih (h.dropped due (Bool.eq_false_iff.2 stale))

/-- **The grain of the clock does not matter.** From a session that operations have brought about,
two runs of the clock leave the very session, with its stage and its timers, that one run to the
later moment leaves, and so do runs from one deadline to the next; the one run has a result if and
only if the others have. Timers fire in the order of their due times. -/
theorem clock_grain_does_not_matter (game : Game) {deeds : List Deed} {s : Session σ}
    (h : Plays game deeds s) :
    (∀ a b s₂, (∃ fuel, s.runUntil game (max a b) fuel = some s₂) ↔
      ∃ s₁, (∃ fuel, s.runUntil game a fuel = some s₁) ∧ ∃ fuel, s₁.runUntil game b fuel = some s₂) ∧
    (∀ limit s', (∃ fuel, s.runUntil game limit fuel = some s') ↔
      ∃ s₁, Hops game limit s s₁ ∧ (∀ deadline, s₁.deadline? = some deadline → limit < deadline) ∧
        s' = { s₁ with timers := s₁.timers.setNow limit }) ∧
    ∀ limit fuel,
      (firedIn deeds ++ (s.firings game limit fuel).map Prod.fst).Pairwise
        fun t u => t.due ≤ u.due := by
  refine ⟨fun a b s₂ => ⟨?_, ?_⟩, fun limit s' => runUntil_iff_hops, fun limit fuel => ?_⟩
  · rintro ⟨fuel, whole⟩
    obtain ⟨n, m, s₁, -, first, second⟩ := runUntil_max_iff.1 whole
    exact ⟨s₁, ⟨n, first⟩, ⟨m, second⟩⟩
  · rintro ⟨s₁, ⟨n, first⟩, ⟨m, second⟩⟩
    exact ⟨n + m, runUntil_max_iff.2 ⟨n, m + 1, s₁, rfl, first, runUntil_mono second (Nat.le_succ m)⟩⟩
  · obtain ⟨stage, run⟩ := h
    exact run.reaches.firings_sorted (onTime_new stage) fuel

/-- a line that one run of the clock reveals is revealed by two shorter ones -/
theorem line_revealed_in_two_runs :
    let game : Game := { script := .ofEvents [.single (.dialogue ⟨"Hi", none, false, false⟩)] }
    ∃ (deeds : List Deed) (s : Session RecordingStage), Plays game deeds s ∧
      ∃ s₁ s₂, (∃ fuel, s.runUntil game 60 fuel = some s₁) ∧
        (∃ fuel, s₁.runUntil game 500 fuel = some s₂) ∧
        s.typing = true ∧ s₂.waitingForInput = true := by
  intro game
  have plays : ∃ (deeds : List Deed) (s : Session RecordingStage), Plays game deeds s ∧
      s.typing = true ∧
        (s.runUntil game (max 60 500) 10).any (fun s => s.waitingForInput) = true := by
    refine ⟨_, _, ⟨rehearsalStage, .operation .start .refl rfl⟩, ?_⟩
    decide +kernel
  obtain ⟨deeds, s, plays, typing, long⟩ := plays
  obtain ⟨s₂, whole, waits⟩ := (Option.any_eq_true _ _).1 long
  obtain ⟨s₁, first, second⟩ := ((clock_grain_does_not_matter game plays).1 60 500 s₂).1 ⟨10, whole⟩
  exact ⟨deeds, s, plays, s₁, s₂, first, second, typing, waits⟩

end VisualNovel
