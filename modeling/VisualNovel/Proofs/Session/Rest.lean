import Mathlib.Data.List.Perm.Subperm
import VisualNovel.Proofs.Review.Course
import VisualNovel.Proofs.Session.WakeUp

/-!
# A session comes to rest soon or never

While nothing holds playback, the place of the next event alone decides where it goes on: what has been
held back of a block is carried out first and never comes back, and whether an event holds playback can
be read off the script. So if an advance takes the event at one place twice, it goes round for ever; and
it cannot take more events than there are without taking one of them twice.

* `Cue.halts`, `Game.onward?`   whether a cue ends an advance, and the place after an event if it does not;
* `Game.course`                 the places of the events that are taken from a place on;
* `Game.Rounds`                 places that playback does not leave;
* `Session.StandsAt`            nothing but the place decides what a session does next;
* `turn_of_onward`, `turn_of_onward_none`   what its turn leads to;
* `never_rests_of_repeated`     after an event that is taken twice a session never rests;
* `repeated_of_not_rested`      as long as it does not rest, it takes one event after the other;
* `rests_soon_or_never`         what this means for an advance.
-/

set_option linter.unusedSectionVars false

namespace VisualNovel

open Session Review

/-! ## What can be read off the script -/

/-- the cue ends the advance that comes upon it; an empty menu does not -/
def Cue.halts : Cue → Bool
  | .choice options => !options.isEmpty
  | cue => cue.suspends

theorem Cue.halts_of_not_suspends {cue : Cue} (quiet : cue.suspends = false) : cue.halts = false := by
  cases cue <;> first | rfl | cases quiet

theorem Cue.holds_of_not_halts {cue : Cue} (passes : cue.halts = false) : cue.holds = false := by
  cases cue <;> first | exact passes | rfl | cases passes

namespace Game

variable (game : Game)

/-- the place where playback goes on after the event at a place, unless the event holds it -/
def onward? (place : Nat) : Option Nat :=
  match game.script.events[place]? with
  | none => none
  | some (.single cue) =>
    if cue.halts then none else some ((cue.target? game.script).getD (place + 1))
  | some (.together cues) =>
    if cues.any Cue.holds then none else some ((blockTarget? game.script cues).getD (place + 1))

/-- the places of the events that are taken from a place on, `n` at most -/
def course : Nat → Nat → List Nat
  | 0, _ => []
  | n + 1, place =>
    if place < game.script.size then place :: (game.onward? place).elim [] (course n) else []

/-- playback that has come to one of these places goes on to another of them -/
def Rounds (places : List Nat) : Prop :=
  ∀ place ∈ places, ∃ next ∈ places, game.onward? place = some next

variable {game} {n place next : Nat}

theorem course_of_onward (on : game.onward? place = some next) (n : Nat) :
    game.course (n + 1) place = place :: game.course n next := by
  have lt : place < game.script.size := by
    rw [← not_le]
    intro le
    rw [onward?, Array.getElem?_eq_none_iff.2 le] at on
    cases on
  rw [course, if_pos lt, on, Option.elim_some]

theorem course_of_onward_none (on : game.onward? place = none) (n : Nat) :
    game.course (n + 1) place = if place < game.script.size then [place] else [] := by
  rw [course, on, Option.elim_none]

theorem lt_of_mem_course (m : next ∈ game.course n place) : next < game.script.size := by
  induction n generalizing place with
  | zero => cases m
  | succ n ih =>
    rw [course] at m
    split at m
    · rename_i lt
      rcases List.mem_cons.1 m with rfl | later
      · exact lt
      · cases on : game.onward? place with
        | none =>
          rw [on] at later
          cases later
        | some onward =>
          rw [on] at later
          exact ih later
    · cases m

/-- a course that takes no event twice is no longer than the script -/
theorem length_course_le (once : (game.course n place).Nodup) :
    (game.course n place).length ≤ game.script.size := by
  have inside : game.course n place ⊆ List.range game.script.size :=
    fun _ m => List.mem_range.2 (lt_of_mem_course m)
  have le := (once.subperm inside).length_le
  rwa [List.length_range] at le

/-- the places from one on a course up to another, each but the last followed by one of them -/
theorem exists_between (m : next ∈ game.course n place) :
    ∃ places : List Nat, place ∈ places ∧ next ∈ places ∧
      ∀ p ∈ places, p = next ∨ ∃ q ∈ places, game.onward? p = some q := by
  induction n generalizing place with
  | zero => cases m
  | succ n ih =>
    have here : ∀ p ∈ [next], p = next ∨ ∃ q ∈ [next], game.onward? p = some q :=
      fun p m => .inl (List.mem_singleton.1 m)
    cases on : game.onward? place with
    | none =>
      rw [course_of_onward_none on] at m
      split at m
      · obtain rfl := List.mem_singleton.1 m
        exact ⟨[next], m, m, here⟩
      · cases m
    | some onward =>
      rw [course_of_onward on] at m
      rcases List.mem_cons.1 m with rfl | later
      · exact ⟨[next], List.mem_singleton_self _, List.mem_singleton_self _, here⟩
      · obtain ⟨places, first, last, linked⟩ := ih later
        refine ⟨place :: places, List.mem_cons_self, List.mem_cons_of_mem _ last, fun p m => ?_⟩
        rcases List.mem_cons.1 m with rfl | m
        · exact .inr ⟨onward, List.mem_cons_of_mem _ first, on⟩
        · refine (linked p m).imp_right ?_
          rintro ⟨q, mq, goes⟩
          exact ⟨q, List.mem_cons_of_mem _ mq, goes⟩

theorem rounds_of_repeated (twice : ¬ (game.course n place).Nodup) :
    ∃ places : List Nat, place ∈ places ∧ game.Rounds places := by
  induction n generalizing place with
  | zero => exact absurd List.nodup_nil twice
  | succ n ih =>
    cases on : game.onward? place with
    | none =>
      rw [course_of_onward_none on] at twice
      split at twice
      · exact absurd (List.nodup_singleton _) twice
      · exact absurd List.nodup_nil twice
    | some next =>
      rw [course_of_onward on, List.nodup_cons, not_and_or, not_not] at twice
      rcases twice with back | later
      · -- the course comes back to where it started: the places in between are a round
        obtain ⟨places, first, last, linked⟩ := exists_between back
        refine ⟨places, last, fun p m => ?_⟩
        rcases linked p m with rfl | goes
        · exact ⟨next, first, on⟩
        · exact goes
      · obtain ⟨places, m, rounds⟩ := ih later
        refine ⟨place :: places, List.mem_cons_self, fun p m' => ?_⟩
        rcases List.mem_cons.1 m' with rfl | m'
        · exact ⟨next, List.mem_cons_of_mem _ m, on⟩
        · obtain ⟨q, mq, goes⟩ := rounds p m'
          exact ⟨q, List.mem_cons_of_mem _ mq, goes⟩

end Game

variable {σ : Type} [Presentation σ] [Audio σ]

/-! ## Cues and blocks -/

section
variable {s : Session σ} (game : Game)

theorem flow_execute (cue : Cue) (s : Session σ) :
    (s.execute game cue).1 = if cue.halts then .hold else .goOn := by
  have outcome := execute_outcome game cue s
  generalize (s.execute game cue).1 = flow at outcome ⊢
  generalize (s.execute game cue).2 = s' at outcome
  cases outcome with
  | quiet quiet _ => rw [Cue.halts_of_not_suspends quiet, if_neg Bool.false_ne_true]
  | _ => rfl

theorem ofFlow_of_halts {cue : Cue} (halts : cue.halts = true) (s : Session σ) :
    ∃ s', Turn.ofFlow (s.execute game cue) = .rests s' := by
  have flow := flow_execute game cue s
  rw [halts, if_pos rfl] at flow
  generalize s.execute game cue = result at flow ⊢
  obtain ⟨_, s'⟩ := result
  cases flow
  exact ⟨s', rfl⟩

/-- a cue that does not end an advance leaves a session that nothing holds so, and holds nothing back -/
theorem ofFlow_of_not_halts {cue : Cue} (passes : cue.halts = false) (free : s.isBusy = false) :
    ∃ s', Turn.ofFlow (s.execute game cue) = .goesOn s' ∧ s'.isBusy = false ∧
      s'.deferred = s.deferred ∧ s'.position = (cue.target? game.script).getD s.position := by
  have flow := flow_execute game cue s
  have busy := (busy_execute_of_free game cue free).1
  have rest := (frame_execute game cue s).2
  have there := position_execute game cue s
  rw [passes, if_neg Bool.false_ne_true] at flow
  rw [Cue.holds_of_not_halts passes] at busy
  generalize s.execute game cue = result at flow busy rest there ⊢
  obtain ⟨_, s'⟩ := result
  cases flow
  exact ⟨s', rfl, busy, rest, there⟩

/-- a block that comes upon a session that nothing holds leaves it so if none of its cues holds
playback, and then holds none of them back -/
theorem together_of_no_hold (cues : List Cue) (free : s.isBusy = false)
    (none : cues.any Cue.holds = false) :
    s.together game cues = s.executeAll game cues ∧ (s.together game cues).isBusy = false ∧
      (s.together game cues).deferred = s.deferred := by
  induction cues generalizing s with
  | nil => exact ⟨rfl, free, rfl⟩
  | cons cue cues ih =>
    rw [List.any_cons, Bool.or_eq_false_iff] at none
    obtain ⟨busy, -⟩ := busy_execute_of_free game cue free
    rw [none.1] at busy
    simp only [together, free, Bool.false_and, Bool.false_eq_true, if_false]
    obtain ⟨all, still, held⟩ := ih busy none.2
    exact ⟨all, still, held.trans (frame_execute game cue s).2⟩

theorem busy_together_of_busy (cues : List Cue) (busy : s.isBusy = true) :
    (s.together game cues).isBusy = true := by
  induction cues generalizing s with
  | nil => exact busy
  | cons cue cues ih =>
    simp only [together, busy, Bool.true_and]
    cases quiet : cue.suspends with
    | true => exact busy
    | false => exact ih (by rw [busy_execute_of_not_suspends game quiet, busy])

theorem busy_together_of_hold (cues : List Cue) (free : s.isBusy = false)
    (holds : cues.any Cue.holds = true) : (s.together game cues).isBusy = true := by
  induction cues generalizing s with
  | nil => cases holds
  | cons cue cues ih =>
    obtain ⟨busy, -⟩ := busy_execute_of_free game cue free
    simp only [together, free, Bool.false_and, Bool.false_eq_true, if_false]
    cases first : cue.holds with
    | true =>
      rw [first] at busy
      exact busy_together_of_busy game cues busy
    | false =>
      rw [first] at busy
      rw [List.any_cons, first, Bool.false_or] at holds
      exact ih busy holds

end

/-! ## Turns -/

structure Session.StandsAt (s : Session σ) (place : Nat) : Prop where
  free : s.isBusy = false
  nothing : s.deferred = []
  here : s.position = place

section
variable {game : Game} {s : Session σ} {place next : Nat}

theorem turn_of_busy (game : Game) (busy : s.isBusy = true) :
    s.turn game = .rests s ∧ s.turnDeeds game = [] := by
  simp [turn, turnDeeds, busy]

/-- what has been held back is carried out, and no place is taken for it -/
theorem turn_of_deferred (game : Game) {cue : Cue} {cues : List Cue} (free : s.isBusy = false)
    (held : s.deferred = cue :: cues) :
    s.turnDeeds game = [.does cue] ∧ ((∃ s', s.turn game = .rests s') ∨
      ∃ s', s.turn game = .goesOn s' ∧ s'.isBusy = false ∧ s'.deferred = cues) := by
  have deeds : s.turnDeeds game = [.does cue] := by simp [turnDeeds, free, held]
  have carried : s.turn game = .ofFlow ({ s with deferred := cues }.execute game cue) := by
    simp [turn, free, held]
  rw [deeds, carried]
  refine ⟨rfl, ?_⟩
  cases halts : cue.halts with
  | true => exact .inl (ofFlow_of_halts game halts _)
  | false =>
    obtain ⟨s', goesOn, free', rest, -⟩ :=
      ofFlow_of_not_halts (s := { s with deferred := cues }) game halts free
    exact .inr ⟨s', goesOn, free', rest⟩

theorem turn_of_onward (stands : s.StandsAt place) (on : game.onward? place = some next) :
    placesIn (s.turnDeeds game) = [place] ∧
      ∃ s', s.turn game = .goesOn s' ∧ s'.StandsAt next := by
  obtain ⟨free, nothing, rfl⟩ := stands
  have turned := turn_turned game s
  generalize s.turnDeeds game = deeds at turned ⊢
  generalize s.turn game = turn at turned ⊢
  cases turned with
  | busy busy => rw [free] at busy; cases busy
  | deferred _ held => rw [nothing] at held; cases held
  | ended _ _ last => rw [Game.onward?, last] at on; cases on
  | @single cue _ _ found =>
    rw [Game.onward?, found] at on
    dsimp only at on
    split at on
    · cases on
    rename_i passes
    rw [Bool.not_eq_true] at passes
    cases on
    obtain ⟨s', goesOn, free', rest, there⟩ :=
      ofFlow_of_not_halts (s := { s with position := s.position + 1 }) game passes free
    exact ⟨rfl, s', goesOn, free', rest.trans nothing, there⟩
  | @together cues _ _ found =>
    rw [Game.onward?, found] at on
    dsimp only at on
    split at on
    · cases on
    rename_i none
    rw [Bool.not_eq_true] at none
    cases on
    obtain ⟨all, still, held⟩ :=
      together_of_no_hold (s := { s with position := s.position + 1 }) game cues free none
    obtain ⟨done, _, -, deeds, -⟩ := together_split game cues { s with position := s.position + 1 }
    refine ⟨by rw [deeds, placesIn_takes], _, rfl, still, held.trans nothing, ?_⟩
    rw [all, position_executeAll]

theorem turn_of_onward_none (stands : s.StandsAt place) (on : game.onward? place = none) :
    placesIn (s.turnDeeds game) = (if place < game.script.size then [place] else []) ∧
      ((∃ s', s.turn game = .rests s') ∨ place < game.script.size ∧
        ∃ s', s.turn game = .goesOn s' ∧ s'.isBusy = true) := by
  obtain ⟨free, nothing, rfl⟩ := stands
  have turned := turn_turned game s
  generalize s.turnDeeds game = deeds at turned ⊢
  generalize s.turn game = turn at turned ⊢
  cases turned with
  | busy busy => rw [free] at busy; cases busy
  | deferred _ held => rw [nothing] at held; cases held
  | ended _ _ last =>
    have le : game.script.size ≤ s.position := Array.getElem?_eq_none_iff.1 last
    rw [if_neg (Nat.not_lt.2 le)]
    exact ⟨rfl, .inl ⟨s, rfl⟩⟩
  | @single cue _ _ found =>
    have lt : s.position < game.script.size := (Array.getElem?_eq_some_iff.1 found).1
    rw [Game.onward?, found] at on
    dsimp only at on
    split at on
    · rename_i halts
      rw [if_pos lt]
      exact ⟨rfl, .inl (ofFlow_of_halts game halts _)⟩
    · cases on
  | @together cues _ _ found =>
    have lt : s.position < game.script.size := (Array.getElem?_eq_some_iff.1 found).1
    rw [Game.onward?, found] at on
    dsimp only at on
    split at on
    · rename_i holds
      obtain ⟨done, _, -, deeds, -⟩ := together_split game cues { s with position := s.position + 1 }
      refine ⟨by rw [deeds, placesIn_takes, if_pos lt], .inr ⟨lt, _, rfl, ?_⟩⟩
      exact busy_together_of_hold (s := { s with position := s.position + 1 }) game cues free holds
    · cases on

end

/-! ## Many turns -/

section
variable {game : Game} {s s' : Session σ} {place n : Nat}

theorem advanceWithin_of_rests (rests : s.turn game = .rests s') (n : Nat) :
    s.advanceWithin game (n + 1) = some s' ∧ s.deedsWithin game (n + 1) = s.turnDeeds game := by
  simp [advanceWithin, deedsWithin, rests]

theorem advanceWithin_of_goesOn (goesOn : s.turn game = .goesOn s') (n : Nat) :
    s.advanceWithin game (n + 1) = s'.advanceWithin game n ∧
      s.deedsWithin game (n + 1) = s.turnDeeds game ++ s'.deedsWithin game n := by
  simp [advanceWithin, deedsWithin, goesOn]

theorem deedsWithin_of_busy (busy : s.isBusy = true) (n : Nat) : s.deedsWithin game n = [] := by
  obtain ⟨rests, deeds⟩ := turn_of_busy game busy
  cases n with
  | zero => rfl
  | succ n => rw [(advanceWithin_of_rests rests n).2, deeds]

/-- from a place on, the events are taken that can be read off the script -/
theorem placesIn_deedsWithin (stands : s.StandsAt place) (n : Nat) :
    placesIn (s.deedsWithin game n) = game.course n place := by
  induction n generalizing s place with
  | zero => rfl
  | succ n ih =>
    cases on : game.onward? place with
    | some next =>
      obtain ⟨deeds, s', goesOn, stands'⟩ := turn_of_onward stands on
      rw [(advanceWithin_of_goesOn goesOn n).2, placesIn_append, deeds, ih stands',
        Game.course_of_onward on, List.singleton_append]
    | none =>
      obtain ⟨deeds, ⟨s', rests⟩ | ⟨-, s', goesOn, busy⟩⟩ := turn_of_onward_none stands on
      · rw [(advanceWithin_of_rests rests n).2, deeds, Game.course_of_onward_none on]
      · rw [(advanceWithin_of_goesOn goesOn n).2, placesIn_append, deeds, deedsWithin_of_busy busy,
          Game.course_of_onward_none on]
        exact List.append_nil _

theorem never_rests_of_rounds {places : List Nat} (rounds : game.Rounds places)
    (m : place ∈ places) (stands : s.StandsAt place) (n : Nat) : s.advanceWithin game n = none := by
  induction n generalizing s place with
  | zero => rfl
  | succ n ih =>
    obtain ⟨next, m', on⟩ := rounds place m
    obtain ⟨-, s', goesOn, stands'⟩ := turn_of_onward stands on
    rw [(advanceWithin_of_goesOn goesOn n).1]
    exact ih m' stands'

/-- as long as a session does not rest, every turn takes an event -/
theorem length_course (stands : s.StandsAt place) (unrested : s.advanceWithin game n = none) :
    (game.course n place).length = n := by
  induction n generalizing s place with
  | zero => rfl
  | succ n ih =>
    cases on : game.onward? place with
    | some next =>
      obtain ⟨-, s', goesOn, stands'⟩ := turn_of_onward stands on
      rw [(advanceWithin_of_goesOn goesOn n).1] at unrested
      rw [Game.course_of_onward on, List.length_cons, ih stands' unrested]
    | none =>
      obtain ⟨-, ⟨s', rests⟩ | ⟨lt, s', goesOn, busy⟩⟩ := turn_of_onward_none stands on
      · rw [(advanceWithin_of_rests rests n).1] at unrested
        cases unrested
      · -- a session that is busy rests at its next turn, so there is none
        rw [(advanceWithin_of_goesOn goesOn n).1] at unrested
        cases n with
        | zero => rw [Game.course_of_onward_none on, if_pos lt, List.length_singleton]
        | succ n =>
          rw [(advanceWithin_of_rests (turn_of_busy game busy).1 n).1] at unrested
          cases unrested

/-- **Once an event has been taken twice, a session never rests.** -/
theorem never_rests_of_repeated (twice : ¬ (placesIn (s.deedsWithin game n)).Nodup) (m : Nat) :
    s.advanceWithin game m = none := by
  cases free : s.isBusy with
  | true =>
    rw [deedsWithin_of_busy free] at twice
    exact absurd List.nodup_nil twice
  | false =>
    induction held : s.deferred generalizing s n m with
    | nil =>
      have stands : s.StandsAt s.position := ⟨free, held, rfl⟩
      rw [placesIn_deedsWithin stands] at twice
      obtain ⟨places, here, rounds⟩ := Game.rounds_of_repeated twice
      exact never_rests_of_rounds rounds here stands m
    | cons cue cues ih =>
      obtain ⟨deeds, turned⟩ := turn_of_deferred game free held
      cases n with
      | zero => exact absurd List.nodup_nil twice
      | succ n =>
        rcases turned with ⟨s', rests⟩ | ⟨s', goesOn, free', held'⟩
        · rw [(advanceWithin_of_rests rests n).2, deeds] at twice
          exact absurd List.nodup_nil twice
        · rw [(advanceWithin_of_goesOn goesOn n).2, deeds] at twice
          cases m with
          | zero => rfl
          | succ m =>
            rw [(advanceWithin_of_goesOn goesOn m).1]
            exact ih twice m free' held'

theorem advanceWithin_mono {m : Nat} (le : n ≤ m) (rested : s.advanceWithin game n = some s') :
    s.advanceWithin game m = some s' := by
  induction n generalizing m s with
  | zero => cases rested
  | succ n ih =>
    obtain ⟨m, rfl⟩ : ∃ k, m = k + 1 := ⟨m - 1, by omega⟩
    cases turned : s.turn game with
    | rests s₁ =>
      rw [(advanceWithin_of_rests turned n).1] at rested
      rw [(advanceWithin_of_rests turned m).1, rested]
    | goesOn s₁ =>
      rw [(advanceWithin_of_goesOn turned n).1] at rested
      rw [(advanceWithin_of_goesOn turned m).1]
      exact ih (by omega) rested

/-- a session that rests is busy, waits for the player, or is at the end of the script -/
theorem at_rest_of_advanceWithin (started : s.started) (rested : s.advanceWithin game n = some s') :
    s'.isBusy = true ∨ s'.waitingForInput = true ∨
      game.script.size ≤ s'.position ∧ s'.deferred = [] := by
  induction n generalizing s with
  | zero => cases rested
  | succ n ih =>
    have started' := started_turn game started
    cases turned : s.turn game with
    | rests s₁ =>
      rw [turned] at started'
      rw [(advanceWithin_of_rests turned n).1] at rested
      cases rested
      exact settled_turn game turned started'
    | goesOn s₁ =>
      rw [turned] at started'
      rw [(advanceWithin_of_goesOn turned n).1] at rested
      exact ih started' rested

/-- a session that has not rested after a turn for each cue that was held back, one for each event and
one more has taken an event twice -/
theorem repeated_of_not_rested (unrested : s.advanceWithin game (s.turns game) = none) :
    ¬ (placesIn (s.deedsWithin game (s.turns game))).Nodup := by
  unfold turns at unrested ⊢
  cases free : s.isBusy with
  | true =>
    rw [(advanceWithin_of_rests (turn_of_busy game free).1 _).1] at unrested
    cases unrested
  | false =>
    induction held : s.deferred generalizing s with
    | nil =>
      have stands : s.StandsAt s.position := ⟨free, held, rfl⟩
      rw [held] at unrested
      rw [placesIn_deedsWithin stands]
      intro once
      have le := Game.length_course_le once
      rw [length_course stands unrested, List.length_nil] at le
      omega
    | cons cue cues ih =>
      obtain ⟨deeds, turned⟩ := turn_of_deferred game free held
      have one_more : (cue :: cues).length + game.script.size + 1 =
          cues.length + game.script.size + 1 + 1 := by
        rw [List.length_cons]
        omega
      rw [held, one_more] at unrested
      rw [one_more]
      rcases turned with ⟨s', rests⟩ | ⟨s', goesOn, free', held'⟩
      · rw [(advanceWithin_of_rests rests _).1] at unrested
        cases unrested
      · rw [(advanceWithin_of_goesOn goesOn _).1, ← held'] at unrested
        rw [(advanceWithin_of_goesOn goesOn _).2, deeds, placesIn_append, ← held']
        exact held' ▸ ih unrested free' held'

end

/-- **An advance comes to rest soon or never.** Let a session have been started. If it does not rest
within a turn for each cue that was held back, one for each event of the script and one more, then it
never does. It comes to rest if and only if no event is taken twice, however many turns are made; and
then it is busy, waits for the player, or is at the end of the script. -/
theorem rests_soon_or_never (game : Game) {s : Session σ} (started : s.started) :
    (s.advanceWithin game (s.deferred.length + game.script.size + 1) = none →
      ∀ n, s.advanceWithin game n = none) ∧
    (∀ s', s.advance game = some s' ↔ ∃ n, s.advanceWithin game n = some s') ∧
    ((∃ n s', s.advanceWithin game n = some s') ↔
      ∀ n, (placesIn (s.deedsWithin game n)).Nodup) ∧
    ∀ n s', s.advanceWithin game n = some s' →
      s'.isBusy = true ∨ s'.waitingForInput = true ∨
        game.script.size ≤ s'.position ∧ s'.deferred = [] := by
  have advance : s.advance game = s.advanceWithin game (s.turns game) := if_pos started
  have never (unrested : s.advanceWithin game (s.turns game) = none) (n : Nat) :
      s.advanceWithin game n = none :=
    never_rests_of_repeated (repeated_of_not_rested unrested) n
  refine ⟨never, fun s' => ⟨fun rested => ⟨_, advance ▸ rested⟩, ?_⟩, ⟨?_, fun once => ?_⟩,
    fun n s' rested => at_rest_of_advanceWithin started rested⟩
  · rintro ⟨n, rested⟩
    rw [advance]
    cases within : s.advanceWithin game (s.turns game) with
    | none =>
      rw [never within] at rested
      cases rested
    | some s₁ =>
      have first := advanceWithin_mono (Nat.le_max_left _ n) within
      rw [advanceWithin_mono (Nat.le_max_right _ n) rested] at first
      exact first.symm
  · rintro ⟨m, s', rested⟩ n
    rw [← not_not (a := List.Nodup _)]
    intro twice
    rw [never_rests_of_repeated twice m] at rested
    cases rested
  · cases within : s.advanceWithin game (s.turns game) with
    | none => exact absurd (once _) (repeated_of_not_rested within)
    | some s' => exact ⟨_, s', within⟩

/-- behind a line that is done, a menu without options and a jump have been held back; the jump leads to
a label that is jumped back to -/
theorem jump_back_never_rests :
    let line : Cue := .dialogue ⟨"Hi", none, false, false⟩
    let game : Game :=
      { script := .ofEvents [.together [line, .choice [], .jump "top"], .single (.label "end"),
          .single (.label "top"), .single (.jump "top")] }
    ∃ deeds, ∃ s : Session RecordingStage, Plays game deeds s ∧ s.started = true ∧
      s.isBusy = false ∧ s.deferred.length = 2 ∧ (∀ n, s.advanceWithin game n = none) ∧
        ∃ n, ¬ (placesIn (s.deedsWithin game n)).Nodup := by
  intro line game
  have plays : ∃ deeds, ∃ s : Session RecordingStage, Plays game deeds s ∧ s.started = true ∧
      s.isBusy = false ∧ s.deferred.length = 2 ∧ (s.advanceWithin game 7).isNone = true := by
    refine ⟨_, _, ⟨rehearsalStage, .operation (.runUntil 90 10) (.operation .start .refl rfl) rfl⟩, ?_⟩
    decide +kernel
  obtain ⟨deeds, s, plays, started, free, held, unrested⟩ := plays
  obtain ⟨bound, -, once, -⟩ := rests_soon_or_never game started
  rw [held] at bound
  have never := bound (Option.isNone_iff_eq_none.1 unrested)
  refine ⟨deeds, s, plays, started, free, held, never, ?_⟩
  rw [← not_forall, ← once]
  rintro ⟨n, s', rested⟩
  rw [never n] at rested
  cases rested

end VisualNovel
