import VisualNovel.Proofs.Session.Deeds

/-!
# The history of a playback

The deeds of a playback, each with the session that it finds. What holds whenever a cue is carried
out can then be read off one turn, since every entry of a history is one of a turn or of a timer.

* `turnHistory`, `historyWithin`, `Turn.history`   the history of a turn, of some turns, of an advance;
* `Operation.history`              the history of what the host does;
* `Operation.map_fst_history`      without the sessions it is the list of deeds;
* `Steps.of_mem_historyWithin`, `Keeps.of_mem_history`   where an entry comes from;
* `Finds`, `finds_turnHistory`, `Keeps.finds_history`   what is true of the session that each entry
  finds;
* `Met`, `Keeps.met`               what is true of every session that playback comes by.
-/

set_option linter.unusedSectionVars false

namespace VisualNovel

open Session

variable {σ : Type} [Presentation σ] [Audio σ]

namespace Session

def togetherHistory (game : Game) : List Cue → Session σ → List (Deed × Session σ)
  | [], _ => []
  | cue :: cues, s =>
    if s.isBusy && cue.suspends then []
    else (.does cue, s) :: togetherHistory game cues (s.execute game cue).2

def turnHistory (game : Game) (s : Session σ) : List (Deed × Session σ) :=
  if s.isBusy then []
  else
    match s.deferred with
    | cue :: cues => [(.does cue, { s with deferred := cues })]
    | [] =>
      match game.script.events[s.position]? with
      | none => []
      | some (.single cue) =>
        [(.takes s.position, s), (.does cue, { s with position := s.position + 1 })]
      | some (.together cues) =>
        (.takes s.position, s) :: togetherHistory game cues { s with position := s.position + 1 }

def historyWithin (game : Game) : Nat → Session σ → List (Deed × Session σ)
  | 0, _ => []
  | n + 1, s =>
    s.turnHistory game ++
      match s.turn game with
      | .rests _ => []
      | .goesOn s => historyWithin game n s

def Turn.history (game : Game) : Turn σ → List (Deed × Session σ)
  | .rests _ => []
  | .goesOn s => if s.started then historyWithin game (s.turns game) s else []

def firingHistory (game : Game) : Timer × Session σ → List (Deed × Session σ)
  | (timer, s) => (.fires timer, s) :: (s.fire game timer.kind).history game

end Session

def Operation.history (game : Game) (s : Session σ) : Operation σ → List (Deed × Session σ)
  | start => (s.opened game).history game
  | activate => if s.started then (s.pressed game).history game else (s.opened game).history game
  | choose index => (s.chosen game index).history game
  | advance => (Turn.goesOn s).history game
  | runUntil limit fuel => (s.firings game limit.toNat fuel).flatMap (firingHistory game)
  | stage _ => []

variable {game : Game}

/-! ## Without the sessions -/

theorem map_fst_togetherHistory (cues : List Cue) (s : Session σ) :
    (s.togetherHistory game cues).map Prod.fst = s.togetherDeeds game cues := by
  induction cues generalizing s with
  | nil => rfl
  | cons cue cues ih =>
    simp only [togetherHistory, togetherDeeds]
    split
    · rfl
    · rw [List.map_cons, ih]

theorem map_fst_turnHistory (s : Session σ) :
    (s.turnHistory game).map Prod.fst = s.turnDeeds game := by
  cases free : s.isBusy with
  | true => simp [turnHistory, turnDeeds, free]
  | false =>
    cases held : s.deferred with
    | cons cue cues => simp [turnHistory, turnDeeds, free, held]
    | nil =>
      cases next : game.script.events[s.position]? with
      | none => simp [turnHistory, turnDeeds, free, held, next]
      | some event =>
        cases event <;> simp [turnHistory, turnDeeds, free, held, next, map_fst_togetherHistory]

theorem map_fst_historyWithin (n : Nat) (s : Session σ) :
    (s.historyWithin game n).map Prod.fst = s.deedsWithin game n := by
  induction n generalizing s with
  | zero => rfl
  | succ n ih =>
    simp only [historyWithin, deedsWithin]
    rw [List.map_append, map_fst_turnHistory]
    cases s.turn game with
    | rests s₁ => rfl
    | goesOn s₁ => rw [ih]

theorem map_fst_turn (turn : Turn σ) : (turn.history game).map Prod.fst = turn.deeds game := by
  cases turn with
  | rests s => rfl
  | goesOn s =>
    simp only [Turn.history, Turn.deeds]
    split
    · exact map_fst_historyWithin _ s
    · rfl

theorem Operation.map_fst_history (o : Operation σ) (s : Session σ) :
    (o.history game s).map Prod.fst = o.deeds game s := by
  cases o with
  | start => exact map_fst_turn (s.opened game)
  | activate =>
    simp only [Operation.history, Operation.deeds]
    split <;> exact map_fst_turn _
  | choose index => exact map_fst_turn (s.chosen game index)
  | advance => exact map_fst_turn (.goesOn s)
  | runUntil limit fuel =>
    simp only [Operation.history, Operation.deeds]
    rw [List.map_flatMap]
    congr 1
    funext fired
    rw [firingHistory, firingDeeds, List.map_cons, map_fst_turn]
  | stage f => rfl

/-! ## Where an entry comes from -/

/-- the entry is one of a turn that playback takes after some of the deeds -/
def InTurn (game : Game) (K : List Deed → Turn σ → Prop) (deeds : List Deed)
    (entry : Deed × Session σ) : Prop :=
  ∃ before, ∃ s : Session σ, K before (.goesOn s) ∧ entry ∈ s.turnHistory game ∧
    before ++ s.turnDeeds game <+: deeds

theorem InTurn.later {K : List Deed → Turn σ → Prop} {deeds deeds' : List Deed}
    {entry : Deed × Session σ} (h : InTurn game K deeds entry) (le : deeds <+: deeds') :
    InTurn game K deeds' entry := by
  obtain ⟨before, s, reached, m, within⟩ := h
  exact ⟨before, s, reached, m, within.trans le⟩

namespace Steps

variable {K : List Deed → Turn σ → Prop} (keeps : Steps game K) {deeds : List Deed}
  {s : Session σ} {entry : Deed × Session σ}
include keeps

theorem of_mem_historyWithin {n : Nat} (started : s.started) (h : K deeds (.goesOn s))
    (m : entry ∈ s.historyWithin game n) :
    InTurn game K (deeds ++ s.deedsWithin game n) entry := by
  induction n generalizing deeds s with
  | zero => cases m
  | succ n ih =>
    have step := keeps.turn started h
    have started' := started_turn game started
    simp only [historyWithin, List.mem_append] at m
    simp only [deedsWithin, ← List.append_assoc]
    rcases m with now | later
    · exact ⟨deeds, s, h, now, List.prefix_append _ _⟩
    · cases e : s.turn game with
      | rests s₁ =>
        rw [e] at later
        cases later
      | goesOn s₁ =>
        rw [e] at step later started'
        exact ih started' step later

theorem of_mem_turn_history {turn : Turn σ} (h : K deeds turn) (m : entry ∈ turn.history game) :
    InTurn game K (deeds ++ turn.deeds game) entry := by
  cases turn with
  | rests s => cases m
  | goesOn s =>
    simp only [Turn.history] at m
    simp only [Turn.deeds]
    split at m
    · rename_i started
      rw [if_pos started]
      exact keeps.of_mem_historyWithin started h m
    · cases m

theorem of_mem_firings_history {limit fuel : Nat} (h : K deeds (.rests s))
    (m : entry ∈ (s.firings game limit fuel).flatMap (firingHistory game)) :
    InTurn game K (deeds ++ (s.firings game limit fuel).flatMap (firingDeeds game)) entry ∨
      ∃ timer, entry.1 = .fires timer := by
  induction fuel generalizing deeds s with
  | zero => cases m
  | succ fuel ih =>
    simp only [firings] at m ⊢
    cases due : s.timers.popDue? limit with
    | none =>
      rw [due] at m
      cases m
    | some popped =>
      obtain ⟨timer, timers⟩ := popped
      rw [due] at m
      dsimp only at m ⊢
      cases live : isLive { s with timers := timers } timer with
      | true =>
        have fired := keeps.fired due live h
        simp only [live, if_true, List.flatMap_cons, List.mem_append] at m ⊢
        rcases m with now | later
        · rcases List.mem_cons.1 now with rfl | now
          · exact .inr ⟨timer, rfl⟩
          · refine .inl ((keeps.of_mem_turn_history fired now).later ?_)
            rw [List.append_assoc, List.singleton_append, ← List.append_assoc]
            exact List.prefix_append _ _
        · cases settled : ({ s with timers := timers }.fire game timer.kind).settle game with
          | none =>
            rw [settled] at later
            cases later
          | some s₁ =>
            rw [settled] at later
            have rest := ih (keeps.settle fired settled) later
            rw [List.append_assoc, List.append_assoc, List.singleton_append] at rest
            exact rest
      | false =>
        simp only [live, Bool.false_eq_true, if_false] at m ⊢
        exact ih (keeps.dropped due live h) m

end Steps

theorem Keeps.of_mem_history {may : Operation σ → Prop} {K : List Deed → Turn σ → Prop}
    (keeps : Keeps game may K) {deeds : List Deed} {s : Session σ} {o : Operation σ}
    (allowed : may o) (h : K deeds (.rests s)) {entry : Deed × Session σ}
    (m : entry ∈ o.history game s) :
    InTurn game K (deeds ++ o.deeds game s) entry ∨ ∃ timer, entry.1 = .fires timer := by
  cases o with
  | start => exact .inl (keeps.of_mem_turn_history (keeps.opened h) m)
  | activate =>
    simp only [Operation.history] at m
    simp only [Operation.deeds]
    split at m
    · rename_i started
      rw [if_pos started]
      exact .inl (keeps.of_mem_turn_history (keeps.pressed allowed started h) m)
    · rename_i idle
      rw [if_neg idle]
      exact .inl (keeps.of_mem_turn_history (keeps.opened h) m)
  | choose index => exact .inl (keeps.of_mem_turn_history (keeps.chosen index h) m)
  | advance =>
    simp only [Operation.history, Turn.history] at m
    simp only [Operation.deeds, Turn.deeds]
    split at m
    · rename_i started
      rw [if_pos started]
      exact .inl (keeps.of_mem_historyWithin started (keeps.advanced allowed started h) m)
    · cases m
  | runUntil limit fuel => exact keeps.of_mem_firings_history h m
  | stage f => cases m

/-! ## What each entry finds -/

/-- each entry finds a session that has the property, after the deeds before it -/
def Finds (P : List Deed → Session σ → Prop) : List Deed → List (Deed × Session σ) → Prop
  | _, [] => True
  | deeds, (deed, s) :: entries => P deeds s ∧ Finds P (deeds ++ [deed]) entries

namespace Finds

variable {P : List Deed → Session σ → Prop} {deeds : List Deed}

theorem append {entries entries' : List (Deed × Session σ)} (h : Finds P deeds entries)
    (h' : Finds P (deeds ++ entries.map Prod.fst) entries') :
    Finds P deeds (entries ++ entries') := by
  induction entries generalizing deeds with
  | nil =>
    rw [List.map_nil, List.append_nil] at h'
    exact h'
  | cons entry entries ih =>
    rw [List.map_cons, List.append_cons] at h'
    exact ⟨h.1, ih h.2 h'⟩

theorem entry {earlier later : List (Deed × Session σ)} {deed : Deed} {s : Session σ}
    (h : Finds P deeds (earlier ++ (deed, s) :: later)) : P (deeds ++ earlier.map Prod.fst) s := by
  induction earlier generalizing deeds with
  | nil =>
    rw [List.map_nil, List.append_nil]
    exact h.1
  | cons first earlier ih =>
    rw [List.map_cons, List.append_cons]
    exact ih h.2

end Finds

section
variable {P : List Deed → Session σ → Prop} {deeds : List Deed} {s : Session σ}
  (does : ∀ {deeds : List Deed} {s : Session σ} (cue : Cue),
    (s.isBusy = true → cue.suspends = false) → P deeds s →
    P (deeds ++ [.does cue]) (s.execute game cue).2)
include does

theorem finds_togetherHistory (cues : List Cue) (h : P deeds s) :
    Finds P deeds (s.togetherHistory game cues) := by
  induction cues generalizing s deeds with
  | nil => trivial
  | cons cue cues ih =>
    simp only [togetherHistory]
    split
    · trivial
    · rename_i held
      exact ⟨h, ih (does cue (by simpa using held) h)⟩

theorem finds_turnHistory
    (takes : ∀ {deeds : List Deed} {s : Session σ}, P deeds s →
      P (deeds ++ [.takes s.position]) { s with position := s.position + 1 })
    (held : ∀ {deeds : List Deed} {s : Session σ} (cues : List Cue), P deeds s →
      P deeds { s with deferred := cues })
    (h : P deeds s) : Finds P deeds (s.turnHistory game) := by
  unfold turnHistory
  split
  · trivial
  · split
    · exact ⟨held _ h, trivial⟩
    · split
      · trivial
      · exact ⟨h, takes h, trivial⟩
      · exact ⟨h, finds_togetherHistory does _ (takes h)⟩

end

section
variable {K : List Deed → Turn σ → Prop} {P : List Deed → Session σ → Prop} {deeds : List Deed}
  {s : Session σ}

namespace Steps

variable (keeps : Steps game K)
  (turns : ∀ {deeds : List Deed} {s : Session σ}, K deeds (.goesOn s) →
    Finds P deeds (s.turnHistory game))
include keeps turns

theorem finds_historyWithin {n : Nat} (started : s.started) (h : K deeds (.goesOn s)) :
    Finds P deeds (s.historyWithin game n) := by
  induction n generalizing deeds s with
  | zero => trivial
  | succ n ih =>
    have step := keeps.turn started h
    have started' := started_turn game started
    simp only [historyWithin]
    refine (turns h).append ?_
    rw [map_fst_turnHistory]
    cases e : s.turn game with
    | rests s₁ => trivial
    | goesOn s₁ =>
      rw [e] at step started'
      exact ih started' step

theorem finds_turn {turn : Turn σ} (h : K deeds turn) : Finds P deeds (turn.history game) := by
  cases turn with
  | rests s => trivial
  | goesOn s =>
    simp only [Turn.history]
    split
    · rename_i started
      exact keeps.finds_historyWithin turns started h
    · trivial

theorem finds_firings
    (fires : ∀ {deeds : List Deed} {s : Session σ} (timers : Timers), K deeds (.rests s) →
      P deeds { s with timers := timers })
    {limit fuel : Nat} (h : K deeds (.rests s)) :
    Finds P deeds ((s.firings game limit fuel).flatMap (firingHistory game)) := by
  induction fuel generalizing deeds s with
  | zero => trivial
  | succ fuel ih =>
    simp only [firings]
    cases due : s.timers.popDue? limit with
    | none => trivial
    | some popped =>
      obtain ⟨timer, timers⟩ := popped
      dsimp only
      cases live : isLive { s with timers := timers } timer with
      | false =>
        simp only [Bool.false_eq_true, if_false]
        exact ih (keeps.dropped due live h)
      | true =>
        have fired := keeps.fired due live h
        simp only [if_true, List.flatMap_cons]
        refine Finds.append ⟨fires timers h, keeps.finds_turn turns fired⟩ ?_
        cases settled : ({ s with timers := timers }.fire game timer.kind).settle game with
        | none => trivial
        | some s₁ =>
          have rest := ih (keeps.settle fired settled)
          rw [firingHistory, List.map_cons, map_fst_turn, List.append_cons]
          exact rest

end Steps

theorem Keeps.finds_history {may : Operation σ → Prop} (keeps : Keeps game may K)
    (turns : ∀ {deeds : List Deed} {s : Session σ}, K deeds (.goesOn s) →
      Finds P deeds (s.turnHistory game))
    (fires : ∀ {deeds : List Deed} {s : Session σ} (timers : Timers), K deeds (.rests s) →
      P deeds { s with timers := timers })
    {o : Operation σ} (allowed : may o) (h : K deeds (.rests s)) :
    Finds P deeds (o.history game s) := by
  cases o with
  | start => exact keeps.finds_turn turns (keeps.opened h)
  | activate =>
    simp only [Operation.history]
    split
    · rename_i started
      exact keeps.finds_turn turns (keeps.pressed allowed started h)
    · exact keeps.finds_turn turns (keeps.opened h)
  | choose index => exact keeps.finds_turn turns (keeps.chosen index h)
  | advance =>
    simp only [Operation.history, Turn.history]
    split
    · rename_i started
      exact keeps.finds_historyWithin turns started (keeps.advanced allowed started h)
    · trivial
  | runUntil limit fuel => exact keeps.finds_firings turns fires h
  | stage f => trivial

/-- the sessions that playback comes by, each after some deeds: those that operations lead to, and
those that the entries of a further operation find -/
inductive Session.Met (may : Operation σ → Prop) (game : Game) (s₀ : Session σ) :
    List Deed → Session σ → Prop
  | rests {deeds : List Deed} {s : Session σ} (h : ContinuesWithin may game s₀ deeds s) :
      Met may game s₀ deeds s
  | found {deeds : List Deed} {s t : Session σ} {o : Operation σ} {deed : Deed}
      {earlier later : List (Deed × Session σ)} (h : ContinuesWithin may game s₀ deeds s)
      (allowed : may o) (history : o.history game s = earlier ++ (deed, t) :: later) :
      Met may game s₀ (deeds ++ earlier.map Prod.fst) t

theorem Keeps.met {may : Operation σ → Prop} (keeps : Keeps game may K)
    (turns : ∀ {deeds : List Deed} {s : Session σ}, K deeds (.goesOn s) →
      Finds P deeds (s.turnHistory game))
    (fires : ∀ {deeds : List Deed} {s : Session σ} (timers : Timers), K deeds (.rests s) →
      P deeds { s with timers := timers })
    {s₀ : Session σ} (new : K [] (.rests s₀)) (h : Met may game s₀ deeds s) : P deeds s := by
  cases h with
  | rests h => exact fires s.timers (h.keeps keeps new)
  | found h allowed history =>
    have finds := keeps.finds_history turns fires allowed (h.keeps keeps new)
    rw [history] at finds
    exact finds.entry

end

end VisualNovel
