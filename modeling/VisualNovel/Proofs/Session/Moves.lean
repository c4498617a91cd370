import VisualNovel.Proofs.Session.Modes

/-!
# Moves of the host

The moves of a host are those operations that mean the same on any stage. So one sequence of moves can
be made on two stages, or with two asset tables, and the sessions be compared.

* `Move`, `Move.operation`     what the host of a session may do without touching its stage;
* `Session.follow`             the session after some moves, if each of them has a result;
* `Session.followed`           their deeds;
* `ContinuesWithin.follow`     what moves lead to, operations lead to, with the same deeds;
* `Keeps.follow`               what every small step of a host keeps who only moves, moves keep.
-/

set_option linter.unusedSectionVars false

namespace VisualNovel

open Session

/-- what the host of a session may do without touching its stage -/
inductive Move
  | start
  | activate
  | choose (index : Nat)
  | advance
  | runUntil (limit : UInt64) (fuel : Nat)

def Move.operation {σ : Type} : Move → Operation σ
  | start => .start
  | activate => .activate
  | choose index => .choose index
  | advance => .advance
  | runUntil limit fuel => .runUntil limit fuel

variable {σ : Type} [Presentation σ] [Audio σ]

namespace Session

/-- the session after some moves; nothing if one of them has no result -/
def follow (game : Game) : List Move → Session σ → Option (Session σ)
  | [], s => some s
  | move :: moves, s => (move.operation.perform game s).bind (follow game moves)

def followed (game : Game) : List Move → Session σ → List Deed
  | [], _ => []
  | move :: moves, s =>
    move.operation.deeds game s ++ (move.operation.perform game s).elim [] (followed game moves)

end Session

variable {game : Game} {s s' : Session σ} {moves : List Move}

theorem ContinuesWithin.follow {may : Operation σ → Prop} (allowed : ∀ move : Move, may move.operation)
    {s₀ : Session σ} {deeds : List Deed} (h : ContinuesWithin may game s₀ deeds s)
    (result : s.follow game moves = some s') :
    ContinuesWithin may game s₀ (deeds ++ s.followed game moves) s' := by
  induction moves generalizing deeds s with
  | nil =>
    cases result
    simpa [followed] using h
  | cons move moves ih =>
    obtain ⟨s₁, made, rest⟩ := Option.bind_eq_some_iff.1 result
    rw [followed, made, Option.elim_some, ← List.append_assoc]
    exact ih (h.operation move.operation (allowed move) made) rest

theorem Keeps.follow {may : Operation σ → Prop} {K : List Deed → Turn σ → Prop}
    (keeps : Keeps game may K) (allowed : ∀ move : Move, may move.operation) {deeds : List Deed}
    (h : K deeds (.rests s)) (result : s.follow game moves = some s') :
    K (deeds ++ s.followed game moves) (.rests s') := by
  induction moves generalizing deeds s with
  | nil =>
    cases result
    simpa [followed] using h
  | cons move moves ih =>
    obtain ⟨s₁, made, rest⟩ := Option.bind_eq_some_iff.1 result
    rw [followed, made, Option.elim_some, ← List.append_assoc]
    exact ih (keeps.perform move.operation (allowed move) h made) rest

end VisualNovel
