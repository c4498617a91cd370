import VisualNovel.Proofs.Session.Blocks
import VisualNovel.Proofs.Session.Recall

/-!
# The cues of a playback, one after the other

What only cues change is handed on from each cue that is carried out to the next, whatever else happens
in between.

* `executions`         the cues that have been carried out, with their places and what they found;
* `map_executions`     without what they found, they are those of whole events;
* `Threads`            what each of them finds is what the one before has left;
* `Session.Path.threads`   what only cues change is handed on from one to the next;
* `generation_quiet`, `generation_execute`   so it is with the number of videos.
-/

set_option linter.unusedSectionVars false

namespace VisualNovel

open Session

/-! ## Places of cues -/

/-- the cues that some deeds carry out, each with the place of its event; `place` is that of the event
that has been taken before -/
def placed (place : Nat) : List Deed → List (Nat × Cue)
  | [] => []
  | .takes place :: deeds => placed place deeds
  | .does cue :: deeds => (place, cue) :: placed place deeds
  | .fires _ :: deeds => placed place deeds

theorem placed_actsIn (place : Nat) (deeds : List Deed) :
    placed place (actsIn deeds) = placed place deeds := by
  induction deeds generalizing place with
  | nil => rfl
  | cons deed deeds ih =>
    cases deed with
    | takes place => exact ih place
    | does cue => exact congrArg ((place, cue) :: ·) (ih place)
    | fires timer => exact ih place

theorem placed_does (place : Nat) (cues : List Cue) (deeds : List Deed) :
    placed place (cues.map .does ++ deeds) = cues.map (place, ·) ++ placed place deeds := by
  induction cues with
  | nil => rfl
  | cons cue cues ih => exact congrArg ((place, cue) :: ·) ih

theorem placed_visits (game : Game) (place : Nat) (places : List Nat) :
    placed place (places.flatMap game.visit) =
      places.flatMap fun p => (game.script.events[p]?.elim [] Event.cues).map (p, ·) := by
  induction places generalizing place with
  | nil => rfl
  | cons first places ih =>
    rw [List.flatMap_cons, Game.visit, List.cons_append, placed, placed_does, ih, List.flatMap_cons]

variable {σ : Type} [Presentation σ] [Audio σ] {game : Game}

/-- the cues that have been carried out, each with the place of its event and the session that it
found; `place` is that of the event that has been taken before -/
def executions (place : Nat) : List (Deed × Session σ) → List (Nat × Cue × Session σ)
  | [] => []
  | (.takes place, _) :: entries => executions place entries
  | (.does cue, s) :: entries => (place, cue, s) :: executions place entries
  | (.fires _, _) :: entries => executions place entries

theorem map_executions (place : Nat) (entries : List (Deed × Session σ)) :
    (executions place entries).map (fun x => (x.1, x.2.1)) = placed place (entries.map Prod.fst) := by
  induction entries generalizing place with
  | nil => rfl
  | cons entry entries ih =>
    obtain ⟨deed, s⟩ := entry
    cases deed with
    | takes place => exact ih place
    | does cue => exact congrArg ((place, cue) :: ·) (ih place)
    | fires timer => exact ih place

theorem executions_append (place : Nat) (entries more : List (Deed × Session σ)) :
    ∃ last, executions place (entries ++ more) = executions place entries ++ executions last more := by
  induction entries generalizing place with
  | nil => exact ⟨place, rfl⟩
  | cons entry entries ih =>
    obtain ⟨deed, s⟩ := entry
    cases deed with
    | takes place => exact ih place
    | does cue =>
      obtain ⟨last, e⟩ := ih place
      exact ⟨last, congrArg ((place, cue, s) :: ·) e⟩
    | fires timer => exact ih place

/-! ## What is handed on -/

/-- each of the executions finds what the one before has left, from `a` up to `b` -/
def Threads {α : Type} (game : Game) (f : Session σ → α) :
    α → List (Nat × Cue × Session σ) → α → Prop
  | a, [], b => a = b
  | a, (_, cue, s) :: rest, b => f s = a ∧ Threads game f (f (s.execute game cue).2) rest b

theorem Threads.append {α : Type} {f : Session σ → α} {a b c : α}
    {xs ys : List (Nat × Cue × Session σ)} (h : Threads game f a xs b) (h' : Threads game f b ys c) :
    Threads game f a (xs ++ ys) c := by
  induction xs generalizing a with
  | nil =>
    cases h
    exact h'
  | cons x xs ih => exact ⟨h.1, ih h.2⟩

theorem Session.Step.does_or_not {s s' : Session σ} {more : List (Deed × Session σ)}
    (step : s.Step game more s') :
    (∃ cue, more = [(.does cue, s)] ∧ s' = (s.execute game cue).2) ∨
      ∀ place, executions place more = [] := by
  cases step with
  | does cue _ => exact .inl ⟨cue, rfl, rfl⟩
  | _ => exact .inr fun _ => rfl

theorem Session.Path.threads {α : Type} {f : Session σ → α}
    (quiet : ∀ {s s' : Session σ} {more : List (Deed × Session σ)}, s.Step game more s' →
      executions 0 more = [] → f s' = f s)
    {s₀ s : Session σ} {entries : List (Deed × Session σ)} (place : Nat)
    (h : Path game s₀ entries s) : Threads game f (f s₀) (executions place entries) (f s) := by
  induction h with
  | refl => rfl
  | @step entries more s s' _ step ih =>
    obtain ⟨last, e⟩ := executions_append place entries more
    rw [e]
    refine ih.append ?_
    rcases step.does_or_not with ⟨cue, rfl, rfl⟩ | none
    · exact ⟨rfl, rfl⟩
    · rw [none last]
      exact (quiet step (none 0)).symm

/-! ## Videos -/

theorem generation_fire (kind : TimerKind) (s : Session σ) :
    (s.fire game kind).session.videoGeneration = s.videoGeneration := by
  have fired := fire_fired game kind s
  generalize s.fire game kind = turn at fired ⊢
  cases fired with
  | lineDone _ scene completion => cases completion <;> rfl
  | _ => rfl

theorem generation_quiet {s s' : Session σ} {more : List (Deed × Session σ)}
    (step : s.Step game more s') (noCue : executions 0 more = []) :
    s'.videoGeneration = s.videoGeneration := by
  rcases step.does_or_fires with ⟨cue, rfl, -⟩ | ⟨timer, timers, -, rfl⟩ | stirred
  · cases noCue
  · exact generation_fire timer.kind { s with timers := timers }
  · cases stirred with
    | moved | chosen => rfl
    | skipped scene line completion => cases completion <;> rfl

theorem generation_execute (cue : Cue) (s : Session σ) :
    (s.execute game cue).2.videoGeneration =
      match cue with
      | .video _ => s.videoGeneration + 1
      | _ => s.videoGeneration := by
  have outcome := execute_outcome game cue s
  generalize (s.execute game cue).1 = flow at outcome
  generalize e : (s.execute game cue).2 = s' at outcome ⊢
  cases outcome with
  | @quiet cue _ goesOn d =>
    obtain ⟨_, _, _, _, rfl⟩ := d
    cases cue with
    | video name =>
      have counts : (s.execute game (.video name)).2.videoGeneration = s.videoGeneration + 1 := by
        simp only [execute, playVideo]
        split
        · rfl
        · split <;> rfl
      rw [e] at counts
      exact counts
    | _ => rfl
  | _ => rfl

end VisualNovel
