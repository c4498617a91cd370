import VisualNovel.Proofs.Session.Deeds
import VisualNovel.Session.Rehearsal

/-!
# Blocks are carried out whole

The cues of a block that are held back behind a suspension are carried out before anything else,
wherever playback goes on after it. So what a playback has carried out is one event after the other,
each whole but for what is still held back of the last.

* `placesIn`, `actsIn`     the events that have been taken, and the cues that have been carried out;
* `Game.visit`             an event that is taken and carried out whole;
* `InBlocks`               what has been done and what is held back make up whole visits;
* `Reaches.inBlocks`       playback keeps it so;
* `blocks_run_whole`       what this means for a session that operations bring about.
-/

set_option linter.unusedSectionVars false

namespace VisualNovel

open Session

/-! ## Visits -/

def Deed.place? : Deed → Option Nat
  | .takes place => some place
  | _ => none

/-- the places of the events that have been taken, in order -/
def placesIn (deeds : List Deed) : List Nat := deeds.filterMap Deed.place?

/-- what playback has done by itself: all deeds but the timers that have fired -/
def actsIn (deeds : List Deed) : List Deed := deeds.filter fun d => d.timer?.isNone

/-- the event at a place is taken, and all its cues are carried out in their order -/
def Game.visit (game : Game) (place : Nat) : List Deed :=
  .takes place :: ((game.script.events[place]?.elim [] Event.cues).map .does)

theorem visit_of_event {game : Game} {place : Nat} {event : Event}
    (found : game.script.events[place]? = some event) :
    game.visit place = .takes place :: event.cues.map .does := by
  rw [Game.visit, found, Option.elim_some]

@[simp] theorem placesIn_append (deeds deeds' : List Deed) :
    placesIn (deeds ++ deeds') = placesIn deeds ++ placesIn deeds' :=
  List.filterMap_append

@[simp] theorem actsIn_append (deeds deeds' : List Deed) :
    actsIn (deeds ++ deeds') = actsIn deeds ++ actsIn deeds' :=
  List.filter_append _ _

@[simp] theorem placesIn_fires (timer : Timer) : placesIn [.fires timer] = [] := rfl
@[simp] theorem actsIn_fires (timer : Timer) : actsIn [.fires timer] = [] := rfl

@[simp] theorem placesIn_takes (place : Nat) (cues : List Cue) :
    placesIn (.takes place :: cues.map .does) = [place] := by
  simp [placesIn, Deed.place?]

@[simp] theorem actsIn_takes (place : Nat) (cues : List Cue) :
    actsIn (.takes place :: cues.map .does) = .takes place :: cues.map .does := by
  simp [actsIn, Deed.timer?]

/-! ## What is held back -/

/-- what has been done and what is held back make up whole visits; what is held back is the end of
the block that has been taken last -/
structure InBlocks (game : Game) (deeds : List Deed) (held : List Cue) : Prop where
  whole : actsIn deeds ++ held.map .does = (placesIn deeds).flatMap game.visit
  inside : ∀ place ∈ placesIn deeds, place < game.script.size
  last : held ≠ [] → ∃ place cues, (placesIn deeds).getLast? = some place ∧
    game.script.events[place]? = some (.together cues) ∧ held <:+ cues

namespace InBlocks

variable {game : Game} {deeds : List Deed}

theorem nil (game : Game) : InBlocks game [] [] := ⟨rfl, nofun, absurd rfl⟩

theorem fires {held : List Cue} (h : InBlocks game deeds held) (timer : Timer) :
    InBlocks game (deeds ++ [.fires timer]) held := by
  obtain ⟨whole, inside, last⟩ := h
  refine ⟨?_, ?_, ?_⟩
  · rw [actsIn_append, actsIn_fires, List.append_nil, placesIn_append, placesIn_fires,
      List.append_nil]
    exact whole
  · rw [placesIn_append, placesIn_fires, List.append_nil]
    exact inside
  · rw [placesIn_append, placesIn_fires, List.append_nil]
    exact last

theorem does {cue : Cue} {held : List Cue} (h : InBlocks game deeds (cue :: held)) :
    InBlocks game (deeds ++ [.does cue]) held := by
  obtain ⟨whole, inside, last⟩ := h
  have places : placesIn (deeds ++ [.does cue]) = placesIn deeds := by
    rw [placesIn_append]
    exact List.append_nil _
  refine ⟨?_, ?_, fun _ => ?_⟩
  · rw [actsIn_append, places, ← whole, List.append_assoc]
    rfl
  · rw [places]
    exact inside
  · obtain ⟨place, cues, isLast, found, suffix⟩ := last (List.cons_ne_nil _ _)
    rw [places]
    exact ⟨place, cues, isLast, found, (List.suffix_cons cue held).trans suffix⟩

/-- the next event is taken while nothing is held back; of a block, only some first cues may be
carried out -/
theorem takes {place : Nat} {event : Event} {done held : List Cue} (h : InBlocks game deeds [])
    (found : game.script.events[place]? = some event) (split : event.cues = done ++ held)
    (block : held ≠ [] → event = .together event.cues) :
    InBlocks game (deeds ++ .takes place :: done.map .does) held := by
  obtain ⟨whole, inside, -⟩ := h
  rw [List.map_nil, List.append_nil] at whole
  refine ⟨?_, ?_, fun some =>
    ⟨place, event.cues, ?_, found.trans (congrArg Option.some (block some)), ?_⟩⟩
  · rw [actsIn_append, actsIn_takes, placesIn_append, placesIn_takes, List.flatMap_append, ← whole,
      List.flatMap_singleton, visit_of_event found, split, List.map_append, List.append_assoc,
      List.cons_append]
  · intro p m
    rw [placesIn_append, placesIn_takes] at m
    rcases List.mem_append.1 m with m | m
    · exact inside p m
    · rw [List.mem_singleton.1 m]
      exact (Array.getElem?_eq_some_iff.1 found).1
  · rw [placesIn_append, placesIn_takes, List.getLast?_concat]
  · rw [split]
    exact List.suffix_append done held

end InBlocks

/-! ## Playback -/

section
variable {σ : Type} [Presentation σ] [Audio σ] {game : Game}

theorem inBlocks_turn {s : Session σ} {deeds : List Deed} (h : InBlocks game deeds s.deferred) :
    InBlocks game (deeds ++ s.turnDeeds game) (s.turn game).session.deferred := by
  have turned := turn_turned game s
  generalize s.turnDeeds game = more at turned ⊢
  generalize s.turn game = turn at turned ⊢
  cases turned with
  | busy | ended =>
    rw [List.append_nil]
    exact h
  | @deferred cue cues free held =>
    rw [held] at h
    rw [Turn.session_ofFlow, (frame_execute game cue _).2]
    exact h.does
  | @single cue free held next =>
    rw [held] at h
    rw [Turn.session_ofFlow, (frame_execute game cue _).2, held]
    have split : (Event.single cue).cues = [cue] ++ [] := rfl
    exact h.takes next split (absurd rfl)
  | @together cues free held next =>
    rw [held] at h
    obtain ⟨done, rest, split, doneDeeds, carried⟩ :=
      together_split game cues { s with position := s.position + 1 }
    rw [Turn.session_goesOn, carried, doneDeeds]
    show InBlocks game (deeds ++ .takes s.position :: done.map .does) (s.deferred ++ rest)
    rw [held, List.nil_append]
    exact h.takes next split fun _ => rfl

theorem Reaches.inBlocks {s₀ : Session σ} {deeds : List Deed} {turn : Turn σ}
    (h : Reaches game s₀ deeds turn)
    (h₀ : s₀.deferred = []) : InBlocks game deeds turn.session.deferred := by
  induction h with
  | refl => exact h₀ ▸ .nil game
  | stage _ _ ih => exact ih
  | @opened _ s _ ih =>
    obtain ⟨scene, started, e, -⟩ := opened_session game s
    rw [e]
    exact ih
  | pressed _ _ ih =>
    rw [(frame_pressed game _).2]
    exact ih
  | chosen index _ ih =>
    rw [(frame_chosen game index _).2]
    exact ih
  | advanced _ _ ih => exact ih
  | turn _ _ ih => exact inBlocks_turn ih
  | idle _ _ ih => exact ih
  | fired _ _ _ ih =>
    rw [(frame_fire game _ _).2]
    exact ih.fires _
  | dropped _ _ _ ih => exact ih
  | clock _ _ _ ih => exact ih

/-- whatever is taken after some deeds, these are whole visits -/
theorem visits_before {places : List Nat} {before after : List Deed} {place : Nat}
    (h : before ++ .takes place :: after = places.flatMap game.visit) :
    ∃ n, before = (places.take n).flatMap game.visit := by
  induction places generalizing before with
  | nil => cases (List.append_eq_nil_iff.1 h).2
  | cons first places ih =>
    cases before with
    | nil => exact ⟨0, rfl⟩
    | cons deed before =>
      rw [List.flatMap_cons, Game.visit, List.cons_append, List.cons_append, List.cons.injEq] at h
      obtain ⟨rfl, h⟩ := h
      rcases List.append_eq_append_iff.1 h with ⟨others, cues, rest⟩ | ⟨later, earlier, rest⟩
      · cases others with
        | nil =>
          refine ⟨1, ?_⟩
          rw [List.append_nil] at cues
          rw [List.take_succ_cons, List.take_zero, List.flatMap_singleton, Game.visit, cues]
        | cons other others =>
          -- a cue of the event is none that takes a place
          rw [List.cons_append, List.cons.injEq] at rest
          have m : Deed.takes place ∈ before ++ other :: others := by
            rw [rest.1]
            exact List.mem_append_right _ List.mem_cons_self
          rw [← cues] at m
          obtain ⟨_, _, e⟩ := List.mem_map.1 m
          cases e
      · obtain ⟨n, whole⟩ := ih rest.symm
        refine ⟨n + 1, ?_⟩
        rw [List.take_succ_cons, List.flatMap_cons, ← whole, Game.visit, earlier, List.cons_append]

/-- **Blocks are carried out whole.** What a playback has carried out, followed by what is held
back, is one event of the script after the other with all its cues in order. What is held back is
the end of the block that has been taken last. Whenever an event is taken, those before it have been
carried out to their ends. -/
theorem blocks_run_whole (game : Game) {deeds : List Deed} {s : Session σ} (h : Plays game deeds s) :
    actsIn deeds ++ s.deferred.map .does = (placesIn deeds).flatMap game.visit ∧
    (∀ place ∈ placesIn deeds, place < game.script.size) ∧
    (s.deferred ≠ [] → ∃ place cues, (placesIn deeds).getLast? = some place ∧
      game.script.events[place]? = some (.together cues) ∧ s.deferred <:+ cues) ∧
    ∀ before place after, actsIn deeds = before ++ .takes place :: after →
      ∃ n, before = ((placesIn deeds).take n).flatMap game.visit := by
  obtain ⟨stage, run⟩ := h
  have inBlocks : InBlocks game deeds s.deferred := run.reaches.inBlocks rfl
  refine ⟨inBlocks.whole, inBlocks.inside, inBlocks.last, fun before place after acts => ?_⟩
  have whole := inBlocks.whole
  rw [acts, List.append_assoc, List.cons_append] at whole
  exact visits_before whole

/-- a line beside a menu is shown before playback goes on where the option leads -/
theorem line_beside_a_menu :
    let line : Cue := .dialogue ⟨"Hi", none, false, false⟩
    let menu : Cue := .choice [⟨"Go", some "end"⟩]
    let block : Event := .together [menu, .sound "ding", line]
    let game : Game :=
      { script := .ofEvents [block, .single (.background "black"), .single (.label "end")] }
    ∃ deeds, ∃ s : Session RecordingStage, Plays game deeds s ∧ s.position = 2 ∧
      actsIn deeds = [.takes 0, .does menu, .does (.sound "ding"), .does line] := by
  intro line menu block game
  have plays : ∃ deeds, ∃ s : Session RecordingStage, Plays game deeds s ∧ s.position = 2 ∧
      placesIn deeds = [0] ∧ s.deferred.isEmpty := by
    refine ⟨_, _, ⟨rehearsalStage, .operation (.choose 0) (.operation .start .refl rfl) rfl⟩, ?_⟩
    decide +kernel
  obtain ⟨deeds, s, plays, position, places, none⟩ := plays
  obtain ⟨whole, -⟩ := blocks_run_whole game plays
  rw [List.isEmpty_iff.1 none, places, List.map_nil, List.append_nil] at whole
  exact ⟨deeds, s, plays, position, whole⟩

end

end VisualNovel
