import Mathlib.Data.List.Chain
import VisualNovel.Proofs.Review.Reach
import VisualNovel.Proofs.Session.Blocks
import VisualNovel.Proofs.Session.Menus

/-!
# Where playback goes on

From one event to the next, playback goes on at a successor, or, after a block, where an option of a
menu inside leads. Of these options the successors of a block know nothing, so that a place which is
reported as unreachable can be played behind such a menu, and only there.

* `Cue.target?`, `menuTargets`   where a jump leads, and where the options of menus lead;
* `Follows`                    one place can be played right after the other;
* `BreaksOut`                  an option of a menu inside a block leads where no successor is;
* `Stands`                     where playback may stand after some cues of an event;
* `OnCourse`                   one place follows the other up to the present one;
* `Reaches.onCourse`           playback keeps on course;
* `reported_behind_menus`      what this means for events that are reported as unreachable.
-/

set_option linter.unusedSectionVars false

namespace VisualNovel

open Session Review

/-! ## Where cues lead -/

def Cue.target? (script : Script) : Cue → Option Nat
  | .jump target => script.find? target
  | _ => none

def ChoiceOption.place? (script : Script) (option : ChoiceOption) : Option Nat :=
  option.target.bind script.find?

def menuTargets (script : Script) (cues : List Cue) : List Nat :=
  cues.flatMap fun
    | .choice options => options.filterMap (ChoiceOption.place? script)
    | _ => []

/-- the place that is played after an event can be this: a successor, or one that an option of a menu
inside a block leads to -/
def Follows (script : Script) (p q : Nat) : Prop :=
  ∃ event, script.events[p]? = some event ∧
    (q ∈ successors script p event ∨ ∃ cues, event = .together cues ∧ q ∈ menuTargets script cues)

/-- an option of a menu inside the block at `p` leads to `q`, which is no successor of the block -/
def BreaksOut (script : Script) (p q : Nat) : Prop :=
  ∃ cues, script.events[p]? = some (.together cues) ∧ q ∈ menuTargets script cues ∧
    q ∉ successors script p (.together cues)

section
variable {script : Script}

theorem blockTarget_append (script : Script) (cues : List Cue) (cue : Cue) :
    blockTarget? script (cues ++ [cue]) = (cue.target? script).or (blockTarget? script cues) := by
  rw [blockTarget?, List.reverse_append, List.reverse_singleton, List.singleton_append,
    List.findSome?_cons, blockTarget?]
  cases cue with
  | jump target =>
    dsimp only [Cue.target?]
    cases script.find? target <;> rfl
  | _ => rfl

theorem menuTargets_append (cues cues' : List Cue) :
    menuTargets script (cues ++ cues') = menuTargets script cues ++ menuTargets script cues' :=
  List.flatMap_append

theorem mem_menuTargets {options : List ChoiceOption} {option : ChoiceOption} {cues : List Cue}
    {place : Nat} (asks : .choice options ∈ cues) (m : option ∈ options)
    (leads : option.place? script = some place) : place ∈ menuTargets script cues :=
  List.mem_flatMap.2 ⟨_, asks, List.mem_filterMap.2 ⟨option, m, leads⟩⟩

theorem leads_or_breaksOut {p q : Nat} (follows : Follows script p q) (lt : q < script.size) :
    Leads script p q ∨ BreaksOut script p q := by
  obtain ⟨event, found, m | ⟨cues, rfl, m⟩⟩ := follows
  · exact .inl ⟨event, found, m, lt⟩
  · rcases Classical.em (q ∈ successors script p (.together cues)) with known | unknown
    · exact .inl ⟨_, found, known, lt⟩
    · exact .inr ⟨cues, found, m, unknown⟩

/-- what is played along some places is reachable, unless a menu inside a block has led off -/
theorem reachable_or_breaksOut {places : List Nat} (chain : places.IsChain (Follows script))
    (first : ∀ p ∈ places.head?, p = 0) (inside : ∀ p ∈ places, p < script.size) :
    (∀ p ∈ places, p ∈ reachable script) ∨ ∃ p q, [p, q] <:+: places ∧ BreaksOut script p q := by
  induction places using List.reverseRecOn with
  | nil => exact .inl nofun
  | append_singleton places q ih =>
    have lt : q < script.size := inside q (List.mem_append_right _ (List.mem_singleton_self q))
    cases places using List.reverseRecOn with
    | nil =>
      cases first q rfl
      refine .inl fun p m => ?_
      rw [List.nil_append, List.mem_singleton] at m
      rw [m]
      exact mem_reachable_iff.2 ⟨lt, .refl⟩
    | append_singleton places p =>
      rw [List.append_assoc, List.singleton_append, List.isChain_append_cons_cons] at chain
      obtain ⟨before, follows, -⟩ := chain
      have head : (places ++ [p] ++ [q]).head? = (places ++ [p]).head? := by
        cases places <;> rfl
      rw [head] at first
      rcases ih before first fun p m => inside p (List.mem_append_left _ m) with reached | earlier
      · rcases leads_or_breaksOut follows lt with leads | breaks
        · left
          intro p' m
          rcases List.mem_append.1 m with m | m
          · exact reached p' m
          · rw [List.mem_singleton.1 m]
            have last := reached p (List.mem_append_right _ (List.mem_singleton_self p))
            obtain ⟨some, path⟩ := mem_reachable_iff.1 last
            exact mem_reachable_iff.2 ⟨some, path.tail leads⟩
        · refine .inr ⟨p, q, ⟨places, [], ?_⟩, breaks⟩
          rw [List.append_nil, List.append_assoc]
          rfl
      · obtain ⟨p', q', within, breaks⟩ := earlier
        exact .inr ⟨p', q', within.trans (List.prefix_append _ _).isInfix, breaks⟩

/-! ## Where playback may stand -/

/-- where playback may stand when `done` of the event at `place` has been carried out: with a menu
open, at the next place until an option is taken -/
inductive Stands (script : Script) (place : Nat) :
    Event → List Cue → Option (List ChoiceOption) → Nat → Prop
  | asks (options : List ChoiceOption) :
      Stands script place (.single (.choice options)) [.choice options] (some options) (place + 1)
  | past {cue : Cue} {position : Nat} (h : position ∈ successors script place (.single cue)) :
      Stands script place (.single cue) [cue] none position
  | block {cues done : List Cue} {menu : Option (List ChoiceOption)} {position : Nat}
      (asked : ∀ options, menu = some options → .choice options ∈ done)
      (h : position ∈ successors script place (.together done) ++ menuTargets script done) :
      Stands script place (.together cues) done menu position

theorem mem_menusIn_does {cue : Cue} {options : List ChoiceOption}
    (m : options ∈ menusIn [.does cue]) : cue = .choice options := by
  unfold menusIn at m
  obtain ⟨deed, m, opens⟩ := List.mem_filterMap.1 m
  rw [List.mem_singleton.1 m, Deed.menu?.eq_def] at opens
  split at opens
  · rename_i e
    cases opens
    cases e
    rfl
  · cases opens

namespace Stands

variable {place position : Nat} {event : Event} {done : List Cue}

theorem choose {options : List ChoiceOption} {option : ChoiceOption}
    (h : Stands script place event done (some options) position) (m : option ∈ options) :
    Stands script place event done none ((option.place? script).getD position) := by
  cases h with
  | asks =>
    refine .past ?_
    cases options with
    | nil => cases m
    | cons o options =>
      simp only [successors]
      cases target : option.target with
      | none =>
        have any : (o :: options).any (·.target.isNone) = true :=
          List.any_eq_true.2 ⟨option, m, by rw [target]; rfl⟩
        rw [ChoiceOption.place?, target, if_pos any]
        exact List.mem_append_right _ (List.mem_singleton_self _)
      | some name =>
        rw [ChoiceOption.place?, target]
        refine List.mem_append_left _ (List.mem_map.2 ⟨name, ?_, rfl⟩)
        exact List.mem_filterMap.2 ⟨option, m, target⟩
  | block asked h =>
    refine .block nofun ?_
    cases leads : option.place? script with
    | none => exact h
    | some place => exact List.mem_append_right _ (mem_menuTargets (asked options rfl) m leads)

theorem follows (h : Stands script place event event.cues none position)
    (found : script.events[place]? = some event) : Follows script place position := by
  cases h with
  | past h => exact ⟨_, found, .inl h⟩
  | @block cues _ _ _ _ h =>
    rcases List.mem_append.1 h with m | m
    · exact ⟨_, found, .inl m⟩
    · exact ⟨_, found, .inr ⟨cues, rfl, m⟩⟩

theorem single {cue : Cue} {menu : Option (List ChoiceOption)}
    (opens : menusIn [.does cue] = menu.toList) :
    Stands script place (.single cue) [cue] menu ((cue.target? script).getD (place + 1)) := by
  cases menu with
  | some options =>
    obtain rfl : cue = .choice options :=
      mem_menusIn_does (opens ▸ List.mem_singleton_self options)
    exact .asks options
  | none =>
    refine .past ?_
    cases cue with
    | choice options =>
      cases options with
      | nil => exact List.mem_singleton_self _
      | cons => cases opens
    | _ => exact List.mem_singleton_self _

theorem together {cues : List Cue} {menu : Option (List ChoiceOption)}
    (opens : menusIn (done.map .does) = menu.toList) :
    Stands script place (.together cues) done menu
      ((blockTarget? script done).getD (place + 1)) := by
  refine .block (fun options open? => ?_) (List.mem_append_left _ (List.mem_singleton_self _))
  rw [open?, Option.toList_some] at opens
  have m : options ∈ menusIn (done.map .does) := opens ▸ List.mem_singleton_self options
  obtain ⟨deed, m, asks⟩ := List.mem_filterMap.1 m
  obtain ⟨cue, m, rfl⟩ := List.mem_map.1 m
  have opened : options ∈ menusIn [.does cue] :=
    List.mem_filterMap.2 ⟨_, List.mem_singleton_self _, asks⟩
  rwa [← mem_menusIn_does opened]

theorem does {cues : List Cue} {cue : Cue} {menu menu' : Option (List ChoiceOption)}
    (h : Stands script place (.together cues) done menu position)
    (opens : menu.toList ++ menusIn [.does cue] = menu'.toList) :
    Stands script place (.together cues) (done ++ [cue]) menu'
      ((cue.target? script).getD position) := by
  cases h with
  | block asked stands =>
    refine .block (fun options open? => ?_) ?_
    · rw [open?, Option.toList_some] at opens
      have m : options ∈ menu.toList ++ menusIn [.does cue] :=
        opens ▸ List.mem_singleton_self options
      rcases List.mem_append.1 m with m | m
      · exact List.mem_append_left _ (asked options (Option.mem_toList.1 m))
      · rw [mem_menusIn_does m]
        exact List.mem_append_right _ (List.mem_singleton_self _)
    · rw [menuTargets_append, successors, blockTarget_append]
      cases cue.target? script with
      | some place => exact List.mem_append_left _ (List.mem_singleton_self place)
      | none =>
        rw [Option.getD_none, Option.none_or, ← List.append_assoc]
        exact List.mem_append_left _ stands

end Stands

/-! ## The course of playback -/

/-- one place has followed the other from the first one on, and playback stands where it may after the
last; `held` is what is held back of its event -/
inductive OnCourse (script : Script) :
    List Nat → List Cue → Option (List ChoiceOption) → Nat → Prop
  | start : OnCourse script [] [] none 0
  | after {places : List Nat} {place position : Nat} {event : Event} {done held : List Cue}
      {menu : Option (List ChoiceOption)} (chain : (places ++ [place]).IsChain (Follows script))
      (first : ∀ p ∈ (places ++ [place]).head?, p = 0)
      (found : script.events[place]? = some event) (split : event.cues = done ++ held)
      (stands : Stands script place event done menu position) :
      OnCourse script (places ++ [place]) held menu position

namespace OnCourse

variable {places : List Nat} {position : Nat} {held : List Cue} {menu : Option (List ChoiceOption)}

theorem chain (h : OnCourse script places held menu position) :
    places.IsChain (Follows script) ∧ ∀ p ∈ places.head?, p = 0 := by
  cases h with
  | start => exact ⟨.nil, nofun⟩
  | after chain first => exact ⟨chain, first⟩

theorem choose {options : List ChoiceOption} {option : ChoiceOption}
    (h : OnCourse script places held (some options) position) (m : option ∈ options) :
    OnCourse script places held none ((option.place? script).getD position) := by
  cases h with
  | after chain first found split stands => exact .after chain first found split (stands.choose m)

theorem does {cue : Cue} {menu' : Option (List ChoiceOption)}
    (h : OnCourse script places (cue :: held) menu position)
    (opens : menu.toList ++ menusIn [.does cue] = menu'.toList) :
    OnCourse script places held menu' ((cue.target? script).getD position) := by
  cases h with
  | @after places place _ event done _ _ chain first found split stands =>
    cases event with
    | single cue' => cases stands <;> cases split
    | together cues =>
      rw [List.append_cons] at split
      exact .after chain first found split (stands.does opens)

theorem takes {event : Event} {done : List Cue} {position' : Nat}
    (h : OnCourse script places [] none position) (found : script.events[position]? = some event)
    (split : event.cues = done ++ held)
    (stands : Stands script position event done menu position') :
    OnCourse script (places ++ [position]) held menu position' := by
  cases h with
  | start => exact .after (.singleton 0) (by simp) found split stands
  | @after places place _ before _ _ _ chain first found' whole stands' =>
    rw [List.append_nil] at whole
    subst whole
    have follows : Follows script place position := stands'.follows found'
    refine .after ?_ ?_ found split stands
    · rw [List.append_assoc, List.singleton_append, List.isChain_append_cons_cons]
      exact ⟨chain, follows, .singleton position⟩
    · rw [List.head?_append_of_ne_nil _ (List.append_ne_nil_of_right_ne_nil places (by simp))]
      exact first

end OnCourse

/-! ## Playback -/

variable {σ : Type} [Presentation σ] [Audio σ] {game : Game}

theorem position_execute (game : Game) (cue : Cue) (s : Session σ) :
    (s.execute game cue).2.position = (cue.target? game.script).getD s.position := by
  cases jumps : cue.target? game.script with
  | some place =>
    cases cue with
    | jump target =>
      rw [Cue.target?] at jumps
      simp only [execute, jump, jumps, Option.getD_some]
    | _ => cases jumps
  | none =>
    have outcome := execute_outcome game cue s
    generalize (s.execute game cue).1 = flow at outcome
    generalize (s.execute game cue).2 = s' at outcome ⊢
    cases outcome with
    | quiet _ d =>
      obtain ⟨_, _, _, _, rfl⟩ := d
      rfl
    | jumped found =>
      rw [Cue.target?, found] at jumps
      cases jumps
    | _ => rfl

theorem position_executeAll (game : Game) (cues : List Cue) (s : Session σ) :
    (s.executeAll game cues).position = (blockTarget? game.script cues).getD s.position := by
  induction cues using List.reverseRecOn with
  | nil => rfl
  | append_singleton cues cue ih =>
    rw [executeAll, List.foldl_append, List.foldl_cons, List.foldl_nil, ← executeAll,
      position_execute, ih, blockTarget_append]
    cases cue.target? game.script <;> rfl

theorem position_pressed (s : Session σ) : (s.pressed game).session.position = s.position := by
  have pressed := pressed_pressed game s
  generalize s.pressed game = turn at pressed ⊢
  cases pressed with
  | idle | goesOn => rfl
  | skipped _ _ completion => cases completion <;> rfl

theorem position_fire (kind : TimerKind) (s : Session σ) :
    (s.fire game kind).session.position = s.position := by
  have fired := fire_fired game kind s
  generalize s.fire game kind = turn at fired ⊢
  cases fired with
  | lineDone _ _ completion => cases completion <;> rfl
  | _ => rfl

/-- an option of the open menu closes it and goes where it leads -/
theorem chosen_of_option (game : Game) {s : Session σ} {options : List ChoiceOption} {index : Nat}
    {option : ChoiceOption} (asks : s.suspension = some (.choice options))
    (found : options[index]? = some option) :
    ∃ s', s.chosen game index = .goesOn s' ∧ s'.menu? = none ∧
      s'.position = (option.place? game.script).getD s.position := by
  rw [chosen, asks]
  dsimp only
  rw [found]
  refine ⟨_, rfl, ?_⟩
  rw [ChoiceOption.place?]
  cases option.target with
  | none => exact ⟨rfl, rfl⟩
  | some target =>
    rw [Option.bind_some]
    dsimp only [jump]
    cases game.script.find? target <;> exact ⟨rfl, rfl⟩

/-- a choice either does nothing or closes the menu and goes where one of its options leads -/
theorem position_chosen (game : Game) (index : Nat) (s : Session σ) :
    s.chosen game index = .rests s ∨ ∃ options, s.menu? = some options ∧ ∃ option ∈ options,
      (s.chosen game index).session.menu? = none ∧
      (s.chosen game index).session.position = (option.place? game.script).getD s.position := by
  rcases menu_chosen game index s with ⟨rests, -⟩ | ⟨options, open?, lt, -⟩
  · exact .inl rests
  · obtain ⟨s', e, closed, leads⟩ :=
      chosen_of_option game (menu_eq_some_iff.1 open?) (List.getElem?_eq_getElem lt)
    rw [e]
    exact .inr ⟨options, open?, options[index], List.getElem_mem lt, closed, leads⟩

theorem onCourse_turn {s : Session σ} {deeds : List Deed}
    (h : OnCourse game.script (placesIn deeds) s.deferred s.menu? s.position) :
    OnCourse game.script (placesIn (deeds ++ s.turnDeeds game)) (s.turn game).session.deferred
      (s.turn game).session.menu? (s.turn game).session.position := by
  have opens := menus_turn game s
  have turned := turn_turned game s
  rw [placesIn_append]
  generalize s.turnDeeds game = more at turned opens ⊢
  generalize s.turn game = turn at turned opens ⊢
  cases turned with
  | busy | ended =>
    have same : placesIn deeds ++ placesIn [] = placesIn deeds := List.append_nil _
    rw [same]
    exact h
  | @deferred cue cues free held =>
    rw [Turn.session_ofFlow] at opens ⊢
    rw [(frame_execute game cue _).2, position_execute]
    rw [held] at h
    have same : placesIn deeds ++ placesIn [.does cue] = placesIn deeds := List.append_nil _
    rw [same]
    exact h.does opens
  | @single cue free held next =>
    rw [Turn.session_ofFlow] at opens ⊢
    have closed : s.menu? = none := menu_none_of_suspension (suspension_of_free free)
    rw [held, closed] at h
    rw [closed, Option.toList_none, List.nil_append, menusIn_takes] at opens
    have heldBack : (execute game cue { s with position := s.position + 1 }).2.deferred = [] :=
      (frame_execute game cue _).2.trans held
    have split : (Event.single cue).cues = [cue] ++ [] := rfl
    rw [heldBack, position_execute]
    exact h.takes next split (.single opens)
  | @together cues free held next =>
    obtain ⟨done, rest, split, doneDeeds, carried⟩ :=
      together_split game cues { s with position := s.position + 1 }
    have closed : s.menu? = none := menu_none_of_suspension (suspension_of_free free)
    rw [held, closed] at h
    rw [closed, Option.toList_none, List.nil_append, menusIn_takes, doneDeeds,
      Turn.session_goesOn] at opens
    rw [doneDeeds, placesIn_takes, Turn.session_goesOn]
    have heldBack : (Session.together game cues { s with position := s.position + 1 }).deferred =
        rest := by
      rw [carried]
      show s.deferred ++ rest = rest
      rw [held, List.nil_append]
    have leads : (Session.together game cues { s with position := s.position + 1 }).position =
        (blockTarget? game.script done).getD (s.position + 1) := by
      rw [carried]
      exact position_executeAll game done { s with position := s.position + 1 }
    rw [heldBack, leads]
    exact h.takes next split (.together opens)

theorem Reaches.onCourse {s₀ : Session σ} {deeds : List Deed} {turn : Turn σ}
    (h : Reaches game s₀ deeds turn) (inStep : s₀.InStep) (inMode : s₀.InMode)
    (h₀ : OnCourse game.script [] s₀.deferred s₀.menu? s₀.position) :
    OnCourse game.script (placesIn deeds) turn.session.deferred turn.session.menu?
      turn.session.position := by
  induction h with
  | refl => exact h₀
  | stage _ _ ih => exact ih
  | @opened _ s _ ih =>
    obtain ⟨scene, started, e, -⟩ := opened_session game s
    rw [e]
    exact ih
  | @pressed _ s _ h ih =>
    have inMode' : s.InMode := h.inMode inStep inMode
    rw [(frame_pressed game s).2, menu_pressed game inMode', position_pressed]
    exact ih
  | @chosen _ s index _ ih =>
    rw [(frame_chosen game index s).2]
    rcases position_chosen game index s with rests | ⟨options, open?, option, m, closed, leads⟩
    · rw [rests]
      exact ih
    · rw [closed, leads]
      rw [Turn.session_rests, open?] at ih
      exact ih.choose m
  | advanced _ _ ih => exact ih
  | turn _ _ ih => exact onCourse_turn ih
  | idle _ _ ih => exact ih
  | @fired _ s _ _ _ due live h ih =>
    have inStep' : s.InStep := h.inStep inStep
    rw [placesIn_append, placesIn_fires, List.append_nil, (frame_fire game _ _).2,
      menu_fire_live game inStep' due live, position_fire]
    exact ih
  | dropped _ _ _ ih => exact ih
  | clock _ _ _ ih => exact ih

theorem onCourse_new (script : Script) (stage : σ) :
    OnCourse script [] (Session.ofStage stage).deferred (Session.ofStage stage).menu?
      (Session.ofStage stage).position := .start

/-- each cue that is carried out belongs to an event that has been taken -/
theorem InBlocks.of_mem_does {deeds : List Deed} {held : List Cue} {cue : Cue}
    (h : InBlocks game deeds held) (m : .does cue ∈ deeds) :
    ∃ place ∈ placesIn deeds, ∃ event, game.script.events[place]? = some event ∧
      cue ∈ event.cues := by
  have act : .does cue ∈ actsIn deeds := List.mem_filter.2 ⟨m, rfl⟩
  have visited : .does cue ∈ (placesIn deeds).flatMap game.visit :=
    h.whole ▸ List.mem_append_left _ act
  obtain ⟨place, taken, m⟩ := List.mem_flatMap.1 visited
  have inside : place < game.script.events.size := h.inside place taken
  have found : game.script.events[place]? = some game.script.events[place] :=
    Array.getElem?_eq_getElem inside
  rw [visit_of_event found] at m
  refine ⟨place, taken, _, found, ?_⟩
  rcases List.mem_cons.1 m with e | m
  · cases e
  · obtain ⟨cue', m, e⟩ := List.mem_map.1 m
    cases e
    exact m

/-- with nothing held back, each cue of an event that has been taken has been carried out -/
theorem InBlocks.does_of_mem {deeds : List Deed} {place : Nat} {event : Event} {cue : Cue}
    (h : InBlocks game deeds []) (taken : place ∈ placesIn deeds)
    (found : game.script.events[place]? = some event) (m : cue ∈ event.cues) : .does cue ∈ deeds := by
  have whole := h.whole
  rw [List.map_nil, List.append_nil] at whole
  have visited : .does cue ∈ game.visit place := by
    rw [visit_of_event found]
    exact List.mem_cons_of_mem _ (List.mem_map_of_mem m)
  have act : .does cue ∈ actsIn deeds := by
    rw [whole]
    exact List.mem_flatMap.2 ⟨place, taken, visited⟩
  exact (List.mem_filter.1 act).1

/-- **An event that is reported as unreachable is played only behind a menu inside a block.** Each
cue that is carried out belongs to an event that has been taken. From the first event on, each has
followed the one before, at a successor of it or, if it is a block, where an option of a menu inside
leads. Before an event that is reported is taken, such an option has led where no successor of its
block is. -/
theorem reported_behind_menus (game : Game) {stage : σ} {deeds : List Deed} {turn : Turn σ}
    (run : Reaches game (.ofStage stage) deeds turn) :
    (∀ cue, .does cue ∈ deeds → ∃ place ∈ placesIn deeds, ∃ event,
      game.script.events[place]? = some event ∧ cue ∈ event.cues) ∧
    (placesIn deeds).IsChain (Follows game.script) ∧ (∀ p ∈ (placesIn deeds).head?, p = 0) ∧
    ∀ before place after, placesIn deeds = before ++ place :: after → Reports game.script place →
      ∃ p q, [p, q] <:+: before ++ [place] ∧ BreaksOut game.script p q := by
  have inBlocks : InBlocks game deeds turn.session.deferred := run.inBlocks rfl
  obtain ⟨chain, first⟩ :=
    (run.onCourse (inStep_new stage) (inMode_new stage) (onCourse_new _ stage)).chain
  refine ⟨fun cue m => inBlocks.of_mem_does m, chain, first,
    fun before place after split reports => ?_⟩
  have inside := inBlocks.inside
  rw [split, List.append_cons] at chain first inside
  have firstUpTo : ∀ p ∈ (before ++ [place]).head?, p = 0 := by
    intro p m
    refine first p ?_
    cases before <;> exact m
  rcases reachable_or_breaksOut chain.left_of_append firstUpTo
    fun p m => inside p (List.mem_append_left after m) with reached | breaks
  · obtain ⟨_, _, unreached, _⟩ := reports_iff.1 reports
    exact absurd (reached place (List.mem_append_right _ (List.mem_singleton_self place))) unreached
  · exact breaks

/-- a menu inside a block leads where a jump of the block leads, too: nothing that is played is
reported -/
theorem menu_beside_its_jump :
    let block : Event := .together [.choice [⟨"Go", some "end"⟩], .jump "end"]
    let game : Game :=
      { script := .ofEvents [block, .single (.sound "ding"), .single (.label "end"),
          .single (.background "black")] }
    ∃ deeds, ∃ s : Session RecordingStage, Plays game deeds s ∧ placesIn deeds = [0, 2, 3] ∧
      Reports game.script 1 ∧ ∀ place ∈ placesIn deeds, ¬ Reports game.script place := by
  intro block game
  have plays : ∃ deeds, ∃ s : Session RecordingStage, Plays game deeds s ∧
      placesIn deeds = [0, 2, 3] := by
    refine ⟨_, _, ⟨rehearsalStage, .operation (.choose 0) (.operation .start .refl rfl) rfl⟩, ?_⟩
    decide +kernel
  obtain ⟨deeds, s, plays, places⟩ := plays
  have unreached : 1 ∉ reachable game.script := by decide +kernel
  refine ⟨deeds, s, plays, places, reports_iff.2 ⟨_, rfl, unreached, rfl⟩, fun place m reports => ?_⟩
  obtain ⟨stage, run⟩ := plays
  obtain ⟨before, after, split⟩ := List.append_of_mem m
  obtain ⟨p, q, -, cues, found, leads, off⟩ :=
    (reported_behind_menus game run.reaches).2.2.2 before place after split reports
  match p, found with
  | 0, found =>
    obtain rfl : [.choice [⟨"Go", some "end"⟩], .jump "end"] = cues := by
      injection found with e
      injection e
    exact off leads
  | 1, found | 2, found | 3, found => cases found
  | p + 4, found =>
    have beyond : game.script.events[p + 4]? = none :=
      Array.getElem?_eq_none_iff.2 (Nat.le_add_left 4 p)
    cases beyond.symm.trans found

/-- a menu inside a block leads to a sound that is reported as unreachable -/
theorem sound_behind_a_menu :
    let block : Event := .together [.choice [⟨"Go", some "there"⟩]]
    let game : Game :=
      { script := .ofEvents [block, .single (.jump "end"), .single (.label "there"),
          .single (.sound "ding"), .single (.label "end")] }
    ∃ deeds, ∃ s : Session RecordingStage, Plays game deeds s ∧ 3 ∈ placesIn deeds ∧
      .does (.sound "ding") ∈ deeds ∧ Reports game.script 3 := by
  intro block game
  have plays : ∃ deeds, ∃ s : Session RecordingStage, Plays game deeds s ∧
      placesIn deeds = [0, 2, 3, 4] ∧ s.deferred.isEmpty := by
    refine ⟨_, _, ⟨rehearsalStage, .operation (.choose 0) (.operation .start .refl rfl) rfl⟩, ?_⟩
    decide +kernel
  obtain ⟨deeds, s, plays, places, none⟩ := plays
  have unreached : 3 ∉ reachable game.script := by decide +kernel
  have played : 3 ∈ placesIn deeds := by
    rw [places]
    decide
  refine ⟨deeds, s, plays, played, ?_, reports_iff.2 ⟨_, rfl, unreached, rfl⟩⟩
  obtain ⟨stage, run⟩ := plays
  have whole := (run.reaches.inBlocks rfl).whole
  rw [Turn.session_rests, List.isEmpty_iff.1 none, List.map_nil, List.append_nil] at whole
  have act : .does (.sound "ding") ∈ actsIn deeds := by
    rw [whole]
    exact List.mem_flatMap.2 ⟨3, played, List.mem_cons_of_mem _ (List.mem_singleton_self _)⟩
  exact (List.mem_filter.1 act).1

end

end VisualNovel
