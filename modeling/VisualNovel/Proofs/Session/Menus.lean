import VisualNovel.Proofs.Session.Modes

/-!
# Menus

A menu holds playback until one of its options is taken: neither a timer nor the player's key closes
it, and nothing but its own cue opens it. So the menus that operations open are those they answer, in
order, but for the one that is left open.

* `Session.menu?`, `menusIn`   the open menu, and the menus that have been opened;
* `Answer`, `Operation.answers`   an option that is taken of a menu, and those that an operation takes;
* `menus_turn`, `menus_runUntil`   nothing but an answer closes a menu;
* `menus_perform`              what one operation opens and answers;
* `Answering`                  operations, with the answers that they give.
-/

set_option linter.unusedSectionVars false

namespace VisualNovel

open Session

/-- the menu that has been opened, if the deed has opened one -/
def Deed.menu? : Deed → Option (List ChoiceOption)
  | .does (.choice (option :: options)) => some (option :: options)
  | _ => none

/-- the menus that have been opened, in order -/
def menusIn (deeds : List Deed) : List (List ChoiceOption) := deeds.filterMap Deed.menu?

@[simp] theorem menusIn_nil : menusIn [] = [] := rfl

@[simp] theorem menusIn_append (deeds deeds' : List Deed) :
    menusIn (deeds ++ deeds') = menusIn deeds ++ menusIn deeds' :=
  List.filterMap_append

@[simp] theorem menusIn_takes (place : Nat) (deeds : List Deed) :
    menusIn (.takes place :: deeds) = menusIn deeds := rfl

@[simp] theorem menusIn_fires (timer : Timer) (deeds : List Deed) :
    menusIn (.fires timer :: deeds) = menusIn deeds := rfl

theorem menusIn_does (cue : Cue) (deeds : List Deed) :
    menusIn (.does cue :: deeds) = menusIn [.does cue] ++ menusIn deeds := by
  rw [← menusIn_append, List.singleton_append]

theorem menusIn_of_not_suspends {cue : Cue} (quiet : cue.suspends = false) :
    menusIn [.does cue] = [] := by
  cases cue <;> first | rfl | cases quiet

variable {σ : Type}

/-- the options of the open menu -/
def Session.menu? (s : Session σ) : Option (List ChoiceOption) :=
  match s.suspension with
  | some (.choice options) => some options
  | _ => none

theorem isChoosing_eq_isSome (s : Session σ) : s.isChoosing = s.menu?.isSome := by
  unfold isChoosing menu?
  cases s.suspension with
  | none => rfl
  | some why => cases why <;> rfl

theorem menu_eq_some_iff {s : Session σ} {options : List ChoiceOption} :
    s.menu? = some options ↔ s.suspension = some (.choice options) := by
  unfold menu?
  split
  · rename_i found
    rw [found]
    simp
  · rename_i none
    constructor
    · nofun
    · intro found
      exact absurd found (none options)

theorem menu_none_of_suspension {s : Session σ} (free : s.suspension = none) : s.menu? = none := by
  unfold menu?
  rw [free]

theorem menu_none_of_awaits {s : Session σ} {kind : TimerKind} (awaits : s.awaits? = some kind) :
    s.menu? = none := by
  cases open? : s.menu? with
  | none => rfl
  | some options =>
    rw [awaits?, menu_eq_some_iff.1 open?] at awaits
    cases awaits

variable [Presentation σ] [Audio σ]

/-- while a session holds together, no open menu is empty -/
theorem menu_ne_nil {s : Session σ} (inMode : s.InMode) {options : List ChoiceOption}
    (h : s.menu? = some options) : options ≠ [] :=
  inMode.menu options (menu_eq_some_iff.1 h)

/-! ## Only its own cue opens a menu -/

section
variable {s : Session σ} (game : Game)

theorem menus_execute (cue : Cue) (held : s.isBusy = true → cue.suspends = false) :
    s.menu?.toList ++ menusIn [.does cue] = (s.execute game cue).2.menu?.toList := by
  have outcome := execute_outcome game cue s
  generalize (s.execute game cue).1 = flow at outcome
  generalize (s.execute game cue).2 = s' at outcome ⊢
  -- a cue that suspends is carried out while nothing holds the session
  have free (suspends : cue.suspends = true) : s.menu? = none := by
    refine menu_none_of_suspension (suspension_of_free ?_)
    rw [Bool.eq_false_iff]
    intro busy
    rw [held busy] at suspends
    cases suspends
  cases outcome with
  | quiet quiet d =>
    obtain ⟨_, _, _, _, rfl⟩ := d
    rw [menusIn_of_not_suspends quiet, List.append_nil]
    rfl
  | video | videoStarted | jumped =>
    rw [menusIn_of_not_suspends rfl, List.append_nil]
    rfl
  | noMenu => exact List.append_nil _
  | menu option options scene =>
    rw [free rfl]
    rfl
  | wait | waitVideo | line | card | noCard | sequence =>
    rw [free rfl]
    rfl

theorem menus_together (cues : List Cue) (s : Session σ) :
    s.menu?.toList ++ menusIn (s.togetherDeeds game cues) = (s.together game cues).menu?.toList := by
  induction cues generalizing s with
  | nil => exact List.append_nil _
  | cons cue cues ih =>
    simp only [togetherDeeds, together]
    split
    · exact List.append_nil _
    · rename_i held
      have opens := menus_execute game cue (s := s) (by simpa using held)
      rw [menusIn_does, ← List.append_assoc, opens]
      exact ih _

theorem menus_turn (s : Session σ) :
    s.menu?.toList ++ menusIn (s.turnDeeds game) = (s.turn game).session.menu?.toList := by
  have turned := turn_turned game s
  generalize s.turnDeeds game = deeds at turned ⊢
  generalize s.turn game = turn at turned ⊢
  have absurdly {b : Bool} {p : Prop} (free : b = false) (busy : b = true) : p :=
    absurd (free.symm.trans busy) nofun
  cases turned with
  | busy | ended => exact List.append_nil _
  | @deferred cue cues free held =>
    rw [Turn.session_ofFlow]
    exact menus_execute (s := { s with deferred := cues }) game cue (absurdly free)
  | @single cue free held next =>
    rw [Turn.session_ofFlow, menusIn_takes]
    exact menus_execute (s := { s with position := s.position + 1 }) game cue (absurdly free)
  | @together cues free held next =>
    rw [menusIn_takes]
    exact menus_together game cues { s with position := s.position + 1 }

theorem menus_advanceWithin {n : Nat} {s' : Session σ} (result : s.advanceWithin game n = some s') :
    s.menu?.toList ++ menusIn (s.deedsWithin game n) = s'.menu?.toList := by
  induction n generalizing s with
  | zero => cases result
  | succ n ih =>
    have opens := menus_turn game s
    simp only [advanceWithin] at result
    simp only [deedsWithin]
    rw [menusIn_append, ← List.append_assoc, opens]
    cases e : s.turn game with
    | rests s₁ =>
      rw [e] at result
      cases result
      exact List.append_nil _
    | goesOn s₁ =>
      rw [e] at result
      exact ih result

theorem menus_settle {turn : Turn σ} {s' : Session σ} (result : turn.settle game = some s') :
    turn.session.menu?.toList ++ menusIn (turn.deeds game) = s'.menu?.toList := by
  cases turn with
  | rests s =>
    cases result
    exact List.append_nil _
  | goesOn s =>
    simp only [Turn.settle, advance] at result
    simp only [Turn.deeds]
    split at result
    · rename_i started
      rw [if_pos started]
      exact menus_advanceWithin game result
    · rename_i idle
      rw [if_neg idle]
      cases result
      exact List.append_nil _

/-! ## Neither time nor the player's key closes a menu -/

theorem menu_completeLine (completion : Completion) : (s.completeLine game completion).menu? = none := by
  cases completion <;> rfl

/-- the timer that a session waits for finds no menu and leaves none -/
theorem menu_fire {kind : TimerKind} (awaits : s.awaits? = some kind) :
    (s.fire game kind).session.menu? = none := by
  have free : s.menu? = none := menu_none_of_awaits awaits
  have fired := fire_fired game kind s
  generalize s.fire game kind = turn at fired ⊢
  cases fired with
  | advance | cardDone | framesDone | videoReached => rfl
  | lineDone => exact menu_completeLine game _
  | noLine | typed | noCard | carded | noFrames | frame | noVideo | polled | checked => exact free

theorem menu_fire_live {limit : Nat} {timer : Timer} {timers : Timers} (inStep : s.InStep)
    (due : s.timers.popDue? limit = some (timer, timers))
    (live : isLive { s with timers := timers } timer) :
    ({ s with timers := timers }.fire game timer.kind).session.menu? = s.menu? := by
  rcases inStep_live inStep due live with ⟨-, awaits, -⟩ | ⟨-, kind⟩
  · rw [menu_none_of_awaits awaits]
    exact menu_fire (s := { s with timers := timers }) game awaits
  · obtain ⟨failed, e⟩ := fire_videoCheck game { s with timers := timers }
    rw [kind, e]
    rfl

theorem menu_pressed (inMode : s.InMode) : (s.pressed game).session.menu? = s.menu? := by
  have pressed := pressed_pressed game s
  generalize s.pressed game = turn at pressed ⊢
  cases pressed with
  | idle | goesOn => rfl
  | skipped revealing =>
    have typing : s.suspension = some .typing := inMode.reveal.1 (by rw [revealing]; rfl)
    have free : s.menu? = none := by rw [menu?, typing]
    rw [Turn.session_rests, menu_completeLine, free]

theorem menu_opened : (s.opened game).session.menu? = s.menu? := by
  obtain ⟨scene, started, e, -⟩ := opened_session game s
  rw [e]
  rfl

end

variable {game : Game}

theorem menus_runUntil {limit fuel : Nat} {s s' : Session σ} (inStep : s.InStep)
    (result : s.runUntil game limit fuel = some s') :
    s.menu?.toList ++ menusIn ((s.firings game limit fuel).flatMap (firingDeeds game)) =
      s'.menu?.toList := by
  induction fuel generalizing s with
  | zero => cases result
  | succ fuel ih =>
    simp only [runUntil] at result
    simp only [firings]
    cases due : s.timers.popDue? limit with
    | none =>
      rw [due] at result
      cases result
      exact List.append_nil _
    | some popped =>
      obtain ⟨timer, timers⟩ := popped
      have reached : Reaches game s [] (.rests s) := .refl
      rw [due] at result
      dsimp only at result ⊢
      cases live : isLive { s with timers := timers } timer with
      | true =>
        have fired := reached.fired due live
        simp only [live, if_true] at result ⊢
        obtain ⟨s₁, settled, rest⟩ := Option.bind_eq_some_iff.1 result
        have inStep₁ : s₁.InStep := (fired.settle settled).inStep inStep
        have opens := menus_settle game settled
        rw [menu_fire_live game inStep due live] at opens
        rw [settled, List.flatMap_cons, menusIn_append, ← List.append_assoc, firingDeeds,
          menusIn_fires, opens]
        exact ih inStep₁ rest
      | false =>
        simp only [live, Bool.false_eq_true, if_false] at result ⊢
        exact ih (inStep_popped inStep due) result

/-! ## Answers -/

/-- an option that is taken of the menu of a session -/
structure Answer (σ : Type) where
  asked : Session σ
  index : Nat

def Answer.menu (a : Answer σ) : List ChoiceOption := a.asked.menu?.getD []

/-- the answer that a choice gives: none unless the open menu has such an option -/
def Session.answered (index : Nat) (s : Session σ) : List (Answer σ) :=
  if index < (s.menu?.getD []).length then [⟨s, index⟩] else []

def Operation.answers (s : Session σ) : Operation σ → List (Answer σ)
  | choose index => s.answered index
  | _ => []

theorem answered_of_lt {s : Session σ} {options : List ChoiceOption} (h : s.menu? = some options)
    {index : Nat} (lt : index < options.length) : s.answered index = [⟨s, index⟩] := by
  rw [answered, h, Option.getD_some, if_pos lt]

theorem answered_of_le {s : Session σ} {options : List ChoiceOption} (h : s.menu? = some options)
    {index : Nat} (le : options.length ≤ index) : s.answered index = [] := by
  rw [answered, h, Option.getD_some, if_neg (Nat.not_lt.2 le)]

/-- a choice either does nothing or closes the menu of which it takes an option -/
theorem menu_chosen (game : Game) (index : Nat) (s : Session σ) :
    s.chosen game index = .rests s ∧ s.answered index = [] ∨
      ∃ options, s.menu? = some options ∧ index < options.length ∧
        (s.chosen game index).session.menu? = none := by
  cases found : s.menu? with
  | none =>
    left
    constructor
    · unfold chosen
      split
      · rename_i options suspended
        rw [menu_eq_some_iff.2 suspended] at found
        cases found
      · rfl
    · rw [answered, found]
      rfl
  | some options =>
    have suspended := menu_eq_some_iff.1 found
    rcases Nat.lt_or_ge index options.length with lt | le
    · right
      refine ⟨options, rfl, lt, ?_⟩
      rw [chosen, suspended]
      simp only [List.getElem?_eq_getElem lt]
      cases options[index].target with
      | none => rfl
      | some target =>
        show (jump game target _).menu? = none
        unfold jump
        split <;> rfl
    · left
      constructor
      · rw [chosen, suspended]
        simp only [List.getElem?_eq_none le]
      · exact answered_of_le found le

theorem choose_of_le {s : Session σ} {options : List ChoiceOption} (h : s.menu? = some options)
    {index : Nat} (le : options.length ≤ index) : s.choose game index = some s := by
  rcases menu_chosen game index s with ⟨rests, -⟩ | ⟨_, h', lt, -⟩
  · rw [choose, rests]
    rfl
  · rw [h] at h'
    cases h'
    exact absurd lt (Nat.not_lt.2 le)

/-- **The menus that are open before an operation or open in it are those that it answers and the one
that is open after it.** -/
theorem menus_perform {o : Operation σ} {s s' : Session σ} (inStep : s.InStep) (inMode : s.InMode)
    (result : o.perform game s = some s') :
    s.menu?.toList ++ menusIn (o.deeds game s) =
      (o.answers s).map Answer.menu ++ s'.menu?.toList := by
  have opened (result : (s.opened game).settle game = some s') :
      s.menu?.toList ++ menusIn ((s.opened game).deeds game) = s'.menu?.toList := by
    rw [← menus_settle game result, menu_opened]
  cases o with
  | start => exact opened result
  | activate =>
    simp only [Operation.perform, activate] at result
    simp only [Operation.deeds, Operation.answers, List.map_nil, List.nil_append]
    split at result
    · rename_i started
      rw [if_pos started, ← menus_settle game result, menu_pressed game inMode]
    · rename_i idle
      rw [if_neg idle]
      exact opened result
  | choose index =>
    have opens := menus_settle game (show (s.chosen game index).settle game = some s' from result)
    simp only [Operation.deeds, Operation.answers]
    rcases menu_chosen game index s with ⟨rests, none⟩ | ⟨options, found, lt, closed⟩
    · rw [rests] at opens ⊢
      rw [none]
      exact opens
    · rw [closed] at opens
      rw [answered_of_lt found lt, List.map_singleton, Answer.menu, found, ← opens]
      rfl
  | advance =>
    have opens := menus_settle game (show (Turn.goesOn s).settle game = some s' from result)
    exact opens
  | runUntil limit fuel => exact menus_runUntil inStep result
  | stage f =>
    cases result
    exact List.append_nil _

/-- operations lead from one session to another, and give some answers on the way -/
def Answering (game : Game) (s : Session σ) (answers : List (Answer σ)) (s' : Session σ) : Prop :=
  ∃ deeds, Continues game s deeds s' ∧
    s.menu?.toList ++ menusIn deeds = answers.map Answer.menu ++ s'.menu?.toList

namespace Answering

variable {s s' s'' : Session σ} {answers answers' : List (Answer σ)}

theorem refl : Answering game s [] s := ⟨[], .refl, List.append_nil _⟩

theorem trans (h : Answering game s answers s') (h' : Answering game s' answers' s'') :
    Answering game s (answers ++ answers') s'' := by
  obtain ⟨deeds, run, opens⟩ := h
  obtain ⟨deeds', run', opens'⟩ := h'
  refine ⟨deeds ++ deeds', run.trans run', ?_⟩
  rw [menusIn_append, ← List.append_assoc, opens, List.append_assoc, opens', List.map_append,
    List.append_assoc]

theorem operation {o : Operation σ} (inStep : s.InStep) (inMode : s.InMode)
    (result : o.perform game s = some s') : Answering game s (o.answers s) s' :=
  ⟨_, by simpa using Continues.operation o .refl result, menus_perform inStep inMode result⟩

theorem inStep (h : Answering game s answers s') (h₀ : s.InStep) : s'.InStep := by
  obtain ⟨deeds, run, -⟩ := h
  exact run.reaches.inStep h₀

theorem inMode (h : Answering game s answers s') (inStep : s.InStep) (h₀ : s.InMode) : s'.InMode := by
  obtain ⟨deeds, run, -⟩ := h
  exact run.reaches.inMode inStep h₀

end Answering

end VisualNovel
