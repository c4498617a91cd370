import Mathlib.Data.List.Basic
import VisualNovel.Proofs.Session.Menus
import VisualNovel.Proofs.Session.Stall

/-!
# How rehearsals answer menus

A rehearsal is told which option to take of every menu, and takes the first one where there is no such
option. Whether there is one it tells by a menu that is open after the choice. If the option leads straight
to another menu, then that one is taken for the first, and is answered with its first option and
without a record.

* `RehearsalOptions.pick`      the option to be taken of a menu;
* `Rehearsal.answersTo`        the answers that one step gives;
* `Rehearsal.straightOn`       the answer to a menu that the option leads straight to;
* `Rehearsal.asked`            the sessions with an open menu that the steps come upon;
* `answersTo_eq`               a step answers its menu, and then one that this leads straight to;
* `Rehearsal.Recorded`         a rehearsal under way has recorded the menus that its steps came upon;
* `keeps_to_option_iff`        rehearsals keep to their option unless it leads from menu to menu.
-/

set_option linter.unusedSectionVars false

namespace VisualNovel

open Session

/-- the option to be taken of a menu: the one that is asked for if there is one, or else the first -/
def RehearsalOptions.pick (options : RehearsalOptions) (menu : List ChoiceOption) : Nat :=
  if options.choice < menu.length then options.choice else 0

/-- the snapshots of menus, in order -/
def menuSnapshots (trace : List Snapshot) : List Snapshot := trace.filter fun s => !s.choices.isEmpty

namespace Rehearsal

/-- the answers to an open menu, each with the session that asked -/
def answersTo (game : Game) (choice : Nat) (s : Session RecordingStage) :
    List (Answer RecordingStage) :=
  s.answered choice ++
    (s.choose game choice).elim [] fun s => if s.isChoosing then s.answered 0 else []

/-- the answer to a menu that the option of the open menu leads straight to -/
def straightOn (game : Game) (choice : Nat) (s : Session RecordingStage) :
    List (Answer RecordingStage) :=
  if choice < (s.menu?.getD []).length then
    (s.choose game choice).elim [] fun s => if s.isChoosing then [⟨s, 0⟩] else []
  else []

/-- the sessions with an open menu that the steps of a rehearsal come upon -/
def asked (game : Game) (choice fuel : Nat) : Nat → Rehearsal → List (Session RecordingStage)
  | 0, _ => []
  | n + 1, r =>
    if r.stalled || r.session.isFinished game then []
    else
      (if r.session.isChoosing then [r.session] else []) ++
        (r.step game choice fuel).elim [] (asked game choice fuel n)

end Rehearsal

/-- the sessions with an open menu that the steps of a whole rehearsal come upon -/
def askedIn (game : Game) (options : RehearsalOptions) (fuel : Nat) : List (Session RecordingStage) :=
  ((Session.ofStage rehearsalStage).start game).elim [] fun session =>
    Rehearsal.asked game options.choice fuel options.maxSteps { session }

/-- the answers of a whole rehearsal, in order -/
def answersIn (game : Game) (options : RehearsalOptions) (fuel : Nat) :
    List (Answer RecordingStage) :=
  (askedIn game options fuel).flatMap (Rehearsal.answersTo game options.choice)

/-- taking the option leads straight to another menu -/
def Answer.leadsOn {σ : Type} [Presentation σ] [Audio σ] (game : Game) (a : Answer σ) : Bool :=
  (a.asked.choose game a.index).any isChoosing

/-- every answer is as the options say, and each is recorded once -/
def Report.KeepsTo (game : Game) (options : RehearsalOptions) (answers : List (Answer RecordingStage))
    (report : Report) : Prop :=
  (∀ a ∈ answers, a.index = options.pick a.menu) ∧
    menuSnapshots report.trace = answers.map (fun a => a.asked.snapshot game) ∧
    report.choices = answers.length

/-! ## Snapshots -/

section
variable {σ : Type} {s : Session σ} (game : Game)

theorem choices_snapshot (s : Session σ) :
    (s.snapshot game).choices = (s.menu?.getD []).map ChoiceOption.text := by
  show Suspension.menu s.suspension = _
  unfold Suspension.menu menu?
  cases s.suspension with
  | none => rfl
  | some why => cases why <;> rfl

theorem menuSnapshots_menu {options : List ChoiceOption} (h : s.menu? = some options)
    (ne : options ≠ []) : menuSnapshots [s.snapshot game] = [s.snapshot game] := by
  refine List.filter_eq_self.2 fun t m => ?_
  rw [List.mem_singleton.1 m, choices_snapshot, h]
  cases options with
  | nil => exact absurd rfl ne
  | cons option options => rfl

theorem menuSnapshots_line (h : s.menu? = none) : menuSnapshots [s.snapshot game] = [] := by
  refine List.filter_eq_nil_iff.2 fun t m => ?_
  rw [List.mem_singleton.1 m, choices_snapshot, h]
  decide

theorem menuSnapshots_push (trace : Array Snapshot) (t : Snapshot) :
    menuSnapshots (trace.push t).toList = menuSnapshots trace.toList ++ menuSnapshots [t] := by
  rw [Array.toList_push, menuSnapshots, List.filter_append]
  rfl

end

variable {game : Game}

/-! ## The answers of one step -/

theorem menu_of_choosing {σ : Type} {s : Session σ} (choosing : s.isChoosing) :
    ∃ options, s.menu? = some options := by
  rw [isChoosing_eq_isSome] at choosing
  exact Option.isSome_iff_exists.1 choosing

/-- a step answers the open menu as it is told to; if it has the option, and this leads straight to
another menu, the step answers that one, too, with its first option -/
theorem answersTo_eq {s : Session RecordingStage} {menu : List ChoiceOption} (inStep : s.InStep)
    (inMode : s.InMode) (h : s.menu? = some menu) (options : RehearsalOptions) :
    Rehearsal.answersTo game options.choice s =
      ⟨s, options.pick menu⟩ :: Rehearsal.straightOn game options.choice s := by
  rw [Rehearsal.straightOn, h, Option.getD_some]
  rcases Nat.lt_or_ge options.choice menu.length with lt | le
  · rw [Rehearsal.answersTo, answered_of_lt h lt, RehearsalOptions.pick, if_pos lt, if_pos lt,
      List.singleton_append]
    congr 1
    cases taken : s.choose game options.choice with
    | none => rfl
    | some s' =>
      have once : Answering game s _ s' :=
        .operation (o := .choose options.choice) inStep inMode taken
      simp only [Option.elim_some]
      split
      · rename_i choosing
        obtain ⟨menu', h'⟩ := menu_of_choosing choosing
        have ne := menu_ne_nil (once.inMode inStep inMode) h'
        exact answered_of_lt h' (List.length_pos_iff.2 ne)
      · rfl
  · have choosing : s.isChoosing := by rw [isChoosing_eq_isSome, h]; rfl
    have ne := menu_ne_nil inMode h
    have not_lt := Nat.not_lt.2 le
    rw [Rehearsal.answersTo, answered_of_le h le, choose_of_le h le, RehearsalOptions.pick,
      if_neg not_lt, if_neg not_lt, List.nil_append, Option.elim_some, if_pos choosing,
      answered_of_lt h (List.length_pos_iff.2 ne)]

theorem straightOn_eq_nil_iff {s : Session RecordingStage} {menu : List ChoiceOption}
    (h : s.menu? = some menu) (options : RehearsalOptions) :
    Rehearsal.straightOn game options.choice s = [] ↔
      (options.choice < menu.length → Answer.leadsOn game ⟨s, options.pick menu⟩ = false) := by
  rw [Rehearsal.straightOn, h, Option.getD_some]
  split
  · rename_i lt
    rw [Answer.leadsOn, RehearsalOptions.pick, if_pos lt]
    cases s.choose game options.choice with
    | none => simp
    | some s' => cases choosing : s'.isChoosing <;> simp [choosing, lt]
  · rename_i not_lt
    exact ⟨fun _ lt => absurd lt not_lt, fun _ => rfl⟩

theorem answering_answer {s s' : Session RecordingStage} {choice : Nat} (inStep : s.InStep)
    (inMode : s.InMode) (result : Rehearsal.answer game choice s = some s') :
    Answering game s (Rehearsal.answersTo game choice s) s' := by
  unfold Rehearsal.answer at result
  obtain ⟨s₁, first, result⟩ := Option.bind_eq_some_iff.1 result
  have once : Answering game s (s.answered choice) s₁ :=
    .operation (o := .choose choice) inStep inMode first
  rw [Rehearsal.answersTo, first, Option.elim_some]
  split at result
  · rename_i choosing
    rw [if_pos choosing]
    exact once.trans (.operation (o := .choose 0) (once.inStep inStep) (once.inMode inStep inMode)
      result)
  · rename_i noMenu
    rw [if_neg noMenu, List.append_nil]
    cases result
    exact once

/-! ## The record of a rehearsal -/

namespace Rehearsal

/-- a rehearsal under way has answered the menus that its steps came upon, and has recorded these -/
structure Recorded (game : Game) (choice : Nat) (asked : List (Session RecordingStage))
    (r : Rehearsal) : Prop where
  answering : Answering game (.ofStage rehearsalStage) (asked.flatMap (answersTo game choice)) r.session
  menus : menuSnapshots r.trace.toList = asked.map (Session.snapshot game)
  choices : r.choices = asked.length
  sound : ∀ s ∈ asked, s.InStep ∧ s.InMode ∧ s.isChoosing

variable {choice fuel : Nat}

namespace Recorded

variable {asked : List (Session RecordingStage)} {r : Rehearsal}

theorem inStep (h : r.Recorded game choice asked) : r.session.InStep :=
  h.answering.inStep (inStep_new _)

theorem inMode (h : r.Recorded game choice asked) : r.session.InMode :=
  h.answering.inMode (inStep_new _) (inMode_new _)

theorem later {r' : Rehearsal} (h : r.Recorded game choice asked)
    (answering : Answering game r.session [] r'.session)
    (menus : menuSnapshots r'.trace.toList = menuSnapshots r.trace.toList)
    (choices : r'.choices = r.choices) : r'.Recorded game choice asked where
  answering := by simpa using h.answering.trans answering
  menus := menus.trans h.menus
  choices := choices.trans h.choices
  sound := h.sound

end Recorded

theorem recorded_step {r r' : Rehearsal} {asked : List (Session RecordingStage)}
    (h : r.Recorded game choice asked) (result : r.step game choice fuel = some r') :
    r'.Recorded game choice (asked ++ if r.session.isChoosing then [r.session] else []) := by
  unfold step at result
  dsimp only at result
  split at result
  · rename_i choosing
    obtain ⟨s', answered, e⟩ := Option.bind_eq_some_iff.1 result
    cases e
    obtain ⟨menu, open?⟩ := menu_of_choosing choosing
    have ne := menu_ne_nil h.inMode open?
    rw [if_pos choosing]
    refine ⟨?_, ?_, ?_, ?_⟩
    · rw [List.flatMap_append, List.flatMap_singleton]
      exact h.answering.trans (answering_answer h.inStep h.inMode answered)
    · rw [menuSnapshots_push, menuSnapshots_menu game open? ne, h.menus, List.map_append,
        List.map_singleton]
    · rw [List.length_append, List.length_singleton, ← h.choices]
    · intro s m
      rcases List.mem_append.1 m with m | m
      · exact h.sound s m
      · rw [List.mem_singleton.1 m]
        exact ⟨h.inStep, h.inMode, choosing⟩
  rename_i noMenu
  have noMenu' : r.session.menu? = none := by
    rw [isChoosing_eq_isSome] at noMenu
    exact Option.not_isSome_iff_eq_none.1 noMenu
  rw [if_neg noMenu, List.append_nil]
  split at result
  · obtain ⟨s', activated, e⟩ := Option.bind_eq_some_iff.1 result
    cases e
    refine h.later (.operation (o := .activate) h.inStep h.inMode activated) ?_ rfl
    rw [menuSnapshots_push, menuSnapshots_line game noMenu', List.append_nil]
  split at result
  · rename_i deadline next
    obtain ⟨s', ran, rfl⟩ := Option.map_eq_some_iff.1 result
    obtain ⟨deeds, run, -⟩ := h.answering
    obtain ⟨limit, moved⟩ := perform_of_runUntil (run.reaches.onTime (onTime_new _)).pending next ran
    exact h.later (.operation (o := .runUntil limit fuel) h.inStep h.inMode moved) rfl rfl
  · cases result
    exact h.later .refl rfl rfl

theorem recorded_run {n : Nat} {r r' : Rehearsal} {before : List (Session RecordingStage)}
    (h : r.Recorded game choice before) (result : run game choice fuel n r = some r') :
    r'.Recorded game choice (before ++ asked game choice fuel n r) := by
  induction n generalizing r before with
  | zero =>
    cases result
    rw [asked, List.append_nil]
    exact h
  | succ n ih =>
    simp only [run] at result
    simp only [asked]
    split at result
    · rename_i ended
      cases result
      rw [if_pos ended, List.append_nil]
      exact h
    · rename_i goesOn
      obtain ⟨r₁, stepped, result⟩ := Option.bind_eq_some_iff.1 result
      rw [if_neg goesOn, stepped, Option.elim_some, ← List.append_assoc]
      exact ih (recorded_step h stepped) result

end Rehearsal

/-! ## Whole rehearsals -/

variable {options : RehearsalOptions} {fuel : Nat} {report : Report}

theorem recorded_of_rehearse (result : rehearse game options fuel = some report) :
    ∃ r : Rehearsal, r.Recorded game options.choice (askedIn game options fuel) ∧
      report = r.report game := by
  unfold rehearse at result
  obtain ⟨s, started, result⟩ := Option.bind_eq_some_iff.1 result
  obtain ⟨r, run, result⟩ := Option.bind_eq_some_iff.1 result
  cases result
  have opening : Answering game (.ofStage rehearsalStage) [] s :=
    .operation (o := .start) (inStep_new _) (inMode_new _) started
  have new : ({ session := s } : Rehearsal).Recorded game options.choice [] := {
    answering := opening
    menus := rfl
    choices := rfl
    sound := fun _ m => absurd m List.not_mem_nil }
  have recorded := Rehearsal.recorded_run new run
  rw [askedIn, started, Option.elim_some]
  exact ⟨r, recorded, rfl⟩

/-- a list in which each member gives at least one is as long as before only if none gives more -/
theorem length_flatMap_cons_eq_iff {α β : Type} (f : α → β) (g : α → List β) (l : List α) :
    (l.flatMap fun a => f a :: g a).length = l.length ↔ ∀ a ∈ l, g a = [] := by
  have le (l : List α) : l.length ≤ (l.flatMap fun a => f a :: g a).length := by
    induction l with
    | nil => exact Nat.zero_le _
    | cons a l ih =>
      rw [List.flatMap_cons, List.length_append, List.length_cons, List.length_cons]
      omega
  induction l with
  | nil => simp
  | cons a l ih =>
    have := le l
    rw [List.flatMap_cons, List.length_append, List.length_cons, List.length_cons,
      List.forall_mem_cons, ← List.length_eq_zero_iff]
    refine ⟨fun e => ⟨by omega, ih.1 (by omega)⟩, fun ⟨no, rest⟩ => ?_⟩
    have := ih.2 rest
    omega

/-- **Rehearsals answer and record every menu as they are told, unless their option leads from one
menu straight to another.** The menus that open in a rehearsal are those that it answers, but for one
that is left open. Each step that comes upon a menu records it and takes of it the option to be
taken; a menu that this option leads straight to is answered in the same step, with its first option
and without a record. -/
theorem keeps_to_option_iff (game : Game) (options : RehearsalOptions) (fuel : Nat) {report : Report}
    (result : rehearse game options fuel = some report) :
    (∃ deeds s, Continues game (.ofStage rehearsalStage) deeds s ∧
      report.finished = s.isFinished game ∧ report.elapsed = s.now ∧
      menusIn deeds = (answersIn game options fuel).map Answer.menu ++ s.menu?.toList) ∧
    menuSnapshots report.trace = (askedIn game options fuel).map (Session.snapshot game) ∧
    report.choices = (askedIn game options fuel).length ∧
    (∀ s ∈ askedIn game options fuel, Rehearsal.answersTo game options.choice s =
      ⟨s, options.pick (s.menu?.getD [])⟩ :: Rehearsal.straightOn game options.choice s) ∧
    (report.KeepsTo game options (answersIn game options fuel) ↔
      ∀ a ∈ answersIn game options fuel, options.choice < a.menu.length →
        a.leadsOn game = false) := by
  obtain ⟨r, recorded, rfl⟩ := recorded_of_rehearse result
  have shape : ∀ s ∈ askedIn game options fuel, Rehearsal.answersTo game options.choice s =
      ⟨s, options.pick (s.menu?.getD [])⟩ :: Rehearsal.straightOn game options.choice s := by
    intro s m
    obtain ⟨inStep, inMode, choosing⟩ := recorded.sound s m
    obtain ⟨menu, open?⟩ := menu_of_choosing choosing
    rw [open?]
    exact answersTo_eq inStep inMode open? options
  have straight : ∀ s ∈ askedIn game options fuel,
      (Rehearsal.straightOn game options.choice s = [] ↔
        (options.choice < (s.menu?.getD []).length →
          Answer.leadsOn game ⟨s, options.pick (s.menu?.getD [])⟩ = false)) := by
    intro s m
    obtain ⟨menu, open?⟩ := menu_of_choosing (recorded.sound s m).2.2
    rw [open?]
    exact straightOn_eq_nil_iff open? options
  have answers : answersIn game options fuel = (askedIn game options fuel).flatMap fun s =>
      ⟨s, options.pick (s.menu?.getD [])⟩ :: Rehearsal.straightOn game options.choice s :=
    List.flatMap_congr shape
  refine ⟨?_, recorded.menus, recorded.choices, shape, fun keeps a m => ?_, fun leads => ?_⟩
  · obtain ⟨deeds, run, opens⟩ := recorded.answering
    exact ⟨deeds, r.session, run, rfl, rfl, opens⟩
  · -- as many records as answers: no step has answered twice
    have length := keeps.2.2
    rw [show (r.report game).choices = (askedIn game options fuel).length from recorded.choices,
      answers, eq_comm, length_flatMap_cons_eq_iff] at length
    rw [answers, List.mem_flatMap] at m
    obtain ⟨s, ms, m⟩ := m
    rw [length s ms, List.mem_singleton] at m
    rw [m]
    exact (straight s ms).1 (length s ms)
  · have none : ∀ s ∈ askedIn game options fuel,
        Rehearsal.straightOn game options.choice s = [] := by
      intro s ms
      refine (straight s ms).2 (leads ⟨s, _⟩ ?_)
      rw [answers]
      exact List.mem_flatMap.2 ⟨s, ms, List.mem_cons_self⟩
    have one : answersIn game options fuel = (askedIn game options fuel).map fun s =>
        ⟨s, options.pick (s.menu?.getD [])⟩ := by
      rw [answers, List.map_eq_flatMap]
      exact List.flatMap_congr fun s ms => by rw [none s ms]
    rw [one]
    refine ⟨fun a m => ?_, ?_, ?_⟩
    · obtain ⟨s, -, rfl⟩ := List.mem_map.1 m
      rfl
    · rw [List.map_map]
      exact recorded.menus
    · rw [List.length_map]
      exact recorded.choices

/-- a rehearsal that takes the last of three options, where only the first menu has so many -/
theorem rehearsal_of_two_menus :
    let first : Cue := .choice [⟨"A", none⟩, ⟨"B", none⟩, ⟨"C", none⟩]
    let line : Cue := .dialogue ⟨"Hi", none, false, false⟩
    let second : Cue := .choice [⟨"D", none⟩, ⟨"E", none⟩]
    let game : Game := { script := .ofEvents [.single first, .single line, .single second] }
    ∃ report, rehearse game { choice := 2 } 10 = some report ∧
      (answersIn game { choice := 2 } 10).map Answer.index = [2, 0] ∧
      report.KeepsTo game { choice := 2 } (answersIn game { choice := 2 } 10) := by
  intro first line second game
  have returns : (rehearse game { choice := 2 } 10).isSome = true := by decide +kernel
  obtain ⟨report, result⟩ := Option.isSome_iff_exists.1 returns
  refine ⟨report, result, by decide +kernel, ?_⟩
  refine (keeps_to_option_iff game { choice := 2 } 10 result).2.2.2.2.2 ?_
  decide +kernel

/-- a menu that the option of another one leads straight to: it is answered with its first option,
though it has the second, too, and is not recorded -/
theorem menu_passed_over :
    let first : Cue := .choice [⟨"A", none⟩, ⟨"B", none⟩]
    let second : Cue := .choice [⟨"C", some "end"⟩, ⟨"D", none⟩]
    let game : Game :=
      { script := .ofEvents [.single first, .single second, .single (.sound "ding"),
          .single (.label "end")] }
    ∃ report, rehearse game { choice := 1 } 10 = some report ∧ report.choices = 1 ∧
      (menuSnapshots report.trace).length = 1 ∧
      (answersIn game { choice := 1 } 10).map (fun a => (a.index, a.menu.length)) = [(1, 2), (0, 2)] ∧
      ¬ report.KeepsTo game { choice := 1 } (answersIn game { choice := 1 } 10) := by
  intro first second game
  have returns : (rehearse game { choice := 1 } 10).any (fun report => report.choices = 1 &&
      (menuSnapshots report.trace).length = 1) = true := by
    decide +kernel
  obtain ⟨report, result, one⟩ := (Option.any_eq_true _ _).1 returns
  rw [Bool.and_eq_true, decide_eq_true_iff, decide_eq_true_iff] at one
  have indices : (answersIn game { choice := 1 } 10).map (fun a => (a.index, a.menu.length)) =
      [(1, 2), (0, 2)] := by
    decide +kernel
  refine ⟨report, result, one.1, one.2, indices, fun keeps => ?_⟩
  have length := congrArg List.length indices
  rw [List.length_map, ← keeps.2.2, one.1] at length
  cases length

end VisualNovel
