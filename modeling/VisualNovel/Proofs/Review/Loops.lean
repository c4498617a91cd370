import Mathlib.Logic.Relation
import VisualNovel.Proofs.Session.Rest

/-!
# Loops that the review misses

An advance that never rests goes round in the script, and somewhere on its way it goes back. The review
looks for jumps back, but not inside blocks, and it trusts every menu that stands between a jump and its
label, also one that has no options or is jumped over. These are the only loops that it misses.

* `mem_between_iff`            the events between two places;
* `menu_between_of_clean`      a jump back that is not reported has a menu behind its label;
* `Game.Onward`, `Game.Slips`   a step of playback, and a step back that the review misses;
* `Game.Rounds.slips`          each round has one if nothing is reported;
* `never_rests_of_round`, `round_of_repeated`   an advance never rests if and only if it comes to a round;
* `endless_advances_slip_through`   what this means for an advance.
-/

set_option linter.unusedSectionVars false

namespace VisualNovel

open Session Review

/-! ## What the review looks at -/

section
variable {script : Script}

theorem mem_between_iff {first last : Nat} {event : Event} :
    event ∈ between script first last ↔
      ∃ place, first ≤ place ∧ place ≤ last ∧ script.events[place]? = some event := by
  unfold between
  rw [List.mem_iff_getElem?]
  constructor
  · rintro ⟨i, found⟩
    rw [List.getElem?_take] at found
    split at found
    · rw [List.getElem?_drop, Array.getElem?_toList] at found
      exact ⟨first + i, by omega, by omega, found⟩
    · cases found
  · rintro ⟨place, le, le', found⟩
    refine ⟨place - first, ?_⟩
    rw [List.getElem?_take, if_pos (by omega), List.getElem?_drop, Array.getElem?_toList,
      Nat.add_sub_cancel' le]
    exact found

theorem loop_eq_none_of_clean (clean : loopIssues script = []) {place : Nat} {event : Event}
    (found : script.events[place]? = some event) : loop? script place event = none := by
  have m : (event, place) ∈ script.events.toList.zipIdx := by
    rw [List.mem_zipIdx_iff_getElem?, Array.getElem?_toList]
    exact found
  have silent := List.filterMap_eq_nil_iff.1 clean _ m
  exact Option.map_eq_none_iff.1 silent

theorem menu_between_of_clean (clean : loopIssues script = []) {place back : Nat} {target : String}
    (found : script.events[place]? = some (.single (.jump target)))
    (leads : script.find? target = some back) (le : back ≤ place) :
    ∃ menu options, back ≤ menu ∧ menu < place ∧
      script.events[menu]? = some (.single (.choice options)) := by
  have silent := loop_eq_none_of_clean clean found
  have trusted : (between script back place).any isChoice = true := by
    rw [← Bool.not_eq_false]
    intro none
    simp [loop?, leads, le, none] at silent
  obtain ⟨event, m, asks⟩ := List.any_eq_true.1 trusted
  obtain ⟨menu, from_back, le', at_menu⟩ := mem_between_iff.1 m
  cases event with
  | together => cases asks
  | single cue =>
    cases cue with
    | choice options =>
      refine ⟨menu, options, from_back, Nat.lt_of_le_of_ne le' ?_, at_menu⟩
      rintro rfl
      rw [found] at at_menu
      cases at_menu
    | _ => cases asks

end

/-! ## Rounds -/

namespace Game

variable {game : Game}

/-- playback goes on from `p` to `q` without being held in between -/
def Onward (game : Game) (p q : Nat) : Prop := game.onward? p = some q

/-- playback that goes round some places goes back from `p` to `q` in a way that the review misses: a
block leads back, or a jump whose menu in between has no options, or is passed over by a step that leads
over it -/
inductive Slips (game : Game) (places : List Nat) (p q : Nat) : Prop
  | block {cues : List Cue} (found : game.script.events[p]? = some (.together cues))
      (leads : blockTarget? game.script cues = some q)
  | jump {target : String} (found : game.script.events[p]? = some (.single (.jump target)))
      (leads : game.script.find? target = some q) {menu : Nat} {options : List ChoiceOption}
      (behind : q ≤ menu) (before : menu < p)
      (asks : game.script.events[menu]? = some (.single (.choice options)))
      (passed : options = [] ∨ ∃ a ∈ places, ∃ b, game.Onward a b ∧ a < menu ∧ menu < b)

theorem Slips.mono {places places' : List Nat} {p q : Nat} (h : game.Slips places p q)
    (within : places ⊆ places') : game.Slips places' p q := by
  cases h with
  | block found leads => exact .block found leads
  | jump found leads behind before asks passed =>
    refine .jump found leads behind before asks (passed.imp_right ?_)
    rintro ⟨a, m, step⟩
    exact ⟨a, within m, step⟩

/-- playback goes on after a menu only if it has no options -/
theorem nil_of_onward {place next : Nat} {options : List ChoiceOption}
    (asks : game.script.events[place]? = some (.single (.choice options)))
    (on : game.Onward place next) : options = [] := by
  rw [Onward, onward?, asks] at on
  cases options with
  | nil => rfl
  | cons => cases on

/-- a step back is made by a jump or by a block that jumps -/
theorem leads_of_onward {p q : Nat} (on : game.Onward p q) (back : q ≤ p) :
    (∃ cues, game.script.events[p]? = some (.together cues) ∧
      blockTarget? game.script cues = some q) ∨
    ∃ target, game.script.events[p]? = some (.single (.jump target)) ∧
      game.script.find? target = some q := by
  have known {target? : Option Nat} (e : target?.getD (p + 1) = q) : target? = some q := by
    cases target? with
    | none =>
      rw [Option.getD_none] at e
      omega
    | some place => exact congrArg some e
  unfold Onward onward? at on
  split at on
  · cases on
  · rename_i cue found
    split at on
    · cases on
    · have leads := known (Option.some.inj on)
      cases cue with
      | jump target => exact .inr ⟨target, found, leads⟩
      | _ => cases leads
  · rename_i cues found
    split at on
    · cases on
    · exact .inl ⟨cues, found, known (Option.some.inj on)⟩

/-- what playback comes to from a place of a round is on the round -/
theorem Rounds.mem_of_path {places : List Nat} (rounds : game.Rounds places) {p q : Nat}
    (m : p ∈ places) (path : Relation.ReflTransGen game.Onward p q) : q ∈ places := by
  induction path with
  | refl => exact m
  | @tail a b _ on ih =>
    obtain ⟨next, m', on'⟩ := rounds a ih
    have same : some b = some next := on.symm.trans on'
    cases same
    exact m'

/-- what playback comes to from one place of a round is a round, and a smaller one if it does not come
to all of it -/
theorem Rounds.exists_smaller {places : List Nat} (rounds : game.Rounds places) {p q : Nat}
    (m : p ∈ places) (m' : q ∈ places) (never : ¬ Relation.ReflTransGen game.Onward q p) :
    ∃ smaller, game.Rounds smaller ∧ q ∈ smaller ∧ smaller ⊆ places ∧
      smaller.length < places.length := by
  classical
  refine ⟨places.filter (Relation.ReflTransGen game.Onward q ·), fun a onWay => ?_,
    List.mem_filter.2 ⟨m', decide_eq_true .refl⟩, List.filter_subset_self _,
    List.length_filter_lt_length_iff_exists.2 ⟨p, m, by simpa using never⟩⟩
  rw [List.mem_filter, decide_eq_true_iff] at onWay
  obtain ⟨next, m', on⟩ := rounds a onWay.1
  refine ⟨next, ?_, on⟩
  rw [List.mem_filter, decide_eq_true_iff]
  exact ⟨m', onWay.2.tail on⟩

/-- on the way from one side of a menu to the other, playback passes it only if it has no options, or
leads over it -/
theorem passed_of_path {p q menu : Nat} {options : List ChoiceOption}
    (path : Relation.ReflTransGen game.Onward q p) (behind : q ≤ menu) (before : menu < p)
    (asks : game.script.events[menu]? = some (.single (.choice options))) :
    options = [] ∨
      ∃ a b, Relation.ReflTransGen game.Onward q a ∧ game.Onward a b ∧ a < menu ∧ menu < b := by
  induction path with
  | refl => omega
  | @tail a b path on ih =>
    rcases Nat.lt_trichotomy a menu with lt | rfl | gt
    · exact .inr ⟨a, b, path, on, lt, before⟩
    · exact .inl (nil_of_onward asks on)
    · exact ih gt

theorem Rounds.slips {places : List Nat} (rounds : game.Rounds places)
    (clean : loopIssues game.script = []) (ne : places ≠ []) :
    ∃ p ∈ places, ∃ q ∈ places, game.Onward p q ∧ q ≤ p ∧ game.Slips places p q := by
  -- from the last of the places playback can only go back; if it does not come to it again, then what
  -- it comes to is a smaller round
  induction size : places.length using Nat.strongRecOn generalizing places with
  | ind n ih =>
  obtain ⟨p, last⟩ : ∃ p, places.max? = some p := by
    cases max : places.max? with
    | none => exact absurd (List.max?_eq_none_iff.1 max) ne
    | some p => exact ⟨p, rfl⟩
  obtain ⟨m, greatest⟩ := List.max?_eq_some_iff.1 last
  obtain ⟨q, m', on⟩ := rounds p m
  have back : q ≤ p := greatest q m'
  by_cases again : Relation.ReflTransGen game.Onward q p
  · refine ⟨p, m, q, m', on, back, ?_⟩
    rcases leads_of_onward on back with ⟨cues, found, leads⟩ | ⟨target, found, leads⟩
    · exact .block found leads
    · obtain ⟨menu, options, behind, before, asks⟩ := menu_between_of_clean clean found leads back
      refine .jump found leads behind before asks ?_
      refine (passed_of_path again behind before asks).imp_right ?_
      rintro ⟨a, b, path, step⟩
      exact ⟨a, rounds.mem_of_path m' path, b, step⟩
  · obtain ⟨smaller, rounds', here, within, fewer⟩ := rounds.exists_smaller m m' again
    obtain ⟨p', mp, q', mq, on', back', slips⟩ :=
      ih _ (size ▸ fewer) rounds' (List.ne_nil_of_mem here) rfl
    exact ⟨p', within mp, q', within mq, on', back', slips.mono within⟩

end Game

/-! ## Advances -/

section
variable {σ : Type} [Presentation σ] [Audio σ] {game : Game} {s : Session σ}

theorem never_rests_of_round {places : List Nat} {n place : Nat} (rounds : game.Rounds places)
    (round : place ∈ places) (taken : place ∈ placesIn (s.deedsWithin game n)) (m : Nat) :
    s.advanceWithin game m = none := by
  induction n generalizing s m with
  | zero => cases taken
  | succ n ih =>
    cases free : s.isBusy with
    | true =>
      rw [deedsWithin_of_busy free] at taken
      cases taken
    | false =>
      cases held : s.deferred with
      | cons cue cues =>
        obtain ⟨deeds, ⟨s', rests⟩ | ⟨s', goesOn, -, -⟩⟩ := turn_of_deferred game free held
        · rw [(advanceWithin_of_rests rests n).2, deeds] at taken
          cases taken
        · rw [(advanceWithin_of_goesOn goesOn n).2, deeds] at taken
          cases m with
          | zero => rfl
          | succ m =>
            rw [(advanceWithin_of_goesOn goesOn m).1]
            exact ih taken m
      | nil =>
        have stands : s.StandsAt s.position := ⟨free, held, rfl⟩
        cases on : game.onward? s.position with
        | none =>
          -- this is the last event that is taken, and a round goes on after each of its events
          rw [placesIn_deedsWithin stands, Game.course_of_onward_none on] at taken
          split at taken
          · rw [List.mem_singleton.1 taken] at round
            obtain ⟨_, _, on'⟩ := rounds _ round
            rw [on] at on'
            cases on'
          · cases taken
        | some next =>
          obtain ⟨deeds, s', goesOn, -⟩ := turn_of_onward stands on
          rw [(advanceWithin_of_goesOn goesOn n).2, placesIn_append, deeds, List.singleton_append]
            at taken
          rcases List.mem_cons.1 taken with rfl | later
          · exact never_rests_of_rounds rounds round stands m
          · cases m with
            | zero => rfl
            | succ m =>
              rw [(advanceWithin_of_goesOn goesOn m).1]
              exact ih later m

theorem round_of_repeated {n : Nat} (twice : ¬ (placesIn (s.deedsWithin game n)).Nodup) :
    ∃ places, game.Rounds places ∧ ∃ place ∈ places, place ∈ placesIn (s.deedsWithin game n) := by
  cases free : s.isBusy with
  | true =>
    rw [deedsWithin_of_busy free] at twice
    exact absurd List.nodup_nil twice
  | false =>
    induction held : s.deferred generalizing s n with
    | nil =>
      have stands : s.StandsAt s.position := ⟨free, held, rfl⟩
      rw [placesIn_deedsWithin stands] at twice ⊢
      obtain ⟨places, here, rounds⟩ := Game.rounds_of_repeated twice
      refine ⟨places, rounds, s.position, here, ?_⟩
      obtain ⟨next, -, on⟩ := rounds _ here
      cases n with
      | zero => exact absurd List.nodup_nil twice
      | succ n =>
        rw [Game.course_of_onward on]
        exact List.mem_cons_self
    | cons cue cues ih =>
      obtain ⟨deeds, turned⟩ := turn_of_deferred game free held
      cases n with
      | zero => exact absurd List.nodup_nil twice
      | succ n =>
        rcases turned with ⟨s', rests⟩ | ⟨s', goesOn, free', held'⟩
        · rw [(advanceWithin_of_rests rests n).2, deeds] at twice
          exact absurd List.nodup_nil twice
        · rw [(advanceWithin_of_goesOn goesOn n).2, deeds] at twice ⊢
          exact ih twice free' held'

/-- **Advances that never rest slip through the review in blocks and behind menus.** Let the review of
loops report nothing. An advance has no result if and only if it never rests, and if and only if it takes
an event on a round. And each round goes back somewhere by a block that jumps, or by a jump that has a
menu behind its label, but one without options or one that another step of the round leads over. -/
theorem endless_advances_slip_through (game : Game) {s : Session σ} (started : s.started)
    (clean : loopIssues game.script = []) :
    (s.advance game = none ↔ ∀ n, s.advanceWithin game n = none) ∧
    (s.advance game = none ↔
      ∃ places, game.Rounds places ∧
        ∃ n, ∃ place ∈ places, place ∈ placesIn (s.deedsWithin game n)) ∧
    ∀ places, game.Rounds places → places ≠ [] →
      ∃ p ∈ places, ∃ q ∈ places, game.Onward p q ∧ q ≤ p ∧ game.Slips places p q := by
  have advance : s.advance game = s.advanceWithin game (s.turns game) := if_pos started
  rw [advance]
  refine ⟨⟨fun unrested n => ?_, fun never => never _⟩, ⟨fun unrested => ?_, ?_⟩,
    fun places rounds ne => rounds.slips clean ne⟩
  · exact never_rests_of_repeated (repeated_of_not_rested unrested) n
  · obtain ⟨places, rounds, place, round, taken⟩ :=
      round_of_repeated (repeated_of_not_rested unrested)
    exact ⟨places, rounds, _, place, round, taken⟩
  · rintro ⟨places, rounds, n, place, round, taken⟩
    exact never_rests_of_round rounds round taken _

end

/-- a jump back whose menu is jumped over -/
theorem menu_jumped_over :
    let game : Game :=
      { script := .ofEvents [.single (.dialogue ⟨"Hi", none, false, false⟩), .single (.label "a"),
          .single (.jump "b"), .single (.choice [⟨"Yes", none⟩]), .single (.label "b"),
          .single (.jump "a")] }
    ∃ deeds, ∃ s : Session RecordingStage, Plays game deeds s ∧ s.started = true ∧
      loopIssues game.script = [] ∧ s.advance game = none ∧ (∀ n, s.advanceWithin game n = none) ∧
      ∃ places, game.Rounds places ∧ ∃ p ∈ places, ∃ q ∈ places, q ≤ p ∧ game.Slips places p q := by
  intro game
  have plays : ∃ deeds, ∃ s : Session RecordingStage, Plays game deeds s ∧ s.started = true ∧
      (s.advance game).isNone = true := by
    refine ⟨_, _, ⟨rehearsalStage, .operation (.runUntil 90 10) (.operation .start .refl rfl) rfl⟩, ?_⟩
    decide +kernel
  obtain ⟨deeds, s, plays, started, unrested⟩ := plays
  have unrested := Option.isNone_iff_eq_none.1 unrested
  have clean : loopIssues game.script = [] := List.isEmpty_iff.1 (by decide +kernel)
  obtain ⟨never, round, slips⟩ := endless_advances_slip_through game started clean
  obtain ⟨places, rounds, n, place, m, -⟩ := round.1 unrested
  obtain ⟨p, mp, q, mq, -, back, slip⟩ := slips places rounds (List.ne_nil_of_mem m)
  exact ⟨deeds, s, plays, started, clean, unrested, never.1 unrested, places, rounds, p, mp, q, mq,
    back, slip⟩

/-- the review reports nothing about a block that jumps back to the label before it, and an advance that
comes to it never rests -/
theorem block_that_jumps_back :
    let game : Game :=
      { script := .ofEvents [.single (.dialogue ⟨"Hi", none, false, false⟩), .single (.label "a"),
          .together [.jump "a"]] }
    loopIssues game.script = [] ∧
      ∃ deeds, ∃ s : Session RecordingStage, Plays game deeds s ∧ s.started = true ∧
        s.advance game = none ∧ ∀ n, s.advanceWithin game n = none := by
  intro game
  have plays : ∃ deeds, ∃ s : Session RecordingStage, Plays game deeds s ∧ s.started = true ∧
      (s.advance game).isNone = true := by
    refine ⟨_, _, ⟨rehearsalStage, .operation (.runUntil 90 10) (.operation .start .refl rfl) rfl⟩, ?_⟩
    decide +kernel
  obtain ⟨deeds, s, plays, started, unrested⟩ := plays
  have unrested := Option.isNone_iff_eq_none.1 unrested
  have within : s.advanceWithin game (s.turns game) = none := by
    rw [← unrested, advance, if_pos started]
  exact ⟨List.isEmpty_iff.1 (by decide +kernel), deeds, s, plays, started, unrested,
    never_rests_of_repeated (repeated_of_not_rested within)⟩

end VisualNovel
