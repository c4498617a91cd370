import VisualNovel.Proofs.Review.Labels
import VisualNovel.Proofs.Review.Targets
import VisualNovel.Proofs.Session.History

/-!
# Labels and the place of playback

A label may be defined more than once, and then it stands where it is defined last. What a review says
of such labels, where a jump leads and where playback may be all rest on that one place.

* `definitions`               the places of the events that define a label;
* `get?_labelTable`           a label stands at the last of them;
* `two_le_definitions_iff`    when there are two or more;
* `get?_placesByName`         a review gathers them under the name of the label;
* `duplicateIssues_eq`        a review reports each label with two or more of them, once;
* `Session.Within`            playback is at an event of the script or behind the last one;
* `Session.Met.within`        it is so wherever playback comes by;
* `places_and_labels_agree`   labels, reviews and playback go by the same places.
-/

set_option linter.unusedSectionVars false

namespace VisualNovel

open Session Review

/-! ## Definitions of a label -/

/-- the places of the events that define a label, in order; one inside a block defines none -/
def definitions (events : List Event) (name : String) : List Nat :=
  (events.zipIdx.filter fun e => isLabel name e.1).map Prod.snd

section
variable {events : List Event} {name : String} {place : Nat}

theorem mem_definitions_iff :
    place ∈ definitions events name ↔ events[place]? = some (.single (.label name)) := by
  rw [definitions, List.mem_map]
  constructor
  · rintro ⟨⟨event, n⟩, m, rfl⟩
    obtain ⟨m, label⟩ := List.mem_filter.1 m
    rw [List.mem_zipIdx_iff_getElem?.1 m, isLabel_iff.1 label]
  · intro found
    have m : (Event.single (.label name), place) ∈ events.zipIdx := List.mem_zipIdx_iff_getElem?.2 found
    exact ⟨_, List.mem_filter.2 ⟨m, isLabel_iff.2 rfl⟩, rfl⟩

theorem definitions_sorted (events : List Event) (name : String) :
    (definitions events name).Pairwise (· < ·) := by
  have places : (events.zipIdx.map Prod.snd).Pairwise (· < ·) := by
    rw [List.zipIdx_map_snd]
    exact List.pairwise_lt_range'
  exact List.pairwise_map.2 ((List.pairwise_map.1 places).filter _)

theorem two_le_definitions_iff :
    2 ≤ (definitions events name).length ↔ ∃ first second : Nat, first < second ∧
      events[first]? = some (.single (.label name)) ∧
      events[second]? = some (.single (.label name)) := by
  have sorted := definitions_sorted events name
  simp only [← mem_definitions_iff]
  constructor
  · intro several
    rcases e : definitions events name with _ | ⟨first, _ | ⟨second, rest⟩⟩
    · simp [e] at several
    · simp [e] at several
    · rw [e] at sorted
      exact ⟨first, second, (List.pairwise_cons.1 sorted).1 second List.mem_cons_self,
        List.mem_cons_self, List.mem_cons_of_mem _ List.mem_cons_self⟩
  · rintro ⟨first, second, lt, m, m'⟩
    have distinct : [first, second].Nodup := by simpa using Nat.ne_of_lt lt
    have both : [first, second] ⊆ definitions events name := by simp [m, m']
    exact (List.subperm_of_subset distinct both).length_le

theorem definitions_concat (events : List Event) (event : Event) (name : String) :
    definitions (events ++ [event]) name =
      definitions events name ++ if isLabel name event then [events.length] else [] := by
  rw [definitions, List.zipIdx_append, List.zipIdx_singleton, Nat.zero_add, List.filter_append,
    List.map_append, ← definitions, List.filter_singleton]
  congr 1
  cases isLabel name event <;> rfl

theorem get?_labelTable (events : List Event) (name : String) :
    (labelTable events).get? name = (definitions events name).getLast? := by
  induction events using List.reverseRecOn with
  | nil => rfl
  | append_singleton events event ih =>
    rw [get?_labelTable_concat, definitions_concat]
    cases isLabel name event with
    | false => rw [if_neg Bool.false_ne_true, if_neg Bool.false_ne_true, List.append_nil, ih]
    | true => rw [if_pos rfl, if_pos rfl, List.getLast?_concat]

theorem get?_placesByName (events : List Event) (name : String) :
    (placesByName events).get? name =
      if definitions events name = [] then none else some (definitions events name) := by
  induction events using List.reverseRecOn with
  | nil => rfl
  | append_singleton events event ih =>
    rw [get?_placesByName_concat, definitions_concat, ih]
    cases isLabel name event with
    | false => rw [if_neg Bool.false_ne_true, if_neg Bool.false_ne_true, List.append_nil]
    | true =>
      rw [if_pos rfl, if_pos rfl, if_neg (List.concat_ne_nil _ _)]
      by_cases first : definitions events name = []
      · rw [if_pos first, first, Option.getD_none]
      · rw [if_neg first, Option.getD_some]

theorem mem_placesByName_iff {places : List Nat} :
    (name, places) ∈ (placesByName events).entries ↔
      places = definitions events name ∧ places ≠ [] := by
  rw [← Table.get?_iff, get?_placesByName]
  by_cases none : definitions events name = []
  · rw [if_pos none, none]
    exact ⟨nofun, fun h => absurd h.1 h.2⟩
  · rw [if_neg none, Option.some_inj]
    exact ⟨fun e => ⟨e.symm, e ▸ none⟩, fun h => h.1.symm⟩

end

/-! ## Labels that are defined more than once -/

section
variable {script : Script} {name : String} {place : Nat}

theorem Script.find?_eq_getLast (script : Script) (name : String) :
    script.find? name = (definitions script.events.toList name).getLast? := by
  rw [find?, script.labels_eq, get?_labelTable]

theorem Script.find?_lt (found : script.find? name = some place) : place < script.size :=
  (Array.getElem?_eq_some_iff.1 (find?_eq_some_iff.1 found).1).1

/-- the labels that are defined more than once, in the order of their names -/
def Script.repeatedLabels (script : Script) : List String :=
  (placesByName script.events.toList).keys.filter fun name =>
    1 < (definitions script.events.toList name).length

def Script.repetition (script : Script) (name : String) : Issue :=
  ⟨.repeatedLabel name (definitions script.events.toList name).length, script.find? name⟩

theorem Script.repeatedLabels_sorted (script : Script) :
    script.repeatedLabels.Pairwise (· < ·) :=
  (List.pairwise_map.2 (placesByName script.events.toList).sorted).filter _

theorem Script.mem_repeatedLabels_iff :
    name ∈ script.repeatedLabels ↔ 2 ≤ (definitions script.events.toList name).length := by
  rw [repeatedLabels, List.mem_filter, decide_eq_true_iff]
  refine ⟨And.right, fun several => ⟨?_, several⟩⟩
  have some : definitions script.events.toList name ≠ [] := List.ne_nil_of_length_pos (by omega)
  exact List.mem_map.2 ⟨(name, _), mem_placesByName_iff.2 ⟨rfl, some⟩, rfl⟩

/-- the last of its definitions is where the label stands -/
theorem Script.repetition?_eq (several : 1 < (definitions script.events.toList name).length) :
    repetition? name (definitions script.events.toList name) = some (script.repetition name) := by
  have some : (definitions script.events.toList name).getLast?.isSome := by
    rw [List.getLast?_isSome]
    exact List.ne_nil_of_length_pos (by omega)
  obtain ⟨last, found⟩ := Option.isSome_iff_exists.1 some
  simp only [repetition?, found, if_pos several, repetition, find?_eq_getLast]

theorem repetition?_eq_none {places : List Nat} (few : ¬ 1 < places.length) :
    repetition? name places = none := by
  rw [repetition?]
  split
  · rw [if_neg few]
  · rfl

theorem duplicateIssues_eq (script : Script) :
    duplicateIssues script = script.repeatedLabels.map script.repetition := by
  rw [duplicateIssues, Script.repeatedLabels, Table.keys, List.filter_map, List.map_map,
    ← List.filterMap_eq_map, List.filterMap_filter]
  refine List.filterMap_congr fun entry m => ?_
  obtain ⟨name, places⟩ := entry
  obtain ⟨rfl, -⟩ := mem_placesByName_iff.1 m
  simp only [Function.comp_apply, decide_eq_true_eq]
  split
  · rename_i several
    exact Script.repetition?_eq several
  · rename_i few
    exact repetition?_eq_none few

end

/-! ## The place of playback -/

variable {σ : Type} [Presentation σ] [Audio σ] {game : Game} {s : Session σ}

def Session.Within (game : Game) (s : Session σ) : Prop := s.position ≤ game.script.size

namespace Session.Within

theorem execute (cue : Cue) (h : s.Within game) : (s.execute game cue).2.Within game := by
  rw [Within, position_execute]
  cases leads : cue.target? game.script with
  | none => exact h
  | some place =>
    cases cue with
    | jump target => exact Nat.le_of_lt (Script.find?_lt leads)
    | _ => cases leads

theorem executeAll (cues : List Cue) (h : s.Within game) : (s.executeAll game cues).Within game := by
  induction cues generalizing s with
  | nil => exact h
  | cons cue cues ih => exact ih (h.execute cue)

theorem take {event : Event} (next : game.script.events[s.position]? = some event) :
    Within game { s with position := s.position + 1 } :=
  (Array.getElem?_eq_some_iff.1 next).1

theorem turn (h : s.Within game) : (s.turn game).session.Within game := by
  have turned := turn_turned game s
  generalize s.turnDeeds game = deeds at turned
  generalize s.turn game = turn at turned ⊢
  cases turned with
  | busy | ended => exact h
  | @deferred cue cues free held =>
    have freed : Within game { s with deferred := cues } := h
    rw [Turn.session_ofFlow]
    exact freed.execute cue
  | @single cue free held next =>
    rw [Turn.session_ofFlow]
    exact (take next).execute cue
  | @together cues free held next =>
    obtain ⟨done, rest, -, -, carried⟩ :=
      together_split game cues { s with position := s.position + 1 }
    rw [Turn.session_goesOn, carried]
    exact (take next).executeAll done

theorem chosen (index : Nat) (h : s.Within game) : (s.chosen game index).session.Within game := by
  have chosen := chosen_chosen game index s
  generalize s.chosen game index = turn at chosen ⊢
  cases chosen with
  | idle | taken => exact h
  | jumped _ _ found => exact Nat.le_of_lt (Script.find?_lt found)

theorem finds_turnHistory {deeds : List Deed} (h : s.Within game) :
    Finds (fun _ => Within game) deeds (s.turnHistory game) := by
  unfold turnHistory
  split
  · trivial
  · split
    · exact ⟨h, trivial⟩
    · split
      · trivial
      · rename_i next
        exact ⟨h, take next, trivial⟩
      · rename_i next
        exact ⟨h, finds_togetherHistory (P := fun _ => Within game) (fun cue _ h => h.execute cue) _
          (take next)⟩

end Session.Within

theorem within_keeps (may : Operation σ → Prop) :
    Keeps game may fun _ turn => turn.session.Within game where
  turn _ h := h.turn
  idle _ h := h
  fired _ _ h := by
    rw [Within, position_fire]
    exact h
  dropped _ _ h := h
  clock _ _ h := h
  opened {_ s} h := by
    obtain ⟨scene, started, e, -⟩ := opened_session game s
    rw [e]
    exact h
  pressed _ _ h := by
    rw [Within, position_pressed]
    exact h
  chosen index h := h.chosen index
  advanced _ _ h := h
  stage _ h := h

theorem Session.Met.within {may : Operation σ → Prop} {stage : σ} {deeds : List Deed}
    (h : Met may game (.ofStage stage) deeds s) : s.Within game :=
  (within_keeps may).met (P := fun _ => Within game) Within.finds_turnHistory (fun _ h => h)
    (Nat.zero_le _) h

/-- an option of the open menu leads to its label, or nowhere if there is none -/
theorem position_of_option {options : List ChoiceOption} {index : Nat} {option : ChoiceOption}
    {target : String} (asks : s.suspension = some (.choice options))
    (found : options[index]? = some option) (leads : option.target = some target) :
    ∃ s', s.chosen game index = .goesOn s' ∧
      s'.position = (game.script.find? target).getD s.position := by
  obtain ⟨s', goes, -, position⟩ := chosen_of_option game asks found
  rw [ChoiceOption.place?, leads, Option.bind_some] at position
  exact ⟨s', goes, position⟩

/-- **Labels, reviews and playback go by the same places.** A label stands at the last place where an
event defines it, and nowhere if none does. A review reports each label with two definitions or more,
in the order of their names and each once, with their number and the place where it stands, and no
other label. Wherever playback comes by, it is at an event of the script or behind the last one; a jump
that is carried out there, and an option that is chosen there, leads to where its label stands, and
leaves playback where it is if it stands nowhere. -/
theorem places_and_labels_agree (game : Game) :
    (∀ events name (place : Nat), (labelTable events).get? name = some place ↔
      events[place]? = some (.single (.label name)) ∧
        ∀ later, place < later → events[later]? ≠ some (.single (.label name))) ∧
    (∀ events name, (labelTable events).get? name = none ↔
      ∀ place : Nat, events[place]? ≠ some (.single (.label name))) ∧
    (∀ name, game.script.find? name = (labelTable game.script.events.toList).get? name) ∧
    (∃ names : List String, names.Pairwise (· < ·) ∧
      (∀ name, name ∈ names ↔ ∃ first second : Nat, first < second ∧
        game.script.events[first]? = some (.single (.label name)) ∧
        game.script.events[second]? = some (.single (.label name))) ∧
      duplicateIssues game.script = names.map fun name =>
        ⟨.repeatedLabel name (definitions game.script.events.toList name).length,
          game.script.find? name⟩) ∧
    ∀ (stage : σ) deeds s, Met (fun _ => True) game (.ofStage stage) deeds s →
      s.position ≤ game.script.size ∧
      (∀ target place, game.script.find? target = some place →
        (s.execute game (.jump target)).2.position = place) ∧
      (∀ target, game.script.find? target = none → s.execute game (.jump target) = (.goOn, s)) ∧
      ∀ options index option target, s.suspension = some (.choice options) →
        options[index]? = some option → option.target = some target →
        ∃ s', s.chosen game index = .goesOn s' ∧
          s'.position = (game.script.find? target).getD s.position := by
  refine ⟨fun _ _ _ => get?_labelTable_eq_some_iff, fun _ _ => get?_labelTable_eq_none_iff,
    fun name => ?_, ⟨game.script.repeatedLabels, game.script.repeatedLabels_sorted,
      fun name => ?_, duplicateIssues_eq game.script⟩,
    fun stage deeds s met => ⟨met.within, fun target place found => ?_, fun target nowhere => ?_,
      fun options index option target asks found leads => position_of_option asks found leads⟩⟩
  · rw [Script.find?, game.script.labels_eq]
  · rw [Script.mem_repeatedLabels_iff, two_le_definitions_iff]
    simp only [Array.getElem?_toList]
  · rw [position_execute, Cue.target?, found, Option.getD_some]
  · rw [execute, jump, nowhere]

/-- an option leads on while a line and a jump that leads nowhere are still held back -/
theorem option_before_a_jump :
    let again : Event := .single (.label "again")
    let held : List Cue := [.dialogue ⟨"Hi", none, false, false⟩, .jump "nowhere"]
    let block : Event := .together (.choice [⟨"Go", some "again"⟩] :: held)
    let game : Game := { script := .ofEvents [again, block, .single (.background "black"), again] }
    (∃ names : List String, names.Pairwise (· < ·) ∧ "again" ∈ names ∧
      duplicateIssues game.script = names.map game.script.repetition) ∧
    ∃ deeds, ∃ s : Session RecordingStage, Met (fun _ => True) game (.ofStage {}) deeds s ∧
      s.position = 2 ∧ s.deferred = held ∧ s.execute game (.jump "nowhere") = (.goOn, s) ∧
      ∃ s', s.chosen game 0 = .goesOn s' ∧ s'.position = 3 := by
  intro again held block game
  obtain ⟨-, -, -, ⟨names, sorted, repeated, reported⟩, playback⟩ :=
    places_and_labels_agree (σ := RecordingStage) game
  refine ⟨⟨names, sorted, (repeated "again").2 ⟨0, 3, by decide, rfl, rfl⟩, reported⟩, ?_⟩
  have stands : game.script.find? "again" = some 3 ∧ game.script.find? "nowhere" = none := by
    decide +kernel
  have plays : ∃ deeds, ∃ s : Session RecordingStage,
      Met (fun _ => True) game (.ofStage {}) deeds s ∧ s.position = 2 ∧ s.deferred = held ∧
      s.suspension = some (.choice [⟨"Go", some "again"⟩]) :=
    ⟨_, _, .rests (.operation .start trivial .refl rfl), rfl, rfl, rfl⟩
  obtain ⟨deeds, s, met, position, deferred, asks⟩ := plays
  obtain ⟨-, -, stays, leads⟩ := playback _ _ _ met
  obtain ⟨s', goes, there⟩ := leads _ 0 _ "again" asks rfl rfl
  rw [stands.1, Option.getD_some] at there
  exact ⟨deeds, s, met, position, deferred, stays _ stands.2, s', goes, there⟩

end VisualNovel
