import Mathlib.Data.List.Induction
import VisualNovel.Review.References

/-!
# Where labels stand

A label is found at the last place where it stands among the events. One inside a block is not found.

* `get?_labelTable_concat`, `get?_placesByName_concat`   what one event more makes of the places of
  the labels;
* `Script.find?_eq_some_iff`    where a label is found;
* `Script.find?_eq_none_iff`    when it is not.
-/

namespace VisualNovel

open Review

variable {events : List Event} {event : Event} {name : String} {place : Nat}

def isLabel (name : String) : Event → Bool
  | .single (.label n) => n == name
  | _ => false

theorem isLabel_iff : isLabel name event = true ↔ event = .single (.label name) := by
  unfold isLabel
  split
  · rename_i n
    simp
  · rename_i other
    exact ⟨nofun, fun e => absurd e (other name)⟩

theorem foldl_zipIdx_concat {α : Type} (f : α → Event × Nat → α) (a : α) (events : List Event)
    (event : Event) :
    (events ++ [event]).zipIdx.foldl f a = f (events.zipIdx.foldl f a) (event, events.length) := by
  rw [List.zipIdx_append, List.foldl_append, List.zipIdx_singleton, List.foldl_cons, List.foldl_nil,
    Nat.zero_add]

theorem get?_labelTable_concat (events : List Event) (event : Event) (name : String) :
    (labelTable (events ++ [event])).get? name =
      if isLabel name event then some events.length else (labelTable events).get? name := by
  rw [labelTable, foldl_zipIdx_concat, ← labelTable]
  cases event with
  | together => rfl
  | single cue =>
    cases cue with
    | label n => simp only [enterLabel, isLabel, Table.get?_insert, beq_iff_eq, @eq_comm _ n]
    | _ => rfl

theorem get?_placesByName_concat (events : List Event) (event : Event) (name : String) :
    (placesByName (events ++ [event])).get? name =
      if isLabel name event then
        some (((placesByName events).get? name).getD [] ++ [events.length])
      else (placesByName events).get? name := by
  rw [placesByName, foldl_zipIdx_concat, ← placesByName]
  cases event with
  | together => rfl
  | single cue =>
    cases cue with
    | label n =>
      simp only [enterPlace, isLabel, Table.get?_insert, beq_iff_eq]
      by_cases same : n = name
      · rw [if_pos same, if_pos same.symm, same]
      · rw [if_neg same, if_neg (Ne.symm same)]
    | _ => rfl

/-- behind some events, the next one makes no difference to where a label stands, unless it is one -/
theorem getElem?_concat_iff (other : isLabel name event = false) :
    (events ++ [event])[place]? = some (.single (.label name)) ↔
      events[place]? = some (.single (.label name)) := by
  rcases Nat.lt_trichotomy place events.length with lt | rfl | gt
  · rw [List.getElem?_append_left lt]
  · rw [List.getElem?_concat_length, List.getElem?_eq_none (Nat.le_refl _), Option.some_inj,
      ← isLabel_iff, other]
    simp
  · rw [List.getElem?_eq_none (by simp; omega), List.getElem?_eq_none (Nat.le_of_lt gt)]

theorem get?_labelTable_eq_some_iff :
    (labelTable events).get? name = some place ↔
      events[place]? = some (.single (.label name)) ∧
        ∀ later, place < later → events[later]? ≠ some (.single (.label name)) := by
  induction events using List.reverseRecOn with
  | nil => simp [labelTable]
  | append_singleton events event ih =>
    rw [get?_labelTable_concat]
    cases is : isLabel name event with
    | false =>
      rw [if_neg Bool.false_ne_true, ih]
      simp only [ne_eq, getElem?_concat_iff is]
    | true =>
      obtain rfl := isLabel_iff.1 is
      rw [if_pos rfl, Option.some_inj]
      constructor
      · rintro rfl
        refine ⟨List.getElem?_concat_length, fun later lt => ?_⟩
        rw [List.getElem?_eq_none (by simp; omega)]
        nofun
      · rintro ⟨found, last⟩
        obtain ⟨inside, -⟩ := List.getElem?_eq_some_iff.1 found
        rw [List.length_append, List.length_singleton] at inside
        by_contra other
        exact last events.length (by omega) List.getElem?_concat_length

theorem get?_labelTable_eq_none_iff :
    (labelTable events).get? name = none ↔
      ∀ place : Nat, events[place]? ≠ some (.single (.label name)) := by
  induction events using List.reverseRecOn with
  | nil => simp [labelTable]
  | append_singleton events event ih =>
    rw [get?_labelTable_concat]
    cases is : isLabel name event with
    | false =>
      rw [if_neg Bool.false_ne_true, ih]
      simp only [ne_eq, getElem?_concat_iff is]
    | true =>
      obtain rfl := isLabel_iff.1 is
      rw [if_pos rfl]
      constructor
      · intro e
        cases e
      · intro none
        exact absurd List.getElem?_concat_length (none events.length)

namespace Script

variable {script : Script}

theorem find?_eq_some_iff :
    script.find? name = some place ↔
      script.events[place]? = some (.single (.label name)) ∧
        ∀ later, place < later → script.events[later]? ≠ some (.single (.label name)) := by
  rw [find?, script.labels_eq, get?_labelTable_eq_some_iff]
  simp only [Array.getElem?_toList]

theorem find?_eq_none_iff :
    script.find? name = none ↔ ∀ place : Nat, script.events[place]? ≠ some (.single (.label name)) := by
  rw [find?, script.labels_eq, get?_labelTable_eq_none_iff]
  simp only [Array.getElem?_toList]

end Script

end VisualNovel
