import VisualNovel.Proofs.Review.Reach
import VisualNovel.Review.Check

/-!
# Scripts that run straight on

A script without labels, jumps and menus is gone through from its first event to its last. A review has
nothing to say about where it leads, whatever its rules are.

* `Cue.steers`               labels, jumps and menus;
* `Script.Straight`          a script without them, in blocks or out of them;
* `Script.Straight.reachable`   all of its places are reachable;
* `Script.Straight.referenceIssues_eq_nil`, `Script.Straight.flowIssues_eq_nil`   no issues are found.
-/

namespace VisualNovel

open Review

def Cue.steers : Cue → Bool
  | label _ | jump _ | choice _ => true
  | _ => false

def Script.Straight (script : Script) : Prop :=
  ∀ event ∈ script.events.toList, ∀ cue ∈ event.cues, cue.steers = false

theorem blockTarget?_eq_none (script : Script) {cues : List Cue}
    (plain : ∀ target, .jump target ∉ cues) : blockTarget? script cues = none := by
  refine List.findSome?_eq_none_iff.2 fun cue m => ?_
  cases cue with
  | jump target => exact absurd (List.mem_reverse.1 m) (plain target)
  | _ => rfl

namespace Script.Straight

variable {script : Script} (straight : script.Straight)
include straight

theorem of_mem_zipIdx {event : Event} {place : Nat} (m : (event, place) ∈ script.events.toList.zipIdx) :
    ∀ cue ∈ event.cues, cue.steers = false :=
  straight event (List.fst_mem_of_mem_zipIdx m)

theorem of_mem_walk {event : Event} {place : Nat} (m : (place, event) ∈ script.walk) :
    ∀ cue ∈ event.cues, cue.steers = false := by
  obtain ⟨⟨outer, p⟩, among, m⟩ := List.mem_flatMap.1 m
  have outside := straight.of_mem_zipIdx among
  cases outer with
  | single cue =>
    cases List.mem_singleton.1 m
    exact outside
  | together cues =>
    rcases List.mem_cons.1 m with e | m
    · cases e
      exact outside
    · obtain ⟨cue, inside, e⟩ := List.mem_map.1 m
      cases e
      intro cue' m'
      rw [List.mem_singleton.1 m']
      exact outside cue inside

/-! ## References -/

theorem targetIssues_eq_nil : targetIssues script = [] := by
  refine List.flatMap_eq_nil_iff.2 ?_
  rintro ⟨place, event⟩ m
  have events := straight.of_mem_walk m
  cases event with
  | together cues => rfl
  | single cue =>
    have plain := events cue List.mem_cons_self
    cases cue with
    | jump | choice => cases plain
    | _ => rfl

theorem duplicateIssues_eq_nil : duplicateIssues script = [] := by
  have none : placesByName script.events.toList = .empty := by
    refine List.foldlRecOn (motive := fun places => places = Table.empty) _ _ rfl ?_
    rintro _ rfl ⟨event, place⟩ m
    have plain := straight.of_mem_zipIdx m
    cases event with
    | together cues => rfl
    | single cue =>
      have plain := plain cue List.mem_cons_self
      cases cue with
      | label => cases plain
      | _ => rfl
  rw [duplicateIssues, none]
  rfl

theorem nestedIssues_eq_nil : nestedIssues script = [] := by
  refine List.flatMap_eq_nil_iff.2 ?_
  rintro ⟨event, place⟩ m
  have plain := straight.of_mem_zipIdx m
  cases event with
  | single cue => rfl
  | together cues =>
    have none : cues.filterMap nestedLabel? = [] := by
      refine List.filterMap_eq_nil_iff.2 fun cue m => ?_
      have plain := plain cue m
      cases cue with
      | label => cases plain
      | _ => rfl
    dsimp only
    rw [none, List.map_nil]

theorem referenceIssues_eq_nil (rules : ReferenceRules) : referenceIssues script rules = [] := by
  rw [referenceIssues, straight.targetIssues_eq_nil, straight.duplicateIssues_eq_nil,
    straight.nestedIssues_eq_nil]
  simp

/-! ## Flow -/

theorem successors_eq {event : Event} (m : event ∈ script.events.toList) (place : Nat) :
    successors script place event = [place + 1] := by
  have plain := straight event m
  cases event with
  | single cue =>
    have plain := plain cue List.mem_cons_self
    cases cue with
    | jump | choice => cases plain
    | _ => rfl
  | together cues =>
    have none : blockTarget? script cues = none :=
      blockTarget?_eq_none script fun target m => nomatch plain (.jump target) m
    rw [successors, none, Option.getD_none]

theorem leads_succ {place : Nat} (lt : place + 1 < script.size) : Leads script place (place + 1) := by
  have lt' : place < script.events.size := Nat.lt_of_succ_lt lt
  refine ⟨script.events[place], Array.getElem?_eq_getElem lt', ?_, lt⟩
  rw [straight.successors_eq (Array.getElem_mem_toList lt')]
  exact List.mem_singleton_self _

theorem reachable {place : Nat} (lt : place < script.size) : place ∈ Review.reachable script := by
  refine mem_reachable_iff.2 ⟨Nat.zero_lt_of_lt lt, ?_⟩
  induction place with
  | zero => exact .refl
  | succ place ih => exact (ih (Nat.lt_of_succ_lt lt)).tail (straight.leads_succ lt)

theorem unreachableIssues_eq_nil : unreachableIssues script = [] := by
  refine List.filterMap_eq_nil_iff.2 ?_
  rintro ⟨event, place⟩ m
  obtain ⟨lt, -⟩ := List.getElem?_eq_some_iff.1 (List.mem_zipIdx_iff_getElem?.1 m)
  have reached : (Review.reachable script).contains place = true :=
    List.contains_iff_mem.2 (straight.reachable lt)
  dsimp only
  rw [reached, Bool.true_or, if_pos rfl]

theorem loopIssues_eq_nil : loopIssues script = [] := by
  refine List.filterMap_eq_nil_iff.2 ?_
  rintro ⟨event, place⟩ m
  have plain := straight.of_mem_zipIdx m
  cases event with
  | together cues => rfl
  | single cue =>
    have plain := plain cue List.mem_cons_self
    cases cue with
    | jump => cases plain
    | _ => rfl

theorem flowIssues_eq_nil (rules : FlowRules) : flowIssues script rules = [] := by
  rw [flowIssues, straight.unreachableIssues_eq_nil, straight.loopIssues_eq_nil]
  simp

end Script.Straight

end VisualNovel
