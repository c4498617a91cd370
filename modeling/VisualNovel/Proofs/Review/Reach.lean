import Mathlib.Data.List.Nodup
import Mathlib.Data.List.Perm.Subperm
import Mathlib.Logic.Relation
import VisualNovel.Review.Flow

/-!
# Reachable places

The search of a review finds the places that its successors lead to from the first one on, and no
others. It looks at each place once, so that as many turns as there are events suffice.

* `Review.Leads`               one place of a script is a successor of another;
* `Searching`                  what has been seen is looked at or queued, and the successors lead there;
* `explore_closed`             a search with turns enough finds all that they lead to;
* `mem_reachable_iff`          the reachable places are those that they lead to from the first one;
* `Review.Reports`, `reports_iff`   an event is reported if it is none of these, and no mark.
-/

namespace VisualNovel

namespace Review

def Leads (script : Script) (p q : Nat) : Prop :=
  ∃ event, script.events[p]? = some event ∧ q ∈ successors script p event ∧ q < script.size

/-- the event at a place is reported as unreachable -/
def Reports (script : Script) (place : Nat) : Prop :=
  ∃ issue ∈ unreachableIssues script, issue.position = some place

end Review

open Review

variable {script : Script}

/-! ## The search -/

/-- a search on its way: what has been seen has been looked at or is queued, each place once, and the
successors lead there -/
structure Searching (script : Script) (start : Nat) (looked seen queue : List Nat) : Prop where
  nodup : seen.Nodup
  whole : seen.Perm (looked ++ queue)
  inside : ∀ p ∈ seen, p < script.size
  led : ∀ p ∈ seen, Relation.ReflTransGen (Leads script) start p

variable {start p q : Nat} {looked seen queue : List Nat}

namespace Searching

theorem visit (h : Searching script start looked seen queue)
    (led : q < script.size → Relation.ReflTransGen (Leads script) start q) :
    Searching script start looked (visit script.size (seen, queue) q).1
        (visit script.size (seen, queue) q).2 ∧
      seen ⊆ (visit script.size (seen, queue) q).1 ∧
      (q < script.size → q ∈ (visit script.size (seen, queue) q).1) := by
  unfold Review.visit
  dsimp only
  split
  · rename_i fresh
    rw [Bool.and_eq_true, decide_eq_true_iff, Bool.not_eq_true', ← Bool.not_eq_true,
      List.contains_iff_mem] at fresh
    refine ⟨⟨List.nodup_cons.2 ⟨fresh.2, h.nodup⟩, ?_, ?_, ?_⟩, List.subset_cons_self q seen,
      fun _ => List.mem_cons_self⟩
    · rw [← List.append_assoc]
      exact (h.whole.cons q).trans (List.perm_append_singleton q _).symm
    · exact List.forall_mem_cons.2 ⟨fresh.1, h.inside⟩
    · exact List.forall_mem_cons.2 ⟨led fresh.1, h.led⟩
  · rename_i known
    refine ⟨h, fun _ m => m, fun lt => ?_⟩
    rw [Bool.and_eq_true, decide_eq_true_iff, Bool.not_eq_true', ← Bool.not_eq_true,
      List.contains_iff_mem] at known
    exact Classical.not_not.1 fun fresh => known ⟨lt, fresh⟩

theorem visits {places : List Nat} (h : Searching script start looked seen queue)
    (led : ∀ q ∈ places, q < script.size → Relation.ReflTransGen (Leads script) start q) :
    Searching script start looked (places.foldl (Review.visit script.size) (seen, queue)).1
        (places.foldl (Review.visit script.size) (seen, queue)).2 ∧
      seen ⊆ (places.foldl (Review.visit script.size) (seen, queue)).1 ∧
      ∀ q ∈ places, q < script.size →
        q ∈ (places.foldl (Review.visit script.size) (seen, queue)).1 := by
  induction places generalizing seen queue with
  | nil => exact ⟨h, fun _ m => m, nofun⟩
  | cons place places ih =>
    obtain ⟨here, kept, found⟩ := h.visit (led place List.mem_cons_self)
    obtain ⟨later, kept', found'⟩ := ih here fun q m => led q (List.mem_cons_of_mem _ m)
    rw [List.foldl_cons]
    exact ⟨later, fun _ m => kept' (kept m),
      List.forall_mem_cons.2 ⟨fun lt => kept' (found lt), found'⟩⟩

theorem look (h : Searching script start looked seen (p :: queue)) :
    Searching script start (p :: looked) seen queue :=
  { h with whole := h.whole.trans List.perm_middle }

theorem length_le (h : Searching script start looked seen queue) :
    looked.length + queue.length ≤ script.size := by
  have subset : seen ⊆ List.range script.size := fun p m => List.mem_range.2 (h.inside p m)
  have le : seen.length ≤ script.size := by
    have subperm := (h.nodup.subperm subset).length_le
    rwa [List.length_range] at subperm
  rwa [h.whole.length_eq, List.length_append] at le

/-- once nothing is queued, all that has been seen has been looked at -/
theorem looked_of_nil (h : Searching script start looked seen []) (m : p ∈ seen) : p ∈ looked := by
  have whole := h.whole
  rw [List.append_nil] at whole
  exact whole.subset m

end Searching

/-- a search with turns enough keeps what it has seen, finds the successors of all that it finds, and
nothing else -/
theorem explore_closed {n : Nat} (h : Searching script start looked seen queue)
    (closed : ∀ p ∈ looked, ∀ q, Leads script p q → q ∈ seen)
    (enough : script.size ≤ n + looked.length) :
    seen ⊆ explore script n seen queue ∧
      (∀ p ∈ explore script n seen queue, ∀ q, Leads script p q → q ∈ explore script n seen queue) ∧
      ∀ p ∈ explore script n seen queue,
        p < script.size ∧ Relation.ReflTransGen (Leads script) start p := by
  induction n generalizing looked seen queue with
  | zero =>
    have nothing : queue = [] := by
      have le := h.length_le
      exact List.length_eq_zero_iff.1 (by omega)
    subst nothing
    exact ⟨fun _ m => m, fun p m => closed p (h.looked_of_nil m),
      fun p m => ⟨h.inside p m, h.led p m⟩⟩
  | succ n ih =>
    cases queue with
    | nil =>
      exact ⟨fun _ m => m, fun p m => closed p (h.looked_of_nil m),
        fun p m => ⟨h.inside p m, h.led p m⟩⟩
    | cons p queue =>
      have queued : p ∈ seen := h.whole.symm.subset (List.mem_append_right _ List.mem_cons_self)
      have enough' : script.size ≤ n + (p :: looked).length := by
        rw [List.length_cons]
        omega
      unfold explore
      cases found : script.events[p]? with
      | none =>
        have absent : script.size ≤ p := Array.getElem?_eq_none_iff.1 found
        exact absurd (h.inside p queued) (Nat.not_lt.2 absent)
      | some event =>
        have led : ∀ q ∈ successors script p event, q < script.size →
            Relation.ReflTransGen (Leads script) start q :=
          fun q m lt => (h.led p queued).tail ⟨event, found, m, lt⟩
        obtain ⟨searching, kept, all⟩ := h.look.visits led
        have closed' : ∀ p' ∈ p :: looked, ∀ q, Leads script p' q → q ∈
            ((successors script p event).foldl (visit script.size) (seen, queue)).1 := by
          refine List.forall_mem_cons.2 ⟨?_, fun p' m q leads => kept (closed p' m q leads)⟩
          rintro q ⟨event', found', m, lt⟩
          rw [found] at found'
          cases found'
          exact all q m lt
        obtain ⟨keeps, rest⟩ := ih searching closed' enough'
        exact ⟨fun _ m => keeps (kept m), rest⟩

/-- **The reachable places are those that the successors lead to from the first one.** -/
theorem mem_reachable_iff :
    q ∈ reachable script ↔ 0 < script.size ∧ Relation.ReflTransGen (Leads script) 0 q := by
  unfold reachable
  split
  · rename_i empty
    have none : script.size = 0 := by simpa [Script.isEmpty, Script.size] using empty
    rw [none]
    simp
  · rename_i nonempty
    have some : 0 < script.size := by
      have ne : script.size ≠ 0 := by simpa [Script.isEmpty, Script.size] using nonempty
      exact Nat.pos_of_ne_zero ne
    have first : Searching script 0 [] [0] [0] :=
      ⟨List.nodup_singleton 0, .refl _, by simpa using some, by simp [Relation.ReflTransGen.refl]⟩
    obtain ⟨kept, closed, led⟩ := explore_closed first nofun (Nat.le_refl _)
    constructor
    · exact fun m => ⟨some, (led q m).2⟩
    · rintro ⟨-, path⟩
      induction path with
      | refl => exact kept List.mem_cons_self
      | tail _ leads ih => exact closed _ ih _ leads

theorem reports_iff {place : Nat} :
    Reports script place ↔ ∃ event, script.events[place]? = some event ∧
      place ∉ reachable script ∧ isMark event = false := by
  unfold Reports unreachableIssues
  constructor
  · rintro ⟨issue, m, position⟩
    obtain ⟨⟨event, p⟩, found, made⟩ := List.mem_filterMap.1 m
    have found := List.mem_zipIdx_iff_getElem?.1 found
    dsimp only at found made
    split at made
    · cases made
    · rename_i reported
      cases made
      cases position
      rw [Bool.or_eq_true, not_or, List.contains_iff_mem, Bool.not_eq_true] at reported
      rw [Array.getElem?_toList] at found
      exact ⟨event, found, reported⟩
  · rintro ⟨event, found, unreached, noMark⟩
    refine ⟨⟨.unreachable event.kind, some place⟩, List.mem_filterMap.2 ⟨(event, place), ?_, ?_⟩,
      rfl⟩
    · exact List.mem_zipIdx_iff_getElem?.2 (by rwa [Array.getElem?_toList])
    · have reported : ¬ ((reachable script).contains place || isMark event) = true := by
        rw [Bool.or_eq_true, not_or, List.contains_iff_mem, Bool.not_eq_true]
        exact ⟨unreached, noMark⟩
      exact if_neg reported

end VisualNovel
