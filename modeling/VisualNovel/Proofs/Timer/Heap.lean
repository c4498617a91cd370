import Mathlib.Data.List.Nodup
import VisualNovel.Timer.Heap

/-!
# The heap of timers and the ordered queue

Sorted by their comparison, the timers of a heap are a queue, and what is done to the heap is done
to the queue: the heap refines it.

* `TimerHeap.peek?_eq_some_iff`    what comes out of a heap compares as greater than all others;
* `TimerHeap.ordered_eq_iff`       there is one way to sort the timers of a heap;
* `TimerHeap.toTimers`             the queue that the heap stands for;
* `toTimers_schedule`, `toTimers_popDue?`, `toTimers_deadline?`   it follows the heap.
-/

namespace VisualNovel

namespace TimerHeap

theorem eq_of_number_eq (h : TimerHeap) {t u : Numbered} (mem : t ∈ h.contents)
    (mem' : u ∈ h.contents) (same : t.number = u.number) : t = u :=
  List.inj_on_of_nodup_map h.distinct mem mem' same

theorem nodup_contents (h : TimerHeap) : h.contents.Nodup :=
  h.distinct.of_map _

theorem peek?_eq_none_iff {h : TimerHeap} : h.peek? = none ↔ h.contents = [] :=
  greatest?_eq_none_iff

theorem peek?_eq_some_iff {h : TimerHeap} {t : Numbered} :
    h.peek? = some t ↔ t ∈ h.contents ∧ ∀ u ∈ h.contents, u ≠ t → compare t u = .gt := by
  constructor
  · intro found
    obtain ⟨mem, ge⟩ := mem_and_isGE_of_greatest? found
    refine ⟨mem, fun u mem' ne => ?_⟩
    have distinct : t.number ≠ u.number := fun same => ne (h.eq_of_number_eq mem mem' same).symm
    have ge := Numbered.isGE_compare_iff.1 (ge u mem')
    rw [Numbered.compare_eq_gt_iff]
    omega
  · rintro ⟨mem, above⟩
    cases found : h.peek? with
    | none => simp [peek?_eq_none_iff.1 found] at mem
    | some u =>
      obtain ⟨mem', ge⟩ := mem_and_isGE_of_greatest? found
      by_cases same : u = t
      · rw [same]
      · have ge := Numbered.isGE_compare_iff.1 (ge t mem)
        have gt := Numbered.compare_eq_gt_iff.1 (above u mem' same)
        omega

theorem popDue?_eq_some_iff {h h' : TimerHeap} {limit : Nat} {t : Numbered} :
    h.popDue? limit = some (t, h') ↔
      h.peek? = some t ∧ t.due ≤ limit ∧ h' = { h.remove t with now := max h.now t.due } := by
  simp only [popDue?]
  split
  · rename_i empty
    simp [empty]
  · rename_i u found
    rw [found]
    split
    · rename_i due
      simp only [Option.some.injEq, Prod.mk.injEq]
      constructor
      · rintro ⟨rfl, rfl⟩
        exact ⟨rfl, due, rfl⟩
      · rintro ⟨rfl, -, rfl⟩
        exact ⟨rfl, rfl⟩
    · rename_i late
      constructor
      · nofun
      · rintro ⟨same, due, -⟩
        obtain rfl := Option.some.inj same
        exact absurd due late

theorem popDue?_eq_none_iff {h : TimerHeap} {limit : Nat} :
    h.popDue? limit = none ↔ ∀ t, h.peek? = some t → limit < t.due := by
  simp only [popDue?]
  split
  · rename_i empty
    simp [empty]
  · rename_i u found
    simp [found]

/-! ## The timers in order -/

/-- the greatest first -/
def ordered (h : TimerHeap) : List Numbered := h.contents.mergeSort fun t u => (compare t u).isGE

theorem ordered_perm (h : TimerHeap) : h.ordered.Perm h.contents := List.mergeSort_perm _ _

theorem ordered_pairwise (h : TimerHeap) : h.ordered.Pairwise fun t u => compare t u = .gt := by
  have sorted : h.ordered.Pairwise fun t u => (compare t u).isGE := by
    refine List.pairwise_mergeSort (fun t u v one other => ?_) (fun t u => ?_) h.contents
    · rw [Numbered.isGE_compare_iff] at *
      omega
    · rw [Bool.or_eq_true, Numbered.isGE_compare_iff, Numbered.isGE_compare_iff]
      omega
  have distinct : h.ordered.Pairwise fun t u => t.number ≠ u.number :=
    List.pairwise_map.1 ((h.ordered_perm.map _).nodup_iff.2 h.distinct)
  refine (sorted.and distinct).imp fun {t u} both => ?_
  obtain ⟨ge, ne⟩ := both
  rw [Numbered.isGE_compare_iff] at ge
  rw [Numbered.compare_eq_gt_iff]
  omega

theorem ordered_eq_iff {h : TimerHeap} {ts : List Numbered} :
    h.ordered = ts ↔ ts.Perm h.contents ∧ ts.Pairwise fun t u => compare t u = .gt := by
  constructor
  · rintro rfl
    exact ⟨h.ordered_perm, h.ordered_pairwise⟩
  · rintro ⟨perm, sorted⟩
    refine List.Perm.eq_of_pairwise (fun t u _ _ one other => ?_) h.ordered_pairwise sorted
      (h.ordered_perm.trans perm.symm)
    rw [Numbered.compare_eq_gt_iff] at one other
    omega

theorem ordered_eq_nil {h : TimerHeap} (empty : h.peek? = none) : h.ordered = [] :=
  (peek?_eq_none_iff.1 empty ▸ h.ordered_perm).eq_nil

theorem ordered_eq_cons {h : TimerHeap} {t : Numbered} (found : h.peek? = some t) :
    h.ordered = t :: (h.remove t).ordered := by
  obtain ⟨mem, above⟩ := peek?_eq_some_iff.1 found
  have rest : (h.remove t).ordered.Perm (h.contents.erase t) := (h.remove t).ordered_perm
  refine ordered_eq_iff.2 ⟨(rest.cons t).trans (List.perm_cons_erase mem).symm,
    List.pairwise_cons.2 ⟨fun u mem' => ?_, (h.remove t).ordered_pairwise⟩⟩
  obtain ⟨ne, mem'⟩ := h.nodup_contents.mem_erase_iff.1 (rest.mem_iff.1 mem')
  exact above u mem' ne

/-- a timer with a number above all others goes behind those that are due no later -/
theorem enter_toTimer {t : Numbered} {ts : List Numbered} (below : ∀ u ∈ ts, u.number < t.number)
    (sorted : ts.Pairwise fun u v => compare u v = .gt) :
    ∃ us : List Numbered, Timers.enter t.toTimer (ts.map Numbered.toTimer) =
      us.map Numbered.toTimer ∧ (us.Pairwise fun u v => compare u v = .gt) ∧ us.Perm (t :: ts) := by
  induction ts with
  | nil => exact ⟨[t], rfl, List.pairwise_singleton _ _, .refl _⟩
  | cons u ts ih =>
    obtain ⟨ahead, sorted'⟩ := List.pairwise_cons.1 sorted
    simp only [List.map_cons, Timers.enter]
    split
    · rename_i earlier
      refine ⟨t :: u :: ts, rfl, List.pairwise_cons.2 ⟨fun v mem => ?_, sorted⟩, .refl _⟩
      rw [Numbered.compare_eq_gt_iff]
      rcases List.mem_cons.1 mem with rfl | mem
      · exact Or.inl earlier
      · have := Numbered.compare_eq_gt_iff.1 (ahead v mem)
        omega
    · rename_i later
      obtain ⟨us, entered, sorted'', perm⟩ :=
        ih (fun v mem => below v (List.mem_cons_of_mem _ mem)) sorted'
      refine ⟨u :: us, by rw [entered, List.map_cons], List.pairwise_cons.2 ⟨fun v mem => ?_, sorted''⟩,
        (perm.cons u).trans (.swap _ _ _)⟩
      rcases List.mem_cons.1 (perm.mem_iff.1 mem) with rfl | mem
      · have := below u List.mem_cons_self
        rw [Numbered.compare_eq_gt_iff]
        omega
      · exact ahead v mem

def toTimers (h : TimerHeap) : Timers where
  now := h.now
  pending := h.ordered.map Numbered.toTimer

theorem toTimers_new : toTimers {} = {} := by
  simp [toTimers, ordered]

theorem toTimers_schedule (h : TimerHeap) (delay : Nat) (kind : TimerKind) (guard : Guard) :
    (h.schedule delay kind guard).toTimers = h.toTimers.schedule delay kind guard := by
  obtain ⟨us, entered, sorted, perm⟩ :=
    enter_toTimer (t := ⟨⟨later h.now delay, kind, guard⟩, h.next⟩)
      (fun u mem => h.below u (h.ordered_perm.mem_iff.1 mem)) h.ordered_pairwise
  have listed : (h.schedule delay kind guard).ordered = us :=
    ordered_eq_iff.2 ⟨perm.trans (h.ordered_perm.cons _), sorted⟩
  simp only [toTimers, listed, Timers.schedule, entered]
  rfl

theorem toTimers_popDue? (h : TimerHeap) (limit : Nat) :
    h.toTimers.popDue? limit =
      (h.popDue? limit).map fun out => (out.1.toTimer, out.2.toTimers) := by
  cases found : h.peek? with
  | none => simp [Timers.popDue?, toTimers, popDue?, found, ordered_eq_nil found]
  | some t =>
    simp only [Timers.popDue?, toTimers, popDue?, found, ordered_eq_cons found, List.map_cons]
    split <;> rfl

theorem toTimers_deadline? (h : TimerHeap) : h.toTimers.deadline? = h.deadline? := by
  cases found : h.peek? with
  | none => simp [Timers.deadline?, toTimers, deadline?, found, ordered_eq_nil found]
  | some t => simp [Timers.deadline?, toTimers, deadline?, found, ordered_eq_cons found]

end TimerHeap

end VisualNovel
