import VisualNovel.Timer.Queue

/-!
# Timers in a heap

Each timer is numbered when it is scheduled. A heap holds its timers in no particular order, and
what comes out of it is a greatest one: timers compare backwards, so that the greatest is the one
that is due first, and of several that are due together the one with the least number.

* `TimerHeap.schedule`    puts a timer in under the next number;
* `TimerHeap.popDue?`     takes a greatest timer out if it is due, and the clock moves on to it;
* `mem_and_isGE_of_greatest?`   no timer of a list compares as greater than the one that is found.
-/

namespace VisualNovel

structure Numbered extends Timer where
  number : Nat
deriving DecidableEq

namespace Numbered

/-- by the due times and then by the numbers, both backwards -/
instance : Ord Numbered where
  compare t u := (compare u.due t.due).then (compare u.number t.number)

theorem compare_eq_gt_iff {t u : Numbered} :
    compare t u = .gt ↔ t.due < u.due ∨ t.due = u.due ∧ t.number < u.number := by
  change (compare u.due t.due).then (compare u.number t.number) = .gt ↔ _
  rw [Ordering.then_eq_gt, Nat.compare_eq_gt, Nat.compare_eq_gt, Nat.compare_eq_eq, eq_comm]

theorem compare_eq_lt_iff {t u : Numbered} :
    compare t u = .lt ↔ u.due < t.due ∨ u.due = t.due ∧ u.number < t.number := by
  change (compare u.due t.due).then (compare u.number t.number) = .lt ↔ _
  rw [Ordering.then_eq_lt, Nat.compare_eq_lt, Nat.compare_eq_lt, Nat.compare_eq_eq]

theorem isGE_compare_iff {t u : Numbered} :
    (compare t u).isGE = true ↔ t.due < u.due ∨ t.due = u.due ∧ t.number ≤ u.number := by
  rw [Ordering.isGE_iff_ne_lt, compare_eq_lt_iff]
  omega

end Numbered

def greatest? : List Numbered → Option Numbered
  | [] => none
  | t :: ts =>
    match greatest? ts with
    | none => some t
    | some u => some (if compare t u = .lt then u else t)

theorem greatest?_eq_none_iff {ts : List Numbered} : greatest? ts = none ↔ ts = [] := by
  cases ts with
  | nil => simp [greatest?]
  | cons t ts =>
    simp only [greatest?]
    split <;> simp

theorem mem_and_isGE_of_greatest? {ts : List Numbered} {t : Numbered} (found : greatest? ts = some t) :
    t ∈ ts ∧ ∀ u ∈ ts, (compare t u).isGE := by
  simp only [Numbered.isGE_compare_iff]
  induction ts generalizing t with
  | nil => cases found
  | cons u us ih =>
    simp only [greatest?] at found
    split at found
    · rename_i empty
      obtain rfl := Option.some.inj found
      obtain rfl := greatest?_eq_none_iff.1 empty
      simp
    · rename_i v rest
      obtain ⟨mem, ge⟩ := ih rest
      obtain rfl := Option.some.inj found
      simp only [Numbered.compare_eq_lt_iff]
      split
      · refine ⟨List.mem_cons_of_mem _ mem, fun w mem' => ?_⟩
        rcases List.mem_cons.1 mem' with rfl | mem'
        · omega
        · exact ge w mem'
      · refine ⟨List.mem_cons_self, fun w mem' => ?_⟩
        rcases List.mem_cons.1 mem' with rfl | mem'
        · omega
        · have := ge w mem'
          omega

structure TimerHeap where
  now : Nat := 0
  /-- in no particular order -/
  contents : List Numbered := []
  /-- the number that the next timer gets -/
  next : Nat := 0
  below : ∀ t ∈ contents, t.number < next := by exact List.forall_mem_nil _
  distinct : (contents.map Numbered.number).Nodup := by exact List.nodup_nil

namespace TimerHeap

def schedule (h : TimerHeap) (delay : Nat) (kind : TimerKind) (guard : Guard) : TimerHeap where
  now := h.now
  contents := ⟨⟨later h.now delay, kind, guard⟩, h.next⟩ :: h.contents
  next := h.next + 1
  below t mem := by
    rcases List.mem_cons.1 mem with rfl | mem
    · exact Nat.lt_succ_self _
    · exact Nat.lt_succ_of_lt (h.below t mem)
  distinct := by
    refine List.nodup_cons.2 ⟨fun mem => ?_, h.distinct⟩
    obtain ⟨t, mem, same⟩ := List.mem_map.1 mem
    exact Nat.ne_of_lt (h.below t mem) same

def peek? (h : TimerHeap) : Option Numbered := greatest? h.contents

def remove (h : TimerHeap) (t : Numbered) : TimerHeap where
  now := h.now
  contents := h.contents.erase t
  next := h.next
  below u mem := h.below u (List.mem_of_mem_erase mem)
  distinct := h.distinct.sublist (List.erase_sublist.map _)

/-- a greatest timer, if it is due by `limit`; the clock never goes back -/
def popDue? (h : TimerHeap) (limit : Nat) : Option (Numbered × TimerHeap) :=
  match h.peek? with
  | none => none
  | some t => if t.due ≤ limit then some (t, { h.remove t with now := max h.now t.due }) else none

def setNow (h : TimerHeap) (now : Nat) : TimerHeap := { h with now := max h.now now }

def deadline? (h : TimerHeap) : Option Nat := h.peek?.map fun t => t.due

def size (h : TimerHeap) : Nat := h.contents.length

end TimerHeap

end VisualNovel
