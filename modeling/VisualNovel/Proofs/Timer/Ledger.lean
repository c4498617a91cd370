import VisualNovel.Proofs.Timer.Heap

/-!
# The heap of timers and its ledger

The heap finds the next timer by comparing. A ledger compares nothing: it writes down every timer
that was ever scheduled, in the order of the calls, and strikes out the number of each one that was
taken. What a call has to answer is said of the ledger alone, and the heap answers it.

* `TimerCall`              a call on the timers, `TimerHeap.call` and `Timers.call` what it does;
* `callAll`                calls one after the other;
* `Ledger.Answers`         what a call answers, and what is written down of it;
* `Ledger.Records`         the ledger of a list of calls;
* `Ledger.Lists`           the heap holds what is open in the ledger;
* `timers_ledger`          the heap, its ledger and the ordered queue agree, whatever is called.
-/

namespace VisualNovel

/-! ## Calls -/

inductive TimerCall
  | schedule (delay : UInt64) (kind : TimerKind) (guard : Guard)
  | popDue (limit : UInt64)
  | setNow (now : UInt64)

/-- what a call takes out of the heap, and the heap after it -/
def TimerHeap.call (h : TimerHeap) : TimerCall → Option Numbered × TimerHeap
  | .schedule delay kind guard => (none, h.schedule delay.toNat kind guard)
  | .setNow now => (none, h.setNow now.toNat)
  | .popDue limit =>
    match h.popDue? limit.toNat with
    | none => (none, h)
    | some (t, h') => (some t, h')

/-- what a call takes out of the queue, and the queue after it -/
def Timers.call (q : Timers) : TimerCall → Option Timer × Timers
  | .schedule delay kind guard => (none, q.schedule delay.toNat kind guard)
  | .setNow now => (none, q.setNow now.toNat)
  | .popDue limit =>
    match q.popDue? limit.toNat with
    | none => (none, q)
    | some (t, q') => (some t, q')

section

variable {σ τ α β : Type}

/-- calls one after the other: what each takes out, and what is left in the end -/
def callAll (call : σ → TimerCall → Option α × σ) (s : σ) : List TimerCall → List (Option α) × σ
  | [] => ([], s)
  | c :: cs =>
    let (answer, s') := call s c
    let (answers, s'') := callAll call s' cs
    (answer :: answers, s'')

theorem callAll_cons (call : σ → TimerCall → Option α × σ) (s : σ) (c : TimerCall)
    (cs : List TimerCall) :
    callAll call s (c :: cs) =
      ((call s c).1 :: (callAll call (call s c).2 cs).1, (callAll call (call s c).2 cs).2) := rfl

/-- one machine follows another through all calls if it does so through each -/
theorem callAll_map {call : σ → TimerCall → Option α × σ} {call' : τ → TimerCall → Option β × τ}
    {f : σ → τ} {g : α → β}
    (follows : ∀ s c, call' (f s) c = ((call s c).1.map g, f (call s c).2)) (s : σ)
    (cs : List TimerCall) :
    callAll call' (f s) cs =
      ((callAll call s cs).1.map (Option.map g), f (callAll call s cs).2) := by
  induction cs generalizing s with
  | nil => rfl
  | cons c cs ih => rw [callAll_cons, callAll_cons, follows, ih, List.map_cons]

end

namespace TimerHeap

/-- what the calls take out of a new heap -/
def answers (calls : List TimerCall) : List (Option Numbered) := (callAll call {} calls).1

/-- a new heap after the calls -/
def afterAll (calls : List TimerCall) : TimerHeap := (callAll call {} calls).2

theorem now_le_call (h : TimerHeap) (call : TimerCall) : h.now ≤ (h.call call).2.now := by
  cases call with
  | schedule => exact Nat.le_refl _
  | setNow => exact Nat.le_max_left _ _
  | popDue limit =>
    simp only [TimerHeap.call]
    split
    · exact Nat.le_refl _
    · rename_i popped
      obtain ⟨-, -, rfl⟩ := popDue?_eq_some_iff.1 popped
      exact Nat.le_max_left _ _

theorem call_toTimers (h : TimerHeap) (call : TimerCall) :
    h.toTimers.call call = ((h.call call).1.map Numbered.toTimer, (h.call call).2.toTimers) := by
  cases call with
  | schedule => simp only [Timers.call, TimerHeap.call, toTimers_schedule, Option.map_none]
  | setNow => rfl
  | popDue limit =>
    simp only [Timers.call, TimerHeap.call, toTimers_popDue?]
    cases h.popDue? limit.toNat <;> rfl

end TimerHeap

/-! ## The ledger -/

/-- an account of the calls on the timers -/
structure Ledger where
  now : Nat := 0
  /-- every timer that was scheduled, in the order of the calls -/
  scheduled : List Timer := []
  /-- the numbers of those that were taken out -/
  taken : List Nat := []

namespace Ledger

/-- the timer with this number was scheduled, and it was not taken out -/
def Open (l : Ledger) (t : Numbered) : Prop :=
  l.scheduled[t.number]? = some t.toTimer ∧ t.number ∉ l.taken

/-- the order in which timers come out: by their due times, and then by their numbers -/
def Before (t u : Numbered) : Prop := t.due < u.due ∨ t.due = u.due ∧ t.number < u.number

/-- the open timer that comes out before all others -/
def First (l : Ledger) (t : Numbered) : Prop := l.Open t ∧ ∀ u, l.Open u → u ≠ t → Before t u

/-- what a call answers, and the ledger after it -/
inductive Answers (l : Ledger) : TimerCall → Option Numbered → Ledger → Prop
  | scheduled (delay : UInt64) (kind : TimerKind) (guard : Guard) :
      Answers l (.schedule delay kind guard) none
        { l with scheduled := l.scheduled ++ [⟨min (l.now + delay.toNat) (UInt64.size - 1), kind, guard⟩] }
  | nothing (limit : UInt64) (late : ∀ t, l.Open t → limit.toNat < t.due) :
      Answers l (.popDue limit) none l
  | took (limit : UInt64) (t : Numbered) (first : l.First t) (due : t.due ≤ limit.toNat) :
      Answers l (.popDue limit) (some t)
        { l with now := max l.now t.due, taken := l.taken ++ [t.number] }
  | moved (now : UInt64) : Answers l (.setNow now) none { l with now := max l.now now.toNat }

/-- the answers to a list of calls, and the ledger after them -/
inductive Records : Ledger → List TimerCall → List (Option Numbered) → Ledger → Prop
  | nil (l) : Records l [] [] l
  | cons {l call answer l' calls answers l''} (answered : Answers l call answer l')
      (rest : Records l' calls answers l'') : Records l (call :: calls) (answer :: answers) l''

theorem First.unique {l : Ledger} {t u : Numbered} (one : l.First t) (other : l.First u) : t = u := by
  by_contra ne
  have before := one.2 u other.1 (Ne.symm ne)
  have after := other.2 t one.1 ne
  simp only [Before] at before after
  omega

theorem Answers.unique {l l₁ l₂ : Ledger} {call : TimerCall} {a₁ a₂ : Option Numbered}
    (one : l.Answers call a₁ l₁) (other : l.Answers call a₂ l₂) : a₁ = a₂ ∧ l₁ = l₂ := by
  cases one with
  | scheduled | moved => cases other; exact ⟨rfl, rfl⟩
  | nothing _ late =>
    cases other with
    | nothing => exact ⟨rfl, rfl⟩
    | took _ t first due => exact absurd (late t first.1) (by omega)
  | took _ t first due =>
    cases other with
    | nothing _ late => exact absurd (late t first.1) (by omega)
    | took _ u first' _ =>
      obtain rfl := first.unique first'
      exact ⟨rfl, rfl⟩

theorem Records.unique {l l₁ l₂ : Ledger} {calls : List TimerCall} {a₁ a₂ : List (Option Numbered)}
    (one : Records l calls a₁ l₁) (other : Records l calls a₂ l₂) : a₁ = a₂ ∧ l₁ = l₂ := by
  induction one generalizing a₂ with
  | nil => cases other; exact ⟨rfl, rfl⟩
  | cons answered _ ih =>
    cases other with
    | cons answered' rest' =>
      obtain ⟨rfl, rfl⟩ := answered.unique answered'
      obtain ⟨rfl, rfl⟩ := ih rest'
      exact ⟨rfl, rfl⟩

/-! ## The heap holds what is open -/

/-- the timers of the heap are those that are open in the ledger -/
structure Lists (l : Ledger) (h : TimerHeap) : Prop where
  clock : h.now = l.now
  next : h.next = l.scheduled.length
  mem_iff : ∀ t, t ∈ h.contents ↔ l.Open t
  once : l.taken.Nodup
  known : ∀ k ∈ l.taken, k < l.scheduled.length
  counted : h.size + l.taken.length = l.scheduled.length

variable {l : Ledger} {h h' : TimerHeap}

theorem Open.lt {t : Numbered} (h : l.Open t) : t.number < l.scheduled.length :=
  (List.getElem?_eq_some_iff.1 h.1).1

/-- once one more is scheduled, it is open, and so are those that were -/
theorem open_scheduled_iff {t : Timer} {u : Numbered}
    (known : ∀ k ∈ l.taken, k < l.scheduled.length) :
    Open { l with scheduled := l.scheduled ++ [t] } u ↔
      u = ⟨t, l.scheduled.length⟩ ∨ l.Open u := by
  have fresh : l.scheduled.length ∉ l.taken := fun mem => absurd (known _ mem) (Nat.lt_irrefl _)
  obtain ⟨u, k⟩ := u
  simp only [Open, Numbered.mk.injEq]
  rcases Nat.lt_trichotomy k l.scheduled.length with lt | rfl | gt
  · rw [List.getElem?_append_left lt]
    simp [Nat.ne_of_lt lt]
  · simp [fresh, eq_comm]
  · simp [Nat.ne_of_gt gt, List.getElem?_eq_none (Nat.le_of_lt gt),
      List.getElem?_append_right (Nat.le_of_lt gt), Nat.sub_ne_zero_of_lt gt]

/-- once a number is struck out, the others are open that were -/
theorem open_taken_iff {k : Nat} {u : Numbered} (now : Nat) :
    Open { l with now := now, taken := l.taken ++ [k] } u ↔ l.Open u ∧ u.number ≠ k := by
  simp only [Open, List.mem_append, List.mem_singleton, not_or, and_assoc, ne_eq]

theorem First.due_le {t u : Numbered} (first : l.First t) (isOpen : l.Open u) : t.due ≤ u.due := by
  by_cases same : u = t
  · exact same ▸ Nat.le_refl _
  · have before := first.2 u isOpen same
    simp only [Before] at before
    omega

theorem Lists.new : Lists {} {} where
  clock := rfl
  next := rfl
  mem_iff := by simp [Open]
  once := List.nodup_nil
  known := by simp
  counted := rfl

theorem Lists.schedule (lists : l.Lists h) (delay : Nat) (kind : TimerKind) (guard : Guard) :
    Lists { l with scheduled := l.scheduled ++ [⟨min (l.now + delay) (UInt64.size - 1), kind, guard⟩] }
      (h.schedule delay kind guard) where
  clock := lists.clock
  next := by simp [TimerHeap.schedule, lists.next]
  mem_iff t := by
    have due : later h.now delay = min (l.now + delay) (UInt64.size - 1) := by
      rw [lists.clock]
      rfl
    rw [open_scheduled_iff lists.known, ← lists.mem_iff, ← lists.next, ← due]
    exact List.mem_cons
  once := lists.once
  known k mem := by simpa using Nat.lt_succ_of_lt (lists.known k mem)
  counted := by
    have := lists.counted
    simp only [TimerHeap.size, TimerHeap.schedule, List.length_cons, List.length_append,
      List.length_nil] at this ⊢
    omega

theorem Lists.setNow (lists : l.Lists h) (now : Nat) :
    Lists { l with now := max l.now now } (h.setNow now) :=
  { lists with clock := by simp [TimerHeap.setNow, lists.clock] }

theorem Lists.peek?_eq_some_iff (lists : l.Lists h) {t : Numbered} : h.peek? = some t ↔ l.First t := by
  simp only [TimerHeap.peek?_eq_some_iff, Numbered.compare_eq_gt_iff, lists.mem_iff, First, Before]

theorem Lists.peek?_eq_none_iff (lists : l.Lists h) : h.peek? = none ↔ ∀ t, ¬ l.Open t := by
  simp only [TimerHeap.peek?_eq_none_iff, List.eq_nil_iff_forall_not_mem, lists.mem_iff]

/-- nothing comes out exactly if whatever is open is due later -/
theorem Lists.popDue?_eq_none_iff (lists : l.Lists h) (limit : Nat) :
    h.popDue? limit = none ↔ ∀ t, l.Open t → limit < t.due := by
  simp only [TimerHeap.popDue?_eq_none_iff, lists.peek?_eq_some_iff]
  constructor
  · intro late t isOpen
    cases found : h.peek? with
    | none => exact absurd isOpen (lists.peek?_eq_none_iff.1 found t)
    | some u =>
      have first := lists.peek?_eq_some_iff.1 found
      exact Nat.lt_of_lt_of_le (late u first) (first.due_le isOpen)
  · exact fun late t first => late t first.1

/-- what comes out is open and comes out before all others, and it is struck out -/
theorem Lists.popDue {t : Numbered} {limit : Nat} (lists : l.Lists h)
    (popped : h.popDue? limit = some (t, h')) :
    t.due ≤ limit ∧ l.First t ∧
      Lists { l with now := max l.now t.due, taken := l.taken ++ [t.number] } h' := by
  obtain ⟨found, due, rfl⟩ := TimerHeap.popDue?_eq_some_iff.1 popped
  have first := lists.peek?_eq_some_iff.1 found
  have mem := (lists.mem_iff t).2 first.1
  refine ⟨due, first, by simp [lists.clock], lists.next, fun u => ?_, ?_,
    fun k mem => ?_, ?_⟩
  · rw [open_taken_iff, ← lists.mem_iff]
    change u ∈ h.contents.erase t ↔ _
    rw [h.nodup_contents.mem_erase_iff, and_comm]
    exact and_congr_right fun mem' =>
      not_congr ⟨fun same => congrArg _ same, h.eq_of_number_eq mem' mem⟩
  · exact List.nodup_append.2 ⟨lists.once, List.nodup_singleton _, by
      rintro a mem b same rfl
      exact first.1.2 (List.mem_singleton.1 same ▸ mem)⟩
  · rcases List.mem_append.1 mem with mem | mem
    · exact lists.known k mem
    · exact List.mem_singleton.1 mem ▸ first.1.lt
  · have count := lists.counted
    have some : 0 < h.contents.length := List.length_pos_of_mem mem
    simp only [TimerHeap.size, TimerHeap.remove, List.length_erase_of_mem mem,
      List.length_append, List.length_singleton] at count ⊢
    omega

/-- **One call**: the heap answers what the ledger says, and goes on holding what is open. -/
theorem Lists.call (lists : l.Lists h) (call : TimerCall) :
    ∃ l', l.Answers call (h.call call).1 l' ∧ l'.Lists (h.call call).2 := by
  cases call with
  | schedule delay kind guard => exact ⟨_, .scheduled delay kind guard, lists.schedule _ kind guard⟩
  | setNow now => exact ⟨_, .moved now, lists.setNow _⟩
  | popDue limit =>
    simp only [TimerHeap.call]
    split
    · rename_i none
      exact ⟨l, .nothing limit ((lists.popDue?_eq_none_iff _).1 none), lists⟩
    · rename_i t h' popped
      obtain ⟨due, first, lists'⟩ := lists.popDue popped
      exact ⟨_, .took limit t first due, lists'⟩

theorem Lists.callAll (lists : l.Lists h) (calls : List TimerCall) :
    ∃ l', Records l calls (callAll TimerHeap.call h calls).1 l' ∧
      l'.Lists (callAll TimerHeap.call h calls).2 := by
  induction calls generalizing l h with
  | nil => exact ⟨l, .nil l, lists⟩
  | cons call calls ih =>
    obtain ⟨l', answered, lists'⟩ := lists.call call
    obtain ⟨l'', records, lists''⟩ := ih lists'
    exact ⟨l'', .cons answered records, lists''⟩

theorem Lists.deadline?_eq_some_iff (lists : l.Lists h) (d : Nat) :
    h.deadline? = some d ↔ (∃ t, l.Open t ∧ t.due = d) ∧ ∀ t, l.Open t → d ≤ t.due := by
  simp only [TimerHeap.deadline?, Option.map_eq_some_iff, lists.peek?_eq_some_iff]
  constructor
  · rintro ⟨t, first, rfl⟩
    exact ⟨⟨t, first.1, rfl⟩, fun u => first.due_le⟩
  · rintro ⟨⟨t, isOpen, rfl⟩, least⟩
    cases found : h.peek? with
    | none => exact absurd isOpen (lists.peek?_eq_none_iff.1 found t)
    | some u =>
      have first := lists.peek?_eq_some_iff.1 found
      exact ⟨u, first, Nat.le_antisymm (first.due_le isOpen) (least u first.1)⟩

theorem Lists.deadline?_eq_none_iff (lists : l.Lists h) : h.deadline? = none ↔ ∀ t, ¬ l.Open t := by
  rw [TimerHeap.deadline?, Option.map_eq_none_iff, lists.peek?_eq_none_iff]

end Ledger

/-! ## Any calls -/

/-- **The timers are a stable queue on a clock that never goes back.** Whatever was called on a new
heap of timers, there is one ledger of the calls, and it has the answers that were given. The heap
holds the timers that are open in it, no other and none twice. A further call never turns the clock
back. Nothing comes out by a moment exactly if nothing open is due by it; otherwise what comes out
is the open timer with the least due time, the first scheduled of several, it alone is struck out,
and the clock stands no earlier than its due time. The next deadline is the least due time of all.
And the ordered queue on which sessions run answers the same, has the same deadline, and holds the
timers of the heap in the order of their comparison. -/
theorem timers_ledger (calls : List TimerCall) :
    ∃ l, Ledger.Records {} calls (TimerHeap.answers calls) l ∧
      (∀ answers l', Ledger.Records {} calls answers l' →
        answers = TimerHeap.answers calls ∧ l' = l) ∧
      l.Lists (TimerHeap.afterAll calls) ∧
      (∀ call, (TimerHeap.afterAll calls).now ≤ ((TimerHeap.afterAll calls).call call).2.now) ∧
      (∀ limit, (TimerHeap.afterAll calls).popDue? limit = none ↔
        ∀ t, l.Open t → limit < t.due) ∧
      (∀ limit t h', (TimerHeap.afterAll calls).popDue? limit = some (t, h') →
        t.due ≤ limit ∧ t.due ≤ h'.now ∧ l.First t ∧
          Ledger.Lists { l with now := max l.now t.due, taken := l.taken ++ [t.number] } h') ∧
      ((TimerHeap.afterAll calls).deadline? = none ↔ ∀ t, ¬ l.Open t) ∧
      (∀ d, (TimerHeap.afterAll calls).deadline? = some d ↔
        (∃ t, l.Open t ∧ t.due = d) ∧ ∀ t, l.Open t → d ≤ t.due) ∧
      callAll Timers.call {} calls =
        ((TimerHeap.answers calls).map (Option.map Numbered.toTimer),
          (TimerHeap.afterAll calls).toTimers) ∧
      (TimerHeap.afterAll calls).toTimers.deadline? = (TimerHeap.afterAll calls).deadline? := by
  obtain ⟨l, records, lists⟩ := Ledger.Lists.new.callAll calls
  refine ⟨l, records, fun answers l' other => other.unique records, lists,
    TimerHeap.now_le_call _, lists.popDue?_eq_none_iff, fun limit t h' popped => ?_,
    lists.deadline?_eq_none_iff, lists.deadline?_eq_some_iff, ?_, TimerHeap.toTimers_deadline? _⟩
  · obtain ⟨due, first, rest⟩ := lists.popDue popped
    exact ⟨due, rest.clock ▸ Nat.le_max_right _ _, first, rest⟩
  · rw [← TimerHeap.toTimers_new]
    exact callAll_map TimerHeap.call_toTimers {} calls

/-- a tie goes to the timer that was scheduled first, and a due time stops at the end of time -/
example :
    (TimerHeap.answers [.schedule 7 .frame (.epoch 0), .schedule 7 .advance (.epoch 0), .setNow 9,
      .schedule 18446744073709551615 .videoPoll (.video 0), .popDue 6, .popDue 7, .popDue 7,
      .popDue 18446744073709551615]).filterMap id =
    [⟨⟨7, .frame, .epoch 0⟩, 0⟩, ⟨⟨7, .advance, .epoch 0⟩, 1⟩,
      ⟨⟨18446744073709551615, .videoPoll, .video 0⟩, 2⟩] := by
  decide +kernel

end VisualNovel
