import VisualNovel.Proofs.Session.Recall
import VisualNovel.Proofs.Session.Return

/-!
# Runs of the clock with their history

A run of the clock takes the timers that are due one after the other. What it makes of a session, and
what is done on the way, does not depend on how the host splits the time: some runs leave the session,
and the history, that one run to the latest of their moments leaves.

* `Session.Elapses`      a run of the clock, timer by timer, with its history;
* `elapses_iff`          it is what the host's operation does, with enough fuel;
* `elapses_max_iff`      one run or two;
* `Session.RunsTo`       some runs of the clock, one after the other;
* `latest`               the latest of their moments;
* `runsTo_iff`           they are one run to it.
-/

set_option linter.unusedSectionVars false

namespace VisualNovel

open Session

variable {σ : Type} [Presentation σ] [Audio σ] {game : Game}

/-! ## One run -/

namespace Session

def actHistory (game : Game) (t : Timer) (s : Session σ) : List (Deed × Session σ) :=
  if s.isLive t then firingHistory game (t, s) else []

inductive Elapses (game : Game) (limit : Nat) :
    Session σ → List (Deed × Session σ) → Session σ → Prop
  | rests {s : Session σ} (nothing : s.timers.popDue? limit = none) :
      Elapses game limit s [] { s with timers := s.timers.setNow limit }
  | acts {s s₁ s' : Session σ} {t : Timer} {timers : Timers} {entries : List (Deed × Session σ)}
      (due : s.timers.popDue? limit = some (t, timers))
      (acted : { s with timers := timers }.act game t = some s₁)
      (rest : Elapses game limit s₁ entries s') :
      Elapses game limit s ({ s with timers := timers }.actHistory game t ++ entries) s'

def runHistory (game : Game) (limit fuel : Nat) (s : Session σ) : List (Deed × Session σ) :=
  (s.firings game limit fuel).flatMap (firingHistory game)

end Session

variable {limit a b : Nat} {s s₁ s' : Session σ} {t : Timer} {timers : Timers}
  {entries : List (Deed × Session σ)}

theorem runHistory_of_none (nothing : s.timers.popDue? limit = none) (fuel : Nat) :
    s.runHistory game limit (fuel + 1) = [] := by
  rw [runHistory, firings, nothing, List.flatMap_nil]

theorem runHistory_of_some (due : s.timers.popDue? limit = some (t, timers))
    (acted : { s with timers := timers }.act game t = some s₁) (fuel : Nat) :
    s.runHistory game limit (fuel + 1) =
      { s with timers := timers }.actHistory game t ++ s₁.runHistory game limit fuel := by
  rw [runHistory, firings, due]
  unfold act at acted
  unfold actHistory
  dsimp only
  split at acted
  · rename_i live
    rw [if_pos live, if_pos live, List.flatMap_cons, acted]
    rfl
  · rename_i stale
    cases acted
    rw [if_neg stale, if_neg stale]
    rfl

/-- a run is what the host's operation does with enough fuel, and more does no harm -/
theorem Session.Elapses.enough (h : s.Elapses game limit entries s') :
    ∃ enough, ∀ fuel ≥ enough,
      s.runUntil game limit fuel = some s' ∧ s.runHistory game limit fuel = entries := by
  induction h with
  | rests nothing =>
    refine ⟨1, fun fuel le => ?_⟩
    obtain ⟨fuel, rfl⟩ : ∃ n, fuel = n + 1 := ⟨fuel - 1, by omega⟩
    exact ⟨runUntil_of_none nothing fuel, runHistory_of_none nothing fuel⟩
  | acts due acted _ ih =>
    obtain ⟨enough, runs⟩ := ih
    refine ⟨enough + 1, fun fuel le => ?_⟩
    obtain ⟨fuel, rfl⟩ : ∃ n, fuel = n + 1 := ⟨fuel - 1, by omega⟩
    obtain ⟨run, history⟩ := runs fuel (by omega)
    rw [runUntil_of_some due, runHistory_of_some due acted, acted, history]
    exact ⟨run, rfl⟩

theorem elapses_of_runUntil {fuel : Nat} (run : s.runUntil game limit fuel = some s') :
    s.Elapses game limit (s.runHistory game limit fuel) s' := by
  induction fuel generalizing s with
  | zero => cases run
  | succ fuel ih =>
    cases due : s.timers.popDue? limit with
    | none =>
      rw [runUntil_of_none due] at run
      cases run
      rw [runHistory_of_none due]
      exact .rests due
    | some popped =>
      obtain ⟨t, timers⟩ := popped
      rw [runUntil_of_some due, Option.bind_eq_some_iff] at run
      obtain ⟨s₁, acted, run⟩ := run
      rw [runHistory_of_some due acted]
      exact .acts due acted (ih run)

theorem elapses_iff : s.Elapses game limit entries s' ↔
    ∃ fuel, s.runUntil game limit fuel = some s' ∧ s.runHistory game limit fuel = entries := by
  constructor
  · intro h
    obtain ⟨enough, runs⟩ := h.enough
    exact ⟨enough, runs enough (Nat.le_refl _)⟩
  · rintro ⟨fuel, run, rfl⟩
    exact elapses_of_runUntil run

theorem popDue?_of_le {q : Timers} (due : q.popDue? a = some (t, timers)) (le : a ≤ b) :
    q.popDue? b = some (t, timers) :=
  Nat.max_eq_right le ▸ popDue?_max due b

theorem elapses_of_due (due : s.timers.popDue? limit = some (t, timers)) :
    s.Elapses game limit entries s' ↔
      ∃ s₁ later, { s with timers := timers }.act game t = some s₁ ∧
        s₁.Elapses game limit later s' ∧
        entries = { s with timers := timers }.actHistory game t ++ later := by
  constructor
  · intro h
    cases h with
    | rests nothing => cases nothing.symm.trans due
    | acts due' acted rest =>
      cases due'.symm.trans due
      exact ⟨_, _, acted, rest, rfl⟩
  · rintro ⟨s₁, later, acted, rest, rfl⟩
    exact .acts due acted rest

/-! ## One run or two -/

theorem Timers.popDue?_setNow {q : Timers} (nothing : q.popDue? a = none) (b : Nat) :
    (q.setNow a).popDue? b = q.popDue? (max a b) := by
  obtain ⟨now, pending⟩ := q
  cases pending with
  | nil => rfl
  | cons t ts =>
    have lt : a < t.due := popDue?_eq_none_iff.1 nothing t rfl
    have same : (t.due ≤ max a b) = (t.due ≤ b) := propext (by omega)
    have now : max (max now a) t.due = max now t.due := by omega
    simp only [setNow, popDue?, same, now]

/-- once nothing is due by `a`, the clock may stop there on its way -/
theorem elapses_setNow (nothing : s.timers.popDue? a = none) :
    Elapses game b { s with timers := s.timers.setNow a } entries s' ↔
      s.Elapses game (max a b) entries s' := by
  have same := Timers.popDue?_setNow nothing b
  cases due : s.timers.popDue? (max a b) with
  | none =>
    rw [due] at same
    have now : (s.timers.setNow a).setNow b = s.timers.setNow (max a b) :=
      congrArg (Timers.mk · s.timers.pending) (Nat.max_assoc _ _ _)
    constructor
    · intro h
      cases h with
      | rests =>
        rw [now]
        exact .rests due
      | acts due' => cases due'.symm.trans same
    · intro h
      cases h with
      | rests =>
        rw [← now]
        exact .rests same
      | acts due' => cases due'.symm.trans due
  | some popped =>
    obtain ⟨t, timers⟩ := popped
    rw [due] at same
    obtain ⟨first, le, -⟩ := Timers.popDue?_eq_some_iff.1 due
    have lt : a < t.due := Timers.popDue?_eq_none_iff.1 nothing t (by rw [first]; rfl)
    have late : max a b = b := by omega
    rw [elapses_of_due due, elapses_of_due same, late]

theorem elapses_max_iff : s.Elapses game (max a b) entries s' ↔
    ∃ s₁ earlier later, s.Elapses game a earlier s₁ ∧ s₁.Elapses game b later s' ∧
      entries = earlier ++ later := by
  constructor
  · intro h
    induction h with
    | @rests s nothing =>
      have nothing' : s.timers.popDue? a = none := by
        rw [Timers.popDue?_eq_none_iff] at nothing ⊢
        intro t first
        have := nothing t first
        omega
      exact ⟨_, [], [], .rests nothing', (elapses_setNow nothing').2 (.rests nothing), rfl⟩
    | @acts s s₁ s' t timers entries due acted rest ih =>
      obtain ⟨s₂, earlier, later, first, second, rfl⟩ := ih
      cases due' : s.timers.popDue? a with
      | none =>
        exact ⟨_, [], _, .rests due', (elapses_setNow due').2 (.acts due acted rest), rfl⟩
      | some popped =>
        cases due.symm.trans (popDue?_max due' b)
        exact ⟨s₂, _, later, .acts due' acted first, second, (List.append_assoc _ _ _).symm⟩
  · rintro ⟨s₁, earlier, later, first, second, rfl⟩
    induction first with
    | rests nothing => exact (elapses_setNow nothing).1 second
    | acts due acted _ ih =>
      rw [List.append_assoc]
      exact .acts (popDue?_max due b) acted (ih second)

/-! ## Some runs -/

/-- the latest of some moments -/
def latest : List UInt64 → Nat
  | [] => 0
  | limit :: limits => max limit.toNat (latest limits)

theorem latest_lt_iff {limits : List UInt64} (ne : limits ≠ []) :
    latest limits < a ↔ ∀ limit ∈ limits, limit.toNat < a := by
  induction limits with
  | nil => exact absurd rfl ne
  | cons limit limits ih =>
    rw [List.forall_mem_cons, latest, Nat.max_lt]
    refine and_congr_right fun lt => ?_
    by_cases nil : limits = []
    · rw [nil, latest]
      simpa using Nat.zero_lt_of_lt lt
    · exact ih nil

theorem le_latest_iff {limits : List UInt64} (ne : limits ≠ []) :
    a ≤ latest limits ↔ ∃ limit ∈ limits, a ≤ limit.toNat := by
  rw [← Nat.not_lt, latest_lt_iff ne]
  simp

theorem latest_le_endOfTime (limits : List UInt64) : latest limits ≤ endOfTime := by
  induction limits with
  | nil => exact Nat.zero_le _
  | cons limit limits ih => exact Nat.max_le.2 ⟨Nat.le_of_lt_succ limit.toNat_lt, ih⟩

/-- some runs of the clock lead from the one session to the other, and make this history -/
def Session.RunsTo (game : Game) (limits : List UInt64) (s : Session σ)
    (entries : List (Deed × Session σ)) (s' : Session σ) : Prop :=
  ∃ fuel, s.performAll game (limits.map (.runUntil · fuel)) = some s' ∧
    s.recalled game (limits.map (.runUntil · fuel)) = entries

theorem runsTo_nil : s.RunsTo game [] entries s' ↔ entries = [] ∧ s' = s := by
  constructor
  · rintro ⟨fuel, result, rfl⟩
    cases result
    exact ⟨rfl, rfl⟩
  · rintro ⟨rfl, rfl⟩
    exact ⟨0, rfl, rfl⟩

theorem Session.RunsTo.enough {limits : List UInt64} (h : s.RunsTo game limits entries s') :
    ∃ enough, ∀ fuel ≥ enough,
      s.performAll game (limits.map (.runUntil · fuel)) = some s' ∧
        s.recalled game (limits.map (.runUntil · fuel)) = entries := by
  obtain ⟨fuel, result, rfl⟩ := h
  induction limits generalizing s with
  | nil => exact ⟨0, fun _ _ => ⟨result, rfl⟩⟩
  | cons limit limits ih =>
    obtain ⟨s₁, run, rest⟩ := Option.bind_eq_some_iff.1 result
    obtain ⟨enough, runs⟩ := (elapses_of_runUntil run).enough
    obtain ⟨more, later⟩ := ih rest
    refine ⟨max enough more, fun fuel' le => ?_⟩
    obtain ⟨run', history⟩ := runs fuel' (by omega)
    obtain ⟨result', recalled'⟩ := later fuel' (by omega)
    have made (n : Nat) (run : s.runUntil game limit.toNat n = some s₁) :
        s.recalled game ((limit :: limits).map (.runUntil · n)) =
          s.runHistory game limit.toNat n ++ s₁.recalled game (limits.map (.runUntil · n)) := by
      rw [List.map_cons, recalled, Operation.perform, run]
      rfl
    rw [made fuel run, made fuel' run', history, recalled']
    refine ⟨?_, rfl⟩
    rw [List.map_cons, performAll, Operation.perform, run', Option.bind_some, result']

theorem runsTo_cons {limit : UInt64} {limits : List UInt64} :
    s.RunsTo game (limit :: limits) entries s' ↔
      ∃ s₁ earlier later, s.Elapses game limit.toNat earlier s₁ ∧
        s₁.RunsTo game limits later s' ∧ entries = earlier ++ later := by
  constructor
  · rintro ⟨fuel, result, rfl⟩
    obtain ⟨s₁, run, rest⟩ := Option.bind_eq_some_iff.1 result
    refine ⟨s₁, _, _, elapses_iff.2 ⟨fuel, run, rfl⟩, ⟨fuel, rest, rfl⟩, ?_⟩
    rw [List.map_cons, recalled, run]
    rfl
  · rintro ⟨s₁, earlier, later, run, rest, rfl⟩
    obtain ⟨enough, runs⟩ := run.enough
    obtain ⟨more, results⟩ := rest.enough
    obtain ⟨run, history⟩ := runs (max enough more) (Nat.le_max_left _ _)
    obtain ⟨result, recalled'⟩ := results (max enough more) (Nat.le_max_right _ _)
    refine ⟨max enough more, ?_, ?_⟩
    · rw [List.map_cons, performAll, Operation.perform, run, Option.bind_some, result]
    · rw [List.map_cons, recalled, Operation.perform, run, ← recalled', ← history]
      rfl

/-- **Some runs are one run to the latest of their moments**, whatever the host does in between. -/
theorem runsTo_iff {limits : List UInt64} (ne : limits ≠ []) :
    s.RunsTo game limits entries s' ↔ s.Elapses game (latest limits) entries s' := by
  induction limits generalizing s entries with
  | nil => exact absurd rfl ne
  | cons limit limits ih =>
    rw [runsTo_cons]
    cases limits with
    | nil =>
      rw [latest, latest, Nat.max_zero]
      constructor
      · rintro ⟨s₁, earlier, later, run, rest, rfl⟩
        obtain ⟨rfl, rfl⟩ := runsTo_nil.1 rest
        rw [List.append_nil]
        exact run
      · intro run
        exact ⟨s', entries, [], run, runsTo_nil.2 ⟨rfl, rfl⟩, (List.append_nil _).symm⟩
    | cons limit' limits =>
      rw [latest, elapses_max_iff]
      simp only [ih (List.cons_ne_nil _ _)]

/-- what operations have brought about is brought about after a run, too -/
theorem Session.Elapses.brought (h : s.Elapses game limit entries s') (le : limit ≤ endOfTime)
    (brought : s.Brought game) : s'.Brought game := by
  induction h with
  | rests nothing =>
    obtain ⟨stage, deeds, reached⟩ := brought
    exact ⟨stage, deeds, reached.clock le nothing⟩
  | acts due acted _ ih => exact ih (brought.act due acted)

end VisualNovel
