import VisualNovel.Proofs.Session.Idle
import VisualNovel.Proofs.Session.Runs

/-!
# Timers that set themselves again

A line, a card and a sequence go on in beats: the one timer that the session waits for fires, something
is shown, and the timer is set again, until it has nothing more to do. Other timers may come due in
between, stale ones and the check of the last video, and they change nothing of it. So what a session
shows at a moment, and when it has come to the end, can be read off the times of the beats.

* `Session.clocked`        the session at another time;
* `Checks`                 a history in which nothing but videos are checked;
* `Session.Via`, `Session.Resumes`   where every run comes by, however the host splits the time;
* `elapses_of_quiet`       a run in which nothing happens that the session waits for;
* `Rhythm`                 the times of the beats, and what the session shows after each;
* `Rhythm.Lawful`          the timer keeps to them;
* `Rhythm.Follows`         a session that has come so far;
* `Rhythm.Told`            the history from one beat to another;
* `Rhythm.Follows.runs_within`   what runs lead to that stop before the end;
* `Rhythm.Follows.ends`    runs that get to the end all come by the same session there;
* `Session.LastsUntil`     until some moment, nothing becomes of a session;
* `Rhythm.even`            beats that are an interval apart, and `Rhythm.Follows.even_within` what runs
  lead to that stop before their end;
* `Session.Takes`          playback goes on with a single cue.
-/

set_option linter.unusedSectionVars false

namespace VisualNovel

open Session

variable {σ : Type} [Presentation σ] [Audio σ] {game : Game}

/-! ## Other timers -/

/-- the session at another time, at which the last video may have been found failed -/
def Session.clocked (timers : Timers) (failed : Option Nat) (s : Session σ) : Session σ :=
  { s with timers, videoFailedAt := failed }

def Checks (entries : List (Deed × Session σ)) : Prop :=
  ∀ entry ∈ entries, ∃ t, entry.1 = .fires t ∧ t.kind = .videoCheck

theorem Checks.nil : Checks ([] : List (Deed × Session σ)) := fun _ m => absurd m List.not_mem_nil

theorem Checks.append {entries entries' : List (Deed × Session σ)} (h : Checks entries)
    (h' : Checks entries') : Checks (entries ++ entries') :=
  List.forall_mem_append.2 ⟨h, h'⟩

section
variable {limit : Nat} {s : Session σ} {t : Timer} {timers : Timers}

/-- a timer that is not of the present epoch does nothing, or checks the last video -/
theorem checks_of_other (inStep : s.InStep) (due : s.timers.popDue? limit = some (t, timers))
    (other : t.guard ≠ .epoch s.epoch) :
    Checks ({ s with timers := timers }.actHistory game t) := by
  unfold actHistory
  split
  · rename_i live
    rcases inStep_live inStep due live with ⟨own, -⟩ | ⟨-, kind⟩
    · exact absurd own other
    · obtain ⟨failed, fires⟩ := fire_videoCheck game { s with timers := timers }
      rw [firingHistory, kind, fires]
      intro entry m
      rw [List.mem_singleton.1 m]
      exact ⟨t, rfl, kind⟩
  · exact .nil

theorem elapses_of_quiet (le : limit ≤ endOfTime) (h : s.Brought game)
    (quiet : ∀ t ∈ s.timers.pending, t.guard = .epoch s.epoch → limit < t.due) :
    ∃ entries timers failed, s.Elapses game limit entries (s.clocked timers failed) ∧
      Checks entries ∧ (s.clocked timers failed).Brought game ∧ timers.now = max s.now limit ∧
      ∀ t ∈ s.timers.pending, limit < t.due → t ∈ timers.pending := by
  induction pending : s.timers.pending.length generalizing s with
  | zero =>
    have nothing : s.timers.popDue? limit = none := by
      rw [Timers.popDue?, List.length_eq_zero_iff.1 pending]
    have rests : s.Elapses game limit [] (s.clocked (s.timers.setNow limit) s.videoFailedAt) :=
      .rests nothing
    exact ⟨[], _, _, rests, .nil, rests.brought le h, rfl, fun _ m _ => m⟩
  | succ size ih =>
    cases due : s.timers.popDue? limit with
    | none =>
      have rests : s.Elapses game limit [] (s.clocked (s.timers.setNow limit) s.videoFailedAt) :=
        .rests due
      exact ⟨[], _, _, rests, .nil, rests.brought le h, rfl, fun _ m _ => m⟩
    | some popped =>
      obtain ⟨t, timers⟩ := popped
      obtain ⟨first, early, now⟩ := Timers.popDue?_eq_some_iff.1 due
      rw [first] at quiet pending ⊢
      have other : t.guard ≠ .epoch s.epoch := by
        intro own
        have := quiet t List.mem_cons_self own
        omega
      have acted := act_eq_passed game h.inStep h.inTime due other
      obtain ⟨entries, timers', failed, elapses, checks, brought, now', kept⟩ :=
        ih (s := s.passed t timers) (h.act due acted)
          (fun u m => quiet u (List.mem_cons_of_mem _ m)) (Nat.succ.inj pending)
      refine ⟨_, timers', failed, .acts due acted elapses,
        (checks_of_other h.inStep due other).append checks, brought, ?_, ?_⟩
      · have now : (s.passed t timers).now = max s.now t.due := now
        rw [now', now]
        omega
      · intro u m late
        rcases List.mem_cons.1 m with rfl | m
        · omega
        · exact kept u m late

theorem elapses_of_free (le : limit ≤ endOfTime) (h : s.Brought game) (free : s.awaits? = none) :
    ∃ entries timers failed, s.Elapses game limit entries (s.clocked timers failed) ∧
      Checks entries ∧ timers.now = max s.now limit := by
  obtain ⟨entries, timers, failed, elapses, checks, -, now, -⟩ :=
    elapses_of_quiet le h fun t m own => absurd own (stale_of_free h.inStep free t m)
  exact ⟨entries, timers, failed, elapses, checks, now⟩

end

/-! ## Ways that all runs go -/

namespace Session

/-- every run that gets to the moment comes by the session, and has this history until then -/
def ElapsesVia (game : Game) (moment : Nat) (s : Session σ) (entries : List (Deed × Session σ))
    (y : Session σ) : Prop :=
  ∀ limit, moment ≤ limit → ∀ history s', s.Elapses game limit history s' ↔
    ∃ later, y.Elapses game limit later s' ∧ history = entries ++ later

/-- the same of all runs that get there, however the host splits the time -/
def Via (game : Game) (moment : Nat) (s : Session σ) (entries : List (Deed × Session σ))
    (y : Session σ) : Prop :=
  ∀ limits : List UInt64, (∃ limit ∈ limits, moment ≤ limit.toNat) → ∀ history s',
    s.RunsTo game limits history s' ↔
      ∃ later, y.RunsTo game limits later s' ∧ history = entries ++ later

/-- the same, where events are carried out from the session on -/
def Resumes (game : Game) (moment : Nat) (s : Session σ) (entries : List (Deed × Session σ))
    (y : Session σ) : Prop :=
  ∀ limits : List UInt64, (∃ limit ∈ limits, moment ≤ limit.toNat) → ∀ history s',
    s.RunsTo game limits history s' ↔
      ∃ z later, y.advance game = some z ∧ z.RunsTo game limits later s' ∧
        history = entries ++ (Turn.goesOn y).history game ++ later

/-- every run that gets to the time of the timer has it fire, and find the session -/
def Fires (game : Game) (t : Timer) (s : Session σ) (entries : List (Deed × Session σ))
    (x : Session σ) : Prop :=
  ∀ limit, t.due ≤ limit → ∀ history s', s.Elapses game limit history s' ↔
    ∃ y later, (x.fire game t.kind).settle game = some y ∧ y.Elapses game limit later s' ∧
      history = entries ++ firingHistory game (t, x) ++ later

variable {moment : Nat} {s x y z : Session σ} {t : Timer} {entries entries' : List (Deed × Session σ)}

theorem via_of_acted {timers : Timers} (due : s.timers.popDue? moment = some (t, timers))
    (acted : { s with timers := timers }.act game t = some y) :
    s.ElapsesVia game moment ({ s with timers := timers }.actHistory game t) y := by
  intro limit le history s'
  rw [elapses_of_due (popDue?_of_le due le), acted]
  simp only [Option.some.injEq]
  constructor
  · rintro ⟨_, later, rfl, run, rfl⟩
    exact ⟨later, run, rfl⟩
  · rintro ⟨later, run, rfl⟩
    exact ⟨y, later, rfl, run, rfl⟩

theorem ElapsesVia.fires (via : s.ElapsesVia game moment entries y) (le : moment ≤ t.due)
    (h : y.Fires game t entries' x) : s.Fires game t (entries ++ entries') x := by
  intro limit reached history s'
  rw [via limit (Nat.le_trans le reached)]
  simp only [h limit reached]
  constructor
  · rintro ⟨_, ⟨y, later, settled, run, rfl⟩, rfl⟩
    exact ⟨y, later, settled, run, by simp only [List.append_assoc]⟩
  · rintro ⟨y, later, settled, run, rfl⟩
    exact ⟨_, ⟨y, later, settled, run, rfl⟩, by simp only [List.append_assoc]⟩

theorem Fires.elapsesVia (h : s.Fires game t entries x)
    (settled : (x.fire game t.kind).settle game = some y) :
    s.ElapsesVia game t.due (entries ++ firingHistory game (t, x)) y := by
  intro limit le history s'
  rw [h limit le, settled]
  simp only [Option.some.injEq]
  constructor
  · rintro ⟨_, later, rfl, run, rfl⟩
    exact ⟨later, run, rfl⟩
  · rintro ⟨later, run, rfl⟩
    exact ⟨y, later, rfl, run, rfl⟩

theorem ElapsesVia.via (h : s.ElapsesVia game moment entries y) : s.Via game moment entries y := by
  intro limits reached history s'
  have some : limits ≠ [] := by
    rintro rfl
    simp at reached
  rw [runsTo_iff some, h _ ((le_latest_iff some).2 reached)]
  simp only [runsTo_iff some]

theorem Via.refl (game : Game) (moment : Nat) (s : Session σ) : s.Via game moment [] s := by
  intro limits _ history s'
  simp only [List.nil_append, exists_eq_right']

theorem Fires.resumes (h : s.Fires game t entries x) (goesOn : x.fire game t.kind = .goesOn y) :
    s.Resumes game t.due (entries ++ [(.fires t, x)]) y := by
  intro limits reached history s'
  have some : limits ≠ [] := by
    rintro rfl
    simp at reached
  rw [runsTo_iff some, h _ ((le_latest_iff some).2 reached), firingHistory, goesOn, Turn.settle]
  simp only [runsTo_iff some, List.append_assoc, List.cons_append, List.nil_append]

end Session

/-! ## Rhythms -/

def Timers.set (q : Timers) (t : Timer) : Timers := { q with pending := enter t q.pending }

theorem schedule_clocked (s : Session σ) (timers : Timers) (failed : Option Nat) (delay : Nat)
    (kind : TimerKind) :
    (s.clocked timers failed).schedule delay kind =
      s.clocked (timers.set ⟨later timers.now delay, kind, .epoch s.epoch⟩) failed := rfl

/-- a timer that sets itself again so often, and then has nothing more to do -/
structure Rhythm (σ : Type) where
  kind : TimerKind
  epoch : Nat
  count : Nat
  /-- the moment of the beat after so many -/
  due : Nat → Nat
  /-- the session after so many beats, at whatever time -/
  shows : Nat → Session σ

namespace Rhythm

variable (r : Rhythm σ)

/-- the timer of the beat after so many -/
def timer (k : Nat) : Timer := ⟨r.due k, r.kind, .epoch r.epoch⟩

structure Lawful (game : Game) : Prop where
  epoch : ∀ k ≤ r.count, (r.shows k).epoch = r.epoch
  beats : ∀ k < r.count, ∀ timers failed, timers.now = r.due k →
    ((r.shows k).clocked timers failed).fire game r.kind =
      .rests ((r.shows (k + 1)).clocked (timers.set (r.timer (k + 1))) failed)

/-- the session after so many beats, with the timer of the next one pending -/
structure Follows (game : Game) (k : Nat) (s : Session σ) : Prop where
  le : k ≤ r.count
  shown : ∃ timers failed, s = (r.shows k).clocked timers failed
  pending : r.timer k ∈ s.timers.pending
  brought : s.Brought game

structure Found (k : Nat) (x : Session σ) : Prop where
  shown : ∃ timers failed, x = (r.shows k).clocked timers failed
  now : x.now = r.due k

inductive Told : Nat → List (Deed × Session σ) → Nat → Prop
  | rests {k : Nat} {entries : List (Deed × Session σ)} (checks : Checks entries) :
      Told k entries k
  | beat {k j : Nat} {before after : List (Deed × Session σ)} {x : Session σ}
      (checks : Checks before) (found : r.Found k x) (rest : Told (k + 1) after j) :
      Told k (before ++ (.fires (r.timer k), x) :: after) j

/-- any run that gets to the beat comes by the session that its timer finds -/
structure ComesBy (game : Game) (k j : Nat) (s : Session σ) (entries : List (Deed × Session σ))
    (x : Session σ) : Prop where
  found : r.Found j x
  told : r.Told k entries j
  brought : ∀ y, (x.fire game r.kind).settle game = some y → y.Brought game
  elapses : s.Fires game (r.timer j) entries x

variable {r} {k j limit : Nat} {s : Session σ}

theorem Told.after {before entries : List (Deed × Session σ)} (checks : Checks before)
    (h : r.Told k entries j) : r.Told k (before ++ entries) j := by
  cases h with
  | rests checks' => exact .rests (checks.append checks')
  | beat checks' found rest =>
    rw [← List.append_assoc]
    exact .beat (checks.append checks') found rest

theorem Told.le {entries : List (Deed × Session σ)} (h : r.Told k entries j) : k ≤ j := by
  induction h with
  | rests => exact Nat.le_refl _
  | beat _ _ _ ih => exact Nat.le_of_succ_le ih

theorem Told.checks {entries : List (Deed × Session σ)} (h : r.Told k entries k) : Checks entries := by
  cases h with
  | rests checks => exact checks
  | beat _ _ rest => exact absurd rest.le (Nat.not_succ_le_self k)

theorem Told.append {earlier later : List (Deed × Session σ)} {i : Nat} (h : r.Told k earlier j)
    (h' : r.Told j later i) : r.Told k (earlier ++ later) i := by
  induction h with
  | rests checks => exact h'.after checks
  | beat checks found _ ih =>
    rw [List.append_assoc, List.cons_append]
    exact .beat checks found (ih h')

/-- what is read off each entry of a history is read off the beats -/
theorem Told.flatMap {β : Type} {f : Deed × Session σ → List β} {g : Nat → List β}
    {entries : List (Deed × Session σ)}
    (check : ∀ t x, t.kind = .videoCheck → f (.fires t, x) = [])
    (beat : ∀ i x, r.Found i x → f (.fires (r.timer i), x) = g i) (h : r.Told k entries j) :
    entries.flatMap f = (List.range' k (j - k)).flatMap g := by
  have quiet {entries : List (Deed × Session σ)} (checks : Checks entries) :
      entries.flatMap f = [] := by
    rw [List.flatMap_eq_nil_iff]
    rintro ⟨deed, x⟩ m
    obtain ⟨t, e, kind⟩ := checks _ m
    cases e
    exact check t x kind
  induction h with
  | rests checks =>
    rw [quiet checks, Nat.sub_self]
    rfl
  | @beat k j _ after x checks found rest ih =>
    have le := rest.le
    have steps : j - k = j - (k + 1) + 1 := by omega
    rw [List.flatMap_append, quiet checks, List.nil_append, List.flatMap_cons, ih, beat k x found,
      steps, List.range'_succ, List.flatMap_cons]

namespace Follows

theorem epoch (lawful : r.Lawful game) (h : r.Follows game k s) : s.epoch = r.epoch := by
  obtain ⟨timers, failed, rfl⟩ := h.shown
  exact lawful.epoch k h.le

theorem due_le (h : r.Follows game k s) : s.now ≤ r.due k ∧ r.due k ≤ endOfTime :=
  h.brought.inTime.due _ h.pending

theorem eq_timer (lawful : r.Lawful game) (h : r.Follows game k s) {t : Timer}
    (m : t ∈ s.timers.pending) (own : t.guard = .epoch s.epoch) : t = r.timer k := by
  obtain ⟨before, after, split⟩ := List.append_of_mem m
  have perm : s.timers.pending.Perm (t :: (before ++ after)) := by
    rw [split]
    exact List.perm_middle
  have inStep := h.brought.inStep.perm perm.symm
  rcases List.mem_cons.1 (perm.mem_iff.1 h.pending) with same | other
  · exact same.symm
  · exact absurd (congrArg Guard.epoch (h.epoch lawful).symm) (inStep.stale_tail own _ other)

theorem waits (lawful : r.Lawful game) (h : r.Follows game k s) (early : limit < r.due k) :
    ∃ entries s', s.Elapses game limit entries s' ∧ r.Follows game k s' ∧ Checks entries ∧
      s'.now = max s.now limit := by
  have within := h.due_le.2
  have quiet : ∀ t ∈ s.timers.pending, t.guard = .epoch s.epoch → limit < t.due := by
    intro t m own
    rw [h.eq_timer lawful m own]
    exact early
  obtain ⟨entries, timers, failed, elapses, checks, brought, now, kept⟩ :=
    elapses_of_quiet (by omega) h.brought quiet
  refine ⟨entries, _, elapses, ⟨h.le, ?_, kept _ h.pending early, brought⟩, checks, now⟩
  obtain ⟨timers', failed', rfl⟩ := h.shown
  exact ⟨timers, failed, rfl⟩

theorem passes {u : Timer} {timers : Timers} (h : r.Follows game k s)
    (due : s.timers.popDue? limit = some (u, timers)) (other : u ≠ r.timer k)
    (stale : u.guard ≠ .epoch s.epoch) :
    { s with timers := timers }.act game u = some (s.passed u timers) ∧
      r.Follows game k (s.passed u timers) := by
  have acted := act_eq_passed game h.brought.inStep h.brought.inTime due stale
  obtain ⟨first, -, -⟩ := Timers.popDue?_eq_some_iff.1 due
  have pending := h.pending
  rw [first] at pending
  refine ⟨acted, h.le, ?_, (List.mem_cons.1 pending).resolve_left other.symm, h.brought.act due acted⟩
  obtain ⟨timers', failed', rfl⟩ := h.shown
  exact ⟨timers, _, rfl⟩

/-- sooner or later the timer is the first of the queue, and the timers before it make no difference -/
theorem comes_up (lawful : r.Lawful game) (h : r.Follows game k s) :
    ∃ entries x, r.ComesBy game k k s entries x := by
  induction pending : s.timers.pending generalizing s with
  | nil =>
    have m := h.pending
    rw [pending] at m
    cases m
  | cons u rest ih =>
    have before : u.due ≤ r.due k := by
      have m := h.pending
      have ordered := h.brought.inTime.ordered
      rw [pending] at m ordered
      rcases List.mem_cons.1 m with rfl | m
      · exact Nat.le_refl _
      · exact (List.pairwise_cons.1 ordered).1 _ m
    obtain ⟨timers, due, rfl⟩ : ∃ timers, s.timers.popDue? (r.due k) = some (u, timers) ∧
        timers.pending = rest :=
      ⟨⟨max s.timers.now u.due, rest⟩, Timers.popDue?_eq_some_iff.2 ⟨pending, before, rfl⟩, rfl⟩
    by_cases own : u.guard = .epoch s.epoch
    · obtain rfl := h.eq_timer lawful (by rw [pending]; exact List.mem_cons_self) own
      have acts : { s with timers := timers }.act game (r.timer k) =
          ({ s with timers := timers }.fire game r.kind).settle game := act_of_own own
      have live : isLive { s with timers := timers } (r.timer k) := by
        rw [isLive, own]
        exact beq_self_eq_true s.epoch
      obtain ⟨-, -, now⟩ := h.brought.inTime.popDue? due
      refine ⟨[], { s with timers := timers }, ?_, .rests .nil, ?_, ?_⟩
      · obtain ⟨timers', failed', rfl⟩ := h.shown
        exact ⟨⟨timers, failed', rfl⟩, now⟩
      · intro y settled
        exact h.brought.act due (acts.trans settled)
      · intro limit le history s'
        rw [elapses_of_due (popDue?_of_le due le), acts, actHistory, if_pos live]
        rfl
    · have other : u ≠ r.timer k := by
        rintro rfl
        exact own (congrArg Guard.epoch (h.epoch lawful).symm)
      obtain ⟨acted, follows⟩ := h.passes due other own
      obtain ⟨entries, x, found, told, brought, elapses⟩ := ih follows rfl
      have checks : Checks ({ s with timers := timers }.actHistory game u) :=
        checks_of_other h.brought.inStep due own
      exact ⟨_, x, found, told.after checks, brought, (via_of_acted due acted).fires (Nat.le_refl _) elapses⟩

theorem beats (lawful : r.Lawful game) (h : r.Follows game k s) (more : k < r.count) :
    ∃ entries y, r.Follows game (k + 1) y ∧ r.Told k entries (k + 1) ∧ y.now = r.due k ∧
      s.ElapsesVia game (r.due k) entries y := by
  obtain ⟨entries, x, found, told, brought, fires⟩ := h.comes_up lawful
  have rests : ∃ y, x.fire game r.kind = .rests y ∧ (∃ timers failed,
      y = (r.shows (k + 1)).clocked timers failed) ∧ r.timer (k + 1) ∈ y.timers.pending ∧
      y.now = r.due k := by
    obtain ⟨⟨timers, failed, rfl⟩, now⟩ := found
    exact ⟨_, lawful.beats k more timers failed now, ⟨_, _, rfl⟩,
      (Timers.enter_perm _ _).mem_iff.2 List.mem_cons_self, now⟩
  obtain ⟨y, fired, shown, pending, now⟩ := rests
  have settled : (x.fire game r.kind).settle game = some y := by rw [fired, Turn.settle]
  have single : firingHistory game (r.timer k, x) = [(.fires (r.timer k), x)] := by
    show _ :: (x.fire game r.kind).history game = _
    rw [fired, Turn.history]
  have via := fires.elapsesVia settled
  rw [single] at via
  exact ⟨_, y, ⟨more, shown, pending, brought y settled⟩,
    told.append (.beat .nil found (.rests .nil)), now, via⟩

theorem elapses (lawful : r.Lawful game) (h : r.Follows game k s) (early : limit < r.due r.count) :
    ∃ j entries s', s.Elapses game limit entries s' ∧ r.Follows game j s' ∧ r.Told k entries j ∧
      s'.now = max s.now limit ∧ limit < r.due j ∧
        (j ≠ k → r.due (j - 1) ≤ limit ∧ s.now ≤ limit) := by
  induction left : r.count - k generalizing k s with
  | zero =>
    have last : k = r.count := by have := h.le; omega
    subst last
    obtain ⟨entries, s', run, follows, checks, now⟩ := h.waits lawful early
    exact ⟨_, entries, s', run, follows, .rests checks, now, early, fun ne => absurd rfl ne⟩
  | succ left ih =>
    by_cases soon : limit < r.due k
    · obtain ⟨entries, s', run, follows, checks, now⟩ := h.waits lawful soon
      exact ⟨k, entries, s', run, follows, .rests checks, now, soon, fun ne => absurd rfl ne⟩
    · have le : r.due k ≤ limit := Nat.le_of_not_lt soon
      obtain ⟨entries, y, follows, told, here, via⟩ := h.beats lawful (by omega)
      obtain ⟨j, later, s', run, follows', told', now, before, reached⟩ := ih follows (by omega)
      have past : s.now ≤ limit := Nat.le_trans h.due_le.1 le
      refine ⟨j, entries ++ later, s', (via limit le _ _).2 ⟨later, run, rfl⟩, follows',
        told.append told', by omega, before, fun _ => ⟨?_, past⟩⟩
      by_cases next : j = k + 1
      · rw [next, Nat.add_sub_cancel]
        exact le
      · exact (reached next).1

theorem ends (lawful : r.Lawful game) (h : r.Follows game k s) :
    r.due k ≤ r.due r.count ∧ ∃ entries x, r.ComesBy game k r.count s entries x := by
  induction left : r.count - k generalizing k s with
  | zero =>
    have last : k = r.count := by have := h.le; omega
    subst last
    exact ⟨Nat.le_refl _, h.comes_up lawful⟩
  | succ left ih =>
    obtain ⟨entries, y, follows, told, here, via⟩ := h.beats lawful (by omega)
    obtain ⟨le, later, x, found, told', brought, fires⟩ := ih follows (by omega)
    have soon : r.due k ≤ r.due r.count := by
      have := follows.due_le.1
      omega
    exact ⟨soon, entries ++ later, x, found, told.append told', brought, via.fires soon fires⟩

/-! ## Runs of the clock -/

/-- **What runs lead to that stop before the end**: a beat that is due later, where all beats before it
have come. -/
theorem runs_within (lawful : r.Lawful game) (h : r.Follows game k s) {limits : List UInt64}
    (early : ∀ limit ∈ limits, limit.toNat < r.due r.count) :
    ∃ j entries s', s.RunsTo game limits entries s' ∧ r.Follows game j s' ∧ r.Told k entries j ∧
      s'.now = max s.now (latest limits) ∧ (s.now < r.due k → s'.now < r.due j) ∧
      (j ≠ k → r.due (j - 1) ≤ s'.now) := by
  by_cases none : limits = []
  · subst none
    exact ⟨k, [], s, runsTo_nil.2 ⟨rfl, rfl⟩, h, .rests .nil, (Nat.max_zero _).symm, id,
      fun ne => absurd rfl ne⟩
  · obtain ⟨j, entries, s', run, follows, told, now, before, reached⟩ :=
      h.elapses lawful ((latest_lt_iff none).2 early)
    refine ⟨j, entries, s', (runsTo_iff none).2 run, follows, told, now, fun ahead => ?_, fun ne => ?_⟩
    · by_cases same : j = k
      · rw [same] at before ⊢
        omega
      · have := reached same
        omega
    · have := reached ne
      omega

end Follows

end Rhythm

/-! ## Sessions that only grow older -/

/-- until the moment, runs of the clock change nothing but the time, and whether the last video has been
found failed -/
def Session.LastsUntil (game : Game) (moment : Nat) (s : Session σ) : Prop :=
  ∀ limits : List UInt64, (∀ limit ∈ limits, limit.toNat < moment) →
    ∃ checks timers failed, s.RunsTo game limits checks (s.clocked timers failed) ∧ Checks checks

section
variable {s : Session σ}

/-- while a session waits for no timer, nothing becomes of it -/
theorem lastsUntil_of_free (h : s.Brought game) (free : s.awaits? = none) (moment : Nat) :
    s.LastsUntil game moment := by
  intro limits _
  by_cases none : limits = []
  · subst none
    exact ⟨[], s.timers, s.videoFailedAt, runsTo_nil.2 ⟨rfl, rfl⟩, .nil⟩
  · obtain ⟨checks, timers, failed, elapses, only, -⟩ :=
      elapses_of_free (latest_le_endOfTime limits) h free
    exact ⟨checks, timers, failed, (runsTo_iff none).2 elapses, only⟩

/-- nothing becomes of a session until the timer comes that it waits for -/
theorem lastsUntil_of_pending (h : s.Brought game) {t : Timer} (pending : t ∈ s.timers.pending)
    (own : t.guard = .epoch s.epoch) : s.LastsUntil game t.due := by
  intro limits early
  -- a rhythm of no beats
  let r : Rhythm σ := ⟨t.kind, s.epoch, 0, fun _ => t.due, fun _ => s⟩
  have lawful : r.Lawful game := ⟨fun _ _ => rfl, fun _ lt => absurd lt (Nat.not_lt_zero _)⟩
  have timer : r.timer 0 = t := by rw [Rhythm.timer, ← own]
  have follows : r.Follows game 0 s :=
    ⟨Nat.le_refl _, ⟨s.timers, s.videoFailedAt, rfl⟩, timer ▸ pending, h⟩
  obtain ⟨j, checks, s', run, follows', told, -⟩ := follows.runs_within lawful early
  obtain ⟨timers, failed, rfl⟩ := follows'.shown
  have none : j = 0 := Nat.le_zero.1 follows'.le
  subst none
  exact ⟨checks, timers, failed, run, told.checks⟩

end

namespace Rhythm

variable {k j limit : Nat} {s : Session σ}

/-! ## Even beats -/

def even (kind : TimerKind) (start interval count : Nat) (shows : Nat → Session σ) : Rhythm σ where
  kind := kind
  epoch := (shows 0).epoch
  count := count
  due k := start + (k + 1) * interval
  shows := shows

section
variable {kind : TimerKind} {start interval count : Nat} {shows : Nat → Session σ}

theorem later_even (within : start + (count + 1) * interval ≤ endOfTime) (le : k ≤ count) :
    later (start + k * interval) interval = start + (k + 1) * interval := by
  have le : (k + 1) * interval ≤ (count + 1) * interval := Nat.mul_le_mul_right _ (by omega)
  rw [Nat.succ_mul] at le ⊢
  unfold later
  omega

theorem lawful_even (within : start + (count + 1) * interval ≤ endOfTime)
    (epoch : ∀ k, (shows k).epoch = (shows 0).epoch)
    (beats : ∀ k < count, ∀ timers failed, ((shows k).clocked timers failed).fire game kind =
      .rests (((shows (k + 1)).clocked timers failed).schedule interval kind)) :
    (even kind start interval count shows).Lawful game where
  epoch k _ := epoch k
  beats k more timers failed now := by
    have now : timers.now = start + (k + 1) * interval := now
    refine (beats k more timers failed).trans ?_
    rw [schedule_clocked, now, later_even within more, epoch (k + 1)]
    rfl

theorem follows_even (within : start + (count + 1) * interval ≤ endOfTime)
    (now : (shows 0).now = start) (h : ((shows 0).schedule interval kind).Brought game) :
    (even kind start interval count shows).Follows game 0 ((shows 0).schedule interval kind) where
  le := Nat.zero_le _
  shown := ⟨_, _, rfl⟩
  pending := by
    have first := later_even within (Nat.zero_le count)
    rw [Nat.zero_mul, Nat.add_zero, ← now] at first
    subst now
    exact (Timers.enter_perm _ _).mem_iff.2
      (List.mem_cons.2 (.inl (congrArg (Timer.mk · kind (.epoch (shows 0).epoch)) first.symm)))
  brought := h

theorem Follows.even_eq
    (h : (even kind start interval count shows).Follows game j s)
    (before : s.now < start + (j + 1) * interval)
    (reached : j ≠ 0 → start + (j - 1 + 1) * interval ≤ s.now) (after : start ≤ s.now) :
    j = (s.now - start) / interval := by
  refine (Nat.div_eq_of_lt_le ?_ ?_).symm
  · rcases Nat.eq_zero_or_pos j with rfl | pos
    · rw [Nat.zero_mul]
      exact Nat.zero_le _
    · have := reached (by omega)
      rw [Nat.sub_add_cancel pos] at this
      omega
  · omega

/-- **What runs lead to that stop before the end of even beats**: one beat has come for each interval
that has passed. -/
theorem Follows.even_within (lawful : (even kind start interval count shows).Lawful game)
    (h : (even kind start interval count shows).Follows game 0 s) (now : s.now = start)
    (positive : 0 < interval) {limits : List UInt64}
    (early : ∀ limit ∈ limits, limit.toNat < start + (count + 1) * interval) :
    ∃ history s' beats, s.RunsTo game limits history s' ∧ s'.now = max start (latest limits) ∧
      beats = (s'.now - start) / interval ∧
      (even kind start interval count shows).Follows game beats s' ∧
      (even kind start interval count shows).Told 0 history beats := by
  obtain ⟨j, history, s', run, follows, told, now', before, reached⟩ := h.runs_within lawful early
  have ahead : s.now < start + (0 + 1) * interval := by omega
  have after : start ≤ s'.now := by omega
  exact ⟨history, s', j, run, now ▸ now', follows.even_eq (before ahead) reached after, follows, told⟩

end

end Rhythm

/-! ## Single cues -/

/-- the next event of the script is a single cue, and playback goes on with it -/
structure Session.Takes (game : Game) (cue : Cue) (s : Session σ) : Prop where
  started : s.started
  free : s.isBusy = false
  unheld : s.deferred = []
  next : game.script.events[s.position]? = some (.single cue)

namespace Session.Takes

variable {cue : Cue} {s : Session σ}

theorem turn (h : s.Takes game cue) :
    s.turn game = .ofFlow ({ s with position := s.position + 1 }.execute game cue) := by
  rw [Session.turn, h.free, if_neg Bool.false_ne_true, h.unheld, h.next]

theorem brought (h : s.Takes game cue) {stage : σ} {deeds : List Deed} {s₁ : Session σ}
    (reached : Reaches game (.ofStage stage) deeds (.goesOn s)) (rests : s.turn game = .rests s₁) :
    s₁.Brought game :=
  ⟨stage, _, rests ▸ reached.turn h.started⟩

end Session.Takes

end VisualNovel
