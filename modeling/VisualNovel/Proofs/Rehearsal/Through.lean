import Mathlib.Algebra.Ring.Nat
import VisualNovel.Proofs.Review.Straight
import VisualNovel.Proofs.Session.Clock
import VisualNovel.Proofs.Session.Rest
import VisualNovel.Proofs.Transcript.Converted

/-!
# Transcripts play through

The script that is made of a transcript has nothing in it that leads elsewhere: only pictures, music,
characters, lines that wait for the player, and cards with lines on them. A rehearsal of such a script
comes to its end, whatever the assets and the configuration are, since each of its steps brings it
nearer: a timer shows one more character, or ends a line, and a press of the key goes on to the next
line or card.

* `Cue.work`                 the timers and presses that a cue takes;
* `Session.Shows`            how many of them are left of what a session shows;
* `Session.Playing`          a session that shows something, and the cues ahead of it;
* `Session.Playing.fires`, `Session.Playing.activate`   a timer and a press bring it nearer to the end;
* `Session.ToGo`             all that is left of a session, and how often it waits for the player;
* `Rehearsal.step_toGo`, `Rehearsal.run_toGo`   the steps of a rehearsal;
* `converted_games_play_through`   what this means for transcripts.
-/

set_option linter.unusedSectionVars false

namespace VisualNovel

open Session

/-! ## What is ahead -/

namespace CardReveal

def left (r : CardReveal) : Nat := (r.rest.map fun line => line.length + 1).sum

theorem left_next {r : CardReveal} (more : r.rest ≠ []) : r.next.2.left + 1 = r.left := by
  obtain ⟨rest, started⟩ := r
  rcases rest with _ | ⟨_ | ⟨c, cs⟩, lines⟩
  · exact absurd rfl more
  · simp [next, left, Nat.add_comm]
  · simp only [next, left, List.map_cons, List.sum_cons, List.length_cons]
    omega

theorem left_eq_zero_of_nil {r : CardReveal} (nil : r.rest = []) : r.left = 0 := by
  rw [left, nil, List.map_nil, List.sum_nil]

end CardReveal

/-- the timers and presses that a cue takes. The first step of a card is taken when it begins -/
def Cue.work : Cue → Nat
  | dialogue line => line.text.length + 2
  | introCard lines => (CardReveal.ofLines lines).left + 1
  | _ => 0

def Cue.pauses : Cue → Bool
  | dialogue _ | introCard _ => true
  | _ => false

def Event.isLine : Event → Bool
  | single (.dialogue _) => true
  | _ => false

def Event.isCard : Event → Bool
  | single (.introCard _) => true
  | _ => false

theorem countP_pauses (cues : List Cue) :
    cues.countP Cue.pauses =
      (cues.map Event.single).countP Event.isLine + (cues.map Event.single).countP Event.isCard := by
  induction cues with
  | nil => rfl
  | cons cue cues ih =>
    rw [List.map_cons, List.countP_cons, List.countP_cons, List.countP_cons, ih]
    cases cue with
    | dialogue => simp [Cue.pauses, Event.isLine, Event.isCard]; omega
    | introCard => simp [Cue.pauses, Event.isLine, Event.isCard]; omega
    | _ => rfl

theorem Cue.work_of_not_pauses {cue : Cue} (quiet : cue.pauses = false) : cue.work = 0 := by
  cases cue with
  | dialogue | introCard => cases quiet
  | _ => rfl

theorem Cue.Transcribed.not_steers {cue : Cue} (h : cue.Transcribed) : cue.steers = false := by
  cases h <;> rfl

variable {σ : Type} [Presentation σ] [Audio σ] {game : Game}

/-! ## What is being shown -/

namespace Session

/-- so many timers and presses until the session goes on from what it shows; none, if it shows nothing -/
inductive Shows (s : Session σ) : Nat → Prop
  | nothing (free : s.suspension = none) (still : s.typing = false) (idle : s.timers.pending = [])
      (unasked : s.waitingForInput = false) :
      Shows s 0
  | done (free : s.suspension = none) (still : s.typing = false) (idle : s.timers.pending = [])
      (asks : s.waitingForInput = true) :
      Shows s 1
  | line {line : Line} {shown : Nat} (why : s.suspension = some .typing)
      (unasked : s.waitingForInput = false) (reveal : s.reveal = .revealing line shown)
      (le : shown ≤ line.text.length) (manual : line.autoAdvance = false)
      (awaits : ∃ due, s.timers.pending = [⟨due, .typeTick, .epoch s.epoch⟩]) :
      Shows s (line.text.length - shown + 2)
  | card {card : CardReveal} (why : s.suspension = some .introCard)
      (unasked : s.waitingForInput = false) (reveal : s.card = some card)
      (awaits : ∃ due, s.timers.pending = [⟨due, .cardTick, .epoch s.epoch⟩]) :
      Shows s (card.left + 2)

/-- a session that shows something, or nothing, and has these cues ahead of it -/
structure Playing (game : Game) (s : Session σ) (cues : List Cue) (n : Nat) : Prop where
  started : s.started
  unheld : s.deferred = []
  ahead : game.script.events.toList.drop s.position = cues.map .single
  each : ∀ cue ∈ cues, cue.Transcribed
  shows : s.Shows n

/-- a session at rest with so many timers and presses to go, which waits so often for the player -/
inductive ToGo (game : Game) (s : Session σ) : Nat → Nat → Prop
  | ended (h : s.Playing game [] 0) : ToGo game s 0 0
  | on {cues : List Cue} {n : Nat} (h : s.Playing game cues (n + 1)) :
      ToGo game s (n + 1 + (cues.map Cue.work).sum) (1 + cues.countP Cue.pauses)

section
variable {s s' : Session σ} {cues : List Cue} {n : Nat}

theorem pending_schedule {q : Timers} (idle : q.pending = []) (delay : Nat) (kind : TimerKind)
    (guard : Guard) :
    (q.schedule delay kind guard).pending = [⟨later q.now delay, kind, guard⟩] := by
  rw [Timers.schedule, idle, Timers.enter]

theorem typeTick_of_lt (game : Game) {line : Line} {shown : Nat}
    (reveal : s.reveal = .revealing line shown) (lt : shown < line.text.length) :
    ∃ scene, s.typeTick game = { s with scene, reveal := .revealing line (shown + 1) }.schedule
      game.config.timing.typing .typeTick := by
  rw [← String.length_toList] at lt
  have char := List.getElem?_eq_getElem lt
  simp only [typeTick, reveal, LineReveal.isRevealing_revealing, if_true, LineReveal.tick, char]
  exact ⟨_, rfl⟩

theorem typeTick_of_end (game : Game) {line : Line}
    (reveal : s.reveal = .revealing line line.text.length) (manual : line.autoAdvance = false) :
    ∃ scene, s.typeTick game = { { s with scene, reveal := .done line, typing := false }.resume with
      waitingForInput := true } := by
  have past : line.text.toList[line.text.length]? = none := by
    rw [← String.length_toList]
    exact List.getElem?_eq_none (Nat.le_refl _)
  refine ⟨(LineReveal.finish game line s.scene).2, ?_⟩
  simp only [typeTick, reveal, LineReveal.isRevealing_revealing, if_true, LineReveal.tick, past,
    LineReveal.complete, LineReveal.finish, manual, completeLine]
  rfl

theorem act_of_awaited (game : Game) (due : Nat) (kind : TimerKind) :
    s.act game ⟨due, kind, .epoch s.epoch⟩ = (s.fire game kind).settle game :=
  if_pos (beq_self_eq_true s.epoch)

/-! ## Events -/

theorem Shows.not_busy (h : s.Shows 0) : s.isBusy = false := by
  cases h with
  | nothing free still => rw [isBusy, free, still]; rfl

theorem Shows.dressed (h : s.Shows 0) (d : Dressed s s') : s'.Shows 0 := by
  obtain ⟨scene, music, heard, intro, rfl⟩ := d
  cases h with
  | nothing free still idle unasked => exact .nothing free still idle unasked

theorem dressed_execute (game : Game) {cue : Cue} (h : cue.Transcribed) (quiet : cue.pauses = false)
    (s : Session σ) :
    ∃ s', s.execute game cue = (.goOn, s') ∧ Dressed s s' := by
  have outcome := execute_outcome game cue s
  generalize s.execute game cue = result at outcome ⊢
  obtain ⟨flow, s'⟩ := result
  cases h with
  | said | card => cases quiet
  | _ =>
    cases outcome with
    | quiet _ d => exact ⟨s', rfl, d⟩

namespace Playing

variable {cue : Cue} {m : Nat}

theorem showing (h : s.Playing game cues n) (shows : s'.Shows m) (started : s'.started = s.started)
    (deferred : s'.deferred = s.deferred) (position : s'.position = s.position) :
    s'.Playing game cues m where
  started := started.trans h.started
  unheld := deferred.trans h.unheld
  ahead := position ▸ h.ahead
  each := h.each
  shows := shows

theorem cons_ahead (h : s.Playing game (cue :: cues) n) :
    game.script.events[s.position]? = some (.single cue) ∧
      game.script.events.toList.drop (s.position + 1) = cues.map .single := by
  have ahead := h.ahead
  rw [List.map_cons] at ahead
  constructor
  · rw [← Array.getElem?_toList, ← List.head?_drop, ahead, List.head?_cons]
  · rw [← List.tail_drop, ahead, List.tail_cons]

theorem onward (h : s.Playing game (cue :: cues) n) (shows : s'.Shows m)
    (started : s'.started = s.started) (deferred : s'.deferred = s.deferred)
    (position : s'.position = s.position + 1) : s'.Playing game cues m where
  started := started.trans h.started
  unheld := deferred.trans h.unheld
  ahead := position ▸ h.cons_ahead.2
  each := (List.forall_mem_cons.1 h.each).2
  shows := shows

theorem nil_ahead (h : s.Playing game [] n) : game.script.size ≤ s.position := by
  have ahead := List.drop_eq_nil_iff.1 (h.ahead.trans List.map_nil)
  rwa [Array.length_toList] at ahead

theorem length_le (h : s.Playing game cues n) : cues.length ≤ game.script.size := by
  have lengths := congrArg List.length h.ahead
  rw [List.length_drop, List.length_map, Array.length_toList] at lengths
  rw [Script.size]
  omega

theorem turn_of_nil (h : s.Playing game [] 0) : s.turn game = .rests s := by
  have nothing : game.script.events[s.position]? = none := Array.getElem?_eq_none h.nil_ahead
  rw [turn, h.shows.not_busy, if_neg Bool.false_ne_true, h.unheld, nothing]

theorem turn_of_cons (h : s.Playing game (cue :: cues) 0) :
    s.turn game = .ofFlow ({ s with position := s.position + 1 }.execute game cue) := by
  rw [turn, h.shows.not_busy, if_neg Bool.false_ne_true, h.unheld, h.cons_ahead.1]

theorem turn_of_quiet (h : s.Playing game (cue :: cues) 0) (quiet : cue.pauses = false) :
    ∃ s', s.turn game = .goesOn s' ∧ s'.Playing game cues 0 := by
  obtain ⟨s', e, d⟩ := dressed_execute game (h.each cue List.mem_cons_self) quiet
    { s with position := s.position + 1 }
  have shows : { s with position := s.position + 1 }.Shows 0 := by
    cases h.shows with
    | nothing free still idle unasked => exact .nothing free still idle unasked
  refine ⟨s', h.turn_of_cons.trans (congrArg Turn.ofFlow e), ?_⟩
  have shows' := shows.dressed d
  obtain ⟨scene, music, heard, intro, rfl⟩ := d
  exact h.onward shows' rfl rfl rfl

theorem turn_of_line {line : Line} (h : s.Playing game (.dialogue line :: cues) 0)
    (manual : line.autoAdvance = false) :
    ∃ s', s.turn game = .rests s' ∧ s'.Playing game cues (line.text.length + 2) := by
  refine ⟨_, h.turn_of_cons, h.onward ?_ rfl rfl rfl⟩
  cases h.shows with
  | nothing free still idle unasked =>
    show Shows _ (line.text.length - 0 + 2)
    exact .line rfl rfl rfl (Nat.zero_le _) manual ⟨_, pending_schedule idle _ _ _⟩

theorem turn_of_card {first : String} {lines : List String}
    (h : s.Playing game (.introCard (first :: lines) :: cues) 0) :
    ∃ s', s.turn game = .rests s' ∧
      s'.Playing game cues ((CardReveal.ofLines (first :: lines)).left + 1) := by
  have more : (CardReveal.ofLines (first :: lines)).rest ≠ [] := List.cons_ne_nil _ _
  obtain ⟨-, scene, delay, e⟩ | ⟨nil, -⟩ := stepCard_of_card game
    (s := { ({ s with
      position := s.position + 1, typing := true, introMode := true
      waitingForInput := false }.suspend .introCard).onStage fun p =>
        Presentation.showCard (Presentation.showTextbox p false) true with
      cardShown := true, card := some (.ofLines (first :: lines)) }) rfl
  · refine ⟨_, h.turn_of_cons.trans (congrArg Turn.rests e), h.onward ?_ rfl rfl rfl⟩
    rw [← CardReveal.left_next more]
    cases h.shows with
    | nothing free still idle unasked => exact .card rfl rfl rfl ⟨_, pending_schedule idle _ _ _⟩
  · exact absurd nil more

theorem turn_of_pauses (h : s.Playing game (cue :: cues) 0) (pauses : cue.pauses = true) :
    ∃ s' n, s.turn game = .rests s' ∧ s'.Playing game cues (n + 1) ∧ n + 1 = cue.work := by
  cases h.each cue List.mem_cons_self with
  | said text speaker thought =>
    obtain ⟨s', e, playing⟩ := h.turn_of_line rfl
    exact ⟨s', _, e, playing, rfl⟩
  | card first lines =>
    obtain ⟨s', e, playing⟩ := h.turn_of_card
    exact ⟨s', _, e, playing, rfl⟩
  | _ => cases pauses

theorem advanceWithin (h : s.Playing game cues 0) {turns : Nat} (enough : cues.length < turns) :
    ∃ s', s.advanceWithin game turns = some s' ∧
      s'.ToGo game (cues.map Cue.work).sum (cues.countP Cue.pauses) := by
  induction cues generalizing s turns with
  | nil =>
    obtain ⟨turns, rfl⟩ := Nat.exists_eq_add_one_of_ne_zero (Nat.ne_zero_of_lt enough)
    exact ⟨s, (advanceWithin_of_rests h.turn_of_nil turns).1, .ended h⟩
  | cons cue cues ih =>
    obtain ⟨turns, rfl⟩ := Nat.exists_eq_add_one_of_ne_zero (Nat.ne_zero_of_lt enough)
    rw [List.map_cons, List.sum_cons, List.countP_cons]
    cases pauses : cue.pauses with
    | false =>
      obtain ⟨s', e, playing⟩ := h.turn_of_quiet pauses
      rw [(advanceWithin_of_goesOn e turns).1, Cue.work_of_not_pauses pauses, Nat.zero_add]
      exact ih playing (Nat.lt_of_succ_lt_succ enough)
    | true =>
      obtain ⟨s', n, e, playing, work⟩ := h.turn_of_pauses pauses
      rw [← work, Nat.add_comm (List.countP _ _)]
      exact ⟨s', (advanceWithin_of_rests e turns).1, .on playing⟩

theorem advance (h : s.Playing game cues 0) :
    ∃ s', s.advance game = some s' ∧
      s'.ToGo game (cues.map Cue.work).sum (cues.countP Cue.pauses) := by
  rw [Session.advance, if_pos h.started, turns, h.unheld]
  refine h.advanceWithin ?_
  have := h.length_le
  omega

/-! ## Timers and presses -/

theorem awaits (h : s.Playing game cues (n + 2)) : ∃ t, s.timers.pending = [t] := by
  cases h.shows with
  | line _ _ _ _ _ awaits => exact ⟨_, awaits.choose_spec⟩
  | card _ _ _ awaits => exact ⟨_, awaits.choose_spec⟩

theorem fires {t : Timer} {timers : Timers} (h : s.Playing game cues (n + 2))
    (first : s.timers.pending = t :: timers.pending) :
    ∃ s', { s with timers }.act game t = some s' ∧ s'.Playing game cues (n + 1) := by
  cases h.shows with
  | @line line shown why unasked reveal le manual awaits =>
    obtain ⟨due, awaits⟩ := awaits
    obtain ⟨rfl, idle⟩ := List.cons.inj (awaits.symm.trans first)
    refine ⟨_, act_of_awaited (s := { s with timers }) game due .typeTick, ?_⟩
    rcases Nat.lt_or_eq_of_le le with lt | rfl
    · obtain ⟨scene, e⟩ := typeTick_of_lt (s := { s with timers }) game reveal lt
      have left : line.text.length - shown + 1 = line.text.length - (shown + 1) + 2 := by omega
      rw [e, left]
      exact h.showing (.line why unasked rfl lt manual ⟨_, pending_schedule idle.symm _ _ _⟩) rfl rfl
        rfl
    · obtain ⟨scene, e⟩ := typeTick_of_end (s := { s with timers }) game reveal manual
      rw [e, Nat.sub_self]
      exact h.showing (.done rfl rfl idle.symm rfl) rfl rfl rfl
  | @card card why unasked reveal awaits =>
    obtain ⟨due, awaits⟩ := awaits
    obtain ⟨rfl, idle⟩ := List.cons.inj (awaits.symm.trans first)
    refine ⟨_, act_of_awaited (s := { s with timers }) game due .cardTick, ?_⟩
    obtain ⟨more, scene, delay, e⟩ | ⟨nil, e⟩ := stepCard_of_card (s := { s with timers }) game reveal
    · rw [e, ← CardReveal.left_next more]
      exact h.showing (.card why unasked rfl ⟨_, pending_schedule idle.symm _ _ _⟩) rfl rfl rfl
    · rw [e, CardReveal.left_eq_zero_of_nil nil]
      exact h.showing (.done rfl rfl idle.symm rfl) rfl rfl rfl

theorem not_choosing (h : s.Playing game cues n) : s.isChoosing = false := by
  cases h.shows with
  | nothing free | done free => rw [isChoosing, free]
  | line why | card why => rw [isChoosing, why]

theorem unasked (h : s.Playing game cues (n + 2)) : s.waitingForInput = false := by
  cases h.shows with
  | line _ unasked | card _ unasked => exact unasked

theorem asks (h : s.Playing game cues 1) : s.waitingForInput = true := by
  cases h.shows with
  | done _ _ _ asks => exact asks

theorem setNow (h : s.Playing game cues n) (now : Nat) :
    { s with timers := s.timers.setNow now }.Playing game cues n := by
  refine h.showing ?_ rfl rfl rfl
  cases h.shows with
  | nothing free still idle unasked => exact .nothing free still idle unasked
  | done free still idle asks => exact .done free still idle asks
  | line why unasked reveal le manual awaits => exact .line why unasked reveal le manual awaits
  | card why unasked reveal awaits => exact .card why unasked reveal awaits

theorem idle (h : s.Playing game cues 1) : s.timers.pending = [] := by
  cases h.shows with
  | done _ _ idle => exact idle

theorem runUntil {fuel : Nat} (h : s.Playing game cues (n + 1)) (limit : Nat) (enough : n < fuel) :
    ∃ s' m, s.runUntil game limit fuel = some s' ∧ s'.Playing game cues (m + 1) ∧ m ≤ n := by
  induction n generalizing s fuel with
  | zero =>
    obtain ⟨fuel, rfl⟩ := Nat.exists_eq_add_one_of_ne_zero (Nat.ne_zero_of_lt enough)
    have due : s.timers.popDue? limit = none := by
      rw [Timers.popDue?, h.idle]
    exact ⟨_, 0, runUntil_of_none due fuel, h.setNow limit, Nat.le_refl _⟩
  | succ n ih =>
    obtain ⟨fuel, rfl⟩ := Nat.exists_eq_add_one_of_ne_zero (Nat.ne_zero_of_lt enough)
    cases due : s.timers.popDue? limit with
    | none => exact ⟨_, n + 1, runUntil_of_none due fuel, h.setNow limit, Nat.le_refl _⟩
    | some popped =>
      obtain ⟨t, timers⟩ := popped
      obtain ⟨s₁, acted, playing⟩ := h.fires (Timers.popDue?_eq_some_iff.1 due).1
      obtain ⟨s', m, ran, playing', le⟩ := ih playing (Nat.lt_of_succ_lt_succ enough)
      exact ⟨s', m, by rw [runUntil_of_some due, acted, Option.bind_some, ran], playing',
        Nat.le_succ_of_le le⟩

theorem runUntil_deadline {fuel : Nat} (h : s.Playing game cues (n + 2)) (enough : n + 1 < fuel) :
    ∃ deadline s' m, s.deadline? = some deadline ∧ s.runUntil game deadline fuel = some s' ∧
      s'.Playing game cues (m + 1) ∧ m ≤ n := by
  obtain ⟨fuel, rfl⟩ := Nat.exists_eq_add_one_of_ne_zero (Nat.ne_zero_of_lt enough)
  obtain ⟨t, one⟩ := h.awaits
  have due : s.timers.popDue? t.due = some (t, ⟨max s.now t.due, []⟩) :=
    Timers.popDue?_eq_some_iff.2 ⟨one, Nat.le_refl _, rfl⟩
  obtain ⟨s₁, acted, playing⟩ := h.fires (Timers.popDue?_eq_some_iff.1 due).1
  obtain ⟨s', m, ran, playing', le⟩ := playing.runUntil t.due (Nat.lt_of_succ_lt_succ enough)
  refine ⟨t.due, s', m, ?_, by rw [runUntil_of_some due, acted, Option.bind_some, ran], playing', le⟩
  rw [deadline?, Timers.deadline?, one]
  rfl

theorem pressed (h : s.Playing game cues 1) :
    ∃ s', s.pressed game = .goesOn s' ∧ s'.Playing game cues 0 := by
  cases h.shows with
  | done free still idle asks =>
    obtain ⟨scene, shown, e⟩ : ∃ scene shown, s.pressed game =
        .goesOn { s with scene, cardShown := shown, waitingForInput := false } := by
      rw [Session.pressed, h.not_choosing, if_neg Bool.false_ne_true, if_pos asks]
      dsimp only
      split
      · exact ⟨_, _, rfl⟩
      · exact ⟨_, s.cardShown, rfl⟩
    exact ⟨_, e, h.showing (.nothing free still idle rfl) rfl rfl rfl⟩

theorem activate (h : s.Playing game cues 1) :
    ∃ s', s.activate game = some s' ∧
      s'.ToGo game (cues.map Cue.work).sum (cues.countP Cue.pauses) := by
  obtain ⟨s', e, playing⟩ := h.pressed
  rw [Session.activate, if_pos h.started, e]
  exact playing.advance

end Playing

end

end Session

/-! ## Rehearsals -/

theorem Session.ToGo.isFinished_iff {s : Session σ} {left pauses : Nat} (h : s.ToGo game left pauses) :
    s.isFinished game = true ↔ left = 0 := by
  cases h with
  | ended h => 
    cases h.shows with
    | nothing free still idle unasked =>
      simp [isFinished, h.started, h.nil_ahead, h.shows.not_busy, unasked, h.unheld]
  | on h =>
    cases h.shows with
    | done _ _ _ asks => simp [isFinished, asks]
    | line why => simp [isFinished, isBusy, why]
    | card why => simp [isFinished, isBusy, why]

theorem Session.ToGo.pauses_of_ended {s : Session σ} {pauses : Nat} (h : s.ToGo game 0 pauses) :
    pauses = 0 := by
  generalize none : 0 = left at h
  cases h with
  | ended => rfl
  | on => omega

namespace Rehearsal

variable {r : Rehearsal} {fuel left pauses : Nat} (choice : Nat)

theorem step_toGo (h : r.session.ToGo game (left + 1) pauses) (enough : left < fuel) :
    ∃ r' left' pauses', r.step game choice fuel = some r' ∧ r'.session.ToGo game left' pauses' ∧
      left' ≤ left ∧ r'.lines + pauses' = r.lines + pauses ∧ r'.stalled = r.stalled ∧
      r'.choices = r.choices := by
  generalize total : left + 1 = all at h
  cases h with
  | ended h => cases total
  | @on cues n h =>
    cases n with
    | zero =>
      obtain ⟨s', activated, toGo⟩ := h.activate
      have taken : r.step game choice fuel = some { r with
          session := s', steps := r.steps + 1, lines := r.lines + 1
          trace := r.trace.push (r.session.snapshot game) } := by
        simp [step, h.not_choosing, h.asks, activated]
      refine ⟨_, (cues.map Cue.work).sum, cues.countP Cue.pauses, taken, toGo, ?_, ?_, rfl, rfl⟩
      · omega
      · exact Nat.add_assoc _ _ _
    | succ n =>
      have fuelled : n + 1 < fuel := by omega
      obtain ⟨deadline, s', m, next, ran, playing, le⟩ := h.runUntil_deadline fuelled
      have taken : r.step game choice fuel = some { r with session := s', steps := r.steps + 1 } := by
        simp [step, h.not_choosing, h.unasked, next, ran]
      refine ⟨_, m + 1 + (cues.map Cue.work).sum, _, taken, .on playing, ?_, rfl, rfl, rfl⟩
      omega

theorem run_toGo {n : Nat} (h : r.session.ToGo game left pauses) (steps : left ≤ n)
    (enough : left ≤ fuel) (going : r.stalled = false) :
    ∃ r', run game choice fuel n r = some r' ∧ r'.session.isFinished game = true ∧
      r'.stalled = false ∧ r'.lines = r.lines + pauses ∧ r'.choices = r.choices := by
  induction n generalizing r left pauses with
  | zero =>
    cases Nat.le_zero.1 steps
    exact ⟨r, rfl, h.isFinished_iff.2 rfl, going, h.pauses_of_ended ▸ rfl, rfl⟩
  | succ n ih =>
    cases left with
    | zero =>
      have finished := h.isFinished_iff.2 rfl
      exact ⟨r, by simp [run, finished], finished, going, h.pauses_of_ended ▸ rfl, rfl⟩
    | succ left =>
      have unfinished : r.session.isFinished game = false :=
        Bool.eq_false_iff.2 fun finished => Nat.succ_ne_zero _ (h.isFinished_iff.1 finished)
      obtain ⟨r₁, left', pauses', taken, toGo, le, lines, stalled, choices⟩ :=
        step_toGo choice h enough
      obtain ⟨r', ran, finished, going', lines', choices'⟩ :=
        ih toGo (le.trans (Nat.le_of_succ_le_succ steps)) (le.trans (Nat.le_of_succ_le enough))
          (stalled.trans going)
      refine ⟨r', ?_, finished, going', lines'.trans lines, choices'.trans choices⟩
      simp [run, going, unfinished, taken, ran]

end Rehearsal

theorem playing_of_opened {cues : List Cue} (each : ∀ cue ∈ cues, cue.Transcribed)
    (events : game.script.events.toList = cues.map .single) (stage : σ) :
    ∃ s, (Session.ofStage stage).opened game = .goesOn s ∧ s.Playing game cues 0 :=
  ⟨_, rfl, rfl, rfl, events, each, .nothing rfl rfl rfl rfl⟩

theorem toGo_of_start {cues : List Cue} (each : ∀ cue ∈ cues, cue.Transcribed)
    (events : game.script.events.toList = cues.map .single) (stage : σ) :
    ∃ s, (Session.ofStage stage).start game = some s ∧
      s.ToGo game (cues.map Cue.work).sum (cues.countP Cue.pauses) := by
  obtain ⟨s, e, playing⟩ := playing_of_opened each events stage
  rw [start, e]
  exact playing.advance

/-- as many steps as there are timers and presses to go are enough for a rehearsal -/
theorem rehearse_of_transcribed {cues : List Cue} (each : ∀ cue ∈ cues, cue.Transcribed)
    (events : game.script.events.toList = cues.map .single) {options : RehearsalOptions} {fuel : Nat}
    (steps : (cues.map Cue.work).sum ≤ options.maxSteps) (enough : (cues.map Cue.work).sum ≤ fuel) :
    ∃ report, rehearse game options fuel = some report ∧ report.finished = true ∧
      report.stalled = false ∧ report.choices = 0 ∧ report.lines = cues.countP Cue.pauses := by
  obtain ⟨s, started, toGo⟩ := toGo_of_start each events rehearsalStage
  obtain ⟨r, ran, finished, going, lines, choices⟩ :=
    Rehearsal.run_toGo options.choice (show ({ session := s } : Rehearsal).session.ToGo _ _ _ from toGo)
      steps enough rfl
  refine ⟨r.report game, ?_, finished, going, choices, lines.trans (Nat.zero_add _)⟩
  simp [rehearse, started, ran]

/-! ## Transcripts -/

/-- **A transcript that can be converted can be played.** Its events make a script, in which a review
finds nothing wrong with the references and the flow, whatever its rules are. With any assets and any
configuration a rehearsal with steps enough comes to the end of the script, without having stalled and
without a menu, and has waited for the player at every line and at every card. -/
theorem converted_games_play_through (c : Converter) {transcript : String} {events : List Event}
    (converted : c.convert transcript = .ok events) :
    Script.ofEntries (events.map .event) = .ok (.ofEvents events) ∧
      (∀ rules, referenceIssues (.ofEvents events) rules = []) ∧
      (∀ rules, flowIssues (.ofEvents events) rules = []) ∧
      ∃ steps, ∀ assets config, ∀ options : RehearsalOptions, ∀ fuel,
        steps ≤ options.maxSteps → steps ≤ fuel →
        ∃ report, rehearse { script := .ofEvents events, assets, config } options fuel = some report ∧
          report.finished = true ∧ report.stalled = false ∧ report.choices = 0 ∧
          report.lines = events.countP Event.isLine + events.countP Event.isCard := by
  obtain ⟨cues, rfl, each⟩ := Converter.transcribed_of_convert converted
  have straight : (Script.ofEvents (cues.map .single)).Straight := by
    intro event m cue m'
    rw [Script.toList_ofEvents] at m
    obtain ⟨single, among, rfl⟩ := List.mem_map.1 m
    rw [List.mem_singleton.1 m']
    exact (each single among).not_steers
  refine ⟨Script.ofEntries_event _, straight.referenceIssues_eq_nil, straight.flowIssues_eq_nil,
    (cues.map Cue.work).sum, fun assets config options fuel steps enough => ?_⟩
  rw [← countP_pauses]
  exact rehearse_of_transcribed each (Script.toList_ofEvents _) steps enough

/-- an intro card and a line, on which a rehearsal waits twice -/
theorem card_and_line_play_through :
    let transcript := "[Black Screen]\nOnce\n[Fade in Defense_Lobby]\nMia:\n<Wright!>"
    ∃ events, ({} : Converter).convert transcript = .ok events ∧
      ∃ steps, ∀ assets config, ∃ report,
        rehearse { script := .ofEvents events, assets, config } { maxSteps := steps } steps =
            some report ∧
          report.finished = true ∧ report.lines = 2 := by
  intro transcript
  have succeeds : (({} : Converter).convert transcript).toOption.map (fun events =>
      events.countP Event.isLine + events.countP Event.isCard) = some 2 := by
    decide +kernel
  cases converted : ({} : Converter).convert transcript with
  | error e =>
    rw [converted] at succeeds
    cases succeeds
  | ok events =>
    rw [converted] at succeeds
    obtain ⟨-, -, -, steps, plays⟩ := converted_games_play_through {} converted
    refine ⟨events, rfl, steps, fun assets config => ?_⟩
    obtain ⟨report, result, finished, -, -, lines⟩ :=
      plays assets config { maxSteps := steps } steps (Nat.le_refl _) (Nat.le_refl _)
    exact ⟨report, result, finished, lines.trans (Option.some.inj succeeds)⟩

end VisualNovel
