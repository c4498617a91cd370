import VisualNovel.Proofs.Rehearsal.Through

/-!
# Scripts that only lead on

If every jump of a script leads to a later place, then only so much is ahead of a session until the
player has to do something. Each event that is taken, each cue that has been held back, and each timer
that shows something more uses up some of it. Only the timer that looks after a video may find it not far
enough and leave everything as it was.

* `Script.Forward`            the jumps of the script lead on;
* `Cue.cost`, `Script.costFrom`   what a cue, and all events from a place on, use up;
* `Session.ahead`             the timers that are ahead of a suspended session;
* `Session.Bounded`           so much is ahead of a session at most, and nothing leads back;
* `Session.Bounded.turn`      a turn that goes on uses some of it up;
* `Session.Left.advance`      an advance comes to rest;
* `Session.Left.fire`         a timer uses some of it up, or looks after a video in vain.
-/

set_option linter.unusedSectionVars false

namespace VisualNovel

open Session Review

/-! ## What is ahead in a script -/

/-- every jump that has a place to go to, in a block or out of it, leads to a place after its event;
where the options of menus lead does not matter -/
def Script.Forward (script : Script) : Prop :=
  ∀ (place : Nat) (event : Event), script.events[place]? = some event →
    ∀ cue ∈ event.cues, ∀ target, cue.target? script = some target → place < target

theorem Script.forward_iff {script : Script} :
    script.Forward ↔ ∀ e ∈ script.events.toList.zipIdx, ∀ cue ∈ e.1.cues,
      ∀ target ∈ cue.target? script, e.2 < target := by
  constructor
  · rintro forward ⟨event, place⟩ m cue among target leads
    rw [List.mem_zipIdx_iff_getElem?, Array.getElem?_toList] at m
    exact forward place event m cue among target leads
  · intro all place event found cue among target leads
    have m : (event, place) ∈ script.events.toList.zipIdx := by
      rw [List.mem_zipIdx_iff_getElem?, Array.getElem?_toList]
      exact found
    exact all _ m cue among target leads

instance (script : Script) : Decidable script.Forward :=
  decidable_of_iff _ Script.forward_iff.symm

/-- one for the cue, and the timers that it takes until playback goes on after it -/
def Cue.cost : Cue → Nat
  | dialogue line => line.text.length + 3
  | introCard lines => (CardReveal.ofLines lines).left + 2
  | sequence frames _ _ => frames.length + 2
  | wait _ | waitVideo _ => 2
  | _ => 1

theorem Cue.cost_pos (cue : Cue) : 0 < cue.cost := by
  cases cue <;> simp [cost]

def costOf (cues : List Cue) : Nat := (cues.map Cue.cost).sum

@[simp] theorem costOf_nil : costOf [] = 0 := rfl
@[simp] theorem costOf_cons (cue : Cue) (cues : List Cue) :
    costOf (cue :: cues) = cue.cost + costOf cues := rfl
@[simp] theorem costOf_append (cues cues' : List Cue) :
    costOf (cues ++ cues') = costOf cues + costOf cues' := by
  rw [costOf, List.map_append, List.sum_append, costOf, costOf]

def Event.cost (event : Event) : Nat := 1 + costOf event.cues

namespace Script

variable {script : Script}

/-- what all events from a place on use up -/
def costFrom (script : Script) (place : Nat) : Nat :=
  ((script.events.toList.drop place).map Event.cost).sum

theorem costFrom_of_event {place : Nat} {event : Event} (found : script.events[place]? = some event) :
    script.costFrom place = event.cost + script.costFrom (place + 1) := by
  rw [← Array.getElem?_toList] at found
  rw [costFrom, costFrom, List.drop_eq_getElem?_toList_append, found, Option.toList_some,
    List.singleton_append, List.map_cons, List.sum_cons]

theorem costFrom_le {place place' : Nat} (le : place ≤ place') :
    script.costFrom place' ≤ script.costFrom place := by
  obtain ⟨further, rfl⟩ := Nat.exists_eq_add_of_le le
  rw [costFrom, costFrom, ← List.take_append_drop further (script.events.toList.drop place),
    List.drop_drop, List.map_append, List.sum_append]
  exact Nat.le_add_left _ _

end Script

/-! ## What is ahead of a session -/

def LineReveal.left : LineReveal → Nat
  | revealing line shown => line.text.length - shown
  | _ => 0

variable {σ : Type} [Presentation σ] [Audio σ]

/-- the timers that act until nothing holds the session any more, or only a menu does; those that look
after a video in vain do not count -/
def Session.ahead (s : Session σ) : Nat :=
  match s.suspension with
  | none | some (.choice _) => 0
  | some .typing => s.reveal.left + 2
  | some .introCard => s.card.elim 0 CardReveal.left + 1
  | some .sequence => (s.flipbook.elim 0 fun flipbook => flipbook.frames.length) + 1
  | some .autoAdvance | some .waiting | some (.videoWait _) => 1

section
variable {s : Session σ} (game : Game)

theorem ahead_of_free (free : s.suspension = none) : s.ahead = 0 := by
  rw [ahead, free]

theorem ahead_of_line {line : Line} {shown : Nat} (why : s.suspension = some .typing)
    (reveal : s.reveal = .revealing line shown) : s.ahead = line.text.length - shown + 2 := by
  rw [ahead, why, reveal]
  rfl

theorem ahead_of_card {card : CardReveal} (why : s.suspension = some .introCard)
    (shows : s.card = some card) : s.ahead = card.left + 1 := by
  rw [ahead, why, shows]
  rfl

theorem ahead_of_frames {frames : List String} {interval : Nat} {keepLast : Bool}
    (why : s.suspension = some .sequence) (shows : s.flipbook = some ⟨frames, interval, keepLast⟩) :
    s.ahead = frames.length + 1 := by
  rw [ahead, why, shows]
  rfl

theorem ahead_beginCard (lines : List String) (s : Session σ) :
    (s.beginCard game lines).ahead + 1 ≤ (CardReveal.ofLines lines).left + 2 := by
  unfold beginCard
  rcases stepCard_of_card game (s := { ({ s with
      typing := true, introMode := true, waitingForInput := false }.suspend .introCard).onStage fun p =>
        Presentation.showCard (Presentation.showTextbox p false) true with
      cardShown := true, card := some (.ofLines lines) }) rfl with ⟨more, scene, delay, e⟩ | ⟨-, e⟩
  · have left := CardReveal.left_next more
    rw [e]
    show (CardReveal.ofLines lines).next.2.left + 1 + 1 ≤ _
    omega
  · rw [e]
    show 0 + 1 ≤ _
    omega

theorem ahead_execute (cue : Cue) (held : s.isBusy = true → cue.suspends = false) :
    (s.execute game cue).2.ahead + 1 ≤ s.ahead + cue.cost := by
  by_cases isCard : ∃ lines, cue = .introCard lines
  · obtain ⟨lines, rfl⟩ := isCard
    exact Nat.le_trans (ahead_beginCard game lines s) (Nat.le_add_left _ _)
  have outcome := execute_outcome game cue s
  generalize (s.execute game cue).1 = flow at outcome
  generalize (s.execute game cue).2 = s' at outcome ⊢
  cases outcome with
  | quiet _ d =>
    have pos := cue.cost_pos
    obtain ⟨_, _, _, _, rfl⟩ := d
    exact Nat.add_le_add_left pos _
  | video | videoStarted | jumped | noMenu => exact Nat.le_refl _
  | card line lines => exact absurd ⟨_, rfl⟩ isCard
  | noCard => exact absurd ⟨_, rfl⟩ isCard
  | menu | wait | waitVideo | line | sequence => exact Nat.le_add_left _ _

end

/-- at most `n` is ahead of the session, and neither it nor what has been held back leads to a place
before `floor` -/
structure Session.Bounded (game : Game) (s : Session σ) (floor n : Nat) : Prop where
  here : floor ≤ s.position
  held : ∀ cue ∈ s.deferred, ∀ place, cue.target? game.script = some place → floor ≤ place
  cost : game.script.costFrom floor + costOf s.deferred + s.ahead ≤ n

namespace Session.Bounded

variable {game : Game} {s : Session σ} {floor n : Nat}

theorem execute {cue : Cue} {m : Nat} (h : s.Bounded game floor n)
    (held : s.isBusy = true → cue.suspends = false)
    (onward : ∀ place, cue.target? game.script = some place → floor ≤ place)
    (le : n + cue.cost ≤ m + 1) : (s.execute game cue).2.Bounded game floor m := by
  have there := position_execute game cue s
  have deferred := (frame_execute game cue s).2
  have ahead := ahead_execute game cue held
  have cost := h.cost
  refine ⟨?_, ?_, ?_⟩
  · rw [there]
    cases leads : cue.target? game.script with
    | none => exact h.here
    | some place => exact onward place leads
  · rw [deferred]
    exact h.held
  · rw [deferred]
    omega

theorem together {cues : List Cue} {m : Nat} (h : s.Bounded game floor n)
    (onward : ∀ cue ∈ cues, ∀ place, cue.target? game.script = some place → floor ≤ place)
    (le : n + costOf cues ≤ m) : (s.together game cues).Bounded game floor m := by
  induction cues generalizing s n with
  | nil => exact ⟨h.here, h.held, Nat.le_trans h.cost le⟩
  | cons cue cues ih =>
    rw [costOf_cons] at le
    simp only [Session.together]
    split
    · refine ⟨h.here, fun other m => ?_, ?_⟩
      · rcases List.mem_append.1 m with m | m
        · exact h.held other m
        · exact onward other m
      · have cost := h.cost
        show game.script.costFrom floor + costOf (s.deferred ++ cue :: cues) + s.ahead ≤ m
        rw [costOf_append, costOf_cons]
        omega
    · rename_i held
      have pos := cue.cost_pos
      have carried : (s.execute game cue).2.Bounded game floor (n + cue.cost - 1) :=
        h.execute (by simpa using held) (onward cue List.mem_cons_self) (by omega)
      exact ih carried (fun other m => onward other (List.mem_cons_of_mem _ m)) (by omega)

theorem take {event : Event} (h : s.Bounded game floor n) (free : s.isBusy = false)
    (nothing : s.deferred = []) (next : game.script.events[s.position]? = some event) :
    ∃ m, { s with position := s.position + 1 }.Bounded game (s.position + 1) m ∧
      m + costOf event.cues < n := by
  have cost := h.cost
  have from_here : game.script.costFrom s.position ≤ game.script.costFrom floor :=
    Script.costFrom_le h.here
  rw [Script.costFrom_of_event next, Event.cost] at from_here
  rw [nothing, costOf_nil, ahead_of_free (suspension_of_free free)] at cost
  refine ⟨game.script.costFrom (s.position + 1), ⟨Nat.le_refl _, ?_, ?_⟩, by omega⟩
  · show ∀ cue ∈ s.deferred, _
    rw [nothing]
    nofun
  · show game.script.costFrom (s.position + 1) + costOf s.deferred + s.ahead ≤ _
    rw [nothing, costOf_nil, ahead_of_free (suspension_of_free free)]
    exact Nat.le_refl _

end Session.Bounded

def Session.Left (game : Game) (s : Session σ) (n : Nat) : Prop := ∃ floor, s.Bounded game floor n

namespace Session.Left

variable {game : Game} {s s' : Session σ} {n : Nat}

theorem exists_left (game : Game) (s : Session σ) : ∃ n, s.Left game n :=
  ⟨_, 0, Nat.zero_le _, fun _ _ _ _ => Nat.zero_le _, Nat.le_refl _⟩

theorem mono {m : Nat} (h : s.Left game n) (le : n ≤ m) : s.Left game m := by
  obtain ⟨floor, here, held, cost⟩ := h
  exact ⟨floor, here, held, Nat.le_trans cost le⟩

theorem showing {m : Nat} (h : s.Left game n) (position : s'.position = s.position)
    (deferred : s'.deferred = s.deferred) (le : s'.ahead + n ≤ s.ahead + m) : s'.Left game m := by
  obtain ⟨floor, here, held, cost⟩ := h
  refine ⟨floor, position ▸ here, deferred ▸ held, ?_⟩
  rw [deferred]
  omega

theorem ahead_le (h : s.Left game n) : s.ahead ≤ n := by
  obtain ⟨floor, -, -, cost⟩ := h
  omega

theorem turn (forward : game.script.Forward) (h : s.Left game n) :
    (∃ m < n, (s.turn game).session.Left game m) ∨ s.turn game = .rests s := by
  obtain ⟨floor, h⟩ := h
  have turned := turn_turned game s
  generalize s.turnDeeds game = deeds at turned
  generalize s.turn game = turn at turned ⊢
  cases turned with
  | busy | ended => exact .inr rfl
  | @deferred cue cues free held =>
    left
    have pos := cue.cost_pos
    have cost := h.cost
    have onward := h.held
    rw [held] at cost onward
    rw [costOf_cons] at cost
    have later : { s with deferred := cues }.Bounded game floor (n - cue.cost) := by
      refine ⟨h.here, fun other m => onward other (List.mem_cons_of_mem _ m), ?_⟩
      show game.script.costFrom floor + costOf cues + s.ahead ≤ n - cue.cost
      omega
    refine ⟨n - 1, by omega, floor, ?_⟩
    rw [Turn.session_ofFlow]
    exact later.execute (fun busy => absurd (free.symm.trans busy) Bool.false_ne_true)
      (onward cue List.mem_cons_self) (by omega)
  | @single cue free held next =>
    left
    obtain ⟨m, taken, lt⟩ := h.take free held next
    rw [Event.cues_single, costOf_cons, costOf_nil] at lt
    have pos := cue.cost_pos
    refine ⟨m + cue.cost - 1, by omega, s.position + 1, ?_⟩
    rw [Turn.session_ofFlow]
    exact taken.execute (fun busy => absurd (free.symm.trans busy) Bool.false_ne_true)
      (forward _ _ next cue (List.mem_singleton_self cue)) (by omega)
  | @together cues free held next =>
    left
    obtain ⟨m, taken, lt⟩ := h.take free held next
    exact ⟨m + costOf cues, lt, s.position + 1,
      taken.together (fun cue among => forward _ _ next cue among) (Nat.le_refl _)⟩

theorem advanceWithin (forward : game.script.Forward) (h : s.Left game n) :
    ∃ s', s.advanceWithin game (n + 1) = some s' ∧ s'.Left game n := by
  induction n using Nat.strongRecOn generalizing s with
  | ind n ih =>
    have less := h.turn forward
    cases turned : s.turn game with
    | rests s₁ =>
      rw [turned] at less
      refine ⟨s₁, (advanceWithin_of_rests turned n).1, ?_⟩
      rcases less with ⟨m, lt, left⟩ | same
      · exact left.mono (Nat.le_of_lt lt)
      · cases same
        exact h
    | goesOn s₁ =>
      rw [turned] at less
      rcases less with ⟨m, lt, left⟩ | same
      · obtain ⟨s', rested, left'⟩ := ih m lt left
        refine ⟨s', ?_, left'.mono (Nat.le_of_lt lt)⟩
        rw [(advanceWithin_of_goesOn turned n).1]
        exact advanceWithin_mono lt rested
      · cases same

/-- **Where the jumps only lead on, an advance comes to rest.** -/
theorem advance (forward : game.script.Forward) (h : s.Left game n) :
    ∃ s', s.advance game = some s' ∧ s'.Left game n := by
  unfold Session.advance
  split
  · obtain ⟨s', rested, left⟩ := h.advanceWithin forward
    refine ⟨s', ?_, left⟩
    cases within : s.advanceWithin game (s.turns game) with
    | none =>
      rw [never_rests_of_repeated (repeated_of_not_rested within)] at rested
      cases rested
    | some s₁ =>
      rw [← advanceWithin_mono (Nat.le_max_left _ (n + 1)) within]
      exact advanceWithin_mono (Nat.le_max_right _ _) rested
  · exact ⟨s, rfl, h⟩

theorem settle (forward : game.script.Forward) {turn : Turn σ} (h : turn.session.Left game n) :
    ∃ s', turn.settle game = some s' ∧ s'.Left game n := by
  cases turn with
  | rests s => exact ⟨s, rfl, h⟩
  | goesOn s => exact h.advance forward

end Session.Left

/-! ## Timers -/

section
variable {s : Session σ} (game : Game)

theorem ahead_completeLine (completion : Completion) :
    (s.completeLine game completion).ahead ≤ 1 := by
  cases completion with
  | autoAdvance => exact Nat.le_refl 1
  | waitForInput => exact Nat.zero_le 1

theorem ahead_typeTick {line : Line} {shown : Nat} (why : s.suspension = some .typing)
    (reveal : s.reveal = .revealing line shown) : (s.typeTick game).ahead < s.ahead := by
  rw [ahead_of_line why reveal]
  by_cases lt : shown < line.text.length
  · obtain ⟨scene, e⟩ := typeTick_of_lt game reveal lt
    have further : (s.typeTick game).ahead = line.text.length - (shown + 1) + 2 := by
      rw [e]
      exact ahead_of_line (s := { s with scene := scene, reveal := .revealing line (shown + 1) }) why rfl
    omega
  · have past : line.text.toList[shown]? = none := by
      rw [List.getElem?_eq_none_iff, String.length_toList]
      omega
    have done : (s.typeTick game).ahead ≤ 1 := by
      simp only [typeTick, reveal, LineReveal.isRevealing_revealing, if_true, LineReveal.tick, past,
        LineReveal.complete]
      exact ahead_completeLine game _
    omega

theorem ahead_stepCard {card : CardReveal} (why : s.suspension = some .introCard)
    (shows : s.card = some card) : (s.stepCard game).ahead < s.ahead := by
  rw [ahead_of_card why shows]
  rcases stepCard_of_card game shows with ⟨more, scene, delay, e⟩ | ⟨-, e⟩
  · have left := CardReveal.left_next more
    have further : (s.stepCard game).ahead = card.next.2.left + 1 := by
      rw [e]
      exact ahead_of_card (s := { s with scene := scene, card := some card.next.2 }) why rfl
    omega
  · rw [e]
    exact Nat.succ_pos _

theorem ahead_nextFrame {flipbook : Flipbook} (why : s.suspension = some .sequence)
    (shows : s.flipbook = some flipbook) : (s.nextFrame game).session.ahead < s.ahead := by
  obtain ⟨frames, interval, keepLast⟩ := flipbook
  rw [ahead_of_frames why shows]
  cases frames with
  | nil =>
    simp only [nextFrame, shows]
    split <;> exact Nat.succ_pos _
  | cons frame frames =>
    have further : (s.nextFrame game).session.ahead = frames.length + 1 := by
      simp only [nextFrame, shows]
      split <;> exact ahead_of_frames why rfl
    rw [further]
    exact Nat.lt_succ_self _

theorem ahead_resume_lt {why : Suspension} (held : s.suspension = some why)
    (ends : why.timer? ≠ none) : s.resume.ahead < s.ahead := by
  have nothing : s.resume.ahead = 0 := rfl
  rw [nothing, ahead, held]
  cases why with
  | choice => exact absurd rfl ends
  | _ => exact Nat.succ_pos _

/-- the timer that the session waits for leaves less ahead of it, unless it is set again to look after
the video once more -/
theorem ahead_fire {kind : TimerKind} (inMode : s.InMode) (awaits : s.awaits? = some kind) :
    (s.fire game kind).session.ahead < s.ahead ∨
      kind = .videoPoll ∧
        s.fire game kind = .rests (s.schedule game.config.timing.videoPoll .videoPoll) := by
  obtain ⟨why, held, ends⟩ := Option.bind_eq_some_iff.1 awaits
  cases why with
  | choice => cases ends
  | typing =>
    cases ends
    left
    cases reveal : s.reveal with
    | revealing line shown => exact ahead_typeTick game held reveal
    | idle | done =>
      have revealing := inMode.reveal.2 held
      rw [reveal] at revealing
      cases revealing
  | autoAdvance | waiting =>
    cases ends
    exact .inl (ahead_resume_lt held (Option.some_ne_none _))
  | introCard =>
    cases ends
    obtain ⟨card, shows⟩ := Option.isSome_iff_exists.1 (inMode.card.2 held)
    exact .inl (ahead_stepCard game held shows)
  | sequence =>
    cases ends
    obtain ⟨flipbook, shows⟩ := Option.isSome_iff_exists.1 (inMode.flipbook.2 held)
    exact .inl (ahead_nextFrame game held shows)
  | videoWait target =>
    cases ends
    simp only [fire, pollVideo, held]
    split
    · exact .inl (ahead_resume_lt held (Option.some_ne_none _))
    · exact .inr ⟨trivial, rfl⟩

end

/-- **A timer that acts uses something up, or looks after a video in vain.** -/
theorem Session.Left.fire {game : Game} {s : Session σ} {kind : TimerKind} {n : Nat}
    (h : s.Left game n) (inMode : s.InMode) (awaits : s.awaits? = some kind) :
    (∃ m < n, (s.fire game kind).session.Left game m) ∨
      kind = .videoPoll ∧
        s.fire game kind = .rests (s.schedule game.config.timing.videoPoll .videoPoll) := by
  refine (ahead_fire game inMode awaits).imp_left fun lt => ?_
  have le := h.ahead_le
  exact ⟨n - 1, by omega, h.showing (position_fire kind s) (frame_fire game kind s).2 (by omega)⟩

end VisualNovel
