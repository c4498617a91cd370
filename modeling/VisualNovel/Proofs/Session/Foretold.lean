import VisualNovel.Proofs.Session.Patience
import VisualNovel.Proofs.Session.Rest
import VisualNovel.Stage.Recording

/-!
# What is known of a cue before it is carried out

A block decides by the cue alone whether the cue would suspend playback, before it is carried out. What
the cue then does has two more words for it: it ends the turn, and it leaves the session busy. The three
say the same of all cues but two: a menu without options suspends nothing, and a card without lines ends
the turn and leaves nothing busy.

* `Cue.isEmptyMenu`, `Cue.isBlankCard`   the two exceptions;
* `Cue.halts_iff`, `Cue.holds_iff`       what a cue does, by what is known of it;
* `Session.Parted`                       which cues of a block are carried out, and which are held back;
* `suspension_foretold`                  where the three agree, and what a block makes of it.
-/

set_option linter.unusedSectionVars false

namespace VisualNovel

open Session

/-! ## Cues -/

namespace Cue

/-- a menu without options is passed over -/
def isEmptyMenu : Cue → Bool
  | choice [] => true
  | _ => false

theorem halts_iff {cue : Cue} : cue.halts = true ↔ cue.suspends = true ∧ cue.isEmptyMenu = false := by
  cases cue with
  | choice options => cases options <;> simp [halts, suspends, isEmptyMenu]
  | _ => simp [halts, suspends, isEmptyMenu]

theorem holds_iff {cue : Cue} : cue.holds = true ↔ cue.halts = true ∧ cue.isBlankCard = false := by
  cases cue with
  | introCard lines => cases lines <;> simp [holds, halts, suspends, isBlankCard]
  | _ => simp [holds, halts, suspends, isBlankCard]

theorem suspends_of_isEmptyMenu {cue : Cue} (empty : cue.isEmptyMenu = true) :
    cue.suspends = true ∧ cue.halts = false := by
  cases cue with
  | choice options =>
    cases options with
    | nil => exact ⟨rfl, rfl⟩
    | cons => cases empty
  | _ => cases empty

theorem halts_of_isBlankCard {cue : Cue} (blank : cue.isBlankCard = true) :
    cue.halts = true ∧ cue.holds = false := by
  refine ⟨?_, holds_of_isBlankCard blank⟩
  cases cue with
  | introCard => rfl
  | _ => cases blank

end Cue

variable {σ : Type} [Presentation σ] [Audio σ]

section
variable (game : Game) {s : Session σ}

theorem flow_execute_iff (cue : Cue) (s : Session σ) :
    (s.execute game cue).1 = .hold ↔ cue.halts = true := by
  rw [flow_execute]
  cases cue.halts <;> simp

/-! ## Blocks -/

/-- no cue that would suspend stands behind one that holds playback -/
def HoldsLast (cues : List Cue) : Prop :=
  ∀ before cue after, cues = before ++ cue :: after → before.any Cue.holds = true →
    cue.suspends = false

/-- of the cues of a block, `done` are carried out and `rest` are held back -/
structure Session.Parted (s : Session σ) (cues done rest : List Cue) : Prop where
  split : cues = done ++ rest
  carried : s.together game cues = { s.executeAll game done with deferred := s.deferred ++ rest }
  last : HoldsLast done
  kept : ∀ cue after, rest = cue :: after → done.any Cue.holds = true ∧ cue.suspends = true

theorem HoldsLast.tail {cue : Cue} {cues : List Cue} (h : HoldsLast (cue :: cues)) :
    HoldsLast cues := by
  intro before next after split holds
  refine h (cue :: before) next after (by rw [split, List.cons_append]) ?_
  rw [List.any_cons, holds, Bool.or_true]

theorem HoldsLast.of_append {cues cues' : List Cue} (h : HoldsLast (cues ++ cues')) :
    HoldsLast cues := by
  intro before cue after split
  exact h before cue (after ++ cues') (by rw [split]; simp)

theorem busy_executeAll_of_busy {cues : List Cue} (busy : s.isBusy = true)
    (quiet : ∀ cue ∈ cues, cue.suspends = false) : (s.executeAll game cues).isBusy = true := by
  induction cues generalizing s with
  | nil => exact busy
  | cons cue cues ih =>
    obtain ⟨first, others⟩ := List.forall_mem_cons.1 quiet
    exact ih ((busy_execute_of_not_suspends game first).trans busy) others

/-- cues that are carried out together leave the session busy if one of them holds playback -/
theorem busy_executeAll {cues : List Cue} (free : s.isBusy = false) (last : HoldsLast cues) :
    (s.executeAll game cues).isBusy = cues.any Cue.holds := by
  induction cues generalizing s with
  | nil => exact free
  | cons cue cues ih =>
    have busy := (busy_execute_of_free game cue free).1
    rw [List.any_cons]
    cases holds : cue.holds with
    | false =>
      rw [Bool.false_or]
      exact ih (busy.trans holds) last.tail
    | true =>
      rw [Bool.true_or]
      show ((s.execute game cue).2.executeAll game cues).isBusy = true
      refine busy_executeAll_of_busy game (busy.trans holds) fun next mem => ?_
      obtain ⟨before, after, split⟩ := List.append_of_mem mem
      exact last (cue :: before) next after (by rw [split, List.cons_append])
        (by rw [List.any_cons, holds, Bool.true_or])

/-- on a busy session, a block is carried out up to the first cue that would suspend -/
theorem parted_of_busy (cues : List Cue) (busy : s.isBusy = true) :
    ∃ done rest, cues = done ++ rest ∧
      s.together game cues = { s.executeAll game done with deferred := s.deferred ++ rest } ∧
      (∀ cue ∈ done, cue.suspends = false) ∧
      ∀ cue after, rest = cue :: after → cue.suspends = true := by
  induction cues generalizing s with
  | nil => exact ⟨[], [], rfl, by rw [List.append_nil]; rfl, by simp, nofun⟩
  | cons cue cues ih =>
    simp only [together, busy, Bool.true_and]
    cases quiet : cue.suspends with
    | true =>
      refine ⟨[], cue :: cues, rfl, rfl, by simp, fun next after split => ?_⟩
      rwa [← (List.cons.inj split).1]
    | false =>
      obtain ⟨done, rest, split, carried, all, kept⟩ :=
        ih ((busy_execute_of_not_suspends (s := s) game quiet).trans busy)
      rw [(frame_execute game cue s).2] at carried
      exact ⟨cue :: done, rest, by rw [split, List.cons_append], carried,
        List.forall_mem_cons.2 ⟨quiet, all⟩, kept⟩

/-- on a session that nothing holds, a block is carried out up to the first cue that would suspend
behind one that holds playback -/
theorem exists_parted (cues : List Cue) (free : s.isBusy = false) :
    ∃ done rest, s.Parted game cues done rest := by
  induction cues generalizing s with
  | nil =>
    exact ⟨[], [], rfl, by rw [List.append_nil]; rfl, fun before _ _ split => by simp at split, nofun⟩
  | cons cue cues ih =>
    have busy := (busy_execute_of_free game cue free).1
    have on : s.together game (cue :: cues) = (s.execute game cue).2.together game cues := by
      simp [together, free]
    cases holds : cue.holds with
    | true =>
      obtain ⟨done, rest, split, carried, all, kept⟩ := parted_of_busy game cues (busy.trans holds)
      rw [(frame_execute game cue s).2] at carried
      refine ⟨cue :: done, rest, by rw [split, List.cons_append], on.trans carried, ?_, ?_⟩
      · intro before next after split held
        cases before with
        | nil => cases held
        | cons _ before =>
          have mem : next ∈ done := by rw [(List.cons.inj split).2]; simp
          exact all next mem
      · intro next after split
        exact ⟨by rw [List.any_cons, holds, Bool.true_or], kept next after split⟩
    | false =>
      obtain ⟨done, rest, split, carried, last, kept⟩ := ih (busy.trans holds)
      rw [(frame_execute game cue s).2] at carried
      refine ⟨cue :: done, rest, by rw [split, List.cons_append], on.trans carried, ?_, ?_⟩
      · intro before next after split held
        cases before with
        | nil => cases held
        | cons first before =>
          obtain ⟨rfl, split'⟩ := List.cons.inj split
          rw [List.any_cons, holds, Bool.false_or] at held
          exact last before next after split' held
      · intro next after split
        rw [List.any_cons, holds, Bool.false_or]
        exact kept next after split

end

/-! ## Foretold and carried out -/

/-- **A cue suspends as it is known to beforehand, but for empty menus and blank cards.** On a session
that nothing holds, a cue ends the turn exactly if it is known to suspend and is no menu without
options, and it leaves the session busy exactly if it ends the turn and is no card without lines; the
three agree on a cue exactly if it is neither. Of a block, first cues are carried out and the others are
held back. The session is busy behind each of them exactly if one so far holds playback, and from then
on none is carried out that would suspend; what is held back begins with a cue that would suspend,
behind one that really holds playback. In a block with no menu without options and no card without
lines, then, the cue that is held back first would hold playback, and none that would suspend is carried
out behind one that has ended a turn. -/
theorem suspension_foretold (game : Game) {s : Session σ} (free : s.isBusy = false) :
    (∀ cue,
      ((s.execute game cue).1 = .hold ↔ cue.suspends = true ∧ cue.isEmptyMenu = false) ∧
      ((s.execute game cue).2.isBusy = true ↔
        (s.execute game cue).1 = .hold ∧ cue.isBlankCard = false) ∧
      (((cue.suspends = true ↔ (s.execute game cue).1 = .hold) ∧
          ((s.execute game cue).1 = .hold ↔ (s.execute game cue).2.isBusy = true)) ↔
        cue.isEmptyMenu = false ∧ cue.isBlankCard = false)) ∧
    ∀ cues, ∃ done rest, s.Parted game cues done rest ∧
      (∀ before after, done = before ++ after →
        (s.executeAll game before).isBusy = before.any Cue.holds) ∧
      ((∀ cue ∈ cues, cue.isEmptyMenu = false ∧ cue.isBlankCard = false) →
        (∀ cue after, rest = cue :: after →
          ∀ s' : Session σ, s'.isBusy = false → (s'.execute game cue).2.isBusy = true) ∧
        ∀ before cue after, done = before ++ cue :: after →
          ((s.executeAll game before).execute game cue).1 = .hold →
          ∀ next ∈ after, next.suspends = false) := by
  refine ⟨fun cue => ?_, fun cues => ?_⟩
  · have busy := (busy_execute_of_free game cue free).1
    rw [flow_execute_iff, busy, Cue.holds_iff, Cue.halts_iff]
    refine ⟨Iff.rfl, Iff.rfl, ?_⟩
    cases empty : cue.isEmptyMenu with
    | true => simp [(Cue.suspends_of_isEmptyMenu empty).1]
    | false =>
      cases blank : cue.isBlankCard with
      | true => simpa using (Cue.halts_iff.1 (Cue.halts_of_isBlankCard blank).1).1
      | false => simp
  · obtain ⟨done, rest, parted⟩ := exists_parted game cues free
    refine ⟨done, rest, parted, fun before after split => ?_, fun plain => ⟨?_, ?_⟩⟩
    · exact busy_executeAll game free (HoldsLast.of_append (split ▸ parted.last))
    · intro cue after split s' free'
      obtain ⟨menu, card⟩ := plain cue (by rw [parted.split, split]; simp)
      rw [(busy_execute_of_free game cue free').1, Cue.holds_iff, Cue.halts_iff]
      exact ⟨⟨(parted.kept cue after split).2, menu⟩, card⟩
    · intro before cue after split flow next mem
      have card := (plain cue (by rw [parted.split, split]; simp)).2
      have holds := Cue.holds_iff.2 ⟨(flow_execute_iff game cue _).1 flow, card⟩
      obtain ⟨between, after, rfl⟩ := List.append_of_mem mem
      refine parted.last (before ++ cue :: between) next after (by simp [split]) ?_
      rw [List.any_append, List.any_cons, holds, Bool.true_or, Bool.or_true]

/-- a block of two pauses and a sound on a session that has just been started: the first pause holds, as
it is known to, and the block is parted behind it -/
theorem suspension_foretold_pause :
    let s : Session RecordingStage := { Session.ofStage {} with started := true }
    s.isBusy = false ∧
    ((s.execute {} (.wait 1)).1 = .hold ↔
      (Cue.wait 1).suspends = true ∧ (Cue.wait 1).isEmptyMenu = false) ∧
    ∃ done rest, s.Parted {} [.wait 1, .sound "ding", .wait 2] done rest ∧
      ∀ before after, done = before ++ after →
        (s.executeAll {} before).isBusy = before.any Cue.holds := by
  intro s
  have free : s.isBusy = false := rfl
  obtain ⟨cues, blocks⟩ := suspension_foretold {} free
  obtain ⟨done, rest, parted, busy, -⟩ := blocks [.wait 1, .sound "ding", .wait 2]
  exact ⟨free, (cues (.wait 1)).1, done, rest, parted, busy⟩

/-- behind a menu without options, which is known to suspend and does not, a card without lines ends
the turn and leaves the session free; and a block holds such a menu back behind its line, and with it a
sound -/
theorem menu_held_back_in_vain :
    let game : Game := { script := .ofEvents [.single (.choice []), .single (.introCard [])] }
    let noisy : Game :=
      { script := .ofEvents [.together [.dialogue ⟨"Hi", none, false, false⟩, .choice [], .sound "ding"]]
        assets := .ofList [("ding", "ding.wav")] }
    (∃ deeds, ∃ s : Session RecordingStage, Plays game deeds s ∧
      s.started = true ∧ s.isBusy = false ∧
      (Cue.choice []).suspends = true ∧ (s.execute game (.choice [])).1 = .goOn ∧
        (s.execute game (.choice [])).2.isBusy = false ∧
      (Cue.introCard []).suspends = true ∧ (s.execute game (.introCard [])).1 = .hold ∧
        (s.execute game (.introCard [])).2.isBusy = false) ∧
    ∃ deeds, ∃ s : Session RecordingStage, Plays noisy deeds s ∧
      s.deferred.map Cue.kind = ["choice", "sfx"] ∧ s.stage.sound.sounds = [] := by
  refine ⟨⟨_, _, ⟨{}, .operation .start .refl rfl⟩, ?_⟩, _, _, ⟨{}, .operation .start .refl rfl⟩, ?_⟩
  · decide +kernel
  · decide +kernel

end VisualNovel
