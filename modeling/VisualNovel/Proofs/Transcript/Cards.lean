import Mathlib.Data.List.Perm.Subperm
import VisualNovel.Proofs.Transcript.Intros

/-!
# The text on the cards of a transcript

The lines between a black screen and the background that fades in next go on a card, in their order and
each once. But when another black screen comes before that background, the lines so far are on no card.

* `Lists`                         some texts are those of the lines at certain places, one by one;
* `Converter.InIntro`             the line stands in an intro;
* `Converter.BegunAnew`           another intro is opened before the one of the line is closed;
* `Converter.cards_step`          what a line puts on cards, and what it leaves to later ones;
* `Converter.cards_run`           the lines on the cards of the rest of a transcript;
* `intro_text_on_cards_iff`       the cards hold all text of the intros if and only if none is begun anew;
* `text_of_two_intros`, `text_before_another_intro`   two transcripts, of which the second loses a line.
-/

namespace VisualNovel

open Transcript

/-! ## Lines at certain places -/

namespace Transcript

def textAt (transcript : String) (i : Nat) : String := String.ofList (lineAt transcript i)

/-- the texts are those of the lines at the places with `p`, each once and in their order -/
def Lists (transcript : String) (p : Nat → Prop) (texts : List String) : Prop :=
  ∃ places : List Nat, places.Pairwise (· < ·) ∧ (∀ i, i ∈ places ↔ p i) ∧
    texts = places.map (textAt transcript)

variable {transcript : String} {p q : Nat → Prop} {texts : List String}

/-- some of the lines are as many as all of them only if they are all -/
theorem Lists.eq_of_imp (some : Lists transcript p texts) (all : Lists transcript q texts)
    (imp : ∀ i, p i → q i) {i : Nat} (h : q i) : p i := by
  obtain ⟨places, sorted, mem, rfl⟩ := some
  obtain ⟨places', sorted', mem', same⟩ := all
  have distinct : places.Nodup := sorted.imp Nat.ne_of_lt
  have among : places ⊆ places' := fun j m => (mem' j).2 (imp j ((mem j).1 m))
  have length : places'.length = places.length := by
    have e := congrArg List.length same
    rw [List.length_map, List.length_map] at e
    exact e.symm
  have perm : places.Perm places' :=
    (List.subperm_of_subset distinct among).perm_of_length_le (Nat.le_of_eq length)
  exact (mem i).1 (perm.mem_iff.2 ((mem' i).2 h))

end Transcript

/-! ## Lines in an intro -/

namespace Converter

variable (c : Converter) (transcript : String)

/-- the line at this place is text between a line that opens an intro and the next that closes it -/
def InIntro (i : Nat) : Prop :=
  c.ProseAt transcript i ∧ ∃ o k, o < i ∧ i < k ∧ c.OpensAt transcript o ∧ c.ClosesAt transcript k ∧
    ∀ j, o < j → j < k → ¬ c.ClosesAt transcript j

/-- behind this place an intro is opened before any is closed -/
def BegunAnew (i : Nat) : Prop :=
  ∃ b > i, c.OpensAt transcript b ∧ ∀ j, i < j → j < b → ¬ c.ClosesAt transcript j

/-- from this place on, an intro is closed before any is opened -/
def ClosesNext (i : Nat) : Prop :=
  ∃ k ≥ i, c.ClosesAt transcript k ∧ ∀ j, i ≤ j → j < k → ¬ c.OpensAt transcript j

/-- the line at this place goes on a card: an intro is open, and none is opened before it is closed -/
def KeptAt (i : Nat) : Prop :=
  c.ProseAt transcript i ∧ (c.openedAt transcript i).isSome = true ∧ c.ClosesNext transcript (i + 1)

variable {c transcript} {i : Nat}

theorem closesNext_of_closesAt (closes : c.ClosesAt transcript i) : c.ClosesNext transcript i :=
  ⟨i, Nat.le_refl i, closes, fun j _ _ => by omega⟩

theorem not_closesNext_of_opensAt (opens : c.OpensAt transcript i) : ¬ c.ClosesNext transcript i := by
  rintro ⟨k, le, closes, none⟩
  by_cases first : k = i
  · exact opens.not_closesAt (first ▸ closes)
  · exact none i (Nat.le_refl i) (by omega) opens

theorem closesNext_succ_iff (opens : ¬ c.OpensAt transcript i) (closes : ¬ c.ClosesAt transcript i) :
    c.ClosesNext transcript (i + 1) ↔ c.ClosesNext transcript i := by
  constructor
  · rintro ⟨k, le, closes', none⟩
    refine ⟨k, by omega, closes', fun j from' before => ?_⟩
    by_cases first : j = i
    · rwa [first]
    · exact none j (by omega) before
  · rintro ⟨k, le, closes', none⟩
    have later : k ≠ i := fun first => closes (first ▸ closes')
    exact ⟨k, by omega, closes', fun j from' before => none j (by omega) before⟩

theorem not_closesNext_beyond : ¬ c.ClosesNext transcript (lineCount transcript) := by
  rintro ⟨k, beyond, closes, -⟩
  exact absurd closes.lt (Nat.not_lt.2 beyond)

theorem keptAt_iff : c.KeptAt transcript i ↔ c.InIntro transcript i ∧ ¬ c.BegunAnew transcript i := by
  constructor
  · rintro ⟨prose, opened, next⟩
    obtain ⟨o, before, opens, none⟩ := openedAt_isSome_iff.1 opened
    obtain ⟨k, from', closes, unopened⟩ := next
    -- the intro is closed by the first line that can
    have exists' : ∃ k, i + 1 ≤ k ∧ c.ClosesAt transcript k := ⟨k, from', closes⟩
    obtain ⟨after, first⟩ := Nat.find_spec exists'
    have least (j : Nat) (lt : j < Nat.find exists') (le : i + 1 ≤ j) : ¬ c.ClosesAt transcript j :=
      fun earlier => Nat.find_min exists' lt ⟨le, earlier⟩
    have le : Nat.find exists' ≤ k := Nat.find_le ⟨from', closes⟩
    refine ⟨⟨prose, o, Nat.find exists', before, after, opens, first, fun j behind until' => ?_⟩, ?_⟩
    · rcases Nat.lt_trichotomy j i with lt | rfl | gt
      · exact none j behind lt
      · exact prose.not_closesAt
      · exact least j until' gt
    · rintro ⟨b, behind, opens', unclosed⟩
      have reached : b ≤ Nat.find exists' := by
        by_contra beyond
        exact unclosed _ after (by omega) first
      by_cases last : b = k
      · exact opens'.not_closesAt (last ▸ closes)
      · exact unopened b behind (by omega) opens'
  · rintro ⟨⟨prose, o, k, before, after, opens, closes, none⟩, anew⟩
    refine ⟨prose, openedAt_isSome_iff.2 ⟨o, before, opens, fun j behind lt => ?_⟩,
      k, after, closes, fun b behind lt opens' => ?_⟩
    · exact none j behind (by omega)
    · exact anew ⟨b, behind, opens', fun j gt lt' => none j (by omega) (by omega)⟩

/-! ## Runs -/

theorem keptAt_iff_of_prose {s : State}
    (agrees : s.intro.map OpenIntro.openedAt = c.openedAt transcript i)
    (prose : c.ProseAt transcript i) :
    c.KeptAt transcript i ↔ s.intro.isSome = true ∧ c.ClosesNext transcript (i + 1) := by
  rw [KeptAt, ← agrees, Option.isSome_map]
  exact and_iff_right prose

open Classical in
/-- the lines that the open intro has collected, if they will go on a card -/
noncomputable def due (c : Converter) (transcript : String) (i : Nat) (s : State) : List String :=
  if c.ClosesNext transcript i then OpenIntro.collected s.intro else []

open Classical in
noncomputable def keptFrom (c : Converter) (transcript : String) (i m : Nat) : List String :=
  ((List.range' i m).filter (c.KeptAt transcript)).map (textAt transcript)

theorem due_of_closed {s : State} (closed : s.intro = none) : c.due transcript i s = [] := by
  rw [due, closed]
  exact ite_self _

theorem keptFrom_succ (m : Nat) :
    c.keptFrom transcript i (m + 1) = c.keptFrom transcript i 1 ++ c.keptFrom transcript (i + 1) m := by
  rw [keptFrom, keptFrom, keptFrom, ← List.map_append, ← List.filter_append]
  rfl

theorem keptFrom_one_of_pos (goes : c.KeptAt transcript i) :
    c.keptFrom transcript i 1 = [textAt transcript i] := by
  rw [keptFrom, List.range'_one, List.filter_cons_of_pos (by simpa using goes)]
  rfl

theorem keptFrom_one_of_neg (passed : ¬ c.KeptAt transcript i) : c.keptFrom transcript i 1 = [] := by
  rw [keptFrom, List.range'_one, List.filter_cons_of_neg (by simpa using passed)]
  rfl

theorem keptFrom_one_of_not_prose (prose : ¬ c.ProseAt transcript i) : c.keptFrom transcript i 1 = [] :=
  keptFrom_one_of_neg fun kept => prose kept.1

theorem cards_step {s : State} (agrees : s.intro.map OpenIntro.openedAt = c.openedAt transcript i) :
    (c.lineStep transcript i s).1.flatMap Cue.cardLines ++
        c.due transcript (i + 1) (c.lineStep transcript i s).2 =
      c.due transcript i s ++ c.keptFrom transcript i 1 := by
  by_cases closes : c.ClosesAt transcript i
  · have opens : ¬ c.OpensAt transcript i := fun opens => opens.not_closesAt closes
    have closed : (c.lineStep transcript i s).2.intro = none := by
      rw [intro_lineStep, if_neg opens, if_pos closes]
    rw [cards_lineStep, if_pos closes, due_of_closed closed, due, if_pos (closesNext_of_closesAt closes),
      keptFrom_one_of_not_prose fun prose => prose.not_closesAt closes]
  rw [cards_lineStep, if_neg closes, List.nil_append, due, intro_lineStep]
  by_cases opens : c.OpensAt transcript i
  · -- the lines of the intro in whose place this one is opened are lost
    rw [if_pos opens, due, if_neg (not_closesNext_of_opensAt opens),
      keptFrom_one_of_not_prose fun prose => prose.not_opensAt opens]
    exact ite_self _
  rw [if_neg opens, if_neg closes, due, ← closesNext_succ_iff opens closes]
  by_cases prose : c.ProseAt transcript i
  · have kept := keptAt_iff_of_prose agrees prose
    rw [if_pos prose]
    cases opened : s.intro with
    | none =>
      have passed : ¬ c.KeptAt transcript i := by simp [kept, opened]
      rw [keptFrom_one_of_neg passed, List.append_nil, Option.map_none]
    | some intro =>
      rw [Option.map_some, OpenIntro.collected_collect]
      by_cases next : c.ClosesNext transcript (i + 1)
      · have goes : c.KeptAt transcript i := by simp [kept, opened, next]
        rw [if_pos next, if_pos next, keptFrom_one_of_pos goes, textAt]
      · have passed : ¬ c.KeptAt transcript i := by simp [kept, next]
        rw [if_neg next, if_neg next, keptFrom_one_of_neg passed, List.append_nil]
  · rw [if_neg prose, keptFrom_one_of_not_prose prose, List.append_nil]

/-- the lines on the cards of the rest of a transcript: those that are left to it, and those of the rest
that are kept -/
theorem cards_run (m : Nat) {s : State} (total : i + m = lineCount transcript)
    (agrees : s.intro.map OpenIntro.openedAt = c.openedAt transcript i) :
    (c.run s (c.takenFrom transcript i m)).1.flatMap Cue.cardLines =
      c.due transcript i s ++ c.keptFrom transcript i m := by
  induction m generalizing i s with
  | zero =>
    rw [Nat.add_zero] at total
    rw [due, total, if_neg not_closesNext_beyond]
    rfl
  | succ m ih =>
    have behind := ih (s := (c.lineStep transcript i s).2) (by omega) (openedAt_lineStep agrees)
    rw [run_takenFrom_succ, List.flatMap_append, behind, ← List.append_assoc, cards_step agrees,
      List.append_assoc, ← keptFrom_succ]

open Classical in
/-- the lines on the cards of a transcript are those that are kept -/
theorem cards_of_convert {events : List Event} (converted : c.convert transcript = .ok events) :
    Lists transcript (c.KeptAt transcript) (events.flatMap Event.cardLines) := by
  refine ⟨(List.range (lineCount transcript)).filter (c.KeptAt transcript),
    List.pairwise_lt_range.filter _, fun i => ?_, ?_⟩
  · rw [List.mem_filter, List.mem_range, decide_eq_true_iff]
    exact and_iff_right_of_imp fun kept => lt_of_lineAt kept.1.2.nonempty
  · have start : ({} : State).intro.map OpenIntro.openedAt = c.openedAt transcript 0 := rfl
    have cards := cards_run (lineCount transcript) (Nat.zero_add _) start
    rw [due_of_closed rfl, List.nil_append, keptFrom, ← List.range_eq_range'] at cards
    have single (cue : Cue) : (Event.single cue).cardLines = cue.cardLines := List.append_nil _
    rw [convert, convertCues_eq] at converted
    cases closed : (c.run {} (c.takenFrom transcript 0 (lineCount transcript))).2.intro with
    | some intro =>
      rw [closed] at converted
      cases converted
    | none =>
      rw [closed] at converted
      cases converted
      rw [List.flatMap_map, ← cards]
      exact congrArg (List.flatMap · _) (funext single)

end Converter

open Converter

/-- **Which text of the intros is on the cards.** Whenever a transcript is converted, its cards hold, each
once and in their order, the lines that stand in an intro, but for those that another intro is opened
behind before theirs is closed; no other line is on a card. So the cards hold all lines of the intros if
and only if no intro with text in it is begun anew. -/
theorem intro_text_on_cards_iff (c : Converter) {transcript : String} {events : List Event}
    (converted : c.convert transcript = .ok events) :
    Lists transcript (fun i => c.InIntro transcript i ∧ ¬ c.BegunAnew transcript i)
      (events.flatMap Event.cardLines) ∧
    (Lists transcript (c.InIntro transcript) (events.flatMap Event.cardLines) ↔
      ∀ i, c.InIntro transcript i → ¬ c.BegunAnew transcript i) := by
  have kept := cards_of_convert converted
  have same : c.KeptAt transcript = fun i => c.InIntro transcript i ∧ ¬ c.BegunAnew transcript i :=
    funext fun i => propext keptAt_iff
  rw [same] at kept
  refine ⟨kept, fun all i inIntro => ?_, fun none => ?_⟩
  · exact (kept.eq_of_imp all (fun j h => h.1) inIntro).2
  · have whole : (fun i => c.InIntro transcript i ∧ ¬ c.BegunAnew transcript i) = c.InIntro transcript :=
      funext fun i => propext (and_iff_left_of_imp (none i))
    rwa [whole] at kept

/-- two intros, the first with a divider, a command and a name among its lines -/
theorem text_of_two_intros :
    let c : Converter := { backgrounds := ["Sky"] }
    let transcript :=
      "[Black Screen]\n__\n Once\n[Flash]\nMia:\n[Fade in Sky]\n[Black Screen]\nOnce\n[Fade in Sky]"
    ∃ events, c.convert transcript = .ok events ∧
      events.flatMap Event.cardLines = ["Once", "Mia:", "Once"] ∧
      Lists transcript (c.InIntro transcript) (events.flatMap Event.cardLines) := by
  intro c transcript
  have succeeds : (c.convert transcript).toOption.map (·.flatMap Event.cardLines) =
      some ["Once", "Mia:", "Once"] := by decide +kernel
  have opening : ∀ o < lineCount transcript, Opens (lineAt transcript o) → o = 0 ∨ o = 6 := by
    decide +kernel
  have closing : c.ClosesAt transcript 5 := by decide +kernel
  have once : ∀ i, c.InIntro transcript i → ¬ c.BegunAnew transcript i := by
    rintro i ⟨-, o, k, before, after, opens, -, unclosed⟩ ⟨b, behind, opens', unclosed'⟩
    have first := opening o opens.lt opens.2
    have second := opening b opens'.lt opens'.2
    by_cases early : i < 5
    · exact unclosed' 5 early (by omega) closing
    · exact unclosed 5 (by omega) (by omega) closing
  cases converted : c.convert transcript with
  | error e =>
    rw [converted] at succeeds
    cases succeeds
  | ok events =>
    rw [converted] at succeeds
    exact ⟨events, rfl, Option.some.inj succeeds, (intro_text_on_cards_iff c converted).2.2 once⟩

/-- the line of the first intro is on no card -/
theorem text_before_another_intro :
    let c : Converter := {}
    let transcript := "[Black Screen]\nOnce\n[Black Screen]\nTwice\n[Fade in Defense_Lobby]"
    ∃ events, c.convert transcript = .ok events ∧ events.flatMap Event.cardLines = ["Twice"] ∧
      c.InIntro transcript 1 ∧ textAt transcript 1 = "Once" ∧
      ¬ Lists transcript (c.InIntro transcript) (events.flatMap Event.cardLines) := by
  intro c transcript
  have succeeds : (c.convert transcript).toOption.map (·.flatMap Event.cardLines) = some ["Twice"] := by
    decide +kernel
  have unmarked : ∀ j < lineCount transcript, ¬ c.Marks (lineAt transcript j) := by decide +kernel
  have counts (i : Nat) : c.Counts transcript i :=
    .inr fun j marks => unmarked j (lt_of_lineAt marks.1) marks
  have opens : Opens (lineAt transcript 0) ∧ Opens (lineAt transcript 2) := by decide +kernel
  have closes : Closes c (lineAt transcript 4) := by decide +kernel
  have unclosed : ∀ j < 4, ¬ Closes c (lineAt transcript j) := by decide +kernel
  have inIntro : c.InIntro transcript 1 :=
    ⟨⟨counts 1, by decide +kernel⟩, 0, 4, by omega, by omega, ⟨counts 0, opens.1⟩, ⟨counts 4, closes⟩,
      fun j _ lt closes => unclosed j lt closes.2⟩
  have anew : c.BegunAnew transcript 1 :=
    ⟨2, by omega, ⟨counts 2, opens.2⟩, fun j _ lt closes => unclosed j (by omega) closes.2⟩
  cases converted : c.convert transcript with
  | error e =>
    rw [converted] at succeeds
    cases succeeds
  | ok events =>
    rw [converted] at succeeds
    refine ⟨events, rfl, Option.some.inj succeeds, inIntro, by decide +kernel, fun all => ?_⟩
    have kept := (cards_of_convert converted).eq_of_imp all (fun j kept => (keptAt_iff.1 kept).1) inIntro
    exact (keptAt_iff.1 kept).2 anew

end VisualNovel
