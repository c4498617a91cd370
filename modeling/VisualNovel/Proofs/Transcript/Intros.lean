import VisualNovel.Proofs.Transcript.Places

/-!
# Intros of a transcript

A black screen opens an intro, and a background that fades in closes it; the lines in between go on a
card. An intro that is never closed is an error.

* `Opens`, `Closes`, `IsProse`    the lines that open and close an intro, and those for its card;
* `Converter.intro_line`          what a line does to the open intro;
* `Converter.cards_line`          which lines it puts on a card;
* `Converter.openedAt`            the number of the line that opened the intro, if one is open;
* `unclosed_intros_fail`          which transcripts are not converted.
-/

namespace VisualNovel

open Transcript Text

/-- the lines of a card -/
def Cue.cardLines : Cue → List String
  | .introCard lines => lines
  | _ => []

def Event.cardLines (event : Event) : List String := event.cues.flatMap Cue.cardLines

/-! ## Lines that open and close an intro -/

namespace Transcript

variable {c : Converter} {line command : List Char}

def Opens (line : List Char) : Prop := IsCommand line "Black Screen".toList

/-- the command fades in a background, and no music -/
def FadesBackgroundIn (c : Converter) (command : List Char) : Prop :=
  ¬ ".ogg".toList <:+: command ∧
    ∃ target, command = "Fade in".toList ++ target ∧ NamesBackground c (trim target)

def Closes (c : Converter) (line : List Char) : Prop :=
  ∃ command, IsCommand line command ∧ FadesBackgroundIn c command

/-- the line is neither blank nor a divider nor a command -/
structure IsProse (line : List Char) : Prop where
  nonempty : line ≠ []
  undivided : ¬ "__".toList <+: line
  uncommanded : ∀ command, ¬ IsCommand line command

theorem fadesIn?_isSome_iff : (fadesIn? c command).isSome = true ↔ FadesBackgroundIn c command := by
  have music : isMusic command = false ↔ ¬ ".ogg".toList <:+: command := by
    rw [← holds_iff, Bool.not_eq_true]
    rfl
  rw [Option.isSome_iff_ne_none, Ne, fadesIn?_eq_none_iff, FadesBackgroundIn, ← music]
  simp only [not_forall, not_not, exists_prop]

theorem IsCommand.unique {other : List Char} (h : IsCommand line command) (h' : IsCommand line other) :
    command = other := by
  have found := Converter.wholeCommand?_eq_some_iff.2 h
  rw [Converter.wholeCommand?_eq_some_iff.2 h'] at found
  exact (Option.some.inj found).symm

theorem IsCommand.nonempty (h : IsCommand line command) : line ≠ [] := by
  obtain ⟨body, -, rfl, -⟩ := h
  exact List.cons_ne_nil _ _

theorem not_fades_blackScreen : ¬ FadesBackgroundIn c "Black Screen".toList := by
  rintro ⟨-, target, e, -⟩
  exact absurd (congrArg List.head? e) (by simp)

theorem Opens.not_closes (opens : Opens line) : ¬ Closes c line := by
  rintro ⟨command, same, fades⟩
  rw [← opens.unique same] at fades
  exact not_fades_blackScreen fades

theorem closes_iff : ((Converter.wholeCommand? line).any fun command => (fadesIn? c command).isSome) = true ↔
    Closes c line := by
  simp only [Option.any_eq_true, Converter.wholeCommand?_eq_some_iff, fadesIn?_isSome_iff]
  rfl

instance (line command : List Char) : Decidable (IsCommand line command) :=
  decidable_of_iff _ Converter.wholeCommand?_eq_some_iff

instance (line : List Char) : Decidable (Opens line) := inferInstanceAs (Decidable (IsCommand _ _))

instance (c : Converter) (line : List Char) : Decidable (Closes c line) := decidable_of_iff _ closes_iff

instance (line : List Char) : Decidable (IsProse line) :=
  decidable_of_iff (line ≠ [] ∧ ¬ "__".toList <+: line ∧ Converter.wholeCommand? line = none) <| by
    rw [Converter.wholeCommand?_eq_none_iff]
    exact ⟨fun ⟨nonempty, undivided, uncommanded⟩ => ⟨nonempty, undivided, uncommanded⟩,
      fun ⟨nonempty, undivided, uncommanded⟩ => ⟨nonempty, undivided, uncommanded⟩⟩

/-! ## Cues without a card -/

theorem cardLines_of_characterCue? {cue : Cue} (found : characterCue? command = some cue) :
    cue.cardLines = [] := by
  obtain ⟨name, action, rfl⟩ := character_of_characterCue? found
  rfl

theorem cardLines_of_fadesOut? {cue : Cue} (found : fadesOut? c command = some cue) :
    cue.cardLines = [] := by
  obtain ⟨target, -, found⟩ := Option.bind_eq_some_iff.1 found
  split at found
  · cases found
    rfl
  · obtain ⟨name, -, rfl⟩ := Option.map_eq_some_iff.1 found
    rfl

theorem cardLines_of_plays? {cue : Cue} (found : plays? command = some cue) : cue.cardLines = [] := by
  obtain ⟨name, -, rfl⟩ := Option.map_eq_some_iff.1 found
  rfl

theorem cardLines_of_token? {speaker : Option String} {token : Token} {cue : Cue}
    (found : Converter.token? speaker token = some cue) : cue.cardLines = [] := by
  cases token with
  | text body =>
    cases found
    rfl
  | command body => exact cardLines_of_characterCue? found

/-! ## The open intro -/

def OpenIntro.collected (intro : Option OpenIntro) : List String := (intro.map OpenIntro.lines).getD []

theorem OpenIntro.cardLines_card (intro : Option OpenIntro) :
    (OpenIntro.card intro).flatMap Cue.cardLines = OpenIntro.collected intro := by
  rcases intro with _ | ⟨openedAt, _ | ⟨line, lines⟩⟩
  · rfl
  · rfl
  · exact List.append_nil _

def OpenIntro.collect (line : List Char) (intro : OpenIntro) : OpenIntro :=
  { intro with lines := intro.lines ++ [String.ofList line] }

theorem OpenIntro.collected_collect (line : List Char) (intro : OpenIntro) :
    collected (some (intro.collect line)) = collected (some intro) ++ [String.ofList line] := rfl

end Transcript

namespace Converter

variable (c : Converter) (s : State) (number : Nat) {line command : List Char}

theorem line_of_command (h : IsCommand line command) : c.line s number line = c.command s number command := by
  obtain ⟨body, inner, rfl, rfl⟩ := h
  exact c.line_command s number inner

theorem line_opens (opens : Opens line) :
    c.line s number line = ([.background "black"], { s with intro := some { openedAt := number } }) := by
  rw [c.line_of_command s number opens]
  rfl

theorem line_closes (closes : Closes c line) :
    ∃ name, c.line s number line =
      (OpenIntro.card s.intro ++ [.background name], { s with intro := none }) := by
  obtain ⟨command, whole, fades⟩ := closes
  obtain ⟨name, found⟩ := Option.isSome_iff_exists.1 (fadesIn?_isSome_iff.2 fades)
  have other : command ≠ "Black Screen".toList := by
    rintro rfl
    exact not_fades_blackScreen fades
  refine ⟨name, ?_⟩
  rw [c.line_of_command s number whole, Converter.command, if_neg other, found]

theorem command_passes (other : command ≠ "Black Screen".toList) (fades : ¬ FadesBackgroundIn c command) :
    (c.command s number command).2 = s ∧ (c.command s number command).1.flatMap Cue.cardLines = [] := by
  have none : fadesIn? c command = none := by
    rw [← Option.not_isSome_iff_eq_none, fadesIn?_isSome_iff]
    exact fades
  rw [Converter.command, if_neg other, none]
  dsimp only
  split
  · rename_i out
    exact ⟨rfl, by simp [cardLines_of_fadesOut? out]⟩
  · rename_i played
    exact ⟨rfl, by simp [cardLines_of_plays? played]⟩
  · refine ⟨rfl, ?_⟩
    split
    · rfl
    · refine List.flatMap_eq_nil_iff.2 fun cue m => ?_
      exact cardLines_of_characterCue? (Option.mem_toList.1 m)

/-- a line that neither opens nor closes an intro and is not collected -/
theorem line_passes (opens : ¬ Opens line) (closes : ¬ Closes c line) (prose : IsProse line → s.intro = none)
    (nonempty : line ≠ []) :
    (c.line s number line).2.intro = s.intro ∧ (c.line s number line).1.flatMap Cue.cardLines = [] := by
  by_cases divider : "__".toList <+: line
  · have passed : c.line s number line = ([], s) := by
      rw [Converter.line, if_pos (startsWith_iff.2 divider)]
    rw [passed]
    exact ⟨rfl, rfl⟩
  cases whole : wholeCommand? line with
  | some command =>
    have isCommand := wholeCommand?_eq_some_iff.1 whole
    have other : command ≠ "Black Screen".toList := by
      rintro rfl
      exact opens isCommand
    have passed := c.command_passes s number other fun fades => closes ⟨command, isCommand, fades⟩
    rw [c.line_of_command s number isCommand]
    exact ⟨congrArg State.intro passed.1, passed.2⟩
  | none =>
    have closed : s.intro = none := prose ⟨nonempty, divider, wholeCommand?_eq_none_iff.1 whole⟩
    have start : startsWith "__" line = false := startsWith_eq_false_iff.2 divider
    simp only [Converter.line, start, whole, closed, Bool.false_eq_true, if_false]
    split
    · exact ⟨rfl, rfl⟩
    · refine ⟨closed, List.flatMap_eq_nil_iff.2 fun cue m => ?_⟩
      obtain ⟨token, -, found⟩ := List.mem_filterMap.1 m
      exact cardLines_of_token? found

theorem line_collects {intro : OpenIntro} (opened : s.intro = some intro) (prose : IsProse line) :
    c.line s number line = ([], { s with intro := some (intro.collect line) }) := by
  have start : startsWith "__" line = false := startsWith_eq_false_iff.2 prose.undivided
  have whole : wholeCommand? line = none := wholeCommand?_eq_none_iff.2 prose.uncommanded
  simp only [Converter.line, start, whole, opened, Bool.false_eq_true, if_false, OpenIntro.collect]

theorem intro_line (nonempty : line ≠ []) :
    (c.line s number line).2.intro =
      if Opens line then some { openedAt := number } else if Closes c line then none
      else if IsProse line then s.intro.map (.collect line) else s.intro := by
  by_cases opens : Opens line
  · rw [if_pos opens, c.line_opens s number opens]
  by_cases closes : Closes c line
  · obtain ⟨name, e⟩ := c.line_closes s number closes
    rw [if_neg opens, if_pos closes, e]
  rw [if_neg opens, if_neg closes]
  by_cases prose : IsProse line
  · rw [if_pos prose]
    cases opened : s.intro with
    | none => rw [(c.line_passes s number opens closes (fun _ => opened) nonempty).1, opened, Option.map_none]
    | some intro => rw [c.line_collects s number opened prose, Option.map_some]
  · rw [if_neg prose, (c.line_passes s number opens closes (fun h => absurd h prose) nonempty).1]

theorem cards_line (nonempty : line ≠ []) :
    (c.line s number line).1.flatMap Cue.cardLines =
      if Closes c line then OpenIntro.collected s.intro else [] := by
  by_cases closes : Closes c line
  · obtain ⟨name, e⟩ := c.line_closes s number closes
    rw [if_pos closes, e, List.flatMap_append, OpenIntro.cardLines_card]
    exact List.append_nil _
  rw [if_neg closes]
  by_cases opens : Opens line
  · rw [c.line_opens s number opens]
    rfl
  by_cases prose : IsProse line
  · cases opened : s.intro with
    | none => exact (c.line_passes s number opens closes (fun _ => opened) nonempty).2
    | some intro =>
      rw [c.line_collects s number opened prose]
      rfl
  · exact (c.line_passes s number opens closes (fun h => absurd h prose) nonempty).2

/-! ## Places -/

variable (transcript : String)

/-- the line at this place counts and opens an intro -/
def OpensAt (i : Nat) : Prop := c.Counts transcript i ∧ Opens (lineAt transcript i)

/-- the line at this place counts and closes the intro -/
def ClosesAt (i : Nat) : Prop := c.Counts transcript i ∧ Closes c (lineAt transcript i)

/-- the line at this place counts and goes on a card if an intro is open -/
def ProseAt (i : Nat) : Prop := c.Counts transcript i ∧ IsProse (lineAt transcript i)

instance (i : Nat) : Decidable (c.OpensAt transcript i) := inferInstanceAs (Decidable (_ ∧ _))

instance (i : Nat) : Decidable (c.ClosesAt transcript i) := inferInstanceAs (Decidable (_ ∧ _))

instance (i : Nat) : Decidable (c.ProseAt transcript i) := inferInstanceAs (Decidable (_ ∧ _))

/-- the number of the line that opened the intro, if one is open before the line at this place -/
def openedAt : Nat → Option Nat
  | 0 => none
  | i + 1 =>
    if c.OpensAt transcript i then some (i + 1) else if c.ClosesAt transcript i then none
    else openedAt i

variable {c transcript} {i k : Nat}

theorem OpensAt.not_closesAt (opens : c.OpensAt transcript i) : ¬ c.ClosesAt transcript i :=
  fun closes => opens.2.not_closes closes.2

theorem ProseAt.not_opensAt (prose : c.ProseAt transcript i) : ¬ c.OpensAt transcript i :=
  fun opens => prose.2.uncommanded _ opens.2

theorem ProseAt.not_closesAt (prose : c.ProseAt transcript i) : ¬ c.ClosesAt transcript i := by
  rintro ⟨-, command, whole, -⟩
  exact prose.2.uncommanded command whole

theorem OpensAt.nonempty (opens : c.OpensAt transcript i) : lineAt transcript i ≠ [] :=
  opens.2.nonempty

theorem ClosesAt.nonempty (closes : c.ClosesAt transcript i) : lineAt transcript i ≠ [] := by
  obtain ⟨-, command, whole, -⟩ := closes
  exact whole.nonempty

theorem OpensAt.lt (opens : c.OpensAt transcript i) : i < lineCount transcript :=
  lt_of_lineAt opens.nonempty

theorem ClosesAt.lt (closes : c.ClosesAt transcript i) : i < lineCount transcript :=
  lt_of_lineAt closes.nonempty

theorem openedAt_eq_some_iff :
    c.openedAt transcript i = some k ↔ ∃ o < i, k = o + 1 ∧ c.OpensAt transcript o ∧
      ∀ j, o < j → j < i → ¬ c.OpensAt transcript j ∧ ¬ c.ClosesAt transcript j := by
  induction i with
  | zero =>
    constructor
    · nofun
    · rintro ⟨o, lt, -⟩
      exact absurd lt (Nat.not_lt_zero o)
  | succ i ih =>
    rw [openedAt]
    split
    · rename_i opens
      constructor
      · rintro e
        cases e
        exact ⟨i, by omega, rfl, opens, fun j _ _ => by omega⟩
      · rintro ⟨o, lt, rfl, opens', none⟩
        by_cases last : o = i
        · rw [last]
        · exact absurd opens (none i (by omega) (by omega)).1
    rename_i opens
    split
    · rename_i closes
      constructor
      · nofun
      · rintro ⟨o, lt, rfl, opens', none⟩
        by_cases last : o = i
        · exact absurd (last ▸ opens') opens
        · exact absurd closes (none i (by omega) (by omega)).2
    · rename_i closes
      rw [ih]
      constructor
      · rintro ⟨o, lt, rfl, opens', none⟩
        refine ⟨o, by omega, rfl, opens', fun j after before => ?_⟩
        by_cases last : j = i
        · rw [last]
          exact ⟨opens, closes⟩
        · exact none j after (by omega)
      · rintro ⟨o, lt, rfl, opens', none⟩
        have earlier : o ≠ i := fun last => opens (last ▸ opens')
        exact ⟨o, by omega, rfl, opens', fun j after before => none j after (by omega)⟩

/-- an intro is open as long as none has been closed since one was opened -/
theorem openedAt_isSome_iff :
    (c.openedAt transcript i).isSome = true ↔ ∃ o < i, c.OpensAt transcript o ∧
      ∀ j, o < j → j < i → ¬ c.ClosesAt transcript j := by
  rw [Option.isSome_iff_exists]
  constructor
  · rintro ⟨k, opened⟩
    obtain ⟨o, lt, -, opens, none⟩ := openedAt_eq_some_iff.1 opened
    exact ⟨o, lt, opens, fun j after before => (none j after before).2⟩
  · rintro ⟨o, lt, opens, none⟩
    -- the intro that is open is the last one that was opened
    have le := Nat.le_findGreatest (P := c.OpensAt transcript) (n := i - 1) (by omega) opens
    have last := Nat.findGreatest_spec (P := c.OpensAt transcript) (n := i - 1) (by omega) opens
    have bound := Nat.findGreatest_le (P := c.OpensAt transcript) (i - 1)
    refine ⟨_, openedAt_eq_some_iff.2 ⟨_, by omega, rfl, last, fun j after before => ⟨?_, ?_⟩⟩⟩
    · exact Nat.findGreatest_is_greatest after (by omega)
    · exact none j (by omega) before

/-! ## Runs -/

variable {s : State}

theorem intro_lineStep (s : State) :
    (c.lineStep transcript i s).2.intro =
      if c.OpensAt transcript i then some { openedAt := i + 1 } else if c.ClosesAt transcript i then none
      else if c.ProseAt transcript i then s.intro.map (.collect (lineAt transcript i)) else s.intro := by
  by_cases taken : c.Counts transcript i ∧ lineAt transcript i ≠ []
  · rw [lineStep, if_pos taken, c.intro_line s (i + 1) taken.2]
    simp only [OpensAt, ClosesAt, ProseAt, taken.1, true_and]
  · have opens : ¬ c.OpensAt transcript i := fun opens => taken ⟨opens.1, opens.nonempty⟩
    have closes : ¬ c.ClosesAt transcript i := fun closes => taken ⟨closes.1, closes.nonempty⟩
    have prose : ¬ c.ProseAt transcript i := fun prose => taken ⟨prose.1, prose.2.nonempty⟩
    rw [lineStep, if_neg taken, if_neg opens, if_neg closes, if_neg prose]

theorem cards_lineStep (s : State) :
    (c.lineStep transcript i s).1.flatMap Cue.cardLines =
      if c.ClosesAt transcript i then OpenIntro.collected s.intro else [] := by
  by_cases taken : c.Counts transcript i ∧ lineAt transcript i ≠ []
  · rw [lineStep, if_pos taken, c.cards_line s (i + 1) taken.2]
    simp only [ClosesAt, taken.1, true_and]
  · have closes : ¬ c.ClosesAt transcript i := fun closes => taken ⟨closes.1, closes.nonempty⟩
    rw [lineStep, if_neg taken, if_neg closes]
    rfl

/-- the state before the line at a place knows which intro is open -/
theorem openedAt_lineStep (agrees : s.intro.map OpenIntro.openedAt = c.openedAt transcript i) :
    (c.lineStep transcript i s).2.intro.map OpenIntro.openedAt = c.openedAt transcript (i + 1) := by
  rw [intro_lineStep, openedAt]
  split
  · rfl
  split
  · rfl
  split
  · rw [Option.map_map, ← agrees]
    rfl
  · exact agrees

theorem openedAt_run (m : Nat) (agrees : s.intro.map OpenIntro.openedAt = c.openedAt transcript i) :
    (c.run s (c.takenFrom transcript i m)).2.intro.map OpenIntro.openedAt =
      c.openedAt transcript (i + m) := by
  induction m generalizing i s with
  | zero => exact agrees
  | succ m ih =>
    rw [run_takenFrom_succ]
    have behind := ih (openedAt_lineStep agrees)
    rwa [Nat.add_right_comm, Nat.add_assoc] at behind

theorem convert_eq_error_iff {number : Nat} :
    c.convert transcript = .error (.unclosedIntro number) ↔
      c.openedAt transcript (lineCount transcript) = some number := by
  have start : ({} : State).intro.map OpenIntro.openedAt = c.openedAt transcript 0 := rfl
  have ran := openedAt_run (lineCount transcript) start
  rw [Nat.zero_add] at ran
  rw [convert, convertCues_eq, ← ran]
  cases (c.run {} (c.takenFrom transcript 0 (lineCount transcript))).2.intro with
  | none =>
    constructor
    · intro e
      cases e
    · intro e
      cases e
  | some intro =>
    constructor
    · intro e
      cases e
      rfl
    · intro e
      cases e
      rfl

theorem convert_error_iff :
    (∃ error, c.convert transcript = .error error) ↔
      (c.openedAt transcript (lineCount transcript)).isSome = true := by
  rw [Option.isSome_iff_exists]
  constructor
  · rintro ⟨⟨number⟩, e⟩
    exact ⟨number, convert_eq_error_iff.1 e⟩
  · rintro ⟨number, e⟩
    exact ⟨_, convert_eq_error_iff.2 e⟩

end Converter

open Converter

/-- **Intros that are never closed.** A transcript is not converted if and only if some line that counts
opens an intro and no later one closes it. The number that is reported is then that of the last line that
opens an intro, counted from 1 in the whole transcript. What stands before the start marker makes no
difference to this, nor to what a transcript is converted into. -/
theorem unclosed_intros_fail (c : Converter) (transcript : String) :
    ((∃ error, c.convert transcript = .error error) ↔
      ∃ o, c.OpensAt transcript o ∧ ∀ k > o, ¬ c.ClosesAt transcript k) ∧
    (∀ number, c.convert transcript = .error (.unclosedIntro number) →
      ∃ o, number = o + 1 ∧ c.OpensAt transcript o ∧ ∀ k > o, ¬ c.OpensAt transcript k) ∧
    ∀ before rest, transcript = before ++ "\n" ++ rest →
      (∀ i, ¬ c.Marks (lineAt (before ++ "\n") i)) → (∃ i, c.Marks (lineAt rest i)) →
      c.convert transcript = (c.convert rest).mapError (·.later (lineCount (before ++ "\n"))) := by
  refine ⟨?_, fun number failed => ?_, ?_⟩
  · rw [convert_error_iff, openedAt_isSome_iff]
    constructor
    · rintro ⟨o, -, opens, none⟩
      exact ⟨o, opens, fun k after closes => none k after closes.lt closes⟩
    · rintro ⟨o, opens, none⟩
      exact ⟨o, opens.lt, opens, fun k after _ => none k after⟩
  · obtain ⟨o, -, rfl, opens, none⟩ := openedAt_eq_some_iff.1 (convert_eq_error_iff.1 failed)
    exact ⟨o, rfl, opens, fun k after later => (none k after later.lt).1 later⟩
  · rintro before rest rfl unmarked marked
    exact c.convert_append unmarked marked

/-- music that fades in closes no intro, and a black screen before the start opens none -/
theorem intro_left_open_behind_notes :
    let c : Converter := {}
    let before := "Notes\n[Black Screen]"
    let rest := "Episode 1\n[ Black Screen ]\nOnce\n[Fade in Defense_Lobby.ogg]"
    c.convert rest = .error (.unclosedIntro 2) ∧
      c.convert (before ++ "\n" ++ rest) = .error (.unclosedIntro 4) := by
  intro c before rest
  have never : ∀ k < lineCount rest, ¬ c.ClosesAt rest k := by decide +kernel
  have once : ∀ o < lineCount rest, c.OpensAt rest o → o = 1 := by decide +kernel
  have unmarked : ∀ i < lineCount (before ++ "\n"), ¬ c.Marks (lineAt (before ++ "\n") i) := by decide +kernel
  have count : lineCount (before ++ "\n") = 2 := by decide +kernel
  have same := (unclosed_intros_fail c (before ++ "\n" ++ rest)).2.2 before rest rfl
    (fun i marks => unmarked i (lt_of_lineAt marks.1) marks) ⟨0, by decide +kernel⟩
  obtain ⟨⟨number⟩, failed⟩ := (unclosed_intros_fail c rest).1.2
    ⟨1, by decide +kernel, fun k _ closes => never k closes.lt closes⟩
  obtain ⟨o, rfl, opens, -⟩ := (unclosed_intros_fail c rest).2.1 number failed
  rw [once o opens.lt opens] at failed
  rw [failed, count] at same
  exact ⟨failed, same⟩

end VisualNovel
