import Mathlib.Data.List.Basic
import Mathlib.Data.List.GetD
import Mathlib.Data.Nat.Find
import VisualNovel.Proofs.Transcript.Commands

/-!
# The lines of a transcript by their places

The lines of a transcript have places, from 0 on. A converter takes those that are not blank and do not
stand before the start marker, in their order; a line is numbered from 1 on, whatever stands before it.

* `lineAt`                          the line at a place;
* `Converter.Counts`                it does not stand before the start marker;
* `Converter.fromStart_numbered`    the lines that a converter takes, by their places;
* `Converter.run_takenFrom_succ`    a run over them, one place after the other;
* `Converter.convert_append`        what stands before the start marker only changes the numbers of lines.
-/

namespace VisualNovel

open Text

namespace Text

theorem linesFrom_append (line before rest : List Char) :
    linesFrom line (before ++ '\n' :: rest) = linesFrom line (before ++ ['\n']) ++ linesFrom [] rest := by
  induction before generalizing line with
  | nil =>
    simp only [List.nil_append, linesFrom_lf, linesFrom, List.isEmpty_nil, if_true, List.singleton_append]
  | cons c before ih =>
    by_cases feed : c = '\n'
    · simp only [List.cons_append, feed, linesFrom_lf, ih]
    · simp only [List.cons_append, linesFrom, if_neg feed, ih]

theorem lines_append (before rest : List Char) :
    lines (before ++ '\n' :: rest) = lines (before ++ ['\n']) ++ lines rest :=
  linesFrom_append [] before rest

end Text

/-! ## Places -/

namespace Transcript

def lineCount (transcript : String) : Nat := (lines transcript.toList).length

/-- the line at this place, without the blanks at its ends; nothing beyond the last line -/
def lineAt (transcript : String) (i : Nat) : List Char := trim ((lines transcript.toList).getD i [])

theorem lineAt_of_le {transcript : String} {i : Nat} (beyond : lineCount transcript ≤ i) :
    lineAt transcript i = [] := by
  rw [lineAt, List.getD_eq_default _ _ beyond]
  rfl

theorem lt_of_lineAt {transcript : String} {i : Nat} (line : lineAt transcript i ≠ []) :
    i < lineCount transcript := by
  by_contra beyond
  exact line (lineAt_of_le (Nat.le_of_not_lt beyond))

def entryAt (transcript : String) (i : Nat) : Option (Nat × List Char) :=
  if lineAt transcript i = [] then none else some (i + 1, lineAt transcript i)

theorem numbered_eq (transcript : String) :
    Converter.numbered transcript = (List.range (lineCount transcript)).filterMap (entryAt transcript) := by
  have places : (lines transcript.toList).zipIdx =
      (List.range (lineCount transcript)).map fun i => ((lines transcript.toList).getD i [], i) := by
    refine List.ext_getElem (by simp [lineCount]) fun i inside _ => ?_
    have lt : i < (lines transcript.toList).length := by simpa using inside
    simp [List.getElem?_eq_getElem lt]
  rw [Converter.numbered, places, List.filterMap_map]
  refine List.filterMap_congr fun i _ => ?_
  show (if (lineAt transcript i).isEmpty then none else _) = entryAt transcript i
  simp only [List.isEmpty_iff, entryAt]
  rfl

end Transcript

open Transcript

namespace Converter

variable (c : Converter) (transcript : String)

/-! ## The start -/

/-- the line starts with the start marker -/
def Marks (line : List Char) : Prop := line ≠ [] ∧ c.startMarker.toList <+: line

/-- the line at this place does not stand before the first that starts with the start marker; if none
does, every line counts -/
def Counts (i : Nat) : Prop :=
  (∃ j ≤ i, c.Marks (lineAt transcript j)) ∨ ∀ j, ¬ c.Marks (lineAt transcript j)

instance (line : List Char) : Decidable (c.Marks line) := inferInstanceAs (Decidable (_ ∧ _))

instance (i : Nat) : Decidable (c.Counts transcript i) :=
  decidable_of_iff ((∃ j ≤ i, c.Marks (lineAt transcript j)) ∨
      ∀ j < lineCount transcript, ¬ c.Marks (lineAt transcript j)) <|
    or_congr_right ⟨fun none j marks => none j (lt_of_lineAt marks.1) marks, fun none j _ => none j⟩

/-- the line at this place, if it is one that the converter takes -/
def takenAt (i : Nat) : Option (Nat × List Char) :=
  if c.Counts transcript i then entryAt transcript i else none

def takenFrom (n m : Nat) : List (Nat × List Char) := (List.range' n m).filterMap (c.takenAt transcript)

theorem fromStart_of_mem {entries : List (Nat × List Char)}
    (marked : ∃ line ∈ entries, startsWith c.startMarker line.2 = true) :
    c.fromStart entries = entries.dropWhile fun line => !startsWith c.startMarker line.2 := by
  unfold fromStart
  split
  · rename_i none
    obtain ⟨line, m, starts⟩ := marked
    have dropped := List.dropWhile_eq_nil_iff.1 none line m
    rw [starts] at dropped
    cases dropped
  · rfl

theorem fromStart_of_forall {entries : List (Nat × List Char)}
    (unmarked : ∀ line ∈ entries, startsWith c.startMarker line.2 = false) :
    c.fromStart entries = entries := by
  have none : (entries.dropWhile fun line => !startsWith c.startMarker line.2) = [] := by
    refine List.dropWhile_eq_nil_iff.2 fun line m => ?_
    rw [unmarked line m]
    rfl
  rw [fromStart, none]

theorem numbered_eq_takenFrom (counts : ∀ i, c.Counts transcript i) :
    numbered transcript = c.takenFrom transcript 0 (lineCount transcript) := by
  rw [numbered_eq, takenFrom, List.range_eq_range']
  refine List.filterMap_congr fun i _ => ?_
  rw [takenAt, if_pos (counts i)]

variable {transcript} in
theorem startsWith_of_entryAt {i : Nat} {entry : Nat × List Char}
    (found : entryAt transcript i = some entry) :
    startsWith c.startMarker entry.2 = true ↔ c.Marks (lineAt transcript i) := by
  unfold entryAt at found
  split at found
  · cases found
  · rename_i line
    cases found
    rw [startsWith_iff]
    exact (and_iff_right line).symm

theorem mem_numbered_of_marks {i : Nat} (marks : c.Marks (lineAt transcript i)) :
    ∃ line ∈ numbered transcript, startsWith c.startMarker line.2 = true := by
  have found : entryAt transcript i = some (i + 1, lineAt transcript i) := if_neg marks.1
  refine ⟨_, ?_, (c.startsWith_of_entryAt found).2 marks⟩
  rw [numbered_eq]
  exact List.mem_filterMap.2 ⟨i, List.mem_range.2 (lt_of_lineAt marks.1), found⟩

theorem startsWith_of_unmarked (unmarked : ∀ i, ¬ c.Marks (lineAt transcript i)) :
    ∀ line ∈ numbered transcript, startsWith c.startMarker line.2 = false := by
  intro line m
  rw [numbered_eq] at m
  obtain ⟨i, -, found⟩ := List.mem_filterMap.1 m
  rw [Bool.eq_false_iff, Ne, c.startsWith_of_entryAt found]
  exact unmarked i

/-- lines before the first with the start marker are dropped -/
theorem dropWhile_numbered {first : Nat} (marks : c.Marks (lineAt transcript first))
    (unmarked : ∀ i < first, ¬ c.Marks (lineAt transcript i)) :
    (numbered transcript).dropWhile (fun line => !startsWith c.startMarker line.2) =
      c.takenFrom transcript 0 (lineCount transcript) := by
  obtain ⟨more, count⟩ : ∃ more, lineCount transcript = first + (more + 1) :=
    Nat.exists_eq_add_of_lt (lt_of_lineAt marks.1)
  have parts : List.range' 0 (lineCount transcript) =
      List.range' 0 first ++ List.range' first (more + 1) := by
    have joined := List.range'_append_1 (s := 0) (m := first) (n := more + 1)
    rw [Nat.zero_add] at joined
    rw [count, joined]
  have before : (List.range' 0 first).filterMap (c.takenAt transcript) = [] := by
    refine List.filterMap_eq_nil_iff.2 fun i m => if_neg ?_
    have lt : i < first := by simpa using m
    rintro (⟨j, le, markedEarlier⟩ | none)
    · exact unmarked j (Nat.lt_of_le_of_lt le lt) markedEarlier
    · exact none first marks
  have behind : (List.range' first (more + 1)).filterMap (c.takenAt transcript) =
      (List.range' first (more + 1)).filterMap (entryAt transcript) := by
    refine List.filterMap_congr fun i m => if_pos (.inl ⟨first, ?_, marks⟩)
    exact (List.mem_range'_1.1 m).1
  have dropped : ∀ line ∈ (List.range' 0 first).filterMap (entryAt transcript),
      (!startsWith c.startMarker line.2) = true := by
    intro line m
    obtain ⟨i, among, found⟩ := List.mem_filterMap.1 m
    have lt : i < first := by simpa using among
    rw [Bool.not_eq_true', Bool.eq_false_iff, Ne, c.startsWith_of_entryAt found]
    exact unmarked i lt
  have found : entryAt transcript first = some (first + 1, lineAt transcript first) := if_neg marks.1
  rw [numbered_eq, takenFrom, List.range_eq_range', parts, List.filterMap_append, List.filterMap_append,
    before, behind, List.nil_append, List.dropWhile_append_of_pos dropped, List.range'_succ,
    List.filterMap_cons_some found, List.dropWhile_cons_of_neg]
  rw [Bool.not_eq_true', Bool.not_eq_false, c.startsWith_of_entryAt found]
  exact marks

theorem fromStart_numbered :
    c.fromStart (numbered transcript) = c.takenFrom transcript 0 (lineCount transcript) := by
  by_cases marked : ∃ i, c.Marks (lineAt transcript i)
  · rw [c.fromStart_of_mem (c.mem_numbered_of_marks transcript (Nat.find_spec marked))]
    exact c.dropWhile_numbered transcript (Nat.find_spec marked) fun i lt => Nat.find_min marked lt
  · rw [not_exists] at marked
    rw [c.fromStart_of_forall (c.startsWith_of_unmarked transcript marked)]
    exact c.numbered_eq_takenFrom transcript fun i => .inr marked

/-! ## Runs -/

variable {c} in
theorem run_cons (s : State) (entry : Nat × List Char) (entries : List (Nat × List Char)) :
    c.run s (entry :: entries) =
      ((c.line s entry.1 entry.2).1 ++ (c.run (c.line s entry.1 entry.2).2 entries).1,
        (c.run (c.line s entry.1 entry.2).2 entries).2) := rfl

/-- what the line at a place is made into, and what it leaves to the lines after it -/
def lineStep (i : Nat) (s : State) : List Cue × State :=
  if c.Counts transcript i ∧ lineAt transcript i ≠ [] then c.line s (i + 1) (lineAt transcript i) else ([], s)

theorem run_takenFrom_succ (s : State) (n m : Nat) :
    c.run s (c.takenFrom transcript n (m + 1)) =
      ((c.lineStep transcript n s).1 ++
          (c.run (c.lineStep transcript n s).2 (c.takenFrom transcript (n + 1) m)).1,
        (c.run (c.lineStep transcript n s).2 (c.takenFrom transcript (n + 1) m)).2) := by
  rw [takenFrom, List.range'_succ]
  by_cases taken : c.Counts transcript n ∧ lineAt transcript n ≠ []
  · have found : c.takenAt transcript n = some (n + 1, lineAt transcript n) := by
      rw [takenAt, if_pos taken.1, entryAt, if_neg taken.2]
    rw [lineStep, if_pos taken, List.filterMap_cons_some found, run_cons]
    rfl
  · have passed : c.takenAt transcript n = none := by
      rw [takenAt, entryAt]
      by_cases counts : c.Counts transcript n
      · rw [if_pos counts, if_pos (by_contra fun line => taken ⟨counts, line⟩)]
      · rw [if_neg counts]
    rw [lineStep, if_neg taken, List.filterMap_cons_none passed]
    rfl

theorem convertCues_eq :
    c.convertCues transcript =
      match (c.run {} (c.takenFrom transcript 0 (lineCount transcript))).2.intro with
      | none => .ok (c.run {} (c.takenFrom transcript 0 (lineCount transcript))).1
      | some intro => .error (.unclosedIntro intro.openedAt) := by
  rw [convertCues, fromStart_numbered]
  split
  · rename_i ran
    rw [ran]
  · rename_i ran
    rw [ran]

end Converter

/-! ## Numbers of lines -/

/-- the error with a number that is higher by `n` -/
def TranscriptError.later (n : Nat) : TranscriptError → TranscriptError
  | unclosedIntro line => unclosedIntro (line + n)

namespace Transcript

def OpenIntro.later (n : Nat) (intro : OpenIntro) : OpenIntro := { intro with openedAt := intro.openedAt + n }

def State.later (n : Nat) (s : State) : State := { s with intro := s.intro.map (·.later n) }

theorem OpenIntro.card_later (n : Nat) (intro : Option OpenIntro) :
    OpenIntro.card (intro.map (·.later n)) = OpenIntro.card intro := by
  rcases intro with _ | ⟨openedAt, _ | ⟨line, lines⟩⟩ <;> rfl

theorem numbered_append (before rest : String) :
    Converter.numbered (before ++ "\n" ++ rest) = Converter.numbered (before ++ "\n") ++
      (Converter.numbered rest).map fun line => (line.1 + lineCount (before ++ "\n"), line.2) := by
  have all : lines (before ++ "\n" ++ rest).toList =
      lines (before ++ "\n").toList ++ lines rest.toList := by
    simp only [String.toList_append, List.append_assoc]
    exact lines_append _ _
  rw [Converter.numbered, all, List.zipIdx_append, List.filterMap_append, Nat.zero_add]
  congr 1
  rw [List.zipIdx_eq_map_add, List.filterMap_map, Converter.numbered, List.map_filterMap]
  refine List.filterMap_congr fun entry _ => ?_
  show (if (trim entry.1).isEmpty then none else some _) = Option.map _ (if _ then none else some _)
  split
  · rfl
  · rw [Option.map_some]
    have sum : lineCount (before ++ "\n") + entry.2 + 1 = entry.2 + 1 + lineCount (before ++ "\n") := by omega
    exact congrArg (fun n => some (n, trim entry.1)) sum

end Transcript

namespace Converter

variable (c : Converter)

theorem command_later (n : Nat) (s : State) (number : Nat) (command : List Char) :
    c.command (s.later n) (number + n) command =
      ((c.command s number command).1, (c.command s number command).2.later n) := by
  unfold Converter.command
  split
  · rfl
  split
  · rw [State.later, OpenIntro.card_later]
    rfl
  · split <;> rfl

theorem line_later (n : Nat) (s : State) (number : Nat) (line : List Char) :
    c.line (s.later n) (number + n) line = ((c.line s number line).1, (c.line s number line).2.later n) := by
  unfold Converter.line
  split
  · rfl
  split
  · exact c.command_later n s number _
  · cases opened : s.intro with
    | some intro => simp [State.later, OpenIntro.later, opened]
    | none =>
      simp only [State.later, opened, Option.map_none]
      split
      · simp
      · simp [opened]

theorem run_later (n : Nat) (s : State) (entries : List (Nat × List Char)) :
    c.run (s.later n) (entries.map fun line => (line.1 + n, line.2)) =
      ((c.run s entries).1, (c.run s entries).2.later n) := by
  induction entries generalizing s with
  | nil => rfl
  | cons entry entries ih =>
    rw [List.map_cons, run_cons, run_cons, line_later, ih]

variable {before rest : String}

/-- What stands before the start marker does not matter: if no line before it starts with the start
marker, the rest of a transcript is converted into the same events as by itself; and if an intro is never
closed, its line is numbered in the whole transcript. -/
theorem convert_append (unmarked : ∀ i, ¬ c.Marks (lineAt (before ++ "\n") i))
    (marked : ∃ i, c.Marks (lineAt rest i)) :
    c.convert (before ++ "\n" ++ rest) =
      (c.convert rest).mapError (·.later (lineCount (before ++ "\n"))) := by
  obtain ⟨i, marks⟩ := marked
  have found := c.mem_numbered_of_marks rest marks
  have dropped : ∀ line ∈ numbered (before ++ "\n"), (!startsWith c.startMarker line.2) = true := by
    intro line m
    rw [c.startsWith_of_unmarked _ unmarked line m]
    rfl
  have foundBehind : ∃ line ∈ numbered (before ++ "\n" ++ rest), startsWith c.startMarker line.2 = true := by
    obtain ⟨line, m, starts⟩ := found
    refine ⟨(line.1 + lineCount (before ++ "\n"), line.2), ?_, starts⟩
    rw [numbered_append]
    exact List.mem_append_right _ (List.mem_map_of_mem m)
  have taken : c.fromStart (numbered (before ++ "\n" ++ rest)) =
      (c.fromStart (numbered rest)).map fun line => (line.1 + lineCount (before ++ "\n"), line.2) := by
    rw [c.fromStart_of_mem foundBehind, c.fromStart_of_mem found, numbered_append,
      List.dropWhile_append_of_pos dropped, List.dropWhile_map]
    rfl
  have ran := c.run_later (lineCount (before ++ "\n")) {} (c.fromStart (numbered rest))
  have start : ({} : State).later (lineCount (before ++ "\n")) = {} := rfl
  rw [start, ← taken] at ran
  rw [convert, convert, convertCues, convertCues, ran]
  obtain ⟨cues, speaker, _ | intro⟩ := c.run {} (c.fromStart (numbered rest))
  · rfl
  · rfl

end Converter

end VisualNovel
