/-!
# Fragments of a text

Does a text hold, start with or end with another; what remains once that start or end is taken off.

* `holds_iff`        `holds` decides `<:+:`;
* `dropStart?_iff`   `dropStart?` inverts putting a text in front.
-/

namespace VisualNovel.Text

/-- `part` stands somewhere in the text -/
def holds (part : List Char) : List Char → Bool
  | [] => part.isEmpty
  | c :: cs => part.isPrefixOf (c :: cs) || holds part cs

theorem holds_iff {part cs : List Char} : holds part cs = true ↔ part <:+: cs := by
  induction cs with
  | nil => simp [holds, List.infix_nil]
  | cons c cs ih => simp [holds, ih, List.infix_cons_iff]

/-- what follows `start`, if the text starts with it -/
def dropStart? : List Char → List Char → Option (List Char)
  | [], cs => some cs
  | _ :: _, [] => none
  | s :: start, c :: cs => if s = c then dropStart? start cs else none

theorem dropStart?_iff {start cs rest : List Char} :
    dropStart? start cs = some rest ↔ cs = start ++ rest := by
  induction start generalizing cs with
  | nil => simp [dropStart?, eq_comm]
  | cons s start ih =>
    cases cs with
    | nil => simp [dropStart?]
    | cons c cs =>
      by_cases h : s = c
      · simp [dropStart?, h, ih]
      · simp [dropStart?, h, Ne.symm h]

/-- what precedes `ending`, if the text ends with it -/
def dropEnd? (ending cs : List Char) : Option (List Char) :=
  (dropStart? ending.reverse cs.reverse).map List.reverse

theorem dropEnd?_iff {ending cs rest : List Char} :
    dropEnd? ending cs = some rest ↔ cs = rest ++ ending := by
  simp only [dropEnd?, Option.map_eq_some_iff, dropStart?_iff]
  constructor
  · rintro ⟨r, h, rfl⟩
    have := congrArg List.reverse h
    simpa using this
  · rintro rfl
    exact ⟨rest.reverse, by simp, by simp⟩

/-- the text after the last `c`, the whole text when there is none -/
def afterLast (c : Char) (cs : List Char) : List Char :=
  (cs.reverse.takeWhile (· != c)).reverse

end VisualNovel.Text
