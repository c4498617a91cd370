/-!
# Revealing an intro card

The lines of a card are revealed one after the other, character by character, with a pause after each.

* `CardReveal.next`   what comes next: a character, the end of a line, or nothing more.
-/

namespace VisualNovel

structure CardReveal where
  /-- what is left of the current line, and the lines after it -/
  rest : List (List Char)
  /-- the current line has been put on the card -/
  started : Bool := false

inductive CardStep
  /-- `newLine`: the line has to be put on the card first -/
  | char (newLine : Bool) (c : Char)
  | lineEnd (newLine : Bool)
  | finished

namespace CardReveal

def ofLines (lines : List String) : CardReveal := ⟨lines.map String.toList, false⟩

def next (r : CardReveal) : CardStep × CardReveal :=
  match r.rest with
  | [] => (.finished, r)
  | [] :: lines => (.lineEnd (!r.started), ⟨lines, false⟩)
  | (c :: cs) :: lines => (.char (!r.started) c, ⟨cs :: lines, true⟩)

end CardReveal

end VisualNovel
