/-!
# Blank space

The characters with the White_Space property, and what depends on them: trimming a text, finding its
last word, cutting it into lines.
-/

namespace VisualNovel.Text

/-- the White_Space property: 25 characters -/
def isBlank (c : Char) : Bool :=
  let n := c.toNat
  (9 ≤ n && n ≤ 13) || n == 0x20 || n == 0x85 || n == 0xA0 || n == 0x1680 ||
  (0x2000 ≤ n && n ≤ 0x200A) || n == 0x2028 || n == 0x2029 || n == 0x202F || n == 0x205F || n == 0x3000

/-! ## Trimming -/

/-- drops from the end of a text what satisfies `p` -/
def dropEndWhile (p : Char → Bool) (cs : List Char) : List Char :=
  (cs.reverse.dropWhile p).reverse

/-- the text without the blanks at its two ends -/
def trim (cs : List Char) : List Char := dropEndWhile isBlank (cs.dropWhile isBlank)

/-- the text after its last inner blank, once the blanks at its end are gone -/
def lastWord? (cs : List Char) : Option (List Char) :=
  match cs.reverse.dropWhile isBlank with
  | [] => none
  | c :: rest => some ((c :: rest).takeWhile (!isBlank ·)).reverse

theorem dropEndWhile_nil (p : Char → Bool) : dropEndWhile p [] = [] := rfl

/-! ## Lines -/

/-- a finished line, read backwards, without its final carriage return -/
def closeLine : List Char → List Char
  | '\r' :: rest => rest.reverse
  | line => line.reverse

/-- the lines of `cs` when `line` (backwards) has been read of the first one -/
def linesFrom (line : List Char) : List Char → List (List Char)
  | [] => if line.isEmpty then [] else [line.reverse]
  | c :: cs => if c = '\n' then closeLine line :: linesFrom [] cs else linesFrom (c :: line) cs

/-- the lines of a text; a line feed, or a carriage return with a line feed, ends a line -/
def lines (cs : List Char) : List (List Char) := linesFrom [] cs

theorem linesFrom_lf (line cs : List Char) :
    linesFrom line ('\n' :: cs) = closeLine line :: linesFrom [] cs := by
  simp [linesFrom]

end VisualNovel.Text
