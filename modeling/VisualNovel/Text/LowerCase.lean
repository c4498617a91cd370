import VisualNovel.Text.LowerCase.Table

/-!
# Lower case

The default lower-case mapping of the Unicode standard: character by character, but for the capital
sigma, which becomes a final sigma at the end of a word.

* `lowerChar`   the mapping of one character (two characters for the capital I with a dot);
* `lower`       the mapping of a text;
* `sameLetters` equality of texts up to the case of the 26 basic letters.
-/

namespace VisualNovel.Text

/-- the lower-case form of a character by the table of runs -/
def lowerByRuns (c : Char) : List LowerRun → Char
  | [] => c
  | run :: runs =>
    if run.first ≤ c.toNat && c.toNat ≤ run.last && (c.toNat - run.first) % run.step == 0 then
      Char.ofNat (run.lower + (c.toNat - run.first))
    else lowerByRuns c runs

/-- the lower-case form of a character that stands alone -/
def lowerChar (c : Char) : List Char :=
  if c.toNat < 0x80 then [c.toLower]
  else if c = 'İ' then ['i', '\u0307']
  else [lowerByRuns c lowerRuns]

/-- past marks and signs, the text goes on with a cased letter -/
def meetsCased : List Char → Bool
  | [] => false
  | c :: cs => if inRanges ignorableRanges c.toNat then meetsCased cs else inRanges casedRanges c.toNat

/-- the lower-case form of `cs`, where `before` (backwards) precedes it -/
def lowerFrom (before : List Char) : List Char → List Char
  | [] => []
  | c :: cs =>
    let small :=
      if c = 'Σ' then [if meetsCased before && !meetsCased cs then 'ς' else 'σ'] else lowerChar c
    small ++ lowerFrom (c :: before) cs

/-- the lower-case form of a text -/
def lower (cs : List Char) : List Char := lowerFrom [] cs

/-- without a capital sigma a text is lowered character by character -/
theorem lowerFrom_of_not_mem {cs : List Char} (before : List Char) (h : 'Σ' ∉ cs) :
    lowerFrom before cs = cs.flatMap lowerChar := by
  induction cs generalizing before with
  | nil => rfl
  | cons c cs ih =>
    have hc : c ≠ 'Σ' := fun e => h (e ▸ List.mem_cons_self)
    have hcs : 'Σ' ∉ cs := fun m => h (List.mem_cons_of_mem _ m)
    simp [lowerFrom, hc, ih _ hcs]

theorem lower_of_not_mem {cs : List Char} (h : 'Σ' ∉ cs) : lower cs = cs.flatMap lowerChar :=
  lowerFrom_of_not_mem [] h

/-- the two texts differ in the case of the letters a to z at most -/
def sameLetters (a b : List Char) : Bool := a.map Char.toLower == b.map Char.toLower

end VisualNovel.Text
