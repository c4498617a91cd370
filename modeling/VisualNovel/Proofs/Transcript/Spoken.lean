import VisualNovel.Proofs.Transcript.Commands

/-!
# The parts of a spoken line

A spoken line is put together from texts `<text>`, commands `[command]` and what stands between them. A
text may hold square brackets, a command angle brackets, and what stands between them closing brackets of
both kinds; none of this is taken for something else. A bracket that is missing at the end of a line is put
there, unless the line ends with a square bracket.

* `Segment`                    a part of a spoken line;
* `tokens_segments`            the tokens of a line are those of its parts;
* `Converter.line_of_tokens`   what a line is made into that is neither a divider, a command nor a name;
* `spoken_lines_are_exact`     a spoken line is made into what its parts are, in their order;
* `missing_brackets_are_put`   a text without its closing bracket is read as with it;
* `bracket_left_out`           where it is not.
-/

namespace VisualNovel

open Transcript Text

/-! ## Parts of a line -/

namespace Transcript

theorem getLast?_eq_some_iff_suffix {c : Char} {cs : List Char} :
    cs.getLast? = some c ↔ [c] <:+ cs := by
  rw [List.getLast?_eq_some_iff]
  constructor
  · rintro ⟨before, rfl⟩
    exact ⟨before, rfl⟩
  · rintro ⟨before, rfl⟩
    exact ⟨before, rfl⟩

/-- a text in round brackets is a thought -/
def IsThought (text : List Char) : Prop := ['('] <+: text ∧ [')'] <:+ text

instance (text : List Char) : Decidable (IsThought text) :=
  inferInstanceAs (Decidable (_ ∧ _))

inductive Segment
  /-- `<body>` -/
  | text (body : List Char) (nonempty : body ≠ []) (inner : '>' ∉ body)
  /-- `[body]` -/
  | command (body : List Char) (nonempty : body ≠ []) (inner : ']' ∉ body)
  /-- what stands between the others -/
  | filler (body : List Char) (noText : '<' ∉ body) (noCommand : '[' ∉ body)

namespace Segment

def chars : Segment → List Char
  | text body _ _ => '<' :: (body ++ ['>'])
  | command body _ _ => '[' :: (body ++ [']'])
  | filler body _ _ => body

def token? : Segment → Option Token
  | text body _ _ => some (.text body)
  | command body _ _ => some (.command body)
  | filler _ _ _ => none

/-- what a part of a line is made into when this speaker has the word -/
def cue? (speaker : Option String) : Segment → Option Cue
  | text body _ _ => some (.dialogue ⟨String.ofList body, speaker, decide (IsThought body), false⟩)
  | command body _ _ => characterCue? body
  | filler _ _ _ => none

end Segment

/-! ## The tokens of a line -/

theorem tokens_filler {body : List Char} (noText : '<' ∉ body) (noCommand : '[' ∉ body) (rest : List Char) :
    tokens (body ++ rest) = tokens rest := by
  induction body with
  | nil => rfl
  | cons c body ih =>
    rw [List.mem_cons, not_or] at noText noCommand
    rw [List.cons_append, tokens_cons (Ne.symm noText.1) (Ne.symm noCommand.1)]
    exact ih noText.2 noCommand.2

theorem tokens_segments (segments : List Segment) (rest : List Char) :
    tokens (segments.flatMap Segment.chars ++ rest) =
      segments.filterMap Segment.token? ++ tokens rest := by
  induction segments with
  | nil => rfl
  | cons segment segments ih =>
    rw [List.flatMap_cons, List.append_assoc]
    cases segment with
    | text body nonempty inner =>
      show tokens ('<' :: (body ++ ['>'] ++ _)) = .text body :: (segments.filterMap Segment.token? ++ _)
      rw [List.append_assoc, List.singleton_append, tokens_text nonempty inner, ih]
    | command body nonempty inner =>
      show tokens ('[' :: (body ++ [']'] ++ _)) = .command body :: (segments.filterMap Segment.token? ++ _)
      rw [List.append_assoc, List.singleton_append, tokens_command nonempty inner, ih]
    | filler body noText noCommand =>
      show tokens (body ++ _) = segments.filterMap Segment.token? ++ _
      rw [tokens_filler noText noCommand, ih]

/-- the bracket that is put at the end of a line closes none of its parts -/
theorem tokens_repair_segments (segments : List Segment) :
    tokens (Converter.repair (segments.flatMap Segment.chars)) = segments.filterMap Segment.token? := by
  unfold Converter.repair
  split
  · have lone : tokens ['>'] = [] := by
      rw [tokens_cons (by decide) (by decide), tokens_nil]
    rw [tokens_segments, lone, List.append_nil]
  · have whole := tokens_segments segments []
    rwa [List.append_nil, tokens_nil, List.append_nil] at whole

theorem tokens_unclosed {cs : List Char} (unclosed : '>' ∉ cs) : tokens ('<' :: cs) = tokens cs := by
  rw [tokens]
  split
  · rename_i body rest found
    exact absurd (eq_of_enclosed? found ▸ by simp) unclosed
  · rfl

theorem closed_of_text_mem {cs body : List Char} (m : .text body ∈ tokens cs) : '>' ∈ cs := by
  fun_induction tokens cs with
  | case1 => cases m
  | case2 cs body' rest found ih =>
    rw [eq_of_enclosed? found]
    simp
  | case3 cs found ih => exact List.mem_cons_of_mem _ (ih m)
  | case4 cs body' rest found ih =>
    rw [eq_of_enclosed? found]
    rcases List.mem_cons.1 m with e | m
    · cases e
    · simp [ih m]
  | case5 cs found ih => exact List.mem_cons_of_mem _ (ih m)
  | case6 c cs _ _ ih => exact List.mem_cons_of_mem _ (ih m)

/-- no parts of a line make up a pair of brackets with nothing in it -/
theorem flatMap_chars_ne (segments : List Segment) : segments.flatMap Segment.chars ≠ ['[', ']'] := by
  induction segments with
  | nil => nofun
  | cons segment segments ih =>
    rw [List.flatMap_cons]
    intro e
    cases segment with
    | text => cases e
    | command body nonempty inner =>
      have short := congrArg List.length e
      simp only [Segment.chars, List.length_append, List.length_cons, List.length_nil] at short
      have := List.length_pos_iff.2 nonempty
      omega
    | filler body noText noCommand =>
      cases body with
      | nil => exact ih e
      | cons c body =>
        have head : c = '[' := (List.cons.inj e).1
        exact noCommand (head ▸ List.mem_cons_self)

end Transcript

/-! ## Lines -/

namespace Converter

variable (c : Converter) {s : State} {line : List Char}

theorem line_of_tokens (closed : s.intro = none) (number : Nat) (undivided : ¬ "__".toList <+: line)
    (several : ∀ command, ¬ IsCommand line command) (unnamed : ¬ [':'] <:+ line) :
    c.line s number line = ((tokens (repair line)).filterMap (token? s.speaker), s) := by
  have divider : startsWith "__" line = false := startsWith_eq_false_iff.2 undivided
  have whole : wholeCommand? line = none := wholeCommand?_eq_none_iff.2 several
  have name : dropEnd? [':'] line = none := by
    rw [Option.eq_none_iff_forall_ne_some]
    intro rest found
    exact unnamed ⟨rest, (dropEnd?_iff.1 found).symm⟩
  simp only [Converter.line, divider, whole, closed, name, Bool.false_eq_true, if_false]

theorem dialogue_eq (speaker : Option String) (text : List Char) :
    dialogue speaker text = .dialogue ⟨String.ofList text, speaker, decide (IsThought text), false⟩ := by
  have first : (text.head? == some '(') = decide (['('] <+: text) := by
    cases text with
    | nil => rfl
    | cons a text => simp [List.cons_prefix_cons, Bool.beq_eq_decide_eq, eq_comm]
  have last : (text.getLast? == some ')') = decide ([')'] <:+ text) := by
    rw [Bool.eq_iff_iff, beq_iff_eq, decide_eq_true_iff, getLast?_eq_some_iff_suffix]
  rw [dialogue, first, last, ← Bool.decide_and]
  rfl

theorem token?_segment (speaker : Option String) (segment : Segment) :
    segment.token?.bind (token? speaker) = segment.cue? speaker := by
  cases segment with
  | text body => exact congrArg some (dialogue_eq speaker body)
  | command | filler => rfl

end Converter

open Converter

/-- **Spoken lines are read exactly.** While no intro is open, a line that is put together from texts,
commands and what stands between them, that is no divider, does not end with a colon and is not one
command alone, is made into what its parts are, in their order and nothing else: of each text a line of
dialogue with this text and the present speaker, a thought if the text stands in round brackets; of each
command the character that it shows or hides, if it is one that does. -/
theorem spoken_lines_are_exact (c : Converter) {s : State} (closed : s.intro = none) (number : Nat)
    (segments : List Segment) (undivided : ¬ "__".toList <+: segments.flatMap Segment.chars)
    (unnamed : ¬ [':'] <:+ segments.flatMap Segment.chars)
    (several : ∀ body nonempty inner,
      segments.flatMap Segment.chars ≠ (Segment.command body nonempty inner).chars) :
    c.line s number (segments.flatMap Segment.chars) =
      (segments.filterMap (Segment.cue? s.speaker), s) := by
  have none : ∀ command, ¬ IsCommand (segments.flatMap Segment.chars) command := by
    rintro command ⟨body, inner, e, -⟩
    by_cases nonempty : body = []
    · rw [nonempty] at e
      exact flatMap_chars_ne segments e
    · exact several body nonempty inner e
  have cues : (segments.filterMap Segment.token?).filterMap (token? s.speaker) =
      segments.filterMap (Segment.cue? s.speaker) := by
    rw [List.filterMap_filterMap]
    exact congrArg (segments.filterMap ·) (funext (token?_segment s.speaker))
  rw [c.line_of_tokens closed number undivided none unnamed, tokens_repair_segments, cues]

/-- brackets of the other kind within the tokens, and a closing bracket put behind a filler -/
theorem mixed_line_is_exact :
    let c : Converter := {}
    let s : State := { speaker := some "Mia" }
    c.line s 2 "<Wait [sic] [> ] [Load <Mia>] [Flash] <(Hm.)>...".toList =
      ([.dialogue ⟨"Wait [sic] [", some "Mia", false, false⟩, .character (some "<Mia>") .show,
        .dialogue ⟨"(Hm.)", some "Mia", true, false⟩], s) := by
  intro c s
  exact spoken_lines_are_exact c (s := s) rfl 2
    [.text "Wait [sic] [".toList (by decide) (by decide), .filler " ] ".toList (by decide) (by decide),
      .command "Load <Mia>".toList (by decide) (by decide), .filler " ".toList (by decide) (by decide),
      .command "Flash".toList (by decide) (by decide), .filler " ".toList (by decide) (by decide),
      .text "(Hm.)".toList (by decide) (by decide), .filler "...".toList (by decide) (by decide)]
    (by decide) (by decide) (fun body _ _ e => absurd (List.cons.inj e).1 (by decide))

/-! ## A bracket that is missing at the end -/

namespace Converter

variable (c : Converter) {s : State} {text : List Char}

theorem line_text (closed : s.intro = none) (number : Nat) (text : List Char) (nonempty : text ≠ [])
    (inner : '>' ∉ text) :
    c.line s number ('<' :: (text ++ ['>'])) = ([dialogue s.speaker text], s) := by
  rw [c.line_spoken closed number, tokens_text nonempty inner, tokens_nil]
  rfl

/-- a line that starts with a text which is never closed -/
theorem line_unclosed (closed : s.intro = none) (number : Nat) (text : List Char)
    (unnamed : ¬ [':'] <:+ text) :
    c.line s number ('<' :: text) = ((tokens (repair ('<' :: text))).filterMap (token? s.speaker), s) := by
  refine c.line_of_tokens closed number (by simp [List.cons_prefix_cons]) ?_ ?_
  · rintro command ⟨body, -, e, -⟩
    cases e
  · rw [List.suffix_cons_iff]
    rintro (e | ending)
    · cases e
    · exact unnamed ending

/-- the missing bracket is put at the end of a line, unless this is a square bracket -/
theorem repair_unclosed (nonempty : text ≠ []) (inner : '>' ∉ text) :
    repair ('<' :: text) = if [']'] <:+ text then '<' :: text else '<' :: (text ++ ['>']) := by
  have unclosed : text.getLast? ≠ some '>' := by
    intro last
    exact inner (List.mem_of_getLast? last)
  have same : ('<' :: text).getLast? = text.getLast? := by
    obtain ⟨first, rest, rfl⟩ := List.exists_cons_of_ne_nil nonempty
    exact List.getLast?_cons_cons
  by_cases bracket : [']'] <:+ text
  · rw [if_pos bracket, repair, same, getLast?_eq_some_iff_suffix.2 bracket]
    simp
  · have other : text.getLast? ≠ some ']' := fun last => bracket (getLast?_eq_some_iff_suffix.1 last)
    rw [if_neg bracket, repair, same, if_pos (by simp [unclosed, other])]
    rfl

/-- only characters enter or leave in a line that is left as it is -/
theorem character_of_unclosed {speaker : Option String} (inner : '>' ∉ text) {cue : Cue}
    (m : cue ∈ (tokens ('<' :: text)).filterMap (token? speaker)) :
    ∃ name action, cue = .character (some name) action := by
  rw [tokens_unclosed inner] at m
  obtain ⟨token, among, found⟩ := List.mem_filterMap.1 m
  cases token with
  | text body => exact absurd (closed_of_text_mem among) inner
  | command body => exact character_of_characterCue? found

end Converter

/-- **A missing closing bracket is put.** While no intro is open, a text that holds no closing bracket and
does not end with a colon is read behind its opening bracket as it is read between its two brackets, as
the line of dialogue that it is, unless it ends with a square bracket. A line that ends with one is left
as it is: no dialogue comes of it, characters enter or leave at most. -/
theorem missing_brackets_are_put (c : Converter) {s : State} (closed : s.intro = none)
    (number number' : Nat) (text : List Char) (nonempty : text ≠ []) (inner : '>' ∉ text)
    (unnamed : ¬ [':'] <:+ text) :
    c.line s number' ('<' :: (text ++ ['>'])) =
      ([.dialogue ⟨String.ofList text, s.speaker, decide (IsThought text), false⟩], s) ∧
    (¬ [']'] <:+ text → c.line s number ('<' :: text) = c.line s number' ('<' :: (text ++ ['>']))) ∧
    ([']'] <:+ text → (c.line s number ('<' :: text)).2 = s ∧
      ∀ cue ∈ (c.line s number ('<' :: text)).1, ∃ name action, cue = .character (some name) action) := by
  have whole := c.line_text closed number' text nonempty inner
  have unclosed := c.line_unclosed closed number text unnamed
  have repaired := repair_unclosed nonempty inner
  refine ⟨?_, fun plain => ?_, fun bracket => ?_⟩
  · rw [whole, dialogue_eq]
  · rw [if_neg plain] at repaired
    rw [whole, unclosed, repaired, tokens_text nonempty inner, tokens_nil]
    rfl
  · rw [if_pos bracket] at repaired
    rw [unclosed, repaired]
    exact ⟨rfl, fun cue m => character_of_unclosed inner m⟩

/-- a text with an aside in it, and one with an aside at its end -/
theorem bracket_put_behind_an_aside :
    let c : Converter := {}
    let s : State := { speaker := some "Judge" }
    c.line s 2 "<Order [bangs gavel] in the court".toList =
      ([.dialogue ⟨"Order [bangs gavel] in the court", some "Judge", false, false⟩], s) ∧
    (c.line s 3 "<Order [bangs gavel]".toList).2 = s := by
  intro c s
  have put := missing_brackets_are_put c (s := s) rfl 2 2 "Order [bangs gavel] in the court".toList
    (by decide) (by decide) (by decide)
  have left := missing_brackets_are_put c (s := s) rfl 3 3 "Order [bangs gavel]".toList
    (by decide) (by decide) (by decide)
  exact ⟨(put.2.1 (by decide)).trans put.1, (left.2.2 (by decide)).1⟩

/-- a text that ends with a square bracket is not spoken without its closing bracket, and one that ends
with a colon is taken for a name -/
theorem bracket_left_out :
    let c : Converter := {}
    c.line {} 1 "<Order [Load Mia_Smile]".toList = ([.character (some "Mia_Smile") .show], {}) ∧
    c.line {} 1 "<Order [Load Mia_Smile]>".toList =
      ([.dialogue ⟨"Order [Load Mia_Smile]", none, false, false⟩], {}) ∧
    c.line {} 1 "<Order:".toList = ([], { speaker := some "<Order" }) ∧
    c.line {} 1 "<Order:>".toList = ([.dialogue ⟨"Order:", none, false, false⟩], {}) := by
  intro c
  have left := c.line_unclosed (s := {}) rfl 1 "Order [Load Mia_Smile]".toList (by decide)
  have split : tokens (repair ('<' :: "Order [Load Mia_Smile]".toList)) =
      [.command "Load Mia_Smile".toList] := by decide +kernel
  rw [split] at left
  exact ⟨left, c.line_text (s := {}) rfl 1 "Order [Load Mia_Smile]".toList (by decide) (by decide),
    rfl, c.line_text (s := {}) rfl 1 "Order:".toList (by decide) (by decide)⟩

end VisualNovel
