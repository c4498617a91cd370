/-!
# Tokens of a transcript line

A line holds spoken text as `<text>` and commands as `[command]`; what stands between them does not
count. A bracket that is never closed, or that encloses nothing, is no token.

* `Token`        a text or a command, without its brackets;
* `enclosed?`    what stands before a closing bracket, if there is anything, and what follows it;
* `tokens`       the tokens of a line, from left to right;
* `tokens_text`, `tokens_command`, `tokens_cons`   what they are, read from the left.
-/

namespace VisualNovel.Transcript

inductive Token
  | text (body : List Char)
  | command (body : List Char)
deriving DecidableEq

def enclosed? (close : Char) (cs : List Char) : Option (List Char × List Char) :=
  match cs.takeWhile (· != close), cs.dropWhile (· != close) with
  | b :: body, _ :: rest => some (b :: body, rest)
  | _, _ => none

theorem eq_of_enclosed? {close : Char} {cs body rest : List Char} (h : enclosed? close cs = some (body, rest)) :
    cs = body ++ close :: rest := by
  simp only [enclosed?] at h
  split at h
  · rename_i b bs c r ht hd
    simp only [Option.some.injEq, Prod.mk.injEq] at h
    obtain ⟨rfl, rfl⟩ := h
    have hc := List.head?_dropWhile_not (· != close) cs
    simp only [hd, List.head?_cons] at hc
    have e : c = close := by simpa using hc
    rw [← List.takeWhile_append_dropWhile (p := (· != close)) (l := cs), ht, hd, e]
  · cases h

theorem length_lt_of_enclosed? {close : Char} {cs body rest : List Char}
    (h : enclosed? close cs = some (body, rest)) : rest.length < cs.length := by
  rw [eq_of_enclosed? h]
  simp only [List.length_append, List.length_cons]
  omega

def tokens (cs : List Char) : List Token :=
  match cs with
  | [] => []
  | '<' :: cs =>
    match _ : enclosed? '>' cs with
    | some (body, rest) => .text body :: tokens rest
    | none => tokens cs
  | '[' :: cs =>
    match _ : enclosed? ']' cs with
    | some (body, rest) => .command body :: tokens rest
    | none => tokens cs
  | _ :: cs => tokens cs
termination_by cs.length
decreasing_by
  all_goals simp only [List.length_cons]
  · rename_i h; have := length_lt_of_enclosed? h; omega
  · omega
  · rename_i h; have := length_lt_of_enclosed? h; omega
  · omega
  · omega

/-- what stands before the first closing bracket -/
theorem enclosed?_append {close : Char} {body : List Char} (nonempty : body ≠ []) (inner : close ∉ body)
    (rest : List Char) : enclosed? close (body ++ close :: rest) = some (body, rest) := by
  have inside : ∀ c ∈ body, (c != close) = true := by
    intro c m
    rw [bne_iff_ne]
    exact fun e => inner (e ▸ m)
  rw [enclosed?, List.takeWhile_append_of_pos inside, List.dropWhile_append_of_pos inside,
    List.takeWhile_cons_of_neg (by simp), List.dropWhile_cons_of_neg (by simp), List.append_nil]
  cases body with
  | nil => exact absurd rfl nonempty
  | cons b body => rfl

theorem tokens_nil : tokens [] = [] := by
  rw [tokens]

theorem tokens_text {body : List Char} (nonempty : body ≠ []) (inner : '>' ∉ body)
    (rest : List Char) : tokens ('<' :: (body ++ '>' :: rest)) = .text body :: tokens rest := by
  have found := enclosed?_append nonempty inner rest
  rw [tokens]
  split
  · rename_i e
    rw [found] at e
    cases e
    rfl
  · rename_i e
    rw [found] at e
    cases e

theorem tokens_command {body : List Char} (nonempty : body ≠ []) (inner : ']' ∉ body)
    (rest : List Char) : tokens ('[' :: (body ++ ']' :: rest)) = .command body :: tokens rest := by
  have found := enclosed?_append nonempty inner rest
  rw [tokens]
  split
  · rename_i e
    rw [found] at e
    cases e
    rfl
  · rename_i e
    rw [found] at e
    cases e

/-- what stands between two tokens does not count -/
theorem tokens_cons {c : Char} (text : c ≠ '<') (command : c ≠ '[') (rest : List Char) :
    tokens (c :: rest) = tokens rest := by
  rw [tokens]
  · exact text
  · exact command

end VisualNovel.Transcript
