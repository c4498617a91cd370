import Mathlib.Data.List.TakeWhile
import VisualNovel.Json.Reader
import VisualNovel.Json.Writer

/-!
# Documents are read as they are written

The writer sets a value out over many lines and escapes what cannot stand in a text; the reader cuts the
lines into tokens and puts the value together again. Of a value without numbers, each of them undoes the
other. What a piece of text does is said without regard to what follows it, so that the parts of a
document can be read one after the other.

* `Piece.StandsFor`, `readPieces?_written`   an escaped text is the text;
* `Cuts`                     a text is cut into these tokens, whatever follows it;
* `Leads`                    a text leads the reader from one state to another;
* `Denotes`                  a text is read as this value, wherever a value is due;
* `Value.Tidy`               values without numbers, one member to a key, of bounded depth;
* `Value.Tidy.parse?_render`, `Value.Tidy.settle?`   the two halves of a reading;
* `Value.Tidy.read_back`     a tidy value is read as it is written.
-/

namespace VisualNovel.Json

theorem mapM_map_eq_some {α β γ : Type} {read : β → Option γ} {write : α → β} {f : α → γ}
    {items : List α} (each : ∀ a ∈ items, read (write a) = some (f a)) :
    (items.map write).mapM read = some (items.map f) := by
  induction items with
  | nil => rfl
  | cons a items ih =>
    rw [List.map_cons, List.mapM_cons, each a List.mem_cons_self,
      ih fun a' m => each a' (List.mem_cons_of_mem a m)]
    rfl

/-- a list is read back, if each item is read as it is written -/
theorem mapM_map_eq_self {α β : Type} {read : β → Option α} {write : α → β} {items : List α}
    (each : ∀ a ∈ items, read (write a) = some a) : (items.map write).mapM read = some items := by
  have whole := mapM_map_eq_some (f := id) each
  rw [List.map_id] at whole
  exact whole

/-! ## Texts -/

theorem hexDigit?_hexChar : ∀ n < 16, hexDigit? (hexChar n) = some n := by decide

/-- the piece is joined as this one character, whatever follows it -/
def Piece.StandsFor (p : Piece) (c : Char) : Prop :=
  ∀ ps, join? (p :: ps) = (join? ps).map (c :: ·)

theorem Piece.StandsFor.char (c : Char) : (Piece.char c).StandsFor c := fun _ => rfl

theorem Piece.StandsFor.unit {c : Char} (control : c.toNat < 0x20) :
    (Piece.unit c.toNat).StandsFor c := by
  have high : isHighUnit c.toNat = false := by
    simp only [isHighUnit, Bool.and_eq_false_iff, decide_eq_false_iff_not]
    omega
  have low : isLowUnit c.toNat = false := by
    simp only [isLowUnit, Bool.and_eq_false_iff, decide_eq_false_iff_not]
    omega
  intro ps
  cases ps with
  | nil => simp [join?, high, low]
  | cons p ps =>
    cases p with
    | char c' => simp [join?, high, low]
    | unit n => simp [join?, high, low]

section
variable (cs : List Char)

theorem readPieces?_letter {e c : Char} (other : e ≠ 'u') (means : shortEscape? e = some c) :
    readPieces? ('\\' :: e :: cs) = (readPieces? cs).map fun (ps, rest) => (.char c :: ps, rest) := by
  rw [readPieces?, means]
  · cases readPieces? cs <;> rfl
  · exact fun _ _ _ _ _ h _ => other h

theorem readPieces?_unit {a b c d : Char} {n : Nat} (means : hexUnit? a b c d = some n) :
    readPieces? ('\\' :: 'u' :: a :: b :: c :: d :: cs) =
      (readPieces? cs).map fun (ps, rest) => (.unit n :: ps, rest) := by
  rw [readPieces?, means]
  cases readPieces? cs <;> rfl

theorem readPieces?_plain {c : Char} (quote : c ≠ '"') (slash : c ≠ '\\')
    (printed : ¬ c.toNat < 0x20) :
    readPieces? (c :: cs) = (readPieces? cs).map fun (ps, rest) => (.char c :: ps, rest) := by
  rw [readPieces?, if_neg printed]
  · cases readPieces? cs <;> rfl
  · exact quote
  · exact fun _ _ _ _ _ h _ => slash h
  · exact fun _ _ h _ => slash h

theorem hexUnit?_control {n : Nat} (control : n < 0x20) :
    hexUnit? '0' '0' (hexChar (n / 16)) (hexChar (n % 16)) = some n := by
  have zero : hexDigit? '0' = some 0 := rfl
  have high := hexDigit?_hexChar (n / 16) (by omega)
  have low := hexDigit?_hexChar (n % 16) (by omega)
  have whole : ((0 * 16 + 0) * 16 + n / 16) * 16 + n % 16 = n := by omega
  simp only [hexUnit?, zero, high, low]
  exact congrArg some whole

/-- what is written of a character is read as one piece that stands for it -/
theorem readPieces?_escape (c : Char) :
    ∃ p : Piece, p.StandsFor c ∧
      readPieces? (escape c ++ cs) = (readPieces? cs).map fun (ps, rest) => (p :: ps, rest) := by
  have letter (e c : Char) (other : e ≠ 'u') (means : shortEscape? e = some c) :
      ∃ p : Piece, p.StandsFor c ∧ readPieces? (['\\', e] ++ cs) =
        (readPieces? cs).map fun (ps, rest) => (p :: ps, rest) :=
    ⟨.char c, .char c, readPieces?_letter cs other means⟩
  unfold escape
  iterate 7
    split
    · next same =>
      subst same
      exact letter _ _ (by decide) rfl
  split
  · next control =>
    exact ⟨.unit c.toNat, .unit control, readPieces?_unit cs (hexUnit?_control control)⟩
  · next quote slash _ _ _ _ _ printed =>
    exact ⟨.char c, .char c, readPieces?_plain cs quote slash printed⟩

theorem readPieces?_written (text : List Char) :
    ∃ ps, join? ps = some text ∧
      readPieces? (text.flatMap escape ++ '"' :: cs) = some (ps, cs) := by
  induction text with
  | nil => exact ⟨[], rfl, rfl⟩
  | cons c text ih =>
    obtain ⟨ps, joined, read⟩ := ih
    obtain ⟨p, stands, first⟩ := readPieces?_escape (text.flatMap escape ++ '"' :: cs) c
    refine ⟨p :: ps, ?_, ?_⟩
    · rw [stands ps, joined, Option.map_some]
    · rw [List.flatMap_cons, List.append_assoc, first, read, Option.map_some]

theorem token?_quote (text : List Char) :
    token? (quote text ++ cs) = some (.text (some (String.ofList text)), cs) := by
  obtain ⟨ps, joined, read⟩ := readPieces?_written cs text
  have written : quote text ++ cs = '"' :: (text.flatMap escape ++ '"' :: cs) := by
    rw [quote, List.cons_append, List.cons_append, List.append_assoc, List.singleton_append]
  simp only [written, token?, read, Option.map_some, joined]

end

/-! ## Tokens -/

theorem tokensFrom?_mono {n m : Nat} (le : n ≤ m) {cs : List Char} {ts : List Token}
    (found : tokensFrom? n cs = some ts) : tokensFrom? m cs = some ts := by
  induction n generalizing m cs ts with
  | zero =>
    rw [tokensFrom?] at found
    split at found
    · next blank =>
      cases m with
      | zero => rw [tokensFrom?, if_pos blank, found]
      | succ m =>
        have none_left : cs.dropWhile isSpace = [] :=
          List.dropWhile_eq_nil_iff.2 (List.all_eq_true.1 blank)
        rw [tokensFrom?, none_left, found]
    · cases found
  | succ n ih =>
    obtain ⟨m, rfl⟩ := Nat.exists_eq_add_of_le' (Nat.lt_of_lt_of_le n.succ_pos le)
    rw [tokensFrom?] at found ⊢
    split at found
    · exact found
    · obtain ⟨⟨first, rest⟩, read, found⟩ := Option.bind_eq_some_iff.1 found
      obtain ⟨later, found, whole⟩ := Option.bind_eq_some_iff.1 found
      exact Option.bind_eq_some_iff.2 ⟨(first, rest), read,
        Option.bind_eq_some_iff.2 ⟨later, ih (Nat.le_of_succ_le_succ le) found, whole⟩⟩

theorem tokensFrom?_space {c : Char} (space : isSpace c = true) (n : Nat) (cs : List Char) :
    tokensFrom? n (c :: cs) = tokensFrom? n cs := by
  cases n with
  | zero => rw [tokensFrom?, tokensFrom?, List.all_cons, space, Bool.true_and]
  | succ n => rw [tokensFrom?, tokensFrom?, List.dropWhile_cons_of_pos space]

def Cuts (cs : List Char) (ts : List Token) : Prop :=
  ∀ n rest us, tokensFrom? n rest = some us →
    tokensFrom? (cs.length + n) (cs ++ rest) = some (ts ++ us)

namespace Cuts

theorem nil : Cuts [] [] := fun n rest us found => by simpa using found

theorem append {cs cs' : List Char} {ts ts' : List Token} (h : Cuts cs ts) (h' : Cuts cs' ts') :
    Cuts (cs ++ cs') (ts ++ ts') := by
  intro n rest us found
  rw [List.length_append, List.append_assoc, List.append_assoc, Nat.add_assoc]
  exact h _ _ _ (h' _ _ _ found)

theorem space {c : Char} (space : isSpace c = true) : Cuts [c] [] := by
  intro n rest us found
  rw [List.singleton_append, tokensFrom?_space space]
  exact tokensFrom?_mono (Nat.le_add_left n _) found

theorem blank {cs : List Char} (blank : ∀ c ∈ cs, isSpace c = true) : Cuts cs [] := by
  induction cs with
  | nil => exact nil
  | cons c cs ih =>
    exact append (space (blank c List.mem_cons_self)) (ih fun c' m => blank c' (List.mem_cons_of_mem c m))

theorem newLine (level : Nat) : Cuts (newLine level) [] := by
  refine blank fun c m => ?_
  rcases List.mem_cons.1 m with rfl | m
  · rfl
  · rw [List.eq_of_mem_replicate m]
    rfl

theorem token {c : Char} {cs : List Char} {t : Token} (printed : isSpace c = false)
    (read : ∀ rest, token? (c :: cs ++ rest) = some (t, rest)) : Cuts (c :: cs) [t] := by
  intro n rest us found
  have more : (c :: cs).length + n = cs.length + n + 1 := by
    rw [List.length_cons]
    omega
  have next := read rest
  rw [List.cons_append] at next
  rw [more, List.cons_append, tokensFrom?, List.dropWhile_cons_of_neg (by simp [printed])]
  simp only [next, Option.bind_eq_bind, Option.bind_some,
    tokensFrom?_mono (Nat.le_add_left n cs.length) found]
  rfl

end Cuts

/-! ## Values -/

/-- a value without numbers, one member to a key, whose brackets nest at most so deep -/
inductive Value.Tidy : Nat → Value → Prop
  | null {n : Nat} : Tidy n .null
  | bool {n : Nat} (b : Bool) : Tidy n (.bool b)
  | text {n : Nat} (s : String) : Tidy n (.text s)
  | array {n : Nat} {items : List Value} (each : ∀ v ∈ items, Tidy n v) : Tidy (n + 1) (.array items)
  | object {n : Nat} {members : List (String × Value)} (distinct : (members.map Prod.fst).Nodup)
      (each : ∀ m ∈ members, Tidy n m.2) : Tidy (n + 1) (.object members)

def Leads (s : State) (cs : List Char) (s' : State) : Prop := ∃ ts, Cuts cs ts ∧ s.run? ts = some s'

namespace Leads

variable {s s' s'' : State} {cs cs' : List Char}

theorem refl (s : State) : Leads s [] s := ⟨[], .nil, rfl⟩

theorem trans (h : Leads s cs s') (h' : Leads s' cs' s'') : Leads s (cs ++ cs') s'' := by
  obtain ⟨ts, cut, read⟩ := h
  obtain ⟨ts', cut', read'⟩ := h'
  refine ⟨ts ++ ts', cut.append cut', ?_⟩
  rw [State.run?_append, read, Option.bind_some, read']

theorem blank (s : State) (blank : ∀ c ∈ cs, isSpace c = true) : Leads s cs s :=
  ⟨[], .blank blank, rfl⟩

theorem newLine (s : State) (level : Nat) : Leads s (newLine level) s := ⟨[], .newLine level, rfl⟩

theorem token {c : Char} {t : Token} (printed : isSpace c = false)
    (read : ∀ rest, token? (c :: cs ++ rest) = some (t, rest)) (step : s.step? t = some s') :
    Leads s (c :: cs) s' :=
  ⟨[t], .token printed read, by rw [State.run?, step, Option.bind_some, State.run?]⟩

theorem key {members : List (Option String × Value)} {outer : List Frame} (key : String)
    (due : s.step? (.text (some key)) = some (.colon members (some key) outer)) :
    Leads s (quote key.toList) (.colon members (some key) outer) := by
  refine token rfl (token?_quote · key.toList) ?_
  rw [String.ofList_toList, due]

theorem colon (members : List (Option String × Value)) (key : Option String) (outer : List Frame) :
    Leads (.colon members key outer) [':', ' '] (.value (.member members key :: outer)) := by
  have read : Leads (.colon members key outer) [':'] (.value (.member members key :: outer)) :=
    token rfl (fun _ => rfl) rfl
  refine read.trans (blank _ fun c m => ?_)
  rw [List.mem_singleton.1 m]
  rfl

end Leads

/-- the text is read as the value where a value is due, and as the first item of an array -/
structure Denotes (cs : List Char) (v : Value) : Prop where
  due (outer : List Frame) : Leads (.value outer) cs (.put v outer)
  first (outer : List Frame) : Leads (.opened (.array []) outer) cs (.put v (.item [] :: outer))

namespace Denotes

theorem begin {c : Char} {cs cs' : List Char} {t : Token} {v : Value} (printed : isSpace c = false)
    (read : ∀ rest, token? (c :: cs ++ rest) = some (t, rest)) (opens : t ≠ .closeArray)
    (goes : ∀ outer, ∃ s, State.begin? outer t = some s ∧ Leads s cs' (.put v outer)) :
    Denotes (c :: cs ++ cs') v where
  due outer := by
    obtain ⟨s, begun, rest⟩ := goes outer
    have step : (State.value outer).step? t = some s := begun
    exact (Leads.token printed read step).trans rest
  first outer := by
    obtain ⟨s, begun, rest⟩ := goes (.item [] :: outer)
    have step : (State.opened (.array []) outer).step? t = some s := by
      rw [← begun]
      cases t with
      | closeArray => exact absurd rfl opens
      | _ => rfl
    exact (Leads.token printed read step).trans rest

theorem of_scalar {c : Char} {cs : List Char} {v : Value} (printed : isSpace c = false)
    (read : ∀ rest, token? (c :: cs ++ rest) = some (.scalar v, rest)) : Denotes (c :: cs) v := by
  have whole := begin printed read nofun fun outer => ⟨_, rfl, .refl (.put v outer)⟩
  rw [List.append_nil] at whole
  exact whole

theorem of_text (s : String) : Denotes (quote s.toList) (.text s) := by
  have whole : Denotes (quote s.toList ++ []) (.text s) := by
    refine begin rfl (token?_quote · s.toList) nofun fun outer => ⟨_, rfl, ?_⟩
    rw [String.ofList_toList]
    exact .refl _
  rw [List.append_nil] at whole
  exact whole

theorem items {level : Nat} {vs : List Value} (each : ∀ v ∈ vs, Denotes (v.pretty level) v)
    (done : List Value) (outer : List Frame) :
    Leads (.filled (.array done) outer) (prettyItems level vs)
      (.filled (.array (vs.reverse ++ done)) outer) := by
  induction vs generalizing done with
  | nil => exact .refl _
  | cons v vs ih =>
    have comma : Leads (.filled (.array done) outer) [','] (.value (.item done :: outer)) :=
      .token rfl (fun _ => rfl) rfl
    have item := (each v List.mem_cons_self).due (.item done :: outer)
    have rest := ih (fun v' m => each v' (List.mem_cons_of_mem v m)) (v :: done)
    rw [List.reverse_cons, List.append_assoc, List.singleton_append]
    exact ((comma.trans (.newLine _ level)).trans item).trans rest

theorem array {level : Nat} {vs : List Value} (each : ∀ v ∈ vs, Denotes (v.pretty (level + 1)) v) :
    Denotes ((Value.array vs).pretty level) (.array vs) := by
  have opening (rest : List Char) : token? (['['] ++ rest) = some (.openArray, rest) := rfl
  cases vs with
  | nil => exact begin rfl opening nofun fun outer => ⟨_, rfl, .token rfl (fun _ => rfl) rfl⟩
  | cons v vs =>
    have inside (outer : List Frame) : Leads (.opened (.array []) outer)
        (newLine (level + 1) ++ v.pretty (level + 1) ++ prettyItems (level + 1) vs ++ newLine level ++
          [']'])
        (.put (.array (v :: vs)) outer) := by
      have first := (each v List.mem_cons_self).first outer
      have rest := items (fun v' m => each v' (List.mem_cons_of_mem v m)) [v] outer
      have closing : Leads (.filled (.array (vs.reverse ++ [v])) outer) [']']
          (.put (.array (v :: vs)) outer) := by
        refine .token rfl (fun _ => rfl) ?_
        rw [← List.reverse_cons, State.step?, List.reverse_reverse]
      exact ((((Leads.newLine _ (level + 1)).trans first).trans rest).trans (.newLine _ level)).trans
        closing
    have whole := begin rfl opening nofun fun outer => ⟨_, rfl, inside outer⟩
    exact whole

theorem members {level : Nat} {ms : List (String × Value)}
    (each : ∀ m ∈ ms, Denotes (m.2.pretty level) m.2) (done : List (Option String × Value))
    (outer : List Frame) :
    Leads (.filled (.object done) outer) (prettyMembers level ms)
      (.filled (.object ((ms.map fun m => (some m.1, m.2)).reverse ++ done)) outer) := by
  induction ms generalizing done with
  | nil => exact .refl _
  | cons m ms ih =>
    obtain ⟨k, v⟩ := m
    have comma : Leads (.filled (.object done) outer) [','] (.key done outer) :=
      .token rfl (fun _ => rfl) rfl
    have value := (each (k, v) List.mem_cons_self).due (.member done (some k) :: outer)
    have rest := ih (fun m m' => each m (List.mem_cons_of_mem _ m')) ((some k, v) :: done)
    rw [List.map_cons, List.reverse_cons, List.append_assoc, List.singleton_append]
    exact ((((comma.trans (.newLine _ level)).trans (.key k rfl)).trans (.colon _ _ _)).trans
      value).trans rest

theorem ofMembers_map (ms : List (String × Value)) :
    Value.ofMembers (ms.map fun m => (some m.1, m.2)) = .object ms := by
  have texts : (ms.map fun m => (some m.1, m.2)).mapM (fun m => m.1.map (·, m.2)) = some ms :=
    mapM_map_eq_self fun _ _ => rfl
  rw [Value.ofMembers, texts]

theorem object {level : Nat} {ms : List (String × Value)}
    (each : ∀ m ∈ ms, Denotes (m.2.pretty (level + 1)) m.2) :
    Denotes ((Value.object ms).pretty level) (.object ms) := by
  have opening (rest : List Char) : token? (['{'] ++ rest) = some (.openObject, rest) := rfl
  cases ms with
  | nil => exact begin rfl opening nofun fun outer => ⟨_, rfl, .token rfl (fun _ => rfl) rfl⟩
  | cons m ms =>
    obtain ⟨k, v⟩ := m
    have inside (outer : List Frame) : Leads (.opened (.object []) outer)
        (newLine (level + 1) ++ quote k.toList ++ [':', ' '] ++ v.pretty (level + 1) ++
          prettyMembers (level + 1) ms ++ newLine level ++ ['}'])
        (.put (.object ((k, v) :: ms)) outer) := by
      have first := (each (k, v) List.mem_cons_self).due (.member [] (some k) :: outer)
      have rest := members (fun m m' => each m (List.mem_cons_of_mem _ m')) [(some k, v)] outer
      have closing : Leads
          (.filled (.object ((ms.map fun m => (some m.1, m.2)).reverse ++ [(some k, v)])) outer) ['}']
          (.put (.object ((k, v) :: ms)) outer) := by
        refine .token rfl (fun _ => rfl) ?_
        rw [← List.reverse_cons, State.step?, List.reverse_reverse, ← ofMembers_map, List.map_cons]
      exact ((((((Leads.newLine _ (level + 1)).trans (.key k rfl)).trans (.colon _ _ _)).trans
        first).trans rest).trans (.newLine _ level)).trans closing
    have whole := begin rfl opening nofun fun outer => ⟨_, rfl, inside outer⟩
    exact whole

end Denotes

theorem Value.Tidy.denotes {n : Nat} {v : Value} (tidy : v.Tidy n) (level : Nat) :
    Denotes (v.pretty level) v := by
  induction tidy generalizing level with
  | null => exact .of_scalar rfl fun _ => rfl
  | bool b =>
    cases b with
    | false => exact .of_scalar rfl fun _ => rfl
    | true => exact .of_scalar rfl fun _ => rfl
  | text s => exact .of_text s
  | array _ ih => exact .array fun v m => ih v m (level + 1)
  | object _ _ ih => exact .object fun m m' => ih m m' (level + 1)

theorem Value.Tidy.parse?_render {n : Nat} {v : Value} (tidy : v.Tidy n) {blank : List Char}
    (spaces : ∀ c ∈ blank, isSpace c = true) :
    parse? (render v ++ String.ofList blank) = some v := by
  obtain ⟨ts, cut, read⟩ := ((tidy.denotes 0).due []).trans (Leads.blank _ spaces)
  have tokens : tokens? (v.pretty 0 ++ blank) = some ts := by
    have found := cut 0 [] [] rfl
    rw [List.append_nil, List.append_nil, Nat.add_zero] at found
    exact found
  have text : (render v ++ String.ofList blank).toList = v.pretty 0 ++ blank := by
    rw [String.toList_append, render, String.toList_ofList, String.toList_ofList]
  simp only [parse?, text, tokens, Option.bind_eq_bind, Option.bind_some, read, State.put]

/-! ## Settling -/

/-- of members with different keys, each is the last one of its key -/
theorem lastMembers_of_nodup {ms : List (String × Value)} (distinct : (ms.map Prod.fst).Nodup) :
    lastMembers ms = ms := by
  induction ms with
  | nil => rfl
  | cons m ms ih =>
    rw [List.map_cons, List.nodup_cons] at distinct
    have rest : ms.foldr (fun m rest => if rest.any (·.1 == m.1) then rest else m :: rest) [] = ms :=
      ih distinct.2
    have new : ms.any (·.1 == m.1) = false := by
      rw [List.any_eq_false]
      intro m' mem same
      exact distinct.1 (List.mem_map.2 ⟨m', mem, beq_iff_eq.1 same⟩)
    rw [lastMembers, List.foldr_cons, rest, new, if_neg Bool.false_ne_true]

theorem Value.Tidy.settle? {n : Nat} {v : Value} (tidy : v.Tidy n) : v.settle? n = some v := by
  induction tidy with
  | @null n => cases n <;> rfl
  | @bool n b => cases n <;> rfl
  | @text n s => cases n <;> rfl
  | @array n items each ih =>
    have whole : (items.map id).mapM (Value.settle? n) = some items := mapM_map_eq_self ih
    rw [List.map_id] at whole
    rw [Value.settle?, whole, Option.map_some]
  | @object n members distinct each ih =>
    have whole : (members.map id).mapM (fun m => (m.2.settle? n).map (m.1, ·)) = some members :=
      mapM_map_eq_self fun m mem => by rw [id, ih m mem, Option.map_some]
    rw [List.map_id] at whole
    rw [Value.settle?, whole, Option.map_some, Function.comp_apply, lastMembers_of_nodup distinct]

/-- **A tidy value is read back from the text that is written of it**, with blanks after it or
without. -/
theorem Value.Tidy.read_back {n : Nat} {v : Value} (tidy : v.Tidy n) {blank : List Char}
    (spaces : ∀ c ∈ blank, isSpace c = true) :
    (parse? (render v ++ String.ofList blank)).bind (·.settle? n) = some v := by
  rw [tidy.parse?_render spaces, Option.bind_some, tidy.settle?]

theorem Value.Tidy.mono {n m : Nat} (le : n ≤ m) {v : Value} (tidy : v.Tidy n) : v.Tidy m := by
  induction tidy generalizing m with
  | null => exact .null
  | bool b => exact .bool b
  | text s => exact .text s
  | array _ ih =>
    obtain ⟨m, rfl⟩ := Nat.exists_eq_add_of_le' (Nat.lt_of_lt_of_le (Nat.succ_pos _) le)
    exact .array fun v mem => ih v mem (Nat.le_of_succ_le_succ le)
  | object distinct _ ih =>
    obtain ⟨m, rfl⟩ := Nat.exists_eq_add_of_le' (Nat.lt_of_lt_of_le (Nat.succ_pos _) le)
    exact .object distinct fun m mem => ih m mem (Nat.le_of_succ_le_succ le)

end VisualNovel.Json
