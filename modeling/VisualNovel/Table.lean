/-!
# Tables

A table gives values to keys and lists them in increasing order of the keys, each key once. The order
of texts is that of their code points, which is also that of their UTF-8 bytes. Since the order is
part of the type, two tables with the same bindings are equal.

* `Table.get?_insert`   what a lookup finds after an insertion;
* `Table.get?_erase`    what a lookup finds after an erasure;
* `Table.get?_iff`      the entries are the pairs that a lookup finds;
* `Table.ext_get?`      tables with the same lookups are equal.
-/

set_option linter.unusedSectionVars false

namespace VisualNovel

/-- what a table asks of the order of its keys -/
class KeyOrder (κ : Type) [LT κ] : Prop where
  irrefl {a : κ} : ¬ a < a
  trans {a b c : κ} : a < b → b < c → a < c
  compare (a b : κ) : a < b ∨ a = b ∨ b < a

instance : KeyOrder Nat := ⟨Std.lt_irrefl, Std.lt_trans, Std.lt_trichotomy⟩
instance : KeyOrder String := ⟨Std.lt_irrefl, Std.lt_trans, Std.lt_trichotomy⟩
instance : KeyOrder (List String) := ⟨Std.lt_irrefl, Std.lt_trans, Std.lt_trichotomy⟩

/-- strictly increasing in key -/
def Increasing {κ α : Type} [LT κ] (entries : List (κ × α)) : Prop :=
  entries.Pairwise fun a b => a.1 < b.1

structure Table (κ α : Type) [LT κ] where
  entries : List (κ × α) := []
  sorted : Increasing entries := by exact List.Pairwise.nil

namespace Table

variable {κ α : Type} [LT κ]

theorem entries_inj {s t : Table κ α} (h : s.entries = t.entries) : s = t := by
  cases s; cases t; cases h; rfl

instance [BEq κ] [BEq α] : BEq (Table κ α) := ⟨fun s t => s.entries == t.entries⟩
instance [DecidableEq κ] [DecidableEq α] : DecidableEq (Table κ α) := fun s t =>
  decidable_of_iff (s.entries = t.entries) ⟨entries_inj, congrArg entries⟩
instance : Inhabited (Table κ α) := ⟨{}⟩

def empty : Table κ α := {}
def size (t : Table κ α) : Nat := t.entries.length
def isEmpty (t : Table κ α) : Bool := t.entries.isEmpty
def keys (t : Table κ α) : List κ := t.entries.map Prod.fst
def values (t : Table κ α) : List α := t.entries.map Prod.snd

section
variable [DecidableEq κ]

def get? (t : Table κ α) (k : κ) : Option α := t.entries.lookup k
def contains (t : Table κ α) (k : κ) : Bool := (t.get? k).isSome

@[simp] theorem get?_empty (k : κ) : (empty : Table κ α).get? k = none := rfl

end

/-! ## Insertion -/

variable [KeyOrder κ] [DecidableLT κ]

def insertEntry (k : κ) (v : α) : List (κ × α) → List (κ × α)
  | [] => [(k, v)]
  | (k', v') :: rest =>
    if k < k' then (k, v) :: (k', v') :: rest
    else if k' < k then (k', v') :: insertEntry k v rest
    else (k', v) :: rest

theorem fst_of_mem_insertEntry {k : κ} {v : α} {l : List (κ × α)} {e : κ × α}
    (h : e ∈ insertEntry k v l) : e.1 = k ∨ ∃ e' ∈ l, e.1 = e'.1 := by
  induction l with
  | nil => left; simp only [insertEntry, List.mem_singleton] at h; rw [h]
  | cons e' rest ih =>
    obtain ⟨k', v'⟩ := e'
    simp only [insertEntry] at h
    split at h
    · rcases List.mem_cons.1 h with rfl | h
      · exact .inl rfl
      · exact .inr ⟨e, h, rfl⟩
    · split at h
      · rcases List.mem_cons.1 h with rfl | h
        · exact .inr ⟨_, List.mem_cons_self, rfl⟩
        · rcases ih h with h | ⟨e', m, h⟩
          · exact .inl h
          · exact .inr ⟨e', List.mem_cons_of_mem _ m, h⟩
      · rcases List.mem_cons.1 h with rfl | h
        · exact .inr ⟨_, List.mem_cons_self, rfl⟩
        · exact .inr ⟨e, List.mem_cons_of_mem _ h, rfl⟩

theorem increasing_insertEntry (k : κ) (v : α) {l : List (κ × α)} (h : Increasing l) :
    Increasing (insertEntry k v l) := by
  induction l with
  | nil => exact List.pairwise_singleton _ _
  | cons e rest ih =>
    obtain ⟨k', v'⟩ := e
    have hd := (List.pairwise_cons.1 h).1
    have tl := (List.pairwise_cons.1 h).2
    simp only [insertEntry]
    split
    · rename_i lt
      refine List.pairwise_cons.2 ⟨fun e m => ?_, h⟩
      rcases List.mem_cons.1 m with rfl | m
      · exact lt
      · exact KeyOrder.trans lt (hd e m)
    · split
      · rename_i gt
        refine List.pairwise_cons.2 ⟨fun e m => ?_, ih tl⟩
        rcases fst_of_mem_insertEntry m with eq | ⟨e', m', eq⟩
        · rw [eq]; exact gt
        · rw [eq]; exact hd e' m'
      · exact List.pairwise_cons.2 ⟨hd, tl⟩

def insert (t : Table κ α) (k : κ) (v : α) : Table κ α :=
  ⟨insertEntry k v t.entries, increasing_insertEntry k v t.sorted⟩

/-- later pairs win -/
def ofList (pairs : List (κ × α)) : Table κ α := pairs.foldl (fun t (k, v) => t.insert k v) empty

section
variable [DecidableEq κ]

theorem lookup_insertEntry (k : κ) (v : α) (l : List (κ × α)) (h : Increasing l) (x : κ) :
    (insertEntry k v l).lookup x = if x = k then some v else l.lookup x := by
  induction l with
  | nil =>
    by_cases e : x = k
    · simp [insertEntry, e]
    · have : (x == k) = false := by simpa using e
      simp [insertEntry, List.lookup_cons, this, e]
  | cons e rest ih =>
    obtain ⟨k', v'⟩ := e
    have tl := (List.pairwise_cons.1 h).2
    simp only [insertEntry]
    split
    · by_cases e : x = k
      · simp [e]
      · have : (x == k) = false := by simpa using e
        simp [List.lookup_cons, this, e]
    · split
      · rename_i _ gt
        simp only [List.lookup_cons, ih tl]
        by_cases e : x = k'
        · subst e
          have ne : x ≠ k := fun eq => by subst eq; exact KeyOrder.irrefl gt
          simp [ne]
        · have : (x == k') = false := by simpa using e
          simp [this]
      · rename_i nlt ngt
        have eq : k' = k := by
          rcases KeyOrder.compare k k' with h | h | h
          · exact absurd h nlt
          · exact h.symm
          · exact absurd h ngt
        subst eq
        by_cases e : x = k'
        · simp [e]
        · have : (x == k') = false := by simpa using e
          simp [List.lookup_cons, this, e]

theorem get?_insert (t : Table κ α) (k : κ) (v : α) (x : κ) :
    (t.insert k v).get? x = if x = k then some v else t.get? x :=
  lookup_insertEntry k v t.entries t.sorted x

theorem lookup_eq_some_iff {l : List (κ × α)} (h : Increasing l) {k : κ} {v : α} :
    l.lookup k = some v ↔ (k, v) ∈ l := by
  induction l with
  | nil => simp
  | cons e rest ih =>
    obtain ⟨k', v'⟩ := e
    have hd := (List.pairwise_cons.1 h).1
    by_cases e : k = k'
    · subst e
      have : (k, v) ∉ rest := fun m => KeyOrder.irrefl (hd (k, v) m)
      simp [this, eq_comm]
    · have : (k == k') = false := by simpa using e
      simp [List.lookup_cons, this, e, ih (List.pairwise_cons.1 h).2]

theorem get?_iff {t : Table κ α} {k : κ} {v : α} : t.get? k = some v ↔ (k, v) ∈ t.entries :=
  lookup_eq_some_iff t.sorted

theorem increasing_ext {l m : List (κ × α)} (hl : Increasing l) (hm : Increasing m)
    (h : ∀ e, e ∈ l ↔ e ∈ m) : l = m := by
  induction l generalizing m with
  | nil =>
    cases m with
    | nil => rfl
    | cons e m => exact absurd ((h e).2 List.mem_cons_self) List.not_mem_nil
  | cons a l ih =>
    cases m with
    | nil => exact absurd ((h a).1 List.mem_cons_self) List.not_mem_nil
    | cons b m =>
      have la := (List.pairwise_cons.1 hl).1
      have mb := (List.pairwise_cons.1 hm).1
      have eq : a = b := by
        rcases List.mem_cons.1 ((h a).1 List.mem_cons_self) with e | ma
        · exact e
        · rcases List.mem_cons.1 ((h b).2 List.mem_cons_self) with e | lb
          · exact e.symm
          · exact absurd (KeyOrder.trans (mb a ma) (la b lb)) KeyOrder.irrefl
      subst eq
      congr 1
      refine ih (List.pairwise_cons.1 hl).2 (List.pairwise_cons.1 hm).2 fun e => ?_
      constructor
      · intro m
        rcases List.mem_cons.1 ((h e).1 (List.mem_cons_of_mem _ m)) with eq | m'
        · subst eq; exact absurd (la e m) KeyOrder.irrefl
        · exact m'
      · intro m
        rcases List.mem_cons.1 ((h e).2 (List.mem_cons_of_mem _ m)) with eq | m'
        · subst eq; exact absurd (mb e m) KeyOrder.irrefl
        · exact m'

theorem ext_get? {s t : Table κ α} (h : ∀ k, s.get? k = t.get? k) : s = t :=
  entries_inj (increasing_ext s.sorted t.sorted fun ⟨k, v⟩ => by
    rw [← get?_iff, ← get?_iff, h])

@[simp] theorem get?_insert_self (t : Table κ α) (k : κ) (v : α) : (t.insert k v).get? k = some v := by
  simp [get?_insert]

theorem get?_insert_of_ne (t : Table κ α) {k x : κ} (v : α) (h : x ≠ k) :
    (t.insert k v).get? x = t.get? x := by
  simp [get?_insert, h]

end

/-! ## Erasure and replacement -/

section
variable {κ α : Type} [LT κ] [DecidableEq κ]

def erase (t : Table κ α) (k : κ) : Table κ α :=
  ⟨t.entries.filter (·.1 ≠ k), List.Pairwise.filter _ t.sorted⟩

theorem lookup_filter_ne (k x : κ) (l : List (κ × α)) :
    (l.filter (·.1 ≠ k)).lookup x = if x = k then none else l.lookup x := by
  induction l with
  | nil => simp
  | cons e rest ih =>
    obtain ⟨k', v'⟩ := e
    by_cases h : k' = k
    · subst h
      by_cases e : x = k'
      · simp only [e, if_true] at ih ⊢
        simpa using ih
      · have : (x == k') = false := by simpa using e
        simpa [List.lookup_cons, this, e] using ih
    · by_cases e : x = k'
      · simp [h, e]
      · have : (x == k') = false := by simpa using e
        simpa [List.lookup_cons, this, e, h] using ih

theorem get?_erase (t : Table κ α) (k x : κ) :
    (t.erase k).get? x = if x = k then none else t.get? x :=
  lookup_filter_ne k x t.entries

/-- a new value for `k`, if it has one -/
def replace (t : Table κ α) (k : κ) (v : α) : Table κ α :=
  ⟨t.entries.map fun e => if e.1 = k then (e.1, v) else e,
    List.pairwise_map.2 (t.sorted.imp fun h => by split <;> split <;> exact h)⟩

theorem lookup_map_value (k : κ) (v : α) (x : κ) (l : List (κ × α)) :
    (l.map fun e => if e.1 = k then (e.1, v) else e).lookup x =
      if x = k then (l.lookup k).map fun _ => v else l.lookup x := by
  induction l with
  | nil => simp
  | cons e rest ih =>
    obtain ⟨k', v'⟩ := e
    by_cases h : k' = k
    · subst h
      by_cases e : x = k'
      · simp [e]
      · have : (x == k') = false := by simpa using e
        simpa [List.lookup_cons, this, e] using ih
    · by_cases e : x = k
      · subst e
        have : (x == k') = false := by simpa using Ne.symm h
        simpa [List.lookup_cons, h, this] using ih
      · simp [h, List.lookup_cons, ih, e]

theorem get?_replace (t : Table κ α) (k : κ) (v : α) (x : κ) :
    (t.replace k v).get? x = if x = k then (t.get? k).map fun _ => v else t.get? x :=
  lookup_map_value k v x t.entries

end

/-- a key that has a value gets a new one in both ways -/
theorem replace_eq_insert {κ α : Type} [LT κ] [DecidableLT κ] [DecidableEq κ] [KeyOrder κ]
    {t : Table κ α} {k : κ} (h : (t.get? k).isSome) (v : α) : t.replace k v = t.insert k v := by
  obtain ⟨old, present⟩ := Option.isSome_iff_exists.1 h
  refine ext_get? fun x => ?_
  rw [get?_replace, get?_insert, present, Option.map_some]

end Table

end VisualNovel
