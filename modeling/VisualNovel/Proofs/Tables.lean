import Mathlib.Data.List.Dedup
import VisualNovel.Table

/-!
# Tables that are built entry by entry

A table forgets the order in which its entries were put in, and all but the last one of each key.

* `Table.get?_ofList`      what a lookup finds is the last pair of the key;
* `Table.ofList_eq_iff`    when two lists of pairs make one table;
* `Table.ofList_entries`   the entries of a table make the table;
* `Table.mem_keys_iff`, `Table.nodup_keys`   the keys are those that a lookup finds, each once.
-/

set_option linter.unusedSectionVars false

namespace VisualNovel.Table

variable {κ α : Type} [LT κ] [KeyOrder κ] [DecidableLT κ] [DecidableEq κ]

theorem get?_foldl_insert (pairs : List (κ × α)) (t : Table κ α) (k : κ) :
    (pairs.foldl (fun t (k, v) => t.insert k v) t).get? k =
      (pairs.reverse.lookup k).or (t.get? k) := by
  induction pairs generalizing t with
  | nil => rfl
  | cons pair pairs ih =>
    obtain ⟨k', v⟩ := pair
    rw [List.foldl_cons, ih, get?_insert, List.reverse_cons, List.lookup_append, Option.or_assoc]
    congr 1
    by_cases same : k = k'
    · simp [same]
    · have other : (k == k') = false := by simpa using same
      simp [List.lookup_cons, other, same]

theorem get?_ofList (pairs : List (κ × α)) (k : κ) :
    (ofList pairs).get? k = pairs.reverse.lookup k := by
  rw [ofList, get?_foldl_insert, get?_empty, Option.or_none]

theorem ofList_eq_iff {pairs pairs' : List (κ × α)} :
    ofList pairs = ofList pairs' ↔ ∀ k, pairs.reverse.lookup k = pairs'.reverse.lookup k := by
  simp only [← get?_ofList]
  exact ⟨fun same k => by rw [same], ext_get?⟩

/-! ## Keys -/

theorem mem_keys_iff {t : Table κ α} {k : κ} : k ∈ t.keys ↔ (t.get? k).isSome := by
  rw [keys, List.mem_map, Option.isSome_iff_exists]
  constructor
  · rintro ⟨⟨k, v⟩, m, rfl⟩
    exact ⟨v, get?_iff.2 m⟩
  · rintro ⟨v, found⟩
    exact ⟨(k, v), get?_iff.1 found, rfl⟩

theorem nodup_keys (t : Table κ α) : t.keys.Nodup := by
  refine List.pairwise_map.2 (t.sorted.imp fun {a b} lt same => ?_)
  rw [same] at lt
  exact KeyOrder.irrefl lt

theorem mem_of_lookup {pairs : List (κ × α)} {k : κ} {v : α} (found : pairs.lookup k = some v) :
    (k, v) ∈ pairs := by
  obtain ⟨before, after, rfl, -⟩ := List.lookup_eq_some_iff.1 found
  exact List.mem_append_right _ List.mem_cons_self

theorem lookup_isSome_iff_mem_keys {pairs : List (κ × α)} {k : κ} :
    (pairs.lookup k).isSome ↔ k ∈ pairs.map Prod.fst := by
  rw [List.lookup_isSome_iff, List.mem_map]
  simp only [beq_iff_eq]
  exact exists_congr fun pair => and_congr_right fun _ => eq_comm

theorem lookup_of_mem {pairs : List (κ × α)} (distinct : (pairs.map Prod.fst).Nodup) {k : κ} {v : α}
    (m : (k, v) ∈ pairs) : pairs.lookup k = some v := by
  obtain ⟨before, after, rfl⟩ := List.append_of_mem m
  rw [List.map_append, List.map_cons, List.nodup_append] at distinct
  refine List.lookup_eq_some_iff.2 ⟨before, after, rfl, fun pair earlier => ?_⟩
  have other := distinct.2.2 pair.1 (List.mem_map_of_mem earlier) k List.mem_cons_self
  simpa using other.symm

theorem lookup_reverse {pairs : List (κ × α)} (distinct : (pairs.map Prod.fst).Nodup) (k : κ) :
    pairs.reverse.lookup k = pairs.lookup k := by
  have distinct' : (pairs.reverse.map Prod.fst).Nodup := by
    rw [List.map_reverse, List.nodup_reverse]
    exact distinct
  refine Option.ext fun v => ⟨fun found => ?_, fun found => ?_⟩
  · exact lookup_of_mem distinct (List.mem_reverse.1 (mem_of_lookup found))
  · exact lookup_of_mem distinct' (List.mem_reverse.2 (mem_of_lookup found))

theorem mem_keys_ofList_iff {pairs : List (κ × α)} {k : κ} :
    k ∈ (ofList pairs).keys ↔ k ∈ pairs.map Prod.fst := by
  rw [mem_keys_iff, get?_ofList, lookup_isSome_iff_mem_keys, List.map_reverse, List.mem_reverse]

theorem size_eq_of_mem_keys_iff {t : Table κ α} {ks : List κ} (same : ∀ k, k ∈ t.keys ↔ k ∈ ks) :
    t.size = ks.dedup.length := by
  have perm : t.keys.Perm ks.dedup := by
    rw [List.perm_ext_iff_of_nodup t.nodup_keys ks.nodup_dedup]
    exact fun k => (same k).trans List.mem_dedup.symm
  rw [← perm.length_eq, keys, List.length_map, size]

theorem ofList_entries (t : Table κ α) : ofList t.entries = t :=
  ext_get? fun k => (get?_ofList _ k).trans (lookup_reverse t.nodup_keys k)

end VisualNovel.Table
