import Mathlib.Data.List.Dedup
import VisualNovel.Proofs.Tables
import VisualNovel.Stage.SoundCache

/-!
# Sounds are loaded once

A cache is asked for one sound after the other, in any order and by any locators, while what a loader
would answer may change. It hands out what the first load of each key has brought, and loads nothing
else. Loading is any action of any monad; that it takes place once is said as an equation of actions.

* `SoundRequest`, `SoundCache.serve`   sounds that are asked for, and a cache that hands them out;
* `firstUses`                  the requests that are the first ones of their keys;
* `SoundCache.learn`           a cache with what some loads have brought;
* `bind_loadAll_congr`         whatever loads bring, they bring it for their keys;
* `serve_eq`                   a cache loads what it does not have, at the first use;
* `answers_of_serve_new`, `serve_new_of_reading`   what a cache that is new answers;
* `sounds_are_loaded_once`     what this means for all sounds that are asked for.
-/

set_option linter.unusedSectionVars false

namespace VisualNovel

/-- a sound that is asked for, and the loader as it is at that moment -/
structure SoundRequest (m : Type → Type) (δ : Type) where
  key : String
  locator : String
  load : String → m (Option δ)

/-- the requests that are the first ones of their keys -/
def firstUses {m : Type → Type} {δ : Type} : List (SoundRequest m δ) → List (SoundRequest m δ)
  | [] => []
  | r :: rs => r :: (firstUses rs).filter (·.key ≠ r.key)

variable {m : Type → Type} [Monad m] {δ : Type} {r : SoundRequest m δ} {rs : List (SoundRequest m δ)}

/-- what the sound loads as, without a cache -/
def SoundRequest.loaded (r : SoundRequest m δ) : m (Option δ) := r.load r.locator

/-- one sound after the other is loaded, each for its key -/
def loadAll (rs : List (SoundRequest m δ)) : m (List (String × Option δ)) :=
  rs.mapM fun r => return (r.key, ← r.loaded)

namespace SoundCache

/-- the sounds that are asked for, one after the other, and the cache after them -/
def serve (c : SoundCache δ) : List (SoundRequest m δ) → m (List (Option δ) × SoundCache δ)
  | [] => return ([], c)
  | r :: rs => do
    let (sound, c) ← c.fetch r.load r.key r.locator
    let (sounds, c) ← serve c rs
    return (sound :: sounds, c)

def learn (c : SoundCache δ) (known : List (String × Option δ)) : SoundCache δ :=
  ⟨known.foldl (fun t (key, outcome) => t.insert key outcome) c.outcomes⟩

end SoundCache

/-! ## First uses -/

/-- a request is the first of its key, or the key has been asked for before it -/
theorem firstUses_concat (rs : List (SoundRequest m δ)) (r : SoundRequest m δ) :
    firstUses (rs ++ [r]) =
      firstUses rs ++ if r.key ∈ rs.map SoundRequest.key then [] else [r] := by
  induction rs with
  | nil => rfl
  | cons first rs ih =>
    rw [List.cons_append, firstUses, ih, List.filter_append, firstUses, List.cons_append]
    congr 2
    rw [List.map_cons]
    by_cases same : r.key = first.key
    · have again : r.key ∈ first.key :: rs.map SoundRequest.key := by simp [same]
      rw [if_pos again]
      split <;> simp [same]
    · simp only [List.mem_cons, same, false_or]
      split <;> simp [same]

theorem firstUses_sublist (rs : List (SoundRequest m δ)) : (firstUses rs).Sublist rs := by
  induction rs with
  | nil => exact .slnil
  | cons first rs ih => exact (List.filter_sublist.trans ih).cons_cons first

theorem nodup_keys_firstUses (rs : List (SoundRequest m δ)) :
    ((firstUses rs).map SoundRequest.key).Nodup := by
  induction rs with
  | nil => exact List.nodup_nil
  | cons first rs ih =>
    rw [firstUses, List.map_cons, List.nodup_cons]
    refine ⟨fun mem => ?_, ih.sublist (List.filter_sublist.map _)⟩
    obtain ⟨r, mem, same⟩ := List.mem_map.1 mem
    exact absurd same (by simpa using (List.mem_filter.1 mem).2)

theorem mem_keys_firstUses_iff {key : String} :
    key ∈ (firstUses rs).map SoundRequest.key ↔ key ∈ rs.map SoundRequest.key := by
  refine ⟨fun mem => ((firstUses_sublist rs).map _).subset mem, fun mem => ?_⟩
  induction rs with
  | nil => cases mem
  | cons first rs ih =>
    rw [firstUses, List.map_cons, List.mem_cons]
    rcases eq_or_ne key first.key with same | other
    · exact .inl same
    · rw [List.map_cons] at mem
      obtain ⟨r, first_use, rfl⟩ := List.mem_map.1 (ih ((List.mem_cons.1 mem).resolve_left other))
      exact .inr (List.mem_map.2 ⟨r, List.mem_filter.2 ⟨first_use, by simpa using other⟩, rfl⟩)

/-- what is kept for the keys of the first uses is found by the keys -/
theorem lookup_firstUses {α : Type} {value : SoundRequest m δ → α} {key : String}
    (first_use : r ∈ firstUses rs) (same : r.key = key) :
    ((firstUses rs).map fun r => (r.key, value r)).lookup key = some (value r) := by
  have distinct : (((firstUses rs).map fun r => (r.key, value r)).map Prod.fst).Nodup := by
    rw [List.map_map]
    exact nodup_keys_firstUses rs
  exact Table.lookup_of_mem distinct (List.mem_map.2 ⟨r, first_use, by rw [same]⟩)

/-! ## Loads -/

section
variable [LawfulMonad m]

theorem loadAll_cons (r : SoundRequest m δ) (rs : List (SoundRequest m δ)) :
    loadAll (r :: rs) = do
      let sound ← r.loaded
      let known ← loadAll rs
      return (r.key, sound) :: known := by
  simp only [loadAll, List.mapM_cons, bind_assoc, pure_bind]

theorem bind_loadAll_congr {α : Type} {f g : List (String × Option δ) → m α}
    (same : ∀ known, known.map Prod.fst = rs.map SoundRequest.key → f known = g known) :
    loadAll rs >>= f = loadAll rs >>= g := by
  induction rs generalizing f g with
  | nil => simpa [loadAll] using same [] rfl
  | cons r rs ih =>
    simp only [loadAll_cons, bind_assoc, pure_bind]
    refine bind_congr fun sound => ih fun known keys => same _ ?_
    rw [List.map_cons, List.map_cons, keys]

/-- where loads bring what depends on the locators alone, nothing else counts of them -/
theorem bind_loadAll_congr_of_reading {α : Type} {f g : List (String × Option δ) → m α}
    {sound : String → Option δ}
    (loads : ∀ r ∈ rs, ∃ reading : m Unit, r.loaded = do reading; return sound r.locator)
    (same : f (rs.map fun r => (r.key, sound r.locator)) =
      g (rs.map fun r => (r.key, sound r.locator))) :
    loadAll rs >>= f = loadAll rs >>= g := by
  induction rs generalizing f g with
  | nil => simpa [loadAll] using same
  | cons r rs ih =>
    obtain ⟨reading, brings⟩ := loads r List.mem_cons_self
    simp only [loadAll_cons, brings, bind_assoc, pure_bind]
    exact bind_congr fun _ => ih (fun r' mem => loads r' (List.mem_cons_of_mem _ mem)) same

end

namespace SoundCache

variable {c : SoundCache δ} {key : String}

/-- what has been loaded for other keys makes no difference -/
theorem get?_learn_of_not_mem {known : List (String × Option δ)} (other : key ∉ known.map Prod.fst) :
    (c.learn known).outcomes.get? key = c.outcomes.get? key := by
  rw [learn, Table.get?_foldl_insert]
  have nothing : known.reverse.lookup key = none := by
    refine Option.eq_none_iff_forall_ne_some.2 fun v found => other ?_
    exact List.mem_map_of_mem (List.mem_reverse.1 (Table.mem_of_lookup found))
  rw [nothing, Option.none_or]

theorem learn_cons (outcome : Option δ) (known : List (String × Option δ)) :
    c.learn ((key, outcome) :: known) =
      (SoundCache.mk (c.outcomes.insert key outcome)).learn known := rfl

theorem learn_new (known : List (String × Option δ)) :
    (SoundCache.learn {} known).outcomes = Table.ofList known := rfl

def missed (c : SoundCache δ) (rs : List (SoundRequest m δ)) : List (SoundRequest m δ) :=
  (firstUses rs).filter fun r => !c.isCached r.key

theorem missed_cons_of_cached (cached : c.isCached r.key = true) (rs : List (SoundRequest m δ)) :
    c.missed (r :: rs) = c.missed rs := by
  rw [missed, firstUses, List.filter_cons_of_neg (by simp [cached]), List.filter_filter, missed]
  refine List.filter_congr fun r' _ => ?_
  rcases eq_or_ne r'.key r.key with same | other
  · rw [same, cached]
    rfl
  · simp [other]

theorem missed_cons_of_new (new : c.isCached r.key = false) (rs : List (SoundRequest m δ)) :
    c.missed (r :: rs) = r :: (c.missed rs).filter (·.key ≠ r.key) := by
  rw [missed, firstUses, List.filter_cons_of_pos (by simp [new]), missed, List.filter_filter,
    List.filter_filter]
  simp only [Bool.and_comm]

/-- what has been loaded for a key spares the loads of this key, whatever it is -/
theorem missed_insert (outcome : Option δ) (rs : List (SoundRequest m δ)) :
    (SoundCache.mk (c.outcomes.insert key outcome)).missed rs =
      (c.missed rs).filter (·.key ≠ key) := by
  rw [missed, missed, List.filter_filter]
  refine List.filter_congr fun r _ => ?_
  simp only [isCached, Table.contains, Table.get?_insert]
  rcases eq_or_ne r.key key with same | other
  · simp [same]
  · simp [other]

variable [LawfulMonad m]

theorem serve_eq (c : SoundCache δ) (rs : List (SoundRequest m δ)) :
    c.serve rs = do
      let known ← loadAll (c.missed rs)
      return (rs.map fun r => ((c.learn known).outcomes.get? r.key).join, c.learn known) := by
  induction rs generalizing c with
  | nil => simp [serve, missed, firstUses, loadAll, learn]
  | cons r rs ih =>
    cases has : c.outcomes.get? r.key with
    | some outcome =>
      have cached : c.isCached r.key = true := by rw [isCached, Table.contains, has]; rfl
      simp only [serve, fetch_of_cached has, pure_bind, ih, missed_cons_of_cached cached, bind_assoc]
      refine bind_loadAll_congr fun known keys => ?_
      have other : r.key ∉ known.map Prod.fst := by
        rw [keys]
        intro mem
        obtain ⟨r', mem, same⟩ := List.mem_map.1 mem
        have new := (List.mem_filter.1 mem).2
        rw [same, cached] at new
        cases new
      rw [List.map_cons, get?_learn_of_not_mem other, has]
      rfl
    | none =>
      have new : c.isCached r.key = false := by rw [isCached, Table.contains, has]; rfl
      have fetched : c.fetch r.load r.key r.locator =
          r.loaded >>= fun sound => pure (sound, ⟨c.outcomes.insert r.key sound⟩) := by
        rw [fetch, has]
        rfl
      simp only [serve, fetched, ih, missed_cons_of_new new, missed_insert, loadAll_cons, bind_assoc,
        pure_bind]
      refine bind_congr fun sound => bind_loadAll_congr fun known keys => ?_
      have other : r.key ∉ known.map Prod.fst := by
        rw [keys]
        simp
      have own : (c.learn ((r.key, sound) :: known)).outcomes.get? r.key = some sound := by
        rw [learn_cons, get?_learn_of_not_mem other, Table.get?_insert, if_pos rfl]
      rw [List.map_cons, own, learn_cons]
      rfl

/-! ## A new cache -/

theorem serve_new (rs : List (SoundRequest m δ)) :
    SoundCache.serve {} rs = do
      let known ← loadAll (firstUses rs)
      return (rs.map fun r => (known.lookup r.key).join, ⟨Table.ofList known⟩) := by
  have all : SoundCache.missed {} rs = firstUses rs := List.filter_true _
  rw [serve_eq, all]
  refine bind_loadAll_congr fun known keys => ?_
  have distinct : (known.map Prod.fst).Nodup := keys ▸ nodup_keys_firstUses rs
  simp only [learn_new, Table.get?_ofList, Table.lookup_reverse distinct]
  rfl

theorem answers_of_serve_new (rs : List (SoundRequest m δ)) :
    (do
        let (answers, cache) ← SoundCache.serve {} rs
        return (answers.map some, cache.outcomes, cache.size)) = do
      let known ← loadAll (firstUses rs)
      return (rs.map fun r => known.lookup r.key, Table.ofList known,
        (rs.map SoundRequest.key).dedup.length) := by
  simp only [serve_new, bind_assoc, pure_bind]
  refine bind_loadAll_congr fun known keys => ?_
  have asked {key} : key ∈ known.map Prod.fst ↔ key ∈ rs.map SoundRequest.key :=
    keys ▸ mem_keys_firstUses_iff
  have answer (r) (mem : r ∈ rs) : some (known.lookup r.key).join = known.lookup r.key := by
    have found := Table.lookup_isSome_iff_mem_keys.2 (asked.2 (List.mem_map_of_mem mem))
    obtain ⟨outcome, found⟩ := Option.isSome_iff_exists.1 found
    rw [found, Option.join_some]
  have count : (Table.ofList known).size = (rs.map SoundRequest.key).dedup.length :=
    Table.size_eq_of_mem_keys_iff fun key => Table.mem_keys_ofList_iff.trans asked
  rw [List.map_map, ← count, size]
  congr 2
  exact List.map_congr_left answer

theorem serve_new_of_reading {sound : String → Option δ}
    (loads : ∀ r ∈ rs, ∃ reading : m Unit, r.loaded = do reading; return sound r.locator)
    (one : ∀ r ∈ rs, ∀ r' ∈ rs, r.key = r'.key → r.locator = r'.locator) :
    SoundCache.serve {} rs = do
      let (_, cache) ← SoundCache.serve {} rs
      return (rs.map fun r => sound r.locator, cache) := by
  conv => lhs; rw [serve_new]
  simp only [serve_new, bind_assoc, pure_bind]
  refine bind_loadAll_congr_of_reading (fun r mem => loads r ((firstUses_sublist rs).subset mem)) ?_
  congr 2
  refine List.map_congr_left fun r mem => ?_
  obtain ⟨first, first_use, same⟩ :=
    List.mem_map.1 (mem_keys_firstUses_iff.2 (List.mem_map_of_mem mem))
  have locator := one first ((firstUses_sublist rs).subset first_use) r mem same
  rw [lookup_firstUses first_use same, locator, Option.join_some]

end SoundCache

/-- **Sounds are loaded once.** A new cache that is asked for some sounds loads the first use of each
key, by the locator that stands there, and nothing else. It answers every request by what the load for
the key has brought, keeps just these outcomes, and counts the keys. Each key has one first use, which
is the request whose key has not been asked for before. Where the loads bring what depends on the
locators alone, and each key comes with one locator, the answers are those of loads without a
cache. -/
theorem sounds_are_loaded_once [LawfulMonad m] (requests : List (SoundRequest m δ)) :
    ((do
        let (answers, cache) ← SoundCache.serve {} requests
        return (answers.map some, cache.outcomes, cache.size)) = do
      let known ← loadAll (firstUses requests)
      return (requests.map fun r => known.lookup r.key, Table.ofList known,
        (requests.map SoundRequest.key).dedup.length)) ∧
    ((firstUses requests).map SoundRequest.key).Nodup ∧
    (∀ key, key ∈ (firstUses requests).map SoundRequest.key ↔
      key ∈ requests.map SoundRequest.key) ∧
    (∀ earlier (r : SoundRequest m δ), firstUses (earlier ++ [r]) =
      firstUses earlier ++ if r.key ∈ earlier.map SoundRequest.key then [] else [r]) ∧
    ∀ sound : String → Option δ,
      (∀ r ∈ requests, ∃ reading : m Unit, r.loaded = do reading; return sound r.locator) →
      (∀ r ∈ requests, ∀ r' ∈ requests, r.key = r'.key → r.locator = r'.locator) →
      SoundCache.serve {} requests = do
        let (_, cache) ← SoundCache.serve {} requests
        return (requests.map fun r => sound r.locator, cache) := by
  exact ⟨SoundCache.answers_of_serve_new requests, nodup_keys_firstUses requests,
    fun _ => mem_keys_firstUses_iff, firstUses_concat, fun _ => SoundCache.serve_new_of_reading⟩

/-- a loader that notes the locators it is given, and finds all but the empty one -/
def notedLoad (locator : String) : StateM (List String) (Option String) := do
  modify (· ++ [locator])
  return if locator = "" then none else some locator

/-- Of four sounds with two keys two are loaded, and the broken one stays silent. -/
theorem a_blip_and_a_broken_sound :
    let asked := [("blip", "a.wav"), ("broken", ""), ("blip", "a.wav"), ("broken", "")]
    let sounds := asked.map fun (key, locator) => SoundRequest.mk key locator notedLoad
    let ((answers, cache), loads) := (SoundCache.serve {} sounds).run []
    answers = [some "a.wav", none, some "a.wav", none] ∧ loads = ["a.wav", ""] ∧ cache.size = 2 := by
  intro asked sounds
  have one : ∀ a ∈ asked, ∀ b ∈ asked, a.1 = b.1 → a.2 = b.2 := by decide
  obtain ⟨loaded, -, -, -, transparent⟩ := sounds_are_loaded_once sounds
  have answers := transparent (fun locator => if locator = "" then none else some locator)
    (List.forall_mem_map.2 fun (_, locator) _ => ⟨modify (· ++ [locator]), rfl⟩)
    (List.forall_mem_map.2 fun a mem => List.forall_mem_map.2 fun b mem' => one a mem b mem')
  exact ⟨congrArg (fun run => (run.run []).1.1) answers, congrArg (fun run => (run.run []).2) loaded,
    congrArg (fun run => (run.run []).1.2.2) loaded⟩

end VisualNovel
