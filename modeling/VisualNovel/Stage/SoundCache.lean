import VisualNovel.Table

/-!
# The sound cache

Sounds are loaded once for each key. A failed load is remembered as silence, so that a broken sound is
not asked for again.

* `SoundCache.fetch`   the data of a key, loaded from a locator at its first use.
-/

namespace VisualNovel

structure SoundCache (δ : Type) where
  outcomes : Table String (Option δ) := .empty

namespace SoundCache

variable {δ : Type} {m : Type → Type} [Monad m]

def size (c : SoundCache δ) : Nat := c.outcomes.size
def isEmpty (c : SoundCache δ) : Bool := c.outcomes.isEmpty
def isCached (c : SoundCache δ) (key : String) : Bool := c.outcomes.contains key

def fetch (c : SoundCache δ) (load : String → m (Option δ)) (key locator : String) :
    m (Option δ × SoundCache δ) :=
  match c.outcomes.get? key with
  | some outcome => pure (outcome, c)
  | none => do
    let outcome ← load locator
    return (outcome, ⟨c.outcomes.insert key outcome⟩)

theorem fetch_of_cached {c : SoundCache δ} {key : String} {outcome : Option δ}
    (h : c.outcomes.get? key = some outcome) (load : String → m (Option δ)) (locator : String) :
    c.fetch load key locator = pure (outcome, c) := by
  simp [fetch, h]

end SoundCache

end VisualNovel
