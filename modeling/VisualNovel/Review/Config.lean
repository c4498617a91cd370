import VisualNovel.Json.Reader
import VisualNovel.Json.Record

/-!
# What a review looks for

Every value has a default, as in the player configuration.

* `ReviewConfig`          which findings are wanted, and the limits of waits and texts;
* `ReviewConfig.parse?`   the configuration of a text.
-/

namespace VisualNovel

open Json (Value)

structure ReferenceRules where
  enabled : Bool := true
  /-- the targets of jumps and choices -/
  checkLabels : Bool := true
  checkDuplicates : Bool := true
deriving DecidableEq

structure AssetRules where
  enabled : Bool := true
  /-- the talking sprites of the characters that are shown -/
  checkTalking : Bool := false
deriving DecidableEq

structure QualityRules where
  enabled : Bool := true
  /-- seconds -/
  maxWait : Float := 5
  warnMusic : Bool := true
  /-- characters -/
  maxText : Nat := 200

structure FlowRules where
  enabled : Bool := true
  checkReachable : Bool := true
  checkLoops : Bool := true
deriving DecidableEq

structure ReviewConfig where
  references : ReferenceRules := {}
  assets : AssetRules := {}
  quality : QualityRules := {}
  flow : FlowRules := {}

def ReferenceRules.read? (v : Value) : Option ReferenceRules :=
  v.read? 3 fun r => do
    return {
      enabled := ← r.get? 0 ["enabled"] Value.bool? (some true)
      checkLabels := ← r.get? 1 ["check_labels"] Value.bool? (some true)
      checkDuplicates := ← r.get? 2 ["check_duplicates"] Value.bool? (some true) }

def AssetRules.read? (v : Value) : Option AssetRules :=
  v.read? 2 fun r => do
    return {
      enabled := ← r.get? 0 ["enabled"] Value.bool? (some true)
      checkTalking := ← r.get? 1 ["check_talk_variants"] Value.bool? (some false) }

def QualityRules.read? (v : Value) : Option QualityRules :=
  v.read? 4 fun r => do
    return {
      enabled := ← r.get? 0 ["enabled"] Value.bool? (some true)
      maxWait := ← r.get? 1 ["max_consecutive_wait"] Value.float? (some 5)
      warnMusic := ← r.get? 2 ["warn_duplicate_music"] Value.bool? (some true)
      maxText := ← r.get? 3 ["max_text_length"] Value.natural? (some 200) }

def FlowRules.read? (v : Value) : Option FlowRules :=
  v.read? 3 fun r => do
    return {
      enabled := ← r.get? 0 ["enabled"] Value.bool? (some true)
      checkReachable := ← r.get? 1 ["check_reachability"] Value.bool? (some true)
      checkLoops := ← r.get? 2 ["check_infinite_loops"] Value.bool? (some true) }

def ReviewConfig.read? (v : Value) : Option ReviewConfig :=
  v.read? 4 fun r => do
    return {
      references := ← r.get? 0 ["references"] ReferenceRules.read? (some {})
      assets := ← r.get? 1 ["assets"] AssetRules.read? (some {})
      quality := ← r.get? 2 ["quality"] QualityRules.read? (some {})
      flow := ← r.get? 3 ["flow"] FlowRules.read? (some {}) }

def ReviewConfig.parse? (text : String) : Option ReviewConfig := (Json.parse? text).bind read?

end VisualNovel
