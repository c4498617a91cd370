import VisualNovel.Review.Assets
import VisualNovel.Review.Flow
import VisualNovel.Review.Quality
import VisualNovel.Review.References

/-!
# Reviewing a game

* `review`   all issues of a game, category by category.
-/

namespace VisualNovel

open Review

def referenceIssues (script : Script) (rules : ReferenceRules) : List Issue :=
  (if rules.checkLabels then targetIssues script else []) ++
    (if rules.checkDuplicates then duplicateIssues script else []) ++ nestedIssues script

def flowIssues (script : Script) (rules : FlowRules) : List Issue :=
  (if rules.checkReachable then unreachableIssues script else []) ++
    (if rules.checkLoops then loopIssues script else [])

def review (game : Game) (config : ReviewConfig) : Verdict where
  issues :=
    (if config.references.enabled then referenceIssues game.script config.references else []) ++
      (if config.assets.enabled then assetIssues game config.assets.checkTalking else []) ++
      (if config.quality.enabled then qualityIssues game.script config.quality else []) ++
      (if config.flow.enabled then flowIssues game.script config.flow else [])

end VisualNovel
