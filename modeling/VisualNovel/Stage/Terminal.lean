import VisualNovel.Decimal.Fixed
import VisualNovel.Stage.SoundCache
import VisualNovel.Stage.View

/-!
# The terminal

Text is printed as it is revealed, everything else is told in brackets when it changes. Sounds are
loaded and checked, but not played; no video starts.

* `Terminal`         the view, the sounds, and what has been printed and not yet been taken;
* `Terminal.label`   what is printed in front of a line.
-/

namespace VisualNovel

structure Terminal where
  view : View := {}
  style : TextStyle := .spoken
  /-- the sound behind a locator can be loaded -/
  audible : String → Bool
  cache : SoundCache Unit := {}
  music : Option String := none
  suspended : Bool := true
  printed : String := ""

namespace Terminal

def print (t : Terminal) (text : String) : Terminal := { t with printed := t.printed ++ text }
def printLine (t : Terminal) (text : String) : Terminal := t.print (text.push '\n')

/-- the output since the last time it was taken -/
def takeOutput (t : Terminal) : String × Terminal := (t.printed, { t with printed := "" })

def note (t : Terminal) : Option String → Terminal
  | some news => t.printLine s!"  [{news}]"
  | none => t

/-- prints a part of the current line -/
def printText (t : Terminal) (text : String) : Terminal :=
  { t.print text with view.text := t.view.text ++ text }

def label : Option String → TextStyle → String
  | some speaker, .spoken => s!"{speaker}: "
  | some speaker, .thought => s!"{speaker} (thinking): "
  | none, .thought => "(thinking) "
  | none, .spoken => ""

/-- empties the screen and puts the cursor into its corner -/
def clearScreen : String := "\x1b[2J\x1b[H"

def rule : String := "========================================"

def menu (labels : List String) : String :=
  String.join (labels.zipIdx.map fun (l, i) => s!"  {i + 1}. {l}\n") ++ s!"Select (1-{labels.length}): "

/-- whether the sound of a key can be played -/
def loads (t : Terminal) (key locator : String) : Bool × Terminal :=
  let load (l : String) : Id (Option Unit) := if t.audible l then some () else none
  let (sound, cache) := t.cache.fetch load key locator
  (sound.isSome, { t with cache })

instance : Presentation Terminal where
  preload t _ := t
  setBackground t locator :=
    let (news, view) := t.view.setBackground locator
    { t with view }.note news
  setDesk t locator :=
    let (news, view) := t.view.setDesk locator
    { t with view }.note news
  setLayer t layer :=
    let (news, view) := t.view.setLayer layer
    { t with view }.note news
  addSprite t locator :=
    let (handle, view) := t.view.addSprite locator
    (handle, { t with view }.printLine s!"  [+ {locator}]")
  replaceSprite t handle locator := { t with view := t.view.replaceSprite handle locator }
  removeSprite t handle :=
    let (locator, view) := t.view.removeSprite handle
    let t := { t with view }
    match locator with
    | some l => t.printLine s!"  [- {l}]"
    | none => t
  clearSprites t :=
    let (some?, view) := t.view.clearSprites
    let t := { t with view }
    if some? then t.printLine "  [characters cleared]" else t
  setSpritesVisible t visible := { t with view.spritesVisible := visible }
  showTextbox t _ := t
  setSpeaker t name := { t with view.speaker := name }
  clearText t style :=
    ({ t with style, view.text := "" }.printLine "").print (label t.view.speaker style)
  pushChar t c := t.printText c.toString
  setText t text := t.printText (t.view.unprinted text)
  showContinue t visible := if visible then t.printLine " ▼" else t
  showCard t _ := (t.printLine "").printLine rule
  cardNewLine t := (t.printLine "").print "  "
  cardPushChar t c := t.print c.toString
  playVideo t locator := (.error .unsupported, t.printLine s!"  [Video: {locator}]")
  stopVideo t := t
  videoTime _ := 0
  videoPaused _ := true
  videoEnded _ := false
  showChoices t labels := (t.printLine "").print (menu labels)
  hideChoices t := t

instance : Audio Terminal where
  playSound t key locator _ := t.loads key locator
  playMusic t key locator volume :=
    let (loaded, t) := t.loads key locator
    if loaded then
      (true,
        { t with music := some key }.printLine
          s!"  [Music: {key} at {Decimal.fixedSingle 0 (volume * 100)}%]")
    else (false, t)
  stopMusic t := if t.music.isSome then { t with music := none }.printLine "  [Music stopped]" else t
  suspendAudio t := { t with suspended := true }
  resumeAudio t := { t with suspended := false }
  audioSuspended t := t.suspended

end Terminal

end VisualNovel
