import VisualNovel.Asset.Kind
import VisualNovel.Asset.Scan
import VisualNovel.Asset.Table
import VisualNovel.Cast.Scene
import VisualNovel.Cast.Speaker
import VisualNovel.Command.Arguments
import VisualNovel.Command.Input
import VisualNovel.Command.Play
import VisualNovel.Command.Run
import VisualNovel.Config.Basic
import VisualNovel.Config.Reader
import VisualNovel.Decimal.Binary
import VisualNovel.Decimal.Fixed
import VisualNovel.Decimal.Shortest
import VisualNovel.Files.Path
import VisualNovel.Files.System
import VisualNovel.Files.Tree
import VisualNovel.Game
import VisualNovel.Game.Store
import VisualNovel.Json.Numeral
import VisualNovel.Json.Reader
import VisualNovel.Json.Record
import VisualNovel.Json.Text
import VisualNovel.Json.Token
import VisualNovel.Json.Value
import VisualNovel.Json.Writer
import VisualNovel.Main
import VisualNovel.Proofs.Asset.RoundTrip
import VisualNovel.Proofs.Command.Operands
import VisualNovel.Proofs.Files.Written
import VisualNovel.Proofs.Json.RoundTrip
import VisualNovel.Proofs.Rehearsal.Answers
import VisualNovel.Proofs.Rehearsal.Cutoff
import VisualNovel.Proofs.Rehearsal.Through
import VisualNovel.Proofs.Review.Course
import VisualNovel.Proofs.Review.Coverage
import VisualNovel.Proofs.Review.Definitions
import VisualNovel.Proofs.Review.Labels
import VisualNovel.Proofs.Review.Linear
import VisualNovel.Proofs.Review.Loops
import VisualNovel.Proofs.Review.Reach
import VisualNovel.Proofs.Review.Straight
import VisualNovel.Proofs.Review.Targets
import VisualNovel.Proofs.Script.RoundTrip
import VisualNovel.Proofs.Session.Beats
import VisualNovel.Proofs.Session.Blocks
import VisualNovel.Proofs.Session.Clock
import VisualNovel.Proofs.Session.Control
import VisualNovel.Proofs.Session.Deeds
import VisualNovel.Proofs.Session.End
import VisualNovel.Proofs.Session.Epoch
import VisualNovel.Proofs.Session.Foretold
import VisualNovel.Proofs.Session.Forward
import VisualNovel.Proofs.Session.History
import VisualNovel.Proofs.Session.Idle
import VisualNovel.Proofs.Session.Lockstep
import VisualNovel.Proofs.Session.Lookups
import VisualNovel.Proofs.Session.Menus
import VisualNovel.Proofs.Session.Modes
import VisualNovel.Proofs.Session.Moves
import VisualNovel.Proofs.Session.Outcome
import VisualNovel.Proofs.Session.Patience
import VisualNovel.Proofs.Session.Recall
import VisualNovel.Proofs.Session.Rest
import VisualNovel.Proofs.Session.Return
import VisualNovel.Proofs.Session.Runs
import VisualNovel.Proofs.Session.Stall
import VisualNovel.Proofs.Session.Thread
import VisualNovel.Proofs.Session.Videos
import VisualNovel.Proofs.Session.WakeUp
import VisualNovel.Proofs.Stage.Entrances
import VisualNovel.Proofs.Stage.Hiding
import VisualNovel.Proofs.Stage.Loading
import VisualNovel.Proofs.Stage.Matching
import VisualNovel.Proofs.Stage.Music
import VisualNovel.Proofs.Stage.Overlays
import VisualNovel.Proofs.Stage.Parallel
import VisualNovel.Proofs.Stage.Printed
import VisualNovel.Proofs.Stage.Refusing
import VisualNovel.Proofs.Stage.Seen
import VisualNovel.Proofs.Stage.Sequences
import VisualNovel.Proofs.Stage.Skipping
import VisualNovel.Proofs.Stage.Speaker
import VisualNovel.Proofs.Stage.Sprites
import VisualNovel.Proofs.Stage.Staged
import VisualNovel.Proofs.Stage.Talking
import VisualNovel.Proofs.Stage.Terminal
import VisualNovel.Proofs.Stage.Tuneless
import VisualNovel.Proofs.Stage.Typing
import VisualNovel.Proofs.Stage.Writing
import VisualNovel.Proofs.Tables
import VisualNovel.Proofs.Text.Bytes
import VisualNovel.Proofs.Timer.Heap
import VisualNovel.Proofs.Timer.Ledger
import VisualNovel.Proofs.Transcript.Cards
import VisualNovel.Proofs.Transcript.Commands
import VisualNovel.Proofs.Transcript.Converted
import VisualNovel.Proofs.Transcript.Intros
import VisualNovel.Proofs.Transcript.Layers
import VisualNovel.Proofs.Transcript.Places
import VisualNovel.Proofs.Transcript.Spoken
import VisualNovel.Reveal.Card
import VisualNovel.Reveal.Line
import VisualNovel.Review.Assets
import VisualNovel.Review.Check
import VisualNovel.Review.Config
import VisualNovel.Review.Flow
import VisualNovel.Review.Issue
import VisualNovel.Review.Quality
import VisualNovel.Review.References
import VisualNovel.Script.Basic
import VisualNovel.Script.Cue
import VisualNovel.Script.Reader
import VisualNovel.Script.Writer
import VisualNovel.Session.Basic
import VisualNovel.Session.Cue
import VisualNovel.Session.Rehearsal
import VisualNovel.Session.Run
import VisualNovel.Session.Snapshot
import VisualNovel.Stage.Basic
import VisualNovel.Stage.Recording
import VisualNovel.Stage.SoundCache
import VisualNovel.Stage.Terminal
import VisualNovel.Stage.View
import VisualNovel.Table
import VisualNovel.Text.Blank
import VisualNovel.Text.Fragment
import VisualNovel.Text.LowerCase
import VisualNovel.Text.LowerCase.Table
import VisualNovel.Timer.Duration
import VisualNovel.Timer.Heap
import VisualNovel.Timer.Queue
import VisualNovel.Transcript.Convert
import VisualNovel.Transcript.Token
