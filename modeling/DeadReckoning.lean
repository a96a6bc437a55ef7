import DeadReckoning.Plane
import DeadReckoning.Text.Blank
import DeadReckoning.Json.Record
import DeadReckoning.Json.Printer
import DeadReckoning.Clock
import DeadReckoning.Catalog
import DeadReckoning.Wire.Record
import DeadReckoning.View.Navigator
import DeadReckoning.Scene.Basic
import DeadReckoning.Toml.Document
import DeadReckoning.Session
import DeadReckoning.Feed.Plan
import DeadReckoning.Feed.Replay
import DeadReckoning.Command.Directory
import DeadReckoning.Command.Run
import DeadReckoning.Main
import DeadReckoning.Proofs.Catalog.History
import DeadReckoning.Proofs.Session.Consistency
import DeadReckoning.Proofs.Wire.RoundTrip
import DeadReckoning.Proofs.View.Hold
import DeadReckoning.Proofs.Session.Retention
import DeadReckoning.Proofs.Session.Alignment
import DeadReckoning.Proofs.Wire.Outcomes
import DeadReckoning.Proofs.Json.Range
import DeadReckoning.Proofs.Catalog.Reckoning
import DeadReckoning.Proofs.Feed.Agreement
import DeadReckoning.Proofs.Feed.Schedule
import DeadReckoning.Proofs.Catalog.Repetition
import DeadReckoning.Proofs.Session.Redelivery
import DeadReckoning.Proofs.Catalog.Delivery
import DeadReckoning.Proofs.Wire.Verdicts
import DeadReckoning.Proofs.Binary64.Values
import DeadReckoning.Proofs.Feed.Draws
import DeadReckoning.Proofs.Feed.Bodies
import DeadReckoning.Proofs.Catalog.News
import DeadReckoning.Proofs.Feed.Lines
import DeadReckoning.Proofs.Feed.Recording
import DeadReckoning.Proofs.Random.Stream
import DeadReckoning.Proofs.View.Scale
import DeadReckoning.Proofs.Session.Traversal
import DeadReckoning.Proofs.Session.LateNews
import DeadReckoning.Proofs.Feed.Shift
import DeadReckoning.Proofs.View.Notches
import DeadReckoning.Proofs.Session.Bearings
import DeadReckoning.Proofs.Session.FarOut
import DeadReckoning.Proofs.Binary64.Errors
import DeadReckoning.Proofs.View.Axis
import DeadReckoning.Proofs.View.Overflow
import DeadReckoning.Proofs.Binary64.Special
import DeadReckoning.Proofs.Scene.Upkeep
import DeadReckoning.Proofs.Catalog.Counts
import DeadReckoning.Proofs.Session.Accounts
import DeadReckoning.Proofs.Feed.Samples
import DeadReckoning.Proofs.Catalog.Standstill
import DeadReckoning.Proofs.View.Leaks
import DeadReckoning.Proofs.Binary64.Truncation
import DeadReckoning.Proofs.Feed.Gaps
import DeadReckoning.Proofs.Json.Members
import DeadReckoning.Proofs.Wire.Items
import DeadReckoning.Proofs.Track.Lookahead
import DeadReckoning.Proofs.Scene.LastFrame
import DeadReckoning.Proofs.Scene.Sizes
import DeadReckoning.Proofs.Wire.Limits
