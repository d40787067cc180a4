import PageQuery.Main
import PageQuery.Page.Table
import PageQuery.Proofs.Engine.Chaining
import PageQuery.Proofs.Engine.Feedback
import PageQuery.Proofs.Engine.PropValues
import PageQuery.Proofs.Fixture.Identity
import PageQuery.Proofs.Engine.Rereading
import PageQuery.Proofs.Engine.Dimensions
import PageQuery.Proofs.Engine.HandleLists
import PageQuery.Proofs.Fixture.Numbering
import PageQuery.Proofs.Fixture.Drawing
import PageQuery.Proofs.Fixture.Hosting
import PageQuery.Proofs.Fixture.DocumentOrder
import PageQuery.Proofs.Fixture.Projection
import PageQuery.Proofs.Fixture.HostNesting
import PageQuery.Proofs.Engine.RootContext
import PageQuery.Proofs.Engine.Highlights
import PageQuery.Proofs.Engine.FoundComponents
import PageQuery.Proofs.Fixture.Ownership
import PageQuery.Proofs.Selector.BlockEnds
import PageQuery.Proofs.Selector.Props
import PageQuery.Proofs.Markup.Agreement
import PageQuery.Proofs.Engine.Gate
import PageQuery.Proofs.Component.Unreadable
import PageQuery.Proofs.Component.Adapter
import PageQuery.Proofs.Engine.Shapes
import PageQuery.Proofs.Engine.OverlayRuns
import PageQuery.Proofs.Engine.Counting
import PageQuery.Proofs.Engine.HighlightCalls
import PageQuery.Proofs.Engine.ClockReadings
import PageQuery.Proofs.Selector.Joined
import PageQuery.Proofs.Selector.JsonTexts
import PageQuery.Proofs.Fixture.Tags
import PageQuery.Proofs.Markup.Forest
import PageQuery.Proofs.Markup.Marks
import PageQuery.Proofs.Markup.CharacterData
import PageQuery.Proofs.Matching.Conditions
import PageQuery.Proofs.Matching.Equality
import PageQuery.Proofs.Matching.Integers
import PageQuery.Proofs.Fixture.Siblings
