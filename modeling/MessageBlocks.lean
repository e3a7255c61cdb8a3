import MessageBlocks.Compile.Render
import MessageBlocks.Layout.Allocation
import MessageBlocks.Markup.Encoding
import MessageBlocks.Settings.Prepare
import MessageBlocks.Settings.Use
import MessageBlocks.Proofs.Grammar.Acceptance
import MessageBlocks.Proofs.Layout.Transparency
import MessageBlocks.Proofs.Markup.Leeway
import MessageBlocks.Proofs.Compile.Leeway
import MessageBlocks.Proofs.Json.Parts
import MessageBlocks.Proofs.Payload.Regular
import MessageBlocks.Proofs.Compile.Provenance
import MessageBlocks.Proofs.Grammar.Tags
import MessageBlocks.Proofs.Compile.Conformance
import MessageBlocks.Proofs.Markup.Content
import MessageBlocks.Proofs.Markup.RenderLaw
import MessageBlocks.Proofs.Text.Flat
import MessageBlocks.Proofs.Markup.Tokens
import MessageBlocks.Proofs.Text.Escape
import MessageBlocks.Proofs.Compile.ControlTokens
import MessageBlocks.Proofs.Grammar.FirstViolation
import MessageBlocks.Proofs.Text.Entities
import MessageBlocks.Proofs.Text.EscapeLayout
import MessageBlocks.Proofs.Text.Visible
import MessageBlocks.Proofs.Markup.Tokenless
import MessageBlocks.Proofs.Markup.Markers
import MessageBlocks.Proofs.Markup.Visible
import MessageBlocks.Proofs.Markup.Readback
import MessageBlocks.Proofs.Markup.Quotes
import MessageBlocks.Proofs.Compile.InertText
import MessageBlocks.Proofs.Outcome
import MessageBlocks.Proofs.Json.Records
import MessageBlocks.Proofs.Settings.References
import MessageBlocks.Proofs.Settings.Resolution
import MessageBlocks.Proofs.Settings.Occurrences
import MessageBlocks.Proofs.Json.Leaves
import MessageBlocks.Proofs.Settings.FirstMissing
import MessageBlocks.Proofs.Settings.Quoting
import MessageBlocks.Proofs.Settings.Preparation
import MessageBlocks.Proofs.Grammar.Aliases
import MessageBlocks.Proofs.Compile.Endings
import MessageBlocks.Proofs.Grammar.Spelling
import MessageBlocks.Proofs.Lists
import MessageBlocks.Proofs.Compile.Lookalikes
import MessageBlocks.Proofs.Compile.Unseen
import MessageBlocks.Proofs.Compile.Aliases
import MessageBlocks.Proofs.Compile.Layouts
import MessageBlocks.Proofs.Compile.Spelling
import MessageBlocks.Proofs.Compile.Indentation
import MessageBlocks.Proofs.Compile.Nulls
import MessageBlocks.Proofs.Compile.RequiredFields
import MessageBlocks.Proofs.Grammar.Locations
import MessageBlocks.Proofs.Markup.Arms
import MessageBlocks.Proofs.Compile.ContentModel
import MessageBlocks.Proofs.Text.Marks
import MessageBlocks.Proofs.Markup.Marks
import MessageBlocks.Proofs.Compile.MarkedText
import MessageBlocks.Proofs.Layout.Growth
import MessageBlocks.Proofs.Tree.Encoding
import MessageBlocks.Proofs.Number.Value
import MessageBlocks.Proofs.Layout.Exact
import MessageBlocks.Proofs.Layout.Glyphs
import MessageBlocks.Proofs.Layout.Greedy
import MessageBlocks.Proofs.Layout.Recognition
import MessageBlocks.Proofs.Layout.Measure
import MessageBlocks.Proofs.Layout.Allocation
import MessageBlocks.Proofs.Markup.Alignment
import MessageBlocks.Proofs.Markup.Levels
import MessageBlocks.Proofs.Markup.Outline
import MessageBlocks.Proofs.Markup.Bullets
import MessageBlocks.Proofs.Markup.Allocation
import MessageBlocks.Proofs.Compile.Allocation
import MessageBlocks.Proofs.Markup.TokenFields
import MessageBlocks.Proofs.Markup.Separation
import MessageBlocks.Proofs.Compile.Spacing
import MessageBlocks.Proofs.Markup.Numerals
import MessageBlocks.Proofs.Markup.ItemNumbers
import MessageBlocks.Proofs.Compile.InitialChoices
import MessageBlocks.Proofs.Compile.ContextRuns
import MessageBlocks.Proofs.Layout.Tables
import MessageBlocks.Proofs.Compile.ListItems
import MessageBlocks.Proofs.Markup.Encoding
import MessageBlocks.Proofs.Text.Runs
