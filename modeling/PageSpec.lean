import PageSpec.Action.Writing
import PageSpec.DevTools.Session
import PageSpec.Main
import PageSpec.Page.Codec
import PageSpec.Proofs.Action.Loops
import PageSpec.Proofs.Action.Permuted
import PageSpec.Proofs.Bound
import PageSpec.Proofs.Browser.Anchors
import PageSpec.Proofs.Browser.Descriptions
import PageSpec.Proofs.Browser.Polling
import PageSpec.Proofs.Browser.Readings
import PageSpec.Proofs.DevTools.Answering
import PageSpec.Proofs.DevTools.Chords
import PageSpec.Proofs.DevTools.Embedding
import PageSpec.Proofs.DevTools.Interception
import PageSpec.Proofs.Dynamic.Calendar
import PageSpec.Proofs.Dynamic.CopiedText
import PageSpec.Proofs.Dynamic.IntegerBounds
import PageSpec.Proofs.Dynamic.LongestTokens
import PageSpec.Proofs.Dynamic.LooseJson
import PageSpec.Proofs.Dynamic.Offsets
import PageSpec.Proofs.Dynamic.QuotedArguments
import PageSpec.Proofs.Dynamic.Quoting
import PageSpec.Proofs.Dynamic.Separators
import PageSpec.Proofs.Dynamic.Stamps
import PageSpec.Proofs.Dynamic.WholeWords
import PageSpec.Proofs.Dynamic.Window
import PageSpec.Proofs.Execution.Blank
import PageSpec.Proofs.Execution.BodyChecks
import PageSpec.Proofs.Execution.ClickAsTarget
import PageSpec.Proofs.Execution.Clicking
import PageSpec.Proofs.Execution.Guards
import PageSpec.Proofs.Execution.Loop
import PageSpec.Proofs.Execution.Names
import PageSpec.Proofs.Execution.Nesting
import PageSpec.Proofs.Execution.Order
import PageSpec.Proofs.Execution.OwnText
import PageSpec.Proofs.Execution.Preparation
import PageSpec.Proofs.Execution.Seeking
import PageSpec.Proofs.Execution.SlowTyping
import PageSpec.Proofs.Execution.TypedText
import PageSpec.Proofs.Execution.VisibleForms
import PageSpec.Proofs.Execution.Within
import PageSpec.Proofs.Files.Sampling
import PageSpec.Proofs.Functions.StaticValues
import PageSpec.Proofs.Network.Globs
import PageSpec.Proofs.Network.History
import PageSpec.Proofs.Page.ExactText
import PageSpec.Proofs.Page.Family
import PageSpec.Proofs.Page.Hollow
import PageSpec.Proofs.Page.Matching
import PageSpec.Proofs.Page.Operation
import PageSpec.Proofs.Page.PageText
import PageSpec.Proofs.Page.Parts
import PageSpec.Proofs.Page.Picking
import PageSpec.Proofs.Page.Planting
import PageSpec.Proofs.Page.Reread
import PageSpec.Proofs.Page.Scoping
import PageSpec.Proofs.Page.Stages
import PageSpec.Proofs.Page.Standing
import PageSpec.Proofs.Runner.Addresses
import PageSpec.Proofs.Runner.Bases
import PageSpec.Proofs.Runner.Brackets
import PageSpec.Proofs.Runner.Checked
import PageSpec.Proofs.Runner.Outcomes
import PageSpec.Proofs.Runner.Selected
import PageSpec.Proofs.Suite.Discovery
import PageSpec.Proofs.Suite.Expansion
import PageSpec.Proofs.Text.Classes
import PageSpec.Proofs.Tokens.Bytes
import PageSpec.Proofs.Page.Parts
