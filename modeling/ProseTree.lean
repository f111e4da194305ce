import ProseTree.Analysis.Pipeline
import ProseTree.Analysis.Sentences
import ProseTree.Analysis.Words
import ProseTree.Binary64.Basic
import ProseTree.Binary64.Decimal
import ProseTree.CommandLine.Arguments
import ProseTree.CommandLine.Run
import ProseTree.Entries
import ProseTree.Expectation
import ProseTree.Expression.Evaluate
import ProseTree.Expression.Reduce
import ProseTree.Files.Folder
import ProseTree.Main
import ProseTree.Node.Basic
import ProseTree.Node.Edit
import ProseTree.Node.Walk
import ProseTree.Proofs.Analysis.Letters
import ProseTree.Proofs.Analysis.LongestWord
import ProseTree.Proofs.Analysis.Menu
import ProseTree.Proofs.Analysis.ParagraphOrder
import ProseTree.Proofs.Analysis.Pipeline
import ProseTree.Proofs.Analysis.Registration
import ProseTree.Proofs.Analysis.Regrouping
import ProseTree.Proofs.Analysis.Reordering
import ProseTree.Proofs.Analysis.RepeatedWords
import ProseTree.Proofs.Binary64.ReadBack
import ProseTree.Proofs.CommandLine.Output
import ProseTree.Proofs.Expression.Acceptance
import ProseTree.Proofs.Expression.Accounting
import ProseTree.Proofs.Expression.BareOccurrence
import ProseTree.Proofs.Expression.BareReduction
import ProseTree.Proofs.Expression.Barrier
import ProseTree.Proofs.Expression.Calculation
import ProseTree.Proofs.Expression.Confluence
import ProseTree.Proofs.Expression.Exchange
import ProseTree.Proofs.Expression.Extent
import ProseTree.Proofs.Expression.Foreign
import ProseTree.Proofs.Expression.Grammar
import ProseTree.Proofs.Expression.GroupReduction
import ProseTree.Proofs.Expression.Idempotence
import ProseTree.Proofs.Expression.Joined
import ProseTree.Proofs.Expression.Kept
import ProseTree.Proofs.Expression.Lexing
import ProseTree.Proofs.Expression.Locality
import ProseTree.Proofs.Expression.Nest
import ProseTree.Proofs.Expression.Passage
import ProseTree.Proofs.Expression.Reading
import ProseTree.Proofs.Expression.Settling
import ProseTree.Proofs.Expression.Spans
import ProseTree.Proofs.Expression.Surroundings
import ProseTree.Proofs.Expression.Understood
import ProseTree.Proofs.Expression.WrittenValue
import ProseTree.Proofs.Node.Address
import ProseTree.Proofs.Node.Editing
import ProseTree.Proofs.Node.Reconstruction
import ProseTree.Proofs.Node.Sharing
import ProseTree.Proofs.Node.Traversals
import ProseTree.Proofs.Node.Visits
import ProseTree.Proofs.Node.Walk
import ProseTree.Proofs.Rendering.Json
import ProseTree.Proofs.Rendering.Outline
import ProseTree.Proofs.Segmentation.BlankCut
import ProseTree.Proofs.Segmentation.Boundary
import ProseTree.Proofs.Segmentation.Conservation
import ProseTree.Proofs.Segmentation.Paragraphs
import ProseTree.Proofs.Segmentation.Reparse
import ProseTree.Proofs.Segmentation.Rereading
import ProseTree.Proofs.Segmentation.RespacedReduction
import ProseTree.Proofs.Segmentation.Respacing
import ProseTree.Proofs.Segmentation.Sentences
import ProseTree.Proofs.Segmentation.Shape
import ProseTree.Proofs.Segmentation.Tokens
import ProseTree.Proofs.Segmentation.Typesetting
import ProseTree.Proofs.Segmentation.Words
import ProseTree.Proofs.Segmentation.Writing
import ProseTree.Proofs.Text.Blank
import ProseTree.Proofs.Text.Segments
import ProseTree.Proofs.Workspace.Assembly
import ProseTree.Proofs.Workspace.Runs
import ProseTree.Proofs.Workspace.Soundness
import ProseTree.Rendering.Format
import ProseTree.Rendering.Yaml
import ProseTree.Segmentation.Chain
import ProseTree.Settings.Basic
import ProseTree.Settings.Conversion
import ProseTree.Settings.Layers
import ProseTree.Settings.Toml.Document
import ProseTree.Settings.Toml.Scalar
import ProseTree.Text.Basic
import ProseTree.Text.Lowercase
import ProseTree.Text.Quoted
import ProseTree.Text.WordChar
import ProseTree.Workspace
