import HandlerGraph.SortedSet
import HandlerGraph.SortedMap
import HandlerGraph.Text.Ranges
import HandlerGraph.Text.Blank
import HandlerGraph.Text.Alphanumeric
import HandlerGraph.Text.LowerCase
import HandlerGraph.Text.Quoted
import HandlerGraph.Text.Numeral
import HandlerGraph.Text.Search
import HandlerGraph.Fault
import HandlerGraph.Relation
import HandlerGraph.Edge
import HandlerGraph.Node
import HandlerGraph.Graph
import HandlerGraph.Keywords
import HandlerGraph.Noise
import HandlerGraph.Behavior
import HandlerGraph.Extraction
import HandlerGraph.Coverage
import HandlerGraph.Resources
import HandlerGraph.WidgetText
import HandlerGraph.Signature
import HandlerGraph.SwitchNoise
import HandlerGraph.DeadLeaf
import HandlerGraph.Interest
import HandlerGraph.Reduction
import HandlerGraph.Text.Utf8
import HandlerGraph.Json.Basic
import HandlerGraph.Json.Token
import HandlerGraph.Json.Parse
import HandlerGraph.Json.Decode
import HandlerGraph.Seconds.Binary
import HandlerGraph.Seconds.Fixed
import HandlerGraph.Seconds.Shortest
import HandlerGraph.Seconds.Reading
import HandlerGraph.Behavior.File
import HandlerGraph.Coverage.File
import HandlerGraph.WidgetText.File
import HandlerGraph.Markup.Tag
import HandlerGraph.Markup.Attribute
import HandlerGraph.Resources.File
import HandlerGraph.Toml.Value
import HandlerGraph.Toml.Text
import HandlerGraph.Toml.Number
import HandlerGraph.Toml.Document
import HandlerGraph.Settings
import HandlerGraph.Csv
import HandlerGraph.Graph.Table
import HandlerGraph.FileTree.Path
import HandlerGraph.FileTree.Basic
import HandlerGraph.FileTree.Disk
import HandlerGraph.App.Folder
import HandlerGraph.App.Input
import HandlerGraph.App.Archive
import HandlerGraph.App.Run
import HandlerGraph.Batch
import HandlerGraph.Inspection
import HandlerGraph.Command.Argument
import HandlerGraph.Command.Request
import HandlerGraph.Command.Answer
import HandlerGraph.Main
import HandlerGraph.Proofs.DeadLeaf
import HandlerGraph.Proofs.SwitchNoise
import HandlerGraph.Proofs.Extraction
import HandlerGraph.Proofs.Reduction
import HandlerGraph.Proofs.RowOrder
import HandlerGraph.Proofs.EdgeText
import HandlerGraph.Proofs.Json
import HandlerGraph.Proofs.NumberText
import HandlerGraph.Proofs.SecondsText
import HandlerGraph.Proofs.RawFile
import HandlerGraph.Proofs.FileTree
import HandlerGraph.Proofs.Course
import HandlerGraph.Proofs.Desk
import HandlerGraph.Proofs.RunCourse
import HandlerGraph.Proofs.Footprint
import HandlerGraph.Proofs.Resumption
import HandlerGraph.Proofs.Bounds
import HandlerGraph.Proofs.Repetition
import HandlerGraph.Proofs.Archive
import HandlerGraph.Proofs.Auxiliary
import HandlerGraph.Proofs.Locality
import HandlerGraph.Proofs.Batch
import HandlerGraph.Proofs.ReducedFile
import HandlerGraph.Proofs.CallChain
import HandlerGraph.Proofs.Sweep
import HandlerGraph.Proofs.SweepLength
import HandlerGraph.Proofs.UntakenCases
import HandlerGraph.Proofs.Sizes
import HandlerGraph.Proofs.Expansion
import HandlerGraph.Proofs.Restriction
import HandlerGraph.Proofs.HopLimit
import HandlerGraph.Proofs.RaisedLimit
import HandlerGraph.Proofs.Account
import HandlerGraph.Proofs.Trigger
import HandlerGraph.Proofs.Listing
import HandlerGraph.Proofs.BracketSpan
import HandlerGraph.Proofs.EdgeGrammar
import HandlerGraph.Proofs.LabelWords
import HandlerGraph.Proofs.OwnCoverage
import HandlerGraph.Proofs.Representation
import HandlerGraph.Proofs.Numeral
import HandlerGraph.Proofs.CsvText
import HandlerGraph.Proofs.TableText
import HandlerGraph.Proofs.SortedMap
import HandlerGraph.Proofs.MarkupText
import HandlerGraph.Proofs.LayoutId
import HandlerGraph.Proofs.ResourceText
