import ScreenScript.Attempt
import ScreenScript.Clock
import ScreenScript.CommandLine
import ScreenScript.CommandLine.Argument
import ScreenScript.CommandLine.Check
import ScreenScript.CommandLine.Command
import ScreenScript.CommandLine.Example
import ScreenScript.CommandLine.Reply
import ScreenScript.CommandLine.Run
import ScreenScript.CommandLine.Usage
import ScreenScript.CommandLine.Variables
import ScreenScript.CommandLine.Words
import ScreenScript.Disk.Basic
import ScreenScript.Disk.Change
import ScreenScript.Disk.Node
import ScreenScript.Disk.Path
import ScreenScript.Disk.Tree
import ScreenScript.Environment
import ScreenScript.Expr.Basic
import ScreenScript.Expr.Evaluation
import ScreenScript.Expr.Parse
import ScreenScript.Expr.Token
import ScreenScript.Failure
import ScreenScript.Geometry
import ScreenScript.Image.Deflate
import ScreenScript.Image.Png
import ScreenScript.Image.Pyramid
import ScreenScript.Image.Raster
import ScreenScript.Image.Resize
import ScreenScript.Image.Sketch
import ScreenScript.Input
import ScreenScript.Journal
import ScreenScript.Json.Basic
import ScreenScript.Json.Number
import ScreenScript.Json.Printer
import ScreenScript.Json.Reader
import ScreenScript.Json.Records
import ScreenScript.Json.Token
import ScreenScript.Main
import ScreenScript.Match.Find
import ScreenScript.Match.Needle
import ScreenScript.Match.Peaks
import ScreenScript.Match.Scalar
import ScreenScript.Match.SummedArea
import ScreenScript.Match.Window
import ScreenScript.NameMap
import ScreenScript.Number.Binary64
import ScreenScript.Number.Layout
import ScreenScript.Number.Reading
import ScreenScript.Number.Shortest
import ScreenScript.Proofs.Attempt
import ScreenScript.Proofs.CommandLine.Check
import ScreenScript.Proofs.CommandLine.Variables
import ScreenScript.Proofs.Disk.NormalForm
import ScreenScript.Proofs.Disk.Replaces
import ScreenScript.Proofs.Except
import ScreenScript.Proofs.Expr.Grammar
import ScreenScript.Proofs.Expr.Names
import ScreenScript.Proofs.Expr.Printing
import ScreenScript.Proofs.Image.Regions
import ScreenScript.Proofs.Journal
import ScreenScript.Proofs.Json.NumberText
import ScreenScript.Proofs.Json.Quoted
import ScreenScript.Proofs.Json.RoundTrip
import ScreenScript.Proofs.Json.TokenText
import ScreenScript.Proofs.Match.Attempts
import ScreenScript.Proofs.Match.BestWindow
import ScreenScript.Proofs.Match.Checked
import ScreenScript.Proofs.Match.Correlation
import ScreenScript.Proofs.Match.FirstBest
import ScreenScript.Proofs.Match.Moments
import ScreenScript.Proofs.Match.Outcome
import ScreenScript.Proofs.Match.Peaks
import ScreenScript.Proofs.Match.Placements
import ScreenScript.Proofs.Match.Regions
import ScreenScript.Proofs.Match.Scan
import ScreenScript.Proofs.Match.Scores
import ScreenScript.Proofs.Match.SummedArea
import ScreenScript.Proofs.NameMap
import ScreenScript.Proofs.Number.Arithmetic
import ScreenScript.Proofs.Number.Digits
import ScreenScript.Proofs.Number.Doubles
import ScreenScript.Proofs.Number.Exact
import ScreenScript.Proofs.Number.Order
import ScreenScript.Proofs.Number.Packing
import ScreenScript.Proofs.Number.Positive
import ScreenScript.Proofs.Number.Rounding
import ScreenScript.Proofs.Rehearsal
import ScreenScript.Proofs.Run.Abort
import ScreenScript.Proofs.Run.Accord
import ScreenScript.Proofs.Run.Dispatches
import ScreenScript.Proofs.Run.Frames
import ScreenScript.Proofs.Run.Interpreter
import ScreenScript.Proofs.Run.Interruptions
import ScreenScript.Proofs.Run.Nesting
import ScreenScript.Proofs.Run.Pointer
import ScreenScript.Proofs.Run.Projection
import ScreenScript.Proofs.Run.Protocol
import ScreenScript.Proofs.Run.Recorded
import ScreenScript.Proofs.Run.Refinement
import ScreenScript.Proofs.Run.Scales
import ScreenScript.Proofs.Run.Steps
import ScreenScript.Proofs.Run.Tallies
import ScreenScript.Proofs.Run.Templates
import ScreenScript.Proofs.Run.Upheld
import ScreenScript.Proofs.Run.Visits
import ScreenScript.Proofs.Run.Watched
import ScreenScript.Proofs.Screen.Capture
import ScreenScript.Proofs.Screen.Coordinates
import ScreenScript.Proofs.Screen.ScaleCache
import ScreenScript.Proofs.Script.Arrangements
import ScreenScript.Proofs.Script.Assignments
import ScreenScript.Proofs.Script.Commands
import ScreenScript.Proofs.Script.Declarations
import ScreenScript.Proofs.Script.Derivation
import ScreenScript.Proofs.Script.Durations
import ScreenScript.Proofs.Script.Filling
import ScreenScript.Proofs.Script.FreeText
import ScreenScript.Proofs.Script.Grammar
import ScreenScript.Proofs.Script.Leftovers
import ScreenScript.Proofs.Script.Literals
import ScreenScript.Proofs.Script.Meanings
import ScreenScript.Proofs.Script.Numbering
import ScreenScript.Proofs.Script.Phrase
import ScreenScript.Proofs.Script.Placeholders
import ScreenScript.Proofs.Script.Placement
import ScreenScript.Proofs.Script.Places
import ScreenScript.Proofs.Script.Prefixes
import ScreenScript.Proofs.Script.QuotedText
import ScreenScript.Proofs.Script.Reading
import ScreenScript.Proofs.Script.Remarks
import ScreenScript.Proofs.Script.Searches
import ScreenScript.Proofs.Script.Sentences
import ScreenScript.Proofs.Script.Spelling
import ScreenScript.Proofs.Script.Taking
import ScreenScript.Proofs.Script.Timeouts
import ScreenScript.Proofs.Script.Trailers
import ScreenScript.Proofs.Script.Unclosed
import ScreenScript.Proofs.Script.WellFormed
import ScreenScript.Proofs.Script.Words
import ScreenScript.Proofs.Search.Accord
import ScreenScript.Proofs.Search.Deadline
import ScreenScript.Proofs.Search.Failures
import ScreenScript.Proofs.Search.Polling
import ScreenScript.Proofs.Search.Rounds
import ScreenScript.Proofs.Search.Scales
import ScreenScript.Proofs.Template.Inspection
import ScreenScript.Proofs.Template.Sharing
import ScreenScript.Proofs.Template.Store
import ScreenScript.Proofs.Text.Escaping
import ScreenScript.Proofs.Text.Lines
import ScreenScript.Proofs.Text.Quoted
import ScreenScript.Proofs.Text.Trim
import ScreenScript.Proofs.Time.Calendar
import ScreenScript.Proofs.Time.Timestamp
import ScreenScript.Proofs.Variables.FailedWrite
import ScreenScript.Proofs.Variables.FileText
import ScreenScript.Proofs.Variables.Layers
import ScreenScript.Proofs.Variables.Reopening
import ScreenScript.Proofs.Variables.Saving
import ScreenScript.Proofs.Variables.Sharing
import ScreenScript.Rehearsal
import ScreenScript.Rehearsal.Supplies
import ScreenScript.Run.Machine
import ScreenScript.Run.Report
import ScreenScript.Run.Session
import ScreenScript.Screen.Capture
import ScreenScript.Screen.Scale
import ScreenScript.Script.Arguments
import ScreenScript.Script.Block
import ScreenScript.Script.Command
import ScreenScript.Script.Duration
import ScreenScript.Script.Instruction
import ScreenScript.Script.Line
import ScreenScript.Script.Phrase
import ScreenScript.Script.Word
import ScreenScript.Search.Basic
import ScreenScript.Search.Policy
import ScreenScript.Search.Round
import ScreenScript.Surroundings
import ScreenScript.Template.Basic
import ScreenScript.Template.Metadata
import ScreenScript.Template.Store
import ScreenScript.Text.Characters
import ScreenScript.Text.Lines
import ScreenScript.Text.Quoted
import ScreenScript.Time.Calendar
import ScreenScript.Time.Timestamp
import ScreenScript.Value
import ScreenScript.Variables
import ScreenScript.Variables.File
