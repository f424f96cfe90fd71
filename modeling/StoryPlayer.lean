import StoryPlayer.Decimal.Layout
import StoryPlayer.Decimal.Shortest
import StoryPlayer.Dict
import StoryPlayer.Fault
import StoryPlayer.Formula.Access
import StoryPlayer.Formula.Datum
import StoryPlayer.Formula.Evaluation
import StoryPlayer.Formula.Evaluator
import StoryPlayer.Formula.Interpreter
import StoryPlayer.Formula.Library
import StoryPlayer.Formula.Library.Basic
import StoryPlayer.Formula.Library.Change
import StoryPlayer.Formula.Library.Collection
import StoryPlayer.Formula.Library.Number
import StoryPlayer.Formula.Library.Text
import StoryPlayer.Formula.Machine
import StoryPlayer.Formula.Operator
import StoryPlayer.Formula.Outcome
import StoryPlayer.Formula.Parser
import StoryPlayer.Formula.Purity
import StoryPlayer.Formula.Simplify
import StoryPlayer.Formula.Simplify.Rules
import StoryPlayer.Formula.Token
import StoryPlayer.Formula.Tree
import StoryPlayer.Generator
import StoryPlayer.Globals
import StoryPlayer.Host
import StoryPlayer.Json.Basic
import StoryPlayer.Json.Fields
import StoryPlayer.Json.Printer
import StoryPlayer.Json.Reader
import StoryPlayer.Output
import StoryPlayer.Path
import StoryPlayer.Player.Basic
import StoryPlayer.Player.Calls
import StoryPlayer.Player.Choices
import StoryPlayer.Player.Rendering
import StoryPlayer.Player.Save
import StoryPlayer.Player.Stack
import StoryPlayer.Player.Step
import StoryPlayer.Player.Variables
import StoryPlayer.Script.Basic
import StoryPlayer.Script.Codec
import StoryPlayer.ScriptType
import StoryPlayer.Session
import StoryPlayer.Snapshot.Basic
import StoryPlayer.Snapshot.Codec
import StoryPlayer.Story
import StoryPlayer.Template
import StoryPlayer.Text.Blank
import StoryPlayer.Text.Cased
import StoryPlayer.Text.Invisible
import StoryPlayer.Text.LetterCase
import StoryPlayer.Text.Quoted
import StoryPlayer.Text.Ranges
import StoryPlayer.Value.Basic
import StoryPlayer.Value.Display
import StoryPlayer.Proofs.Dict
import StoryPlayer.Proofs.Revalued
import StoryPlayer.Proofs.Effect
import StoryPlayer.Proofs.Rollback
import StoryPlayer.Proofs.Move
import StoryPlayer.Proofs.Run
import StoryPlayer.Proofs.Stack
import StoryPlayer.Proofs.WellFormed
import StoryPlayer.Proofs.Choosing
import StoryPlayer.Proofs.Retry
import StoryPlayer.Proofs.Origin
import StoryPlayer.Proofs.References
import StoryPlayer.Proofs.Typing
import StoryPlayer.Proofs.TypeSafety
import StoryPlayer.Proofs.Anonymous
import StoryPlayer.Proofs.Agree
import StoryPlayer.Proofs.Alike
import StoryPlayer.Proofs.Lockstep
import StoryPlayer.Proofs.Reading
import StoryPlayer.Proofs.Resume
import StoryPlayer.Proofs.Telling
import StoryPlayer.Proofs.Tracking
import StoryPlayer.Proofs.Retelling
import StoryPlayer.Proofs.Stopping
import StoryPlayer.Proofs.Driving
import StoryPlayer.Proofs.Operations
import StoryPlayer.Proofs.Restacking
import StoryPlayer.Proofs.Numbering
import StoryPlayer.Proofs.Resaving
import StoryPlayer.Proofs.Canonical
import StoryPlayer.Proofs.Numerals
import StoryPlayer.Proofs.Printed
import StoryPlayer.Proofs.Stored
import StoryPlayer.Proofs.Encoding
import StoryPlayer.Proofs.Finite
import StoryPlayer.Proofs.Outcomes
import StoryPlayer.Proofs.Storing
import StoryPlayer.Proofs.Loading
import StoryPlayer.Proofs.Saving
import StoryPlayer.Proofs.Freezing
import StoryPlayer.Proofs.CallStack
import StoryPlayer.Proofs.TailCalls
import StoryPlayer.Proofs.Documents
import StoryPlayer.Proofs.Hidden
import StoryPlayer.Proofs.OnceEvents
import StoryPlayer.Proofs.Recovery
import StoryPlayer.Proofs.OnceOnly
import StoryPlayer.Proofs.Restoring
import StoryPlayer.Proofs.Shape
import StoryPlayer.Proofs.Scaling
import StoryPlayer.Proofs.Rewritten
import StoryPlayer.Proofs.Returning
import StoryPlayer.Proofs.Guard
import StoryPlayer.Proofs.Loops
import StoryPlayer.Proofs.Offering
import StoryPlayer.Proofs.Keeping
import StoryPlayer.Proofs.Scoping
import StoryPlayer.Proofs.Committing
import StoryPlayer.Proofs.Resolving
import StoryPlayer.Proofs.Lenses
import StoryPlayer.Proofs.Filling
import StoryPlayer.Proofs.Inhabiting
import StoryPlayer.Proofs.Crossing
import StoryPlayer.Proofs.Reporting
import StoryPlayer.Proofs.Cycle
