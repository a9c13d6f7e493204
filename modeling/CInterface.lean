import CInterface.Assembly
import CInterface.AtomicWrite
import CInterface.CommandLine.Plan
import CInterface.CommandLine.Settings
import CInterface.CommandLine.Word
import CInterface.Decimal.Binary64
import CInterface.Decimal.Digits
import CInterface.Decimal.Shortest
import CInterface.Description.Error
import CInterface.Description.Field
import CInterface.Description.Reader
import CInterface.Diagnostic
import CInterface.Event
import CInterface.FilePath
import CInterface.FileSystem
import CInterface.FrontEnd
import CInterface.Generation
import CInterface.Guard
import CInterface.Header.BareText
import CInterface.Header.Basic
import CInterface.Header.CType
import CInterface.Header.Document
import CInterface.Header.Forward
import CInterface.Header.Include
import CInterface.Header.Text
import CInterface.Json.Display
import CInterface.Json.Lexeme
import CInterface.Json.Printer
import CInterface.Json.Reader
import CInterface.Json.Value
import CInterface.Main
import CInterface.Proofs.Assembly.Accounting
import CInterface.Proofs.Assembly.Closure
import CInterface.Proofs.Assembly.Cycles
import CInterface.Proofs.Assembly.DropSet
import CInterface.Proofs.Assembly.Internals
import CInterface.Proofs.Assembly.LeftOut
import CInterface.Proofs.Assembly.Numbers
import CInterface.Proofs.Assembly.OrdinaryNames
import CInterface.Proofs.Assembly.Pruning
import CInterface.Proofs.Assembly.Regeneration
import CInterface.Proofs.Assembly.Reordering
import CInterface.Proofs.Assembly.Repetition
import CInterface.Proofs.Assembly.Reports
import CInterface.Proofs.Assembly.Shadowing
import CInterface.Proofs.Assembly.TypeArguments
import CInterface.Proofs.AtomicWrite.Atomicity
import CInterface.Proofs.AtomicWrite.Concurrency
import CInterface.Proofs.AtomicWrite.Processes
import CInterface.Proofs.AtomicWrite.Progress
import CInterface.Proofs.CommandLine.Generating
import CInterface.Proofs.CommandLine.Inputs
import CInterface.Proofs.CommandLine.Outcome
import CInterface.Proofs.CommandLine.Reading
import CInterface.Proofs.Description.FileNames
import CInterface.Proofs.Description.Format
import CInterface.Proofs.Description.Numbers
import CInterface.Proofs.Description.ReadKeys
import CInterface.Proofs.Description.Respelling
import CInterface.Proofs.Description.Writing
import CInterface.Proofs.Except
import CInterface.Proofs.FilePath.LastComponent
import CInterface.Proofs.FileSystem.Entries
import CInterface.Proofs.Guard.Acceptance
import CInterface.Proofs.Guard.Derivation
import CInterface.Proofs.Header.Characters
import CInterface.Proofs.Header.Code
import CInterface.Proofs.Header.DeclaredBeforeUse
import CInterface.Proofs.Header.DocumentReading
import CInterface.Proofs.Header.ForwardDeclarations
import CInterface.Proofs.Header.Interface
import CInterface.Proofs.Header.Layout
import CInterface.Proofs.Header.LineText
import CInterface.Proofs.Header.Numbers
import CInterface.Proofs.Header.Sections
import CInterface.Proofs.Header.TypeText
import CInterface.Proofs.Json.IntegerSize
import CInterface.Proofs.Json.Lexemes
import CInterface.Proofs.Json.RoundTrip
import CInterface.Proofs.Keys
import CInterface.Proofs.Registry.Calls
import CInterface.Proofs.Resolution.BaseTypes
import CInterface.Proofs.Resolution.Chains
import CInterface.Proofs.Resolution.CycleDetection
import CInterface.Proofs.Resolution.ExportedAliases
import CInterface.Proofs.Resolution.PointerLevels
import CInterface.Proofs.Resolution.Scopes
import CInterface.Proofs.Resolution.SmallerScopes
import CInterface.Proofs.Resolution.TypeArguments
import CInterface.Proofs.Selection.DistinctNames
import CInterface.Proofs.Selection.Parts
import CInterface.Proofs.Selection.Refusals
import CInterface.Proofs.Selection.Reordering
import CInterface.Proofs.Selection.Rule
import CInterface.Proofs.Text.Identifiers
import CInterface.Proofs.Text.Lines
import CInterface.Proofs.Writer.Printing
import CInterface.Registry
import CInterface.Resolution
import CInterface.Selection
import CInterface.Source.Declaration
import CInterface.Source.Primitive
import CInterface.Source.TypeExpr
import CInterface.Text.Blank
import CInterface.Text.DecimalDigit
import CInterface.Text.Hex
import CInterface.Text.Identifier
import CInterface.Text.Quoted
import CInterface.Text.Unprintable
import CInterface.Text.Utf8
import CInterface.Writer
