import StringProcessor.Main
import StringProcessor.Proofs.Grammar
import StringProcessor.Proofs.Grammar.Residual
import StringProcessor.Proofs.Parser.Acceptance
import StringProcessor.Proofs.Parser.Execution
import StringProcessor.Proofs.Scan.Position
import StringProcessor.Proofs.Scan.Move
import StringProcessor.Proofs.Batch.LineBreak
import StringProcessor.Proofs.Lexical
import StringProcessor.Proofs.Lexical.First
import StringProcessor.Proofs.Lexical.Line
import StringProcessor.Proofs.Scan.Dissected
import StringProcessor.Proofs.Batch.Lexing
import StringProcessor.Proofs.Grammar.Prefix
import StringProcessor.Proofs.Parser.Failure
import StringProcessor.Proofs.Scan.Tiling
import StringProcessor.Proofs.Batch.Tiling
import StringProcessor.Proofs.Command
import StringProcessor.Proofs.Grammar.Parts
import StringProcessor.Proofs.Machine.Blame
import StringProcessor.Proofs.Session.Step
import StringProcessor.Proofs.Session.Carryover
import StringProcessor.Proofs.Writing
import StringProcessor.Proofs.Writing.Lexemes
import StringProcessor.Proofs.Writing.Statements
import StringProcessor.Proofs.Writing.ReadBack
import StringProcessor.Proofs.Session.Location
import StringProcessor.Proofs.Batch.Layout
import StringProcessor.Proofs.Machine.Step
import StringProcessor.Proofs.Machine.Failure
import StringProcessor.Proofs.Scan.Names
import StringProcessor.Proofs.Session.Symbols
import StringProcessor.Proofs.Narration
import StringProcessor.Proofs.Session.Levels
import StringProcessor.Proofs.Machine.Limit
import StringProcessor.Proofs.Session.Limit
import StringProcessor.Proofs.Machine.Move
import StringProcessor.Proofs.Parser.Interruption
import StringProcessor.Proofs.Batch.Split
import StringProcessor.Proofs.Session.Split
import StringProcessor.Proofs.Text.Quoted
import StringProcessor.Proofs.Session.Listing
import StringProcessor.Proofs.SymbolTable.History
import StringProcessor.Proofs.Batch.Quoted
import StringProcessor.Proofs.Text.Lines
import StringProcessor.Proofs.Session.Calls
import StringProcessor.Proofs.Display
import StringProcessor.Proofs.Script
import StringProcessor.Proofs.Console
import StringProcessor.Proofs.Machine.Evaluation
import StringProcessor.Proofs.Machine.Refusal
import StringProcessor.Proofs.Machine.Update
import StringProcessor.Proofs.Machine.Assignment
import StringProcessor.Proofs.Text.Words
import StringProcessor.Proofs.Text.Reversal
import StringProcessor.Proofs.Machine.Words
import StringProcessor.Proofs.Batch.Excerpt
import StringProcessor.Proofs.Parser.Excerpt
import StringProcessor.Proofs.Text.Runs
import StringProcessor.Proofs.Text.Size
