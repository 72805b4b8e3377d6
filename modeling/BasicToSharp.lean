import BasicToSharp.CommandLine
import BasicToSharp.Main
import BasicToSharp.Proofs.BraceBalance
import BasicToSharp.Proofs.CommentLine
import BasicToSharp.Proofs.HeaderLine
import BasicToSharp.Proofs.InRange
import BasicToSharp.Proofs.LiteralText
import BasicToSharp.Proofs.OptionsApart
import BasicToSharp.Proofs.PendingProperty
import BasicToSharp.Proofs.Refusal
import BasicToSharp.Proofs.SourceLayout
import BasicToSharp.Proofs.SymbolGrowth
import BasicToSharp.Proofs.UnmatchedClose
import BasicToSharp.Proofs.TokenShape
import BasicToSharp.Proofs.LiteralRendering
import BasicToSharp.Proofs.Indentation
import BasicToSharp.Proofs.LocalScope
import BasicToSharp.Proofs.IndentedOutput
import BasicToSharp.Proofs.FilePaths
import BasicToSharp.Proofs.FolderOrder
import BasicToSharp.Proofs.PiecewiseReading
import BasicToSharp.Proofs.RespacedTokens
import BasicToSharp.Proofs.Comparison
import BasicToSharp.Proofs.Negation
import BasicToSharp.Proofs.ClosingBrace
import BasicToSharp.Proofs.TypeGrammar
import BasicToSharp.Proofs.BalancedTokens
import BasicToSharp.Proofs.SignatureForm
import BasicToSharp.Proofs.SignatureText
import BasicToSharp.Proofs.ScanSteps
import BasicToSharp.Proofs.CommaSplitting
import BasicToSharp.Proofs.DeclaredNames
import BasicToSharp.Proofs.SharedTypes
import BasicToSharp.Proofs.LoopCounters
import BasicToSharp.Proofs.EnumeratorValues
import BasicToSharp.Proofs.DoubleRounding
import BasicToSharp.Proofs.LoopDirection
import BasicToSharp.Proofs.DeclarationForm
import BasicToSharp.Proofs.LineNumbers
import BasicToSharp.Proofs.MatchingParentheses
import BasicToSharp.Proofs.CommaParts
import BasicToSharp.Proofs.QuotedApostrophes
import BasicToSharp.Proofs.StaticOrder
