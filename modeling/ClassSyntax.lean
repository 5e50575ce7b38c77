import ClassSyntax.Main
import ClassSyntax.Script
import ClassSyntax.Proofs.Records.Replay
import ClassSyntax.Proofs.Reports.Pointing
import ClassSyntax.Proofs.Locality.LocalRules
import ClassSyntax.Proofs.Frontier.History
import ClassSyntax.Proofs.Progress.NestedReadings
import ClassSyntax.Proofs.Renaming.Verdicts
import ClassSyntax.Proofs.Policies.Strict
import ClassSyntax.Proofs.Statements.Calls
import ClassSyntax.Proofs.Statements.TrialOrder
import ClassSyntax.Proofs.Programs.Continued
import ClassSyntax.Proofs.Lexing.LongestMatch
import ClassSyntax.Proofs.Lexing.Joined
import ClassSyntax.Proofs.Lexing.WholeWords
import ClassSyntax.Proofs.Members.Classification
import ClassSyntax.Proofs.Expressions.Operands
import ClassSyntax.Proofs.Statements.NearestConditional
import ClassSyntax.Proofs.Reports.LineEndings
import ClassSyntax.Proofs.Policies.FirstObjection
import ClassSyntax.Proofs.Programs.EntryClass
import ClassSyntax.Proofs.Language.Openings
import ClassSyntax.Proofs.Language.FirstSets
