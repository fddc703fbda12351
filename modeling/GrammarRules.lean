import GrammarRules.Main
import GrammarRules.Value.Equality
import GrammarRules.Proofs.Part.Faithful
import GrammarRules.Proofs.Grammar.Closed
import GrammarRules.Proofs.Grammar.Spelling
import GrammarRules.Proofs.Session.Terminal
import GrammarRules.Proofs.Session.Steps
import GrammarRules.Proofs.Session.Calls
import GrammarRules.Proofs.Session.Entry
import GrammarRules.Proofs.Session.Order
import GrammarRules.Proofs.Part.WellFormed
import GrammarRules.Proofs.Session.Supply
import GrammarRules.Proofs.Session.Correspondence
import GrammarRules.Proofs.Session.Course
import GrammarRules.Proofs.Session.Advice
import GrammarRules.Proofs.Session.WellFormed
import GrammarRules.Proofs.Part.Described
import GrammarRules.Proofs.Grammar.Misfit
import GrammarRules.Proofs.Part.Delimited
import GrammarRules.Proofs.Command.Carried
import GrammarRules.Proofs.Name.Canonical
import GrammarRules.Proofs.Grammar.Undefined
import GrammarRules.Proofs.Part.Mentioned
import GrammarRules.Proofs.Session.Repeated
import GrammarRules.Proofs.Session.Deferred
import GrammarRules.Proofs.Grammar.Legal
import GrammarRules.Proofs.Grammar.Highlighted
import GrammarRules.Proofs.Part.RangeLiteral
import GrammarRules.Proofs.Part.Slashed
import GrammarRules.Proofs.Text.Folded
import GrammarRules.Proofs.Environment
import GrammarRules.Proofs.Command.Loaded
