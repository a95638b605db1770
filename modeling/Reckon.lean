import Reckon.Main
import Reckon.Recipe.Basic
import Reckon.Proofs.Run
import Reckon.Proofs.Suffix
import Reckon.Proofs.Lexeme
import Reckon.Proofs.SinglePass
import Reckon.Proofs.Sentence
import Reckon.Proofs.Evaluation
import Reckon.Proofs.Verbatim
import Reckon.Proofs.Boundary
import Reckon.Proofs.Decimal
import Reckon.Proofs.Simulation
import Reckon.Proofs.Mention
import Reckon.Proofs.Exchange
import Reckon.Proofs.Primitive
import Reckon.Proofs.FiniteMap
import Reckon.Proofs.Registers
import Reckon.Proofs.Drafts
import Reckon.Proofs.Overlay
import Reckon.Proofs.BindingText
import Reckon.Proofs.JsonGrammar
import Reckon.Proofs.JsonScan
import Reckon.Proofs.JsonSkip
import Reckon.Proofs.JsonObject
import Reckon.Proofs.Settings
import Reckon.Proofs.Members
import Reckon.Proofs.JsonText
import Reckon.Proofs.RoundTrip
import Reckon.Proofs.Calls
import Reckon.Proofs.Descent
import Reckon.Proofs.FirstOperand
import Reckon.Proofs.Composition
import Reckon.Proofs.Positive
import Reckon.Proofs.Lookahead
import Reckon.Proofs.Laws
import Reckon.Proofs.Repetition
import Reckon.Proofs.Token
import Reckon.Proofs.ReportLine
import Reckon.Proofs.JsonDecoded
import Reckon.Proofs.Loading
