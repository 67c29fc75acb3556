import Calculator.Request
import Calculator.Proofs.Tallest
import Calculator.Proofs.Recency
import Calculator.Proofs.Tokenizing
import Calculator.Proofs.Dependence
import Calculator.Proofs.FirstError
import Calculator.Proofs.Tolerance
import Calculator.Proofs.WellFormed
import Calculator.Proofs.BlankSpace
import Calculator.Proofs.Sharing
import Calculator.Proofs.NestingLimit
import Calculator.Proofs.SixDigits
import Calculator.Proofs.LiteralTokens
import Calculator.Proofs.NumberTokens
import Calculator.Proofs.Listing
import Calculator.Proofs.Slots
import Calculator.Proofs.Registrations
import Calculator.Proofs.DescentEnds
