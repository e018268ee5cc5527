import LamLang.Main
import LamLang.Datum.Raised
import LamLang.Proofs.Names
import LamLang.Proofs.Outcome
import LamLang.Proofs.Simulation
import LamLang.Proofs.Agreement
import LamLang.Proofs.Calls
import LamLang.Proofs.Renaming
import LamLang.Proofs.Substitution
import LamLang.Proofs.Lexical
import LamLang.Proofs.Items
import LamLang.Proofs.Grammar
import LamLang.Proofs.Safety
import LamLang.Proofs.Scanning
import LamLang.Proofs.Reading
import LamLang.Proofs.Rounding
import LamLang.Proofs.Numerals
import LamLang.Proofs.RoundTrip
import LamLang.Proofs.Batches
import LamLang.Proofs.Execution
import LamLang.Proofs.Depth
import LamLang.Proofs.Conversation
import LamLang.Proofs.FrontEnds
import LamLang.Proofs.Lines
import LamLang.Proofs.Moderate
import LamLang.Proofs.Endurance
import LamLang.Proofs.ReadBack
import LamLang.Proofs.Origins
import LamLang.Proofs.Cutting
import LamLang.Proofs.Sequence
import LamLang.Proofs.Pointing
import LamLang.Proofs.Carets
import LamLang.Proofs.Comparison
import LamLang.Proofs.Signals
import LamLang.Proofs.Handling
import LamLang.Proofs.Colours
import LamLang.Proofs.Shadowing
import LamLang.Proofs.Descent
import LamLang.Proofs.Spacing
import LamLang.Proofs.Classes
