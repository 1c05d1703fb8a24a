import CryptoIntrinsics.Proofs.Intrinsics.Tail
import CryptoIntrinsics.Proofs.Message.Elements

namespace CryptoIntrinsics

namespace Element.Format

end Element.Format

namespace Element

variable {width : Nat} {signed : Bool} {values : List Datum} {elements packed : List Octets}

end Element

section Sources

variable {letter : String} {format : Element.Format} {values : List Datum}

section Integers

open Element.Format

variable {b : Buffer} {bytes : Octets} (harray : Buffer.ofArray letter values = .ok b)
  (hpack : Message.pack (.list values) (.text letter) = .ok bytes)
include harray hpack

end Integers

end Sources

namespace Inquiry

open Intrinsic

/-- Asks about a message: of the view itself, or of its row and length as they are. -/
def about (q : Inquiry) (m : Message) : Intrinsic :=
  match q with
  | digest query algorithm => query.about algorithm (.message m)
  | verdict sig exponent modulus => .verifyRsa (.message m) sig exponent modulus
  | rawVerdict sig exponent modulus =>
    .verifyRsaRaw (.buffer m.window) (.measure m) sig exponent modulus

end Inquiry

end CryptoIntrinsics
