import CryptoIntrinsics.Buffer
import CryptoIntrinsics.Buffer.Lending
import CryptoIntrinsics.Checksum
import CryptoIntrinsics.Checksum.Source
import CryptoIntrinsics.CommandLine.Command
import CryptoIntrinsics.CommandLine.Directory
import CryptoIntrinsics.CommandLine.Token
import CryptoIntrinsics.CommandLine.Tool
import CryptoIntrinsics.Credential
import CryptoIntrinsics.Credential.Source
import CryptoIntrinsics.Curve
import CryptoIntrinsics.Datum
import CryptoIntrinsics.Datum.Attribute
import CryptoIntrinsics.Datum.Octets
import CryptoIntrinsics.Datum.Order
import CryptoIntrinsics.Datum.Printed
import CryptoIntrinsics.Digest.Algorithm
import CryptoIntrinsics.Digest.Padding
import CryptoIntrinsics.Digest.Ripemd160
import CryptoIntrinsics.Digest.Sha1
import CryptoIntrinsics.Digest.Sha256
import CryptoIntrinsics.Digest.Sha512
import CryptoIntrinsics.Element
import CryptoIntrinsics.Elliptic.Group
import CryptoIntrinsics.Elliptic.Recovery
import CryptoIntrinsics.Environment
import CryptoIntrinsics.Fault
import CryptoIntrinsics.Floating
import CryptoIntrinsics.Floating.Decimal
import CryptoIntrinsics.Hex
import CryptoIntrinsics.Host.Basic
import CryptoIntrinsics.Host.Method
import CryptoIntrinsics.Host.Native
import CryptoIntrinsics.Json
import CryptoIntrinsics.Main
import CryptoIntrinsics.Message
import CryptoIntrinsics.Message.Source
import CryptoIntrinsics.Modular
import CryptoIntrinsics.Number
import CryptoIntrinsics.Octets
import CryptoIntrinsics.Offset
import CryptoIntrinsics.Policy
import CryptoIntrinsics.Proofs.Buffer.Filled
import CryptoIntrinsics.Proofs.Buffer.InPlace
import CryptoIntrinsics.Proofs.Checksum.Offset
import CryptoIntrinsics.Proofs.Checksum.Reading
import CryptoIntrinsics.Proofs.CommandLine.Agreement
import CryptoIntrinsics.Proofs.CommandLine.ExitCode
import CryptoIntrinsics.Proofs.CommandLine.Normal
import CryptoIntrinsics.Proofs.CommandLine.Option
import CryptoIntrinsics.Proofs.CommandLine.Origin
import CryptoIntrinsics.Proofs.CommandLine.Perform
import CryptoIntrinsics.Proofs.CommandLine.Report
import CryptoIntrinsics.Proofs.CommandLine.Word
import CryptoIntrinsics.Proofs.Credential.Canonical
import CryptoIntrinsics.Proofs.Credential.Reading
import CryptoIntrinsics.Proofs.Credential.Rejection
import CryptoIntrinsics.Proofs.Element.Integer
import CryptoIntrinsics.Proofs.Elliptic.Candidates
import CryptoIntrinsics.Proofs.Elliptic.Curves
import CryptoIntrinsics.Proofs.Elliptic.Law
import CryptoIntrinsics.Proofs.Field.Comparison
import CryptoIntrinsics.Proofs.Field.Hexadecimal
import CryptoIntrinsics.Proofs.Field.Identity
import CryptoIntrinsics.Proofs.Field.Lending
import CryptoIntrinsics.Proofs.Field.Order
import CryptoIntrinsics.Proofs.Field.Reading
import CryptoIntrinsics.Proofs.Hex.Lenience
import CryptoIntrinsics.Proofs.Hex.Numeral
import CryptoIntrinsics.Proofs.Hex.Pairs
import CryptoIntrinsics.Proofs.Hex.Spaced
import CryptoIntrinsics.Proofs.Intrinsics.Acceptance
import CryptoIntrinsics.Proofs.Intrinsics.Arguments
import CryptoIntrinsics.Proofs.Intrinsics.Channels
import CryptoIntrinsics.Proofs.Intrinsics.Discipline
import CryptoIntrinsics.Proofs.Intrinsics.Outcome
import CryptoIntrinsics.Proofs.Intrinsics.Packing
import CryptoIntrinsics.Proofs.Intrinsics.Reply
import CryptoIntrinsics.Proofs.Intrinsics.Request
import CryptoIntrinsics.Proofs.Intrinsics.Shape
import CryptoIntrinsics.Proofs.Intrinsics.Tail
import CryptoIntrinsics.Proofs.Intrinsics.Verification
import CryptoIntrinsics.Proofs.Message.Elements
import CryptoIntrinsics.Proofs.Message.Forms
import CryptoIntrinsics.Proofs.Modular.Prime
import CryptoIntrinsics.Proofs.Native.Candidates
import CryptoIntrinsics.Proofs.Native.Cap
import CryptoIntrinsics.Proofs.Native.Digest
import CryptoIntrinsics.Proofs.Native.Elision
import CryptoIntrinsics.Proofs.Native.Modulus
import CryptoIntrinsics.Proofs.Native.Payload
import CryptoIntrinsics.Proofs.Native.Recovery
import CryptoIntrinsics.Proofs.Native.Strictness
import CryptoIntrinsics.Proofs.Native.Verdict
import CryptoIntrinsics.Proofs.Native.Width
import CryptoIntrinsics.Proofs.Octets.Window
import CryptoIntrinsics.Proofs.Rsa.Numeral
import CryptoIntrinsics.Proofs.Rsa.Opening
import CryptoIntrinsics.Proofs.Session.Boundary
import CryptoIntrinsics.Proofs.Session.Bracket
import CryptoIntrinsics.Proofs.Session.Independence
import CryptoIntrinsics.Proofs.Session.Loading
import CryptoIntrinsics.Proofs.Session.Moments
import CryptoIntrinsics.Proofs.Session.Policy
import CryptoIntrinsics.Proofs.Session.Readiness
import CryptoIntrinsics.Proofs.Session.Snapshot
import CryptoIntrinsics.Proofs.Session.Steady
import CryptoIntrinsics.Proofs.Session.Trace
import CryptoIntrinsics.Proofs.Text.Encoding
import CryptoIntrinsics.Proofs.Text.IntegerLiteral
import CryptoIntrinsics.Proofs.Text.Trimming
import CryptoIntrinsics.Proofs.Varint.Extension
import CryptoIntrinsics.Proofs.Varint.Groups
import CryptoIntrinsics.Proofs.Varint.Minimal
import CryptoIntrinsics.Proofs.Varint.Padding
import CryptoIntrinsics.Proofs.Varint.Reading
import CryptoIntrinsics.Proofs.Varint.Wrapping
import CryptoIntrinsics.Rsa
import CryptoIntrinsics.Session.Decoding
import CryptoIntrinsics.Session.Intrinsics
import CryptoIntrinsics.Session.State
import CryptoIntrinsics.Session.Step
import CryptoIntrinsics.Text.Blank
import CryptoIntrinsics.Text.DecimalDigit
import CryptoIntrinsics.Text.Garbled
import CryptoIntrinsics.Text.IntegerLiteral
import CryptoIntrinsics.Text.Printable
import CryptoIntrinsics.Text.Quoted
import CryptoIntrinsics.Varint
