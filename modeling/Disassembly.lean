import Disassembly.Engine
import Disassembly.Family.Recorded
import Disassembly.Format.DocumentReader
import Disassembly.Format.RecordReader
import Disassembly.Main
import Disassembly.Proofs.CommandLine.Coverage
import Disassembly.Proofs.Decode.Agreement
import Disassembly.Proofs.Decode.Cap
import Disassembly.Proofs.Decode.FlatBuffer
import Disassembly.Proofs.Decode.Framing
import Disassembly.Proofs.Decode.Introspection
import Disassembly.Proofs.Decode.Metering
import Disassembly.Proofs.Decode.Outline
import Disassembly.Proofs.Decode.Payloads
import Disassembly.Proofs.Decode.Pressure
import Disassembly.Proofs.Decode.RawBytes
import Disassembly.Proofs.Decode.Resumption
import Disassembly.Proofs.Detail.Operands
import Disassembly.Proofs.Engine.Books
import Disassembly.Proofs.Engine.Capture
import Disassembly.Proofs.Engine.LastError
import Disassembly.Proofs.Family.Fusing
import Disassembly.Proofs.Family.Hooks
import Disassembly.Proofs.Family.NormalForm
import Disassembly.Proofs.Family.Prefixes
import Disassembly.Proofs.Format.Addresses
import Disassembly.Proofs.Format.BytesColumn
import Disassembly.Proofs.Format.RoundTrip
import Disassembly.Proofs.Format.Rows
import Disassembly.Proofs.Memory.Bounded
import Disassembly.Proofs.Session.ConfigText
import Disassembly.Proofs.Session.Configuration
import Disassembly.Proofs.Text.Boundaries
import Disassembly.Proofs.Text.Lines
import Disassembly.Proofs.Decode.Texts
import Disassembly.Proofs.Engine.Texts
import Disassembly.Proofs.Family.Hints
import Disassembly.Proofs.Session.Registers
