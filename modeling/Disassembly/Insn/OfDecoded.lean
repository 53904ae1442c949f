import Disassembly.Backend
import Disassembly.Text.Rendered
/-!
From a decoded instruction to a record. In detail mode the payload is requested from the provider
and the raw bytes are kept; a refusal is the only way to fail, and nothing of the record depends
on how much memory is left.
-/
namespace Disassembly

def Insn.ofDecoded (backend : Backend) (detail : Bool) (decoded : Decoded) (text : String)
    (code : List UInt8) (payload : Option (Payload Detail)) : Insn :=
  let insn : Insn :=
    { id := decoded.publicId.getD (backend.publicId decoded.opcode)
      address := decoded.address
      size := decoded.size
      bytes := if detail then .ofBytes _ (code.take decoded.size.toNat) else .zero _
      detail := payload }
  let corrected := backend.correct insn text
  let words := Text.splitRendered corrected.text.toList corrected.hint
  (corrected.insn.setMnemonic (String.ofList words.1)).setOpStr (String.ofList words.2)

def Decoded.requestPayload (decoded : Decoded) (host : Host) (provider : ProviderId)
    (detail : Bool) : Except Error (Option (Payload Detail)) × Host :=
  match (if detail then decoded.detail else none) with
  | none => (.ok none, host)
  | some value =>
    match Payload.allocate host provider value with
    | (.ok payload, host) => (.ok (some payload), host)
    | (.error error, host) => (.error error, host)

end Disassembly
