import PulseFirmware.Lib.Run
import PulseFirmware.RequestText
import PulseFirmware.SocketTask

/-! Requests that `socket_test_task` writes, and the values they were built from. -/
namespace PulseFirmware.SocketTest
open PulseFirmware.CString PulseFirmware.Printf PulseFirmware.Http PulseFirmware.Run

section
variable {V : Type}

/-- The iteration comes to the `nrf_tls_write` of the request. -/
def Task.sends (t : Task) (i : Iteration V) : Bool :=
  decide (0 ≤ i.rc) && !(i.rc = 0 && t.waitingForResponse) && (!i.fdIsSet || decide (0 < i.recvRet)) &&
    decide (sendPeriod < i.now - t.timeout) && i.probed && available i.source

variable (c : Conversions V)

def Fresh (s : Http.Source V) (text : List UInt8) : Prop :=
  (branchFor s.configString1).isSome = true ∧
    ∀ b, ∃ b', buildRequest c s b = .ok b' ∧ chars b'.txbuff.toList = text

end

end PulseFirmware.SocketTest
