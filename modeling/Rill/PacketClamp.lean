import Rill.NodeDelivery

/-!
# The packet code on arbitrary bytes

`parsePacket` answers for every buffer. The segment size code reads the first byte unguarded, so
it panics on the empty buffer, and only there. What it writes lies behind the addresses of the
packet.
-/

namespace Rill

/-- The packet with nothing changed before its transport header. -/
def KeepsHeader (pkt buf : Bytes) : Prop :=
  buf.length = pkt.length ∧ ∀ l4, l4Offset pkt = some (some l4) → buf.take l4 = pkt.take l4

theorem KeepsHeader.refl (pkt : Bytes) : KeepsHeader pkt pkt := ⟨rfl, fun _ _ => rfl⟩

end Rill
