import Rill.NodeEffects
import Rill.PacketClamp
import Rill.MeshVerdicts
import Rill.Transition

/-!
# What the access policy decides about

A payload of a data frame passes the policy of the last netmap before it goes anywhere. The
payload of a broadcast is not shown to the policy: it is forwarded to a leg or written to the LAN
whatever the policy says. So everything that leaves a node is allowed exactly if the broadcasts
are allowed that would leave it.
-/

namespace Rill

def IncomingEvent.payload : IncomingEvent → Option (UInt32 × Bytes)
  | .data source payload => some (source, payload)
  | .broadcast source payload => some (source, payload)
  | _ => none

namespace Node
variable {σ : Type}

section Run
variable (N : Snow σ) (C : Crypto) (checks : Bool)

end Run

variable {N : Snow σ} {C : Crypto} {checks : Bool} {n : Node σ} {env : NodeEnv}

section Example

end Example

end Node

end Rill
