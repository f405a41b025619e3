import Sctp.Association.Peers
import Sctp.Association.StreamReset

/-!
# Reset requests between two associations

What becomes of the outgoing reset requests of an endpoint: it stores them in `reconfigs` until
a response comes, and its peer stores them in `reconfig_requests` until it has performed them.
-/

namespace Sctp

/-- The RECONFIG chunk of a request. -/
def ChunkReconfig.ofRequest (p : ParamOutgoingResetRequest) : ChunkReconfig :=
  { paramA := some (.outgoingResetRequest p) }

/-- The RECONFIG chunk of a response. -/
def ChunkReconfig.ofResponse (r : ParamReconfigResponse) : ChunkReconfig :=
  { paramA := some (.reconfigResponse r) }

namespace AssociationInternal

/-- The request a step issues: the one it stores under the next RSN, when it draws that. -/
def issued (a : AssociationInternal) (op : LocalOp) : List ParamOutgoingResetRequest :=
  if (a.localStep op).1.myNextRsn = a.myNextRsn then
    []
  else
    match ((a.localStep op).1.reconfigs.lookup a.myNextRsn).bind ChunkReconfig.paramA with
    | some (.outgoingResetRequest p) => [p]
    | _ => []

/-- The request waits for a response. -/
def Stores (a : AssociationInternal) (p : ParamOutgoingResetRequest) : Prop :=
  a.reconfigs.lookup p.reconfigRequestSequenceNumber = some (.ofRequest p)

end AssociationInternal

namespace Peers

/-- The requests endpoint `x` issues in a step. -/
def issued (x : Bool) (s : Peers) : PeerEvent → List ParamOutgoingResetRequest
  | .act y op => if y = x then (s.party x).issued op else []
  | .deliver .. => []

/-- What endpoint `x` has sent or has queued. -/
def output (s : Peers) (x : Bool) : List Packet := s.sent x ++ (s.party x).controlQueue

end Peers

/-- One of the packets answers that the request has been performed. -/
def PerformedIn (out : List Packet) (p : ParamOutgoingResetRequest) : Prop :=
  ∃ packet ∈ out, .reconfig (.ofResponse
    { reconfigResponseSequenceNumber := p.reconfigRequestSequenceNumber
      result := .successPerformed }) ∈ packet.chunks

namespace Peers

/-- A request of endpoint `x` is stored there, or kept by its peer, or its peer has answered
that it has performed it. -/
def NotLost (s : Peers) (x : Bool) (p : ParamOutgoingResetRequest) : Prop :=
  (s.party x).Stores p ∨ (s.party (!x)).Keeps p ∨ PerformedIn (s.output (!x)) p

end Peers

end Sctp
