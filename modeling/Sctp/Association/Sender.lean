import Sctp.Association.Outbound
import Sctp.Lib.Runs

/-!
# The sending side as a system

An operation is taken under the association's lock, so a run is a list of operations: the
calls of the application, the write loop's `gather_outbound`, the T3-rtx timeout and the
inbound chunks that acknowledge data or shut down. A write is the pushes of a task that
nobody interrupts; `push` is a single push of a task that others interleave with.
-/

namespace Sctp

/-- What moves the sending side. -/
inductive SenderOp where
  | openStream (streamIdentifier : U16) (defaultPayloadType : PayloadProtocolIdentifier)
  | setReliabilityParams (r : StreamRef) (unordered : Bool) (relType : ReliabilityType)
      (relVal : U32)
  | write (r : StreamRef) (p : Bytes) (ppi : PayloadProtocolIdentifier)
  | shutdownStream (r : StreamRef) (how : Shutdown)
  | push (c : ChunkPayloadData)
  | gather (now : ℕ)
  | t3Rtx
  | sack (now : ℕ) (d : ChunkSelectiveAck)
  | shutdownChunk
  | shutdown

/-- A SHUTDOWN or a SHUTDOWN ACK. -/
def Chunk.isShutdown : Chunk → Bool
  | .shutdown _ | .shutdownAck => true
  | _ => false

/-- A FORWARD TSN. -/
def Chunk.isForwardTsn : Chunk → Bool
  | .forwardTsn _ => true
  | _ => false

/-- One of the packets carries a chunk of the kind. -/
def emits (kind : Chunk → Bool) (packets : List Packet) : Bool :=
  packets.any fun p => p.chunks.any kind

namespace AssociationInternal

/-- The association after an operation. -/
def senderStep (a : AssociationInternal) : SenderOp → AssociationInternal
  | .openStream si ppi => (a.openStream si ppi).1
  | .setReliabilityParams r unordered relType relVal =>
    a.modifyObject r (·.setReliabilityParams unordered relType relVal)
  | .write r p ppi => (a.writeSctp r p ppi).1
  | .shutdownStream r how => (a.shutdownStream r how).1
  | .push c => { a with pendingQueue := a.pendingQueue.push c }
  | .gather now => (a.gatherOutbound now).1
  | .t3Rtx => a.onRetransmissionTimeout .t3Rtx
  | .sack now d => (a.handleSack now d).1
  | .shutdownChunk => a.handleShutdown
  | .shutdown => a.shutdown.1

/-- The packets an operation sends. -/
def senderEmits (a : AssociationInternal) : SenderOp → List Packet
  | .gather now => (a.gatherOutbound now).2.1
  | _ => []

/-- A SACK is answered with `Ok`. -/
def SackOk (a : AssociationInternal) : SenderOp → Prop
  | .sack now d => (a.handleSack now d).2.isOk = true
  | _ => True

instance (a : AssociationInternal) (op : SenderOp) : Decidable (a.SackOk op) :=
  match op with
  | .sack now d => inferInstanceAs (Decidable ((a.handleSack now d).2.isOk = true))
  | .openStream .. | .setReliabilityParams .. | .write .. | .shutdownStream .. | .push _
  | .gather _ | .t3Rtx | .shutdownChunk | .shutdown => isTrue trivial

/-- SACKs are answered with `Ok` and fewer than 2^31 chunks are outstanding. -/
def InBounds (a : AssociationInternal) (op : SenderOp) : Prop :=
  a.SackOk op ∧ (a.senderStep op).inflightQueue.len < 2 ^ 31

instance (a : AssociationInternal) (op : SenderOp) : Decidable (a.InBounds op) :=
  inferInstanceAs (Decidable (_ ∧ _))

/-- Writes are taken whole. -/
def WholeOps : SenderOp → Prop
  | .push _ => False
  | _ => True

instance (op : SenderOp) : Decidable (WholeOps op) :=
  match op with
  | .push _ => isFalse id
  | .openStream .. | .setReliabilityParams .. | .write .. | .shutdownStream .. | .gather _
  | .t3Rtx | .sack .. | .shutdownChunk | .shutdown => isTrue trivial

/-- The operations are whole ones, and SACKs are answered with `Ok`. -/
def Accepted (a : AssociationInternal) (op : SenderOp) : Prop := WholeOps op ∧ a.SackOk op

/-- An association that has not sent anything yet. -/
structure Fresh (a : AssociationInternal) : Prop where
  pendingQueue : a.pendingQueue = {}
  inflightQueue : a.inflightQueue = {}
  controlQueue : emits (fun c => c.isShutdown || c.isForwardTsn) a.controlQueue = false
  flags : a.flags = []
  myNextTsn : a.myNextTsn = a.cumulativeTsnAckPoint + 1
  advancedPeerTsnAckPoint : a.advancedPeerTsnAckPoint = a.cumulativeTsnAckPoint
  willSendShutdown : a.willSendShutdown = false
  willSendShutdownAck : a.willSendShutdownAck = false
  maxPayloadSize : 0 < a.maxPayloadSize.toNat
  objects : ∀ s ∈ a.objects, 0 < s.maxPayloadSize.toNat

/-- An association as the handshake leaves it; its first TSN is the last one before the
counter wraps. -/
def justEstablished : AssociationInternal :=
  { new { randomTsn := 0xffffffff, randomTag := 1, randomCookie := [] } with
    state := .established, rwnd := 4096, ssthresh := 4096, useForwardTsn := true }

theorem justEstablished_fresh : justEstablished.Fresh where
  pendingQueue := rfl
  inflightQueue := rfl
  controlQueue := rfl
  flags := rfl
  myNextTsn := by decide
  advancedPeerTsnAckPoint := rfl
  willSendShutdown := rfl
  willSendShutdownAck := rfl
  maxPayloadSize := by decide
  objects := by simp [justEstablished, new]

/-- The same with a peer that offers the widest window. -/
def wideOpen : AssociationInternal :=
  { justEstablished with rwnd := 0xffffffff, ssthresh := 0xffffffff }

theorem wideOpen_fresh : wideOpen.Fresh := { justEstablished_fresh with }

/-! ## Skipping abandoned messages -/

/-- Telling the peer to go on behind `point` skips only chunks in flight that are abandoned,
and with a fragment of a message all the later ones; the cells tell the messages apart. -/
structure SkipsWholeMessages (a : AssociationInternal) (point : U32) : Prop where
  not_behind : ¬ sna32lt point a.cumulativeTsnAckPoint = true
  abandoned : ∀ t, 0 < Serial.dist a.cumulativeTsnAckPoint t →
    Serial.dist a.cumulativeTsnAckPoint t ≤ Serial.dist a.cumulativeTsnAckPoint point →
    ∃ c, a.inflightQueue.get t = some c ∧ c.isAbandoned a.flags = true ∧
      (∀ t' c', a.inflightQueue.get t' = some c' → c'.abandoned = c.abandoned →
        Serial.dist a.cumulativeTsnAckPoint t' ≤ Serial.dist a.cumulativeTsnAckPoint point) ∧
      ∀ c' ∈ a.pendingQueue.unorderedQueue ++ a.pendingQueue.orderedQueue,
        c'.abandoned ≠ c.abandoned

/-- The FORWARD TSNs an operation sends skip whole abandoned messages. -/
def ForwardsWholeMessages (a : AssociationInternal) (op : SenderOp) : Prop :=
  ∀ p ∈ a.senderEmits op, ∀ c, .forwardTsn c ∈ p.chunks →
    (a.senderStep op).SkipsWholeMessages c.newCumulativeTsn

/-! ## Shutting down -/

/-- Nothing that was written is left to be sent. -/
def NothingPending (a : AssociationInternal) : Prop :=
  a.pendingQueue.unorderedQueue = [] ∧ a.pendingQueue.orderedQueue = []

instance (a : AssociationInternal) : Decidable a.NothingPending :=
  inferInstanceAs (Decidable (_ ∧ _))

/-- The operation sends a SHUTDOWN or SHUTDOWN ACK only if nothing is pending or in flight. -/
def ShutsDownDrained (a : AssociationInternal) (op : SenderOp) : Prop :=
  emits Chunk.isShutdown (a.senderEmits op) = true → a.NothingPending ∧ a.inflightQueue.isEmpty = true

instance (a : AssociationInternal) (op : SenderOp) : Decidable (a.ShutsDownDrained op) :=
  inferInstanceAs (Decidable (_ → _))

/-- Writes are taken whole, and where the operation is the start of a shutdown, by the
application or by the peer, nothing is pending. -/
def StartsShutdownDrained (a : AssociationInternal) : SenderOp → Prop
  | .push _ => False
  | .shutdown | .shutdownChunk => a.state = .established → a.NothingPending
  | _ => True

instance (a : AssociationInternal) (op : SenderOp) : Decidable (a.StartsShutdownDrained op) :=
  match op with
  | .push _ => isFalse id
  | .shutdown | .shutdownChunk =>
    inferInstanceAs (Decidable (a.state = .established → a.NothingPending))
  | .openStream .. | .setReliabilityParams .. | .write .. | .shutdownStream ..
  | .gather _ | .t3Rtx | .sack .. => isTrue trivial

end AssociationInternal

end Sctp
