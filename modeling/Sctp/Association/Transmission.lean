import Sctp.Association.GatherTheorems

/-!
# What is sent under a TSN

A chunk gets its TSN when it moves into flight; from then on it may be sent any number of
times. A ledger lists the chunks in the order in which they got their TSNs.
-/

namespace Sctp

/-- The chunk without what the sender notes of its transmissions. -/
def ChunkPayloadData.contents (c : ChunkPayloadData) : ChunkPayloadData :=
  { c with acked := false, missIndicator := 0, nsent := 0, retransmit := false }

/-- A DATA chunk. -/
def Chunk.isPayloadData : Chunk → Bool
  | .payloadData _ => true
  | _ => false

/-- The contents of the chunk that got the TSN last; the ledger begins with the latest chunk. -/
def lastAssigned (ledger : List ChunkPayloadData) (tsn : U32) : Option ChunkPayloadData :=
  (ledger.find? (·.tsn = tsn)).map (·.contents)

namespace AssociationInternal

/-- The chunks an operation gives TSNs to, in order. -/
def assigns (a : AssociationInternal) : SenderOp → List ChunkPayloadData
  | .gather now =>
    if a.state = .established then ({ a with controlQueue := [] }.popped now).2.1 else []
  | _ => []

/-- No chunk is given the TSN of one in flight. -/
def GivesFreeTsns (a : AssociationInternal) (op : SenderOp) : Prop :=
  ∀ c ∈ a.assigns op, c.tsn ∉ a.inflightQueue.chunkMap

instance (a : AssociationInternal) (op : SenderOp) : Decidable (a.GivesFreeTsns op) :=
  inferInstanceAs (Decidable (∀ c ∈ a.assigns op, c.tsn ∉ a.inflightQueue.chunkMap))

/-- SACKs are answered with `Ok`, and TSNs are not given again while they are in flight. -/
def Regular (a : AssociationInternal) (op : SenderOp) : Prop := a.SackOk op ∧ a.GivesFreeTsns op

instance (a : AssociationInternal) (op : SenderOp) : Decidable (a.Regular op) :=
  inferInstanceAs (Decidable (_ ∧ _))

/-- The association with its ledger. -/
def transmitStep (s : AssociationInternal × List ChunkPayloadData) (op : SenderOp) :
    AssociationInternal × List ChunkPayloadData :=
  (s.1.senderStep op, (s.1.assigns op).reverse ++ s.2)

/-- What a task pushes has not been sent yet. -/
def PushesUnsent : SenderOp → Prop
  | .push c => c.acked = false
  | _ => True

instance (op : SenderOp) : Decidable (PushesUnsent op) :=
  match op with
  | .push c => inferInstanceAs (Decidable (c.acked = false))
  | .openStream .. | .setReliabilityParams .. | .write .. | .shutdownStream .. | .gather _
  | .t3Rtx | .sack .. | .shutdownChunk | .shutdown => isTrue trivial

/-- The DATA chunks an operation sends. -/
def sendsData (a : AssociationInternal) (op : SenderOp) : List ChunkPayloadData :=
  (a.senderEmits op).flatMap fun p => p.chunks.filterMap fun
    | .payloadData c => some c
    | _ => none

/-- All that a run sends, in order. -/
def sentData (a : AssociationInternal) (ops : List SenderOp) : List ChunkPayloadData :=
  (Runs.outputs senderStep sendsData a ops).flatten

/-- SACKs are answered with `Ok`, fewer than 2^31 chunks are outstanding, and tasks push what
has not been sent. -/
def Transmits (a : AssociationInternal) (op : SenderOp) : Prop := a.InBounds op ∧ PushesUnsent op

instance (a : AssociationInternal) (op : SenderOp) : Decidable (a.Transmits op) :=
  inferInstanceAs (Decidable (_ ∧ _))

/-- Every DATA chunk that is sent carries the contents of the chunk that got its TSN last, and
has not been acknowledged. -/
def SendsAssigned (s : AssociationInternal × List ChunkPayloadData) (op : SenderOp) : Prop :=
  ∀ c ∈ s.1.sendsData op,
    c.acked = false ∧ lastAssigned (transmitStep s op).2 c.tsn = some c.contents

/-- The chunks of the ledger got consecutive TSNs, the latest one the last that was assigned. -/
def Consecutive (next : U32) (ledger : List ChunkPayloadData) : Prop :=
  ∀ (i : ℕ) (c : ChunkPayloadData), ledger[i]? = some c → c.tsn.after (i + 1) = next

/-- Chunks with the same TSN have the same contents. -/
def SameByTsn (sent : List ChunkPayloadData) : Prop :=
  ∀ c ∈ sent, ∀ c' ∈ sent, c.tsn = c'.tsn → c.contents = c'.contents

end AssociationInternal

end Sctp
