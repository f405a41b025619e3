import Sctp.Association.ReceiverTheorems
import Sctp.Association.Retention
import Sctp.Association.SkipRelease
import Sctp.Queue.Overflow

/-!
# Additions that overflow in the association

The receiving functions of the association and of its streams, each with a companion that tells
whether an addition on a TSN or on an SSN overflows on the way. The strings of the trace log
are not built.
-/

namespace Sctp

namespace Stream

/-- `read_sctp` overflows. -/
def readSctpOverflows (s : Stream) : Bool :=
  if s.readShutdown then false else s.reassemblyQueue.readOverflows

/-- `handle_data` of a stream overflows, where it pushes or where it looks whether to notify. -/
def handleDataOverflows (s : Stream) (pd : ChunkPayloadData) : Bool :=
  s.reassemblyQueue.pushOverflows pd ||
    match s.reassemblyQueue.push pd with
    | (q, true) => q.isReadableOverflows
    | (_, false) => false

/-- `handle_forward_tsn_for_ordered` overflows. -/
def handleForwardTsnForOrderedOverflows (s : Stream) (ssn : U16) : Bool :=
  if s.unordered then
    false
  else
    s.reassemblyQueue.forwardTsnForOrderedOverflows ssn ||
      (s.reassemblyQueue.forwardTsnForOrdered ssn).isReadableOverflows

/-- `handle_forward_tsn_for_unordered` overflows. -/
def handleForwardTsnForUnorderedOverflows (s : Stream) (newCumulativeTsn : U32) : Bool :=
  if !s.unordered then
    false
  else
    (s.reassemblyQueue.forwardTsnForUnordered newCumulativeTsn).isReadableOverflows

/-- The stream can be read, and its next message has the last SSN. -/
def ReadsLastSsn (s : Stream) : Prop :=
  s.readShutdown = false ∧ s.reassemblyQueue.ReadsLastSsn

end Stream

namespace AssociationInternal

/-- The loop that moves `peer_last_tsn` on computes the TSN after it before every look. -/
def advancePeerLastTsnOverflows : ℕ → AssociationInternal → Bool
  | 0, a => a.peerLastTsn.uaddOverflow 1
  | fuel + 1, a =>
    a.peerLastTsn.uaddOverflow 1 ||
      match a.payloadQueue.pop (a.peerLastTsn + 1) with
      | (_, none) => false
      | (q, some _) =>
        advancePeerLastTsnOverflows fuel
          { a with payloadQueue := q, peerLastTsn := a.peerLastTsn + 1 }.recheckReconfigRequests.1

/-- `handle_peer_last_tsn_and_acknowledgement` overflows, in its loop. -/
def handlePeerLastTsnAndAcknowledgementOverflows (a : AssociationInternal) : Bool :=
  advancePeerLastTsnOverflows a.payloadQueue.sorted.length a

/-- `handle_data` overflows. -/
def handleDataOverflows (a : AssociationInternal) (d : ChunkPayloadData) : Bool :=
  if a.payloadQueue.canPush d a.peerLastTsn then
    match a.getOrCreateStream d.streamIdentifier with
    | (_, none) => false
    | (a, some _) =>
      if a.acceptsData d then
        let a := { a with payloadQueue := (a.payloadQueue.push d a.peerLastTsn).1 }
        (a.stream? d.streamIdentifier).any (·.handleDataOverflows d) ||
          (a.modifyStream d.streamIdentifier fun s =>
            (s.handleData d).1).handlePeerLastTsnAndAcknowledgementOverflows
      else
        a.handlePeerLastTsnAndAcknowledgementOverflows
  else
    a.handlePeerLastTsnAndAcknowledgementOverflows

/-- The loop of `handle_forward_tsn` that moves `peer_last_tsn` to `newCumulativeTsn`. -/
def forwardPeerLastTsnOverflows (newCumulativeTsn peerLastTsn : U32) : Bool :=
  if sna32lt peerLastTsn newCumulativeTsn then
    peerLastTsn.uaddOverflow 1 || forwardPeerLastTsnOverflows newCumulativeTsn (peerLastTsn + 1)
  else
    false
termination_by Serial.dist peerLastTsn newCumulativeTsn
decreasing_by exact dist_succ_lt_of_sna32lt (by assumption)

/-- The loop over the SSNs that are listed. -/
def forwardOrderedOverflows (a : AssociationInternal) : List ChunkForwardTsnStream → Bool
  | [] => false
  | e :: es =>
    (a.stream? e.identifier).any (·.handleForwardTsnForOrderedOverflows e.sequence) ||
      forwardOrderedOverflows
        (a.modifyStream e.identifier fun s => (s.handleForwardTsnForOrdered e.sequence).1) es

/-- The loop over all streams. -/
def forwardUnorderedOverflows (newCumulativeTsn : U32) (a : AssociationInternal) : List U16 → Bool
  | [] => false
  | si :: ids =>
    (a.stream? si).any (·.handleForwardTsnForUnorderedOverflows newCumulativeTsn) ||
      forwardUnorderedOverflows newCumulativeTsn
        (a.modifyStream si fun s => (s.handleForwardTsnForUnordered newCumulativeTsn).1) ids

/-- The two loops over streams of `handle_forward_tsn` overflow. -/
def forwardStreamsOverflows (a : AssociationInternal) (c : ChunkForwardTsn) : Bool :=
  forwardOrderedOverflows a c.streams ||
    let a := c.streams.foldl
      (fun a forwarded => a.modifyStream forwarded.identifier fun s =>
        (s.handleForwardTsnForOrdered forwarded.sequence).1) a
    forwardUnorderedOverflows c.newCumulativeTsn a a.streams.keys

/-- `handle_forward_tsn` overflows. -/
def handleForwardTsnOverflows (a : AssociationInternal) (c : ChunkForwardTsn) : Bool :=
  if !a.useForwardTsn then
    false
  else if sna32lte c.newCumulativeTsn a.peerLastTsn then
    false
  else
    forwardPeerLastTsnOverflows c.newCumulativeTsn a.peerLastTsn ||
      let (payloadQueue, peerLastTsn) :=
        forwardPeerLastTsn c.newCumulativeTsn a.payloadQueue a.peerLastTsn
      let a := { a with payloadQueue, peerLastTsn }
      a.forwardStreamsOverflows c ||
        (a.forwardStreams c).handlePeerLastTsnAndAcknowledgementOverflows

end AssociationInternal

/-- What arrives, the application's calls, and the SACKs that `gather_outbound` makes. -/
inductive CheckedOp where
  | stream (op : StreamOp)
  | sack

namespace AssociationInternal

/-- The association after an operation. -/
def checkedStep (a : AssociationInternal) : CheckedOp → AssociationInternal
  | .stream op => a.streamStep op
  | .sack => a.createSelectiveAckChunk.1

/-- Whether the operation panics in a build with overflow checks. -/
def overflows (a : AssociationInternal) : CheckedOp → Bool
  | .stream (.receive (.data d)) => a.handleDataOverflows d
  | .stream (.receive (.forwardTsn c)) => a.handleForwardTsnOverflows c
  | .stream (.receive (.read si _)) => (a.stream? si).any (·.readSctpOverflows)
  | .stream (.readSctp r _) => a.objects[r]?.any (·.readSctpOverflows)
  | .sack => a.payloadQueue.getGapAckBlocksOverflows a.peerLastTsn
  | .stream (.receive (.reconfig _)) | .stream (.receive .accept) | .stream (.openStream ..) => false

/-! ## What makes an addition overflow -/

/-- Nothing is missing between the point and the last TSN, given the TSNs that come. -/
def HeldToTheLast (a : AssociationInternal) (point : U32) (comes : List U32) : Prop :=
  ∀ t, point < t → t ∈ a.payloadQueue.chunkMap ∨ t ∈ comes

/-- A chunk that is discarded, as its stream cannot be created, is not acknowledged. -/
def discardsData (a : AssociationInternal) (d : ChunkPayloadData) : Bool :=
  a.payloadQueue.canPush d a.peerLastTsn && (a.getOrCreateStream d.streamIdentifier).2.isNone

/-- An entry forwards an ordered stream over the last SSN, given the entries before it. -/
def SkipsToLastSsn (a : AssociationInternal) (c : ChunkForwardTsn) : Prop :=
  ∃ before e after r s, c.streams = before ++ e :: after ∧ e.sequence = 0xffff ∧
    a.streams.lookup e.identifier = some r ∧ a.objects[r]? = some s ∧ s.unordered = false ∧
      sna16lte ((a.listedSsns { c with streams := before } r).foldl skipTo
        s.reassemblyQueue.nextSsn) 0xffff = true

/-- A TSN held, but the last of them, lies 65535 increments ahead, up to multiples of 65536. -/
def ReportsLastOffset (a : AssociationInternal) : Prop :=
  ∃ t ∈ a.payloadQueue.sorted.dropLast, a.peerLastTsn ≤ t ∧
    (t - a.peerLastTsn).setWidth 16 = (0xffff : U16)

/-- The point goes over the last TSN, on its way to the new one or on from there. It stays where
it is if the new one is half the number space ahead. -/
def ForwardsOverLastTsn (a : AssociationInternal) (c : ChunkForwardTsn) : Prop :=
  if sna32lt a.peerLastTsn c.newCumulativeTsn then
    c.newCumulativeTsn < a.peerLastTsn ∨ a.HeldToTheLast c.newCumulativeTsn []
  else
    a.HeldToTheLast a.peerLastTsn []

/-- The operation goes over the last TSN, the last SSN or the last gap offset. -/
def PassesLastNumber (a : AssociationInternal) : CheckedOp → Prop
  | .stream (.receive (.data d)) =>
    (a.handsOver d = true ∧ (a.queueOf d.streamIdentifier).PushPassesLastTsn d) ∨
      (a.discardsData d = false ∧ a.HeldToTheLast a.peerLastTsn (a.handedOver (.data d)))
  | .stream (.receive (.forwardTsn c)) =>
    a.useForwardTsn = true ∧ sna32lte c.newCumulativeTsn a.peerLastTsn = false ∧
      (a.ForwardsOverLastTsn c ∨ a.SkipsToLastSsn c)
  | .stream (.receive (.read si _)) => ∃ s, a.stream? si = some s ∧ s.ReadsLastSsn
  | .stream (.readSctp r _) => ∃ s, a.objects[r]? = some s ∧ s.ReadsLastSsn
  | .sack => a.ReportsLastOffset
  | .stream (.receive (.reconfig _)) | .stream (.receive .accept) | .stream (.openStream ..) => False

end AssociationInternal

end Sctp
