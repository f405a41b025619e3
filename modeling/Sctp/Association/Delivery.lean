import Sctp.Association.EndOfStream
import Sctp.Association.Receiver
import Sctp.Wire.RoundTrip
import Sctp.WriteNumbers

/-!
# A stream from end to end

A sender that writes ordered messages to a stream, and a receiver that reads from it. The network
between them carries the packets of the sender: it may lose, repeat and reorder what is in them.
Beside the sender stands what has been written to the stream, what has been given TSNs and what has
been sent, and beside the receiver the TSNs it has accepted and the messages that have been read.
-/

namespace Sctp

/-- A message that has been written, and the chunks it was cut into. -/
structure WrittenMessage where
  data : Bytes
  payloadType : PayloadProtocolIdentifier
  chunks : List ChunkPayloadData
deriving DecidableEq

/-- What a reader gets of the message. -/
def WrittenMessage.content (w : WrittenMessage) : Bytes × PayloadProtocolIdentifier :=
  (w.data, w.payloadType)

namespace AssociationInternal

/-- The message an operation writes to the stream. -/
def messageWritten (a : AssociationInternal) (si : U16) : SenderOp → List WrittenMessage
  | .write r p ppi =>
    match a.objects[r]? with
    | none => []
    | some s =>
      if s.streamIdentifier = si ∧ (a.writeSctp r p ppi).2.isOk = true then
        [{ data := p, payloadType := ppi, chunks := (s.packetize a.flags p ppi).2.2 }]
      else
        []
  | _ => []

/-- Writes are taken whole, and those to the stream are ordered and have 1 to `maxLen` bytes. -/
def WritesInOrder (a : AssociationInternal) (si : U16) (maxLen : ℕ) : SenderOp → Prop
  | .push _ => False
  | .write r p ppi =>
    ∀ s ∈ a.objects[r]?, s.streamIdentifier = si →
      p ≠ [] ∧ p.length ≤ maxLen ∧ s.isOrdered ppi = true
  | _ => True

instance (a : AssociationInternal) (si : U16) (maxLen : ℕ) (op : SenderOp) :
    Decidable (a.WritesInOrder si maxLen op) :=
  match op with
  | .push _ => isFalse id
  | .write r p ppi => inferInstanceAs (Decidable (∀ s ∈ a.objects[r]?, s.streamIdentifier = si →
      p ≠ [] ∧ p.length ≤ maxLen ∧ s.isOrdered ppi = true))
  | .openStream .. | .setReliabilityParams .. | .shutdownStream .. | .gather _ | .t3Rtx | .sack ..
  | .shutdownChunk | .shutdown => isTrue trivial

/-- All that is held lies where an offset of 16 bits from `peer_last_tsn` shows it. -/
def HoldsInReach (a : AssociationInternal) : Prop :=
  ∀ t ∈ a.payloadQueue.chunkMap.keys, a.peerLastTsn ≤ t ∧ Serial.dist a.peerLastTsn t ≤ 65535

instance (a : AssociationInternal) : Decidable a.HoldsInReach :=
  -- over the TSNs held, not over all of them
  @List.decidableBAll _ _ (fun _ => instDecidableAnd) a.payloadQueue.chunkMap.keys

/-- The message an operation reads from the stream. -/
def messageRead (a : AssociationInternal) (si : U16) :
    ReceiverOp → List (Bytes × PayloadProtocolIdentifier)
  | .read si' n =>
    if si' = si then
      match a.stream? si with
      | none => []
      | some s =>
        match (s.readSctp n).2 with
        | some (.ok message) => [message]
        | _ => []
    else
      []
  | _ => []

end AssociationInternal

/-- The sender, the messages written to a stream, the chunks in the order of their TSNs, and the
packets. -/
structure SendLog where
  association : AssociationInternal
  messages : List WrittenMessage := []
  assigned : List ChunkPayloadData := []
  packets : List Packet := []

/-- The receiver, the TSNs that have been handed to streams, and what has been read from one. -/
structure ReadLog where
  association : AssociationInternal
  accepted : List U32 := []
  read : List (Bytes × PayloadProtocolIdentifier) := []

namespace SendLog

/-- The log after an operation. -/
def step (si : U16) (s : SendLog) (op : SenderOp) : SendLog where
  association := s.association.senderStep op
  messages := s.messages ++ s.association.messageWritten si op
  assigned := s.assigned ++ s.association.assigns op
  packets := s.packets ++ s.association.senderEmits op

/-- SACKs are answered with `Ok`, and whole messages are written, those of the stream in order. -/
def Writes (si : U16) (maxLen : ℕ) (s : SendLog) (op : SenderOp) : Prop :=
  s.association.Transmits op ∧ s.association.WritesInOrder si maxLen op

instance (si : U16) (maxLen : ℕ) (s : SendLog) (op : SenderOp) : Decidable (s.Writes si maxLen op) :=
  inferInstanceAs (Decidable (_ ∧ _))

/-- The chunk is in one of the packets, as the wire carries it. -/
def Carries (s : SendLog) (d : ChunkPayloadData) : Prop :=
  ∃ p ∈ s.packets, ∃ c ∈ p.chunks, c.isPayloadData = true ∧ c.wire = .payloadData d

instance (s : SendLog) (d : ChunkPayloadData) : Decidable (s.Carries d) :=
  inferInstanceAs (Decidable (∃ p ∈ s.packets, ∃ c ∈ p.chunks, _ ∧ _))

/-- The chunks of the stream that have been sent. -/
def sentOf (s : SendLog) (si : U16) : List ChunkPayloadData :=
  s.assigned.filter (·.streamIdentifier = si)

/-- The messages of the stream that were whole among the first `i` chunks. -/
def wholeBefore (s : SendLog) (si : U16) (i : ℕ) : ℕ :=
  ((s.assigned.take i).filter fun c => c.streamIdentifier = si && c.endingFragment).length

/-- The chunks that the first `k` messages were cut into. -/
def chunksOfFirst (s : SendLog) (k : ℕ) : ℕ := ((s.messages.take k).flatMap (·.chunks)).length

/-- The chunks of message `j` that have been sent. -/
def sentOfMessage (s : SendLog) (si : U16) (j : ℕ) : List ChunkPayloadData :=
  ((s.sentOf si).take (s.chunksOfFirst (j + 1))).drop (s.chunksOfFirst j)

end SendLog

namespace ReadLog

/-- The log after an operation. -/
def step (si : U16) (r : ReadLog) (op : ReceiverOp) : ReadLog where
  association := r.association.receiverStep op
  accepted := r.accepted ++ r.association.handedOver op
  read := r.read ++ r.association.messageRead si op

/-- A chunk of the stream is less than 2^15 messages ahead of what has been read. -/
def InReach (si : U16) (s : SendLog) (r : ReadLog) (d : ChunkPayloadData) : Prop :=
  d.streamIdentifier = si → ∀ i < s.assigned.length, ∀ c ∈ s.assigned[i]?, c.tsn = d.tsn →
    s.wholeBefore si i < r.read.length + 2 ^ 15

instance (si : U16) (s : SendLog) (r : ReadLog) (d : ChunkPayloadData) :
    Decidable (r.InReach si s d) :=
  inferInstanceAs (Decidable (_ → ∀ i < s.assigned.length, ∀ c ∈ s.assigned[i]?, _ → _))

/-- What arrives is in the sender's packets, and the reader's buffers are large enough. -/
def Receives (si : U16) (maxLen : ℕ) (s : SendLog) (r : ReadLog) : ReceiverOp → Prop
  | .data d => s.Carries d ∧ r.InReach si s d
  | .forwardTsn _ | .reconfig _ => False
  | .accept => True
  | .read si' n => si' = si → maxLen ≤ n

instance (si : U16) (maxLen : ℕ) (s : SendLog) (r : ReadLog) (op : ReceiverOp) :
    Decidable (r.Receives si maxLen s op) :=
  match op with
  | .data d => inferInstanceAs (Decidable (s.Carries d ∧ r.InReach si s d))
  | .forwardTsn _ | .reconfig _ => isFalse id
  | .accept => isTrue trivial
  | .read si' n => inferInstanceAs (Decidable (si' = si → maxLen ≤ n))

/-- Every chunk of the first `k` messages has been sent and accepted. -/
structure Accepted (si : U16) (s : SendLog) (r : ReadLog) (k : ℕ) : Prop where
  sent : s.chunksOfFirst k ≤ (s.sentOf si).length
  accepted : ∀ c ∈ (s.sentOf si).take (s.chunksOfFirst k), c.tsn ∈ r.accepted

/-- What has been read after `k` more reads into buffers of `n` bytes. -/
def readAfter (si : U16) (r : ReadLog) (k n : ℕ) : List (Bytes × PayloadProtocolIdentifier) :=
  (Runs.run (step si) r (List.replicate k (.read si n))).read

/-- Message `j` has been written and sent, and every chunk of it has been accepted. -/
structure HasMessage (si : U16) (s : SendLog) (r : ReadLog) (j : ℕ) : Prop where
  written : j < s.messages.length
  sent : s.chunksOfFirst (j + 1) ≤ (s.sentOf si).length
  accepted : ∀ c ∈ s.sentOfMessage si j, c.tsn ∈ r.accepted

instance (si : U16) (s : SendLog) (r : ReadLog) (j : ℕ) : Decidable (HasMessage si s r j) :=
  decidable_of_iff (j < s.messages.length ∧ s.chunksOfFirst (j + 1) ≤ (s.sentOf si).length ∧
      (s.sentOfMessage si j).all fun c => r.accepted.contains c.tsn)
    ⟨fun h => ⟨h.1, h.2.1, by simpa using h.2.2⟩,
      fun h => ⟨h.written, h.sent, by simpa using h.accepted⟩⟩

/-- What has been read are the first of the messages that were written, in order, and the next read
gives the message behind them exactly if it is there as a whole, and nothing otherwise. -/
structure DeliversInOrder (si : U16) (maxLen : ℕ) (s : SendLog) (r : ReadLog) : Prop where
  inOrder : r.read <+: s.messages.map (·.content)
  next : ∀ n ≥ maxLen, r.association.messageRead si (.read si n) =
    if HasMessage si s r r.read.length then (s.messages[r.read.length]?.map (·.content)).toList else []

/-- What has been read are the first of the messages that were written, in order, and as soon as
the first `k` messages have been accepted, every read that is missing to `k` gives the next one. -/
structure ReadsInTurn (si : U16) (maxLen : ℕ) (s : SendLog) (r : ReadLog) : Prop where
  inOrder : r.read <+: s.messages.map (·.content)
  succeeds : ∀ k ≤ s.messages.length, Accepted si s r k → r.read.length ≤ k → ∀ n ≥ maxLen,
    r.readAfter si (k - r.read.length) n = (s.messages.take k).map (·.content)

end ReadLog

/-- Every chunk of the first `k` messages has been sent, and none of them is in flight. -/
structure SendLog.Settled (si : U16) (s : SendLog) (k : ℕ) : Prop where
  sent : s.chunksOfFirst k ≤ (s.sentOf si).length
  acknowledged : ∀ c ∈ (s.sentOf si).take (s.chunksOfFirst k),
    c.tsn ∉ s.association.inflightQueue.chunkMap

/-- There is nothing left to send, and nothing in flight. -/
structure SendLog.Drained (s : SendLog) : Prop where
  pendingQueue : s.association.pendingQueue.peek = none
  inflightQueue : s.association.inflightQueue.chunkMap = ∅

/-- What is not in flight any more can be read, and when the sender is drained, it is all that was
written. -/
structure ReadLog.DeliversSettled (si : U16) (maxLen : ℕ) (s : SendLog) (r : ReadLog) : Prop where
  settled : ∀ k, s.Settled si k → ∀ n ≥ maxLen,
    (s.messages.take k).map (·.content) <+: r.readAfter si k n
  drained : s.Drained → ∀ n ≥ maxLen,
    r.readAfter si s.messages.length n = s.messages.map (·.content)

/-- A sender, a receiver and the SACKs that the receiver has built. -/
structure Link where
  sender : SendLog
  receiver : ReadLog
  sacks : List ChunkSelectiveAck := []

/-- A step of the link: one end does something, or the receiver makes a SACK. -/
inductive LinkOp where
  | send (op : SenderOp)
  | receive (op : ReceiverOp)
  | reply

namespace Link

/-- The link after a step. -/
def step (si : U16) (l : Link) : LinkOp → Link
  | .send op => { l with sender := l.sender.step si op }
  | .receive op => { l with receiver := l.receiver.step si op }
  | .reply =>
    let (a, sack) := l.receiver.association.createSelectiveAckChunk
    { l with receiver := { l.receiver with association := a }, sacks := l.sacks ++ [sack] }

/-- The operation is one of an orderly sender, or of its receiver. -/
def Permits (si : U16) (maxLen : ℕ) (l : Link) : LinkOp → Prop
  | .send op => l.sender.Writes si maxLen op
  | .receive op => l.receiver.Receives si maxLen l.sender op
  | .reply => True

instance (si : U16) (maxLen : ℕ) (l : Link) (op : LinkOp) : Decidable (l.Permits si maxLen op) :=
  match op with
  | .send op => inferInstanceAs (Decidable (l.sender.Writes si maxLen op))
  | .receive op => inferInstanceAs (Decidable (l.receiver.Receives si maxLen l.sender op))
  | .reply => isTrue trivial

/-- A SACK that reaches the sender is one of the receiver's, and may be late or repeated. -/
def Genuine (l : Link) : LinkOp → Prop
  | .send (.sack _ d) => d ∈ l.sacks
  | _ => True

instance (l : Link) (op : LinkOp) : Decidable (l.Genuine op) :=
  match op with
  | .send (.sack _ d) => inferInstanceAs (Decidable (d ∈ l.sacks))
  | .send (.openStream ..) | .send (.setReliabilityParams ..) | .send (.write ..)
  | .send (.shutdownStream ..) | .send (.push _) | .send (.gather _) | .send .t3Rtx
  | .send .shutdownChunk | .send .shutdown | .receive _ | .reply => isTrue trivial

/-- A SACK is answered with `Ok`. -/
def AnswersOk (l : Link) : LinkOp → Prop
  | .send op => l.sender.association.SackOk op
  | _ => True

/-- The SACKs are the receiver's, built while its gap ack blocks can show what it holds, and the
clock does not go back. That they are answered with `Ok` is not asked. -/
def Honest (si : U16) (maxLen : ℕ) (l : Link) : LinkOp → Prop
  | .send (.sack now d) => d ∈ l.sacks ∧
      ∀ c ∈ l.sender.association.inflightQueue.chunkMap.values, c.since ≤ now
  | .send op => l.sender.Writes si maxLen op
  | .receive op => l.receiver.Receives si maxLen l.sender op
  | .reply => l.receiver.association.HoldsInReach

instance (si : U16) (maxLen : ℕ) (l : Link) (op : LinkOp) : Decidable (l.Honest si maxLen op) :=
  match op with
  | .send (.sack now d) => inferInstanceAs (Decidable (d ∈ l.sacks ∧
      ∀ c ∈ l.sender.association.inflightQueue.chunkMap.values, c.since ≤ now))
  | .send (.openStream si' ppi) =>
    inferInstanceAs (Decidable (l.sender.Writes si maxLen (.openStream si' ppi)))
  | .send (.setReliabilityParams r u t v) =>
    inferInstanceAs (Decidable (l.sender.Writes si maxLen (.setReliabilityParams r u t v)))
  | .send (.write r p ppi) => inferInstanceAs (Decidable (l.sender.Writes si maxLen (.write r p ppi)))
  | .send (.shutdownStream r how) =>
    inferInstanceAs (Decidable (l.sender.Writes si maxLen (.shutdownStream r how)))
  | .send (.push c) => inferInstanceAs (Decidable (l.sender.Writes si maxLen (.push c)))
  | .send (.gather now) => inferInstanceAs (Decidable (l.sender.Writes si maxLen (.gather now)))
  | .send .t3Rtx => inferInstanceAs (Decidable (l.sender.Writes si maxLen .t3Rtx))
  | .send .shutdownChunk => inferInstanceAs (Decidable (l.sender.Writes si maxLen .shutdownChunk))
  | .send .shutdown => inferInstanceAs (Decidable (l.sender.Writes si maxLen .shutdown))
  | .receive op => inferInstanceAs (Decidable (l.receiver.Receives si maxLen l.sender op))
  | .reply => inferInstanceAs (Decidable (l.receiver.association.HoldsInReach))

/-- Two ends that have sent and received nothing. -/
def start (a b : AssociationInternal) : Link where
  sender := { association := a }
  receiver := { association := b }

end Link

/-- Two associations as the handshake leaves them: the one has sent nothing, and the other waits
for its first TSN. -/
structure AssociationInternal.MeetsFresh (a b : AssociationInternal) (si : U16) : Prop where
  fresh : a.Fresh
  established : a.state = .established
  registered : a.AllRegistered
  controlQueue : emits Chunk.isPayloadData a.controlQueue = false
  unnumbered : ∀ s ∈ a.objects, s.streamIdentifier = si → s.sequenceNumber = 0
  payloadQueue : b.payloadQueue = {}
  reconfigRequests : b.reconfigRequests = ∅
  streams : b.streams = ∅
  objects : b.objects = []
  firstTsn : b.peerLastTsn + 1 = a.myNextTsn

end Sctp
