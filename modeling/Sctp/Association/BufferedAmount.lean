import Sctp.Association.Transmission
import Sctp.Queue.BytesTheorems

/-!
# The buffered amount of a stream

A stream object counts the bytes written through it, and a SACK takes off what is acknowledged
of its identifier. Who wrote a message is noted under the first of the two cells of flags that
its chunks share.
-/

namespace Sctp

/-- The object through which a message was written, by the first cell of the message. -/
abbrev Authors := SharedFlag → Option StreamRef

/-- The chunk was written through the object. -/
def Authors.wrote (w : Authors) (r : StreamRef) (c : ChunkPayloadData) : Bool :=
  w c.abandoned = some r

/-- What happens to the sending side, and a look of the receiving side at the reset requests of
the peer: at one that arrives, or at those that are deferred. -/
inductive BufferOp where
  | sender (op : SenderOp)
  | reconfig (c : ChunkReconfig)
  | recheck

namespace AssociationInternal

/-- The authors after an operation. -/
def authorsAfter (a : AssociationInternal) (w : Authors) : SenderOp → Authors
  | .write r _ _ => Function.update w a.flags.length (some r)
  | _ => w

/-- The association with the authors of the messages. -/
def bufferStep (s : AssociationInternal × Authors) : BufferOp → AssociationInternal × Authors
  | .sender op => (s.1.senderStep op, s.1.authorsAfter s.2 op)
  | .reconfig c => ((s.1.handleReconfig c).1, s.2)
  | .recheck => (s.1.recheckReconfigRequests.1, s.2)

/-- The user bytes written through the object that are pending, or in flight and not
acknowledged. -/
def outstanding (s : AssociationInternal × Authors) (r : StreamRef) : ℕ :=
  s.1.pendingQueue.bytesOf (s.2.wrote r) +
    s.1.inflightQueue.bytesOf fun c => s.2.wrote r c && !c.acked

/-- The buffered amount of every registered stream is what is outstanding of it. -/
def BuffersExactly (s : AssociationInternal × Authors) : Prop :=
  ∀ (si : U16) (r : StreamRef) (obj : Stream), s.1.streams.lookup si = some r →
    s.1.objects[r]? = some obj → obj.bufferedAmount = outstanding s r

/-- The SACK is looked at: it is not behind, and the state is one of data transfer. -/
def readsSack (a : AssociationInternal) (d : ChunkSelectiveAck) : Bool :=
  (a.state = .established || a.state = .shutdownPending || a.state = .shutdownReceived) &&
    !sna32gt a.cumulativeTsnAckPoint d.cumulativeTsnAck

/-- The bytes for which a SACK calls `on_buffer_released`, by stream identifier. -/
def releases (a : AssociationInternal) (now : ℕ) (d : ChunkSelectiveAck) : BytesAcked :=
  if a.readsSack d then
    match (a.processSelectiveAck now d).2 with
    | .ok (bytesAcked, _) => bytesAcked
    | .error _ => ∅
  else
    ∅

/-- For no registered stream does a SACK release more than is buffered, and the callback runs
when what is outstanding falls to the threshold. -/
def ReleasesExactly (s : AssociationInternal × Authors) : BufferOp → Prop
  | .sender (.sack now d) =>
    ∀ (si : U16) (r : StreamRef) (obj : Stream), s.1.streams.lookup si = some r →
      s.1.objects[r]? = some obj →
        let n := ((s.1.releases now d).lookup si).getD 0
        n ≤ obj.bufferedAmount ∧
          ((obj.onBufferReleased n).2 = true ↔ obj.bufferedAmountLow < outstanding s r ∧
            outstanding (bufferStep s (.sender (.sack now d))) r ≤ obj.bufferedAmountLow)
  | _ => True

/-- Writes succeed and are taken whole, and SACKs are answered with `Ok`. -/
def Succeeds (s : AssociationInternal × Authors) : BufferOp → Prop
  | .sender (.write r p ppi) => (s.1.writeSctp r p ppi).2.isOk = true
  | .sender (.push _) => False
  | .sender op => s.1.SackOk op
  | .reconfig _ | .recheck => True

/-- The SACK acknowledges the TSN, if it is in flight. -/
def covers (a : AssociationInternal) (d : ChunkSelectiveAck) (t : U32) : Prop :=
  (0 < Serial.dist a.cumulativeTsnAckPoint t ∧
    Serial.dist a.cumulativeTsnAckPoint t ≤
      Serial.dist a.cumulativeTsnAckPoint d.cumulativeTsnAck) ∨ t ∈ gapTsns d

instance (a : AssociationInternal) (d : ChunkSelectiveAck) (t : U32) : Decidable (a.covers d t) :=
  inferInstanceAs (Decidable (_ ∨ _))

/-- What is acknowledged of a registered stream was written through its object, and no chunk is
given the TSN of one in flight. -/
def KeepsStreamsApart (s : AssociationInternal × Authors) : BufferOp → Prop
  | .sender (.sack _ d) =>
    s.1.readsSack d = true → ∀ e ∈ s.1.inflightQueue.chunkMap.entries, s.1.covers d e.1 →
      e.2.acked = false → e.2.userData ≠ [] →
        (s.1.streams.lookup e.2.streamIdentifier).all (s.2.wrote · e.2) = true
  | .sender (.gather now) =>
    ∀ c ∈ s.1.assigns (.gather now), c.tsn ∉ s.1.inflightQueue.chunkMap
  | _ => True

instance (s : AssociationInternal × Authors) (op : BufferOp) : Decidable (Succeeds s op) :=
  match op with
  | .sender (.write r p ppi) => inferInstanceAs (Decidable ((s.1.writeSctp r p ppi).2.isOk = true))
  | .sender (.push _) => isFalse id
  | .sender (.openStream si ppi) => inferInstanceAs (Decidable (s.1.SackOk (.openStream si ppi)))
  | .sender (.setReliabilityParams r u t v) =>
    inferInstanceAs (Decidable (s.1.SackOk (.setReliabilityParams r u t v)))
  | .sender (.shutdownStream r how) =>
    inferInstanceAs (Decidable (s.1.SackOk (.shutdownStream r how)))
  | .sender (.gather now) => inferInstanceAs (Decidable (s.1.SackOk (.gather now)))
  | .sender .t3Rtx => inferInstanceAs (Decidable (s.1.SackOk .t3Rtx))
  | .sender (.sack now d) => inferInstanceAs (Decidable (s.1.SackOk (.sack now d)))
  | .sender .shutdownChunk => inferInstanceAs (Decidable (s.1.SackOk .shutdownChunk))
  | .sender .shutdown => inferInstanceAs (Decidable (s.1.SackOk .shutdown))
  | .reconfig _ | .recheck => isTrue trivial

instance (s : AssociationInternal × Authors) (op : BufferOp) : Decidable (KeepsStreamsApart s op) :=
  match op with
  | .sender (.sack _ d) => inferInstanceAs (Decidable (_ → ∀ e ∈ s.1.inflightQueue.chunkMap.entries,
      s.1.covers d e.1 → e.2.acked = false → e.2.userData ≠ [] →
        (s.1.streams.lookup e.2.streamIdentifier).all (s.2.wrote · e.2) = true))
  | .sender (.gather now) => inferInstanceAs (Decidable (∀ c ∈ s.1.assigns (.gather now),
      c.tsn ∉ s.1.inflightQueue.chunkMap))
  | .sender (.openStream ..) | .sender (.setReliabilityParams ..) | .sender (.write ..)
  | .sender (.shutdownStream ..) | .sender (.push _) | .sender .t3Rtx | .sender .shutdownChunk
  | .sender .shutdown | .reconfig _ | .recheck => isTrue trivial

end AssociationInternal

end Sctp
