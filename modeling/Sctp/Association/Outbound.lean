import Sctp.Association.Inbound

/-!
# Outbound packets, timeouts and the application's calls

`gather_outbound` gives the packets themselves; serialising them cannot fail. `now` is the
system time in nanoseconds.
-/

namespace Sctp

namespace AssociationInternal

/-! ## New data -/

/-- `check_partial_reliability_status`: gives a message up that was sent too often or for too long.
-/
def checkPartialReliabilityStatus (a : AssociationInternal) (now : ℕ) (c : ChunkPayloadData) :
    AssociationInternal :=
  if !a.useForwardTsn then
    a
  else if c.payloadType = .dcep then
    a
  else
    match a.stream? c.streamIdentifier with
    | none => a
    | some s =>
      if s.reliabilityType = .rexmit then
        if c.nsent ≥ s.reliabilityValue then { a with flags := c.setAbandoned a.flags true } else a
      else if s.reliabilityType = .timed then
        -- `duration_since` fails on a chunk from the future
        if c.since ≤ now ∧ BitVec.ofNat 32 ((now - c.since) / 1000000) ≥ s.reliabilityValue then
          { a with flags := c.setAbandoned a.flags true }
        else
          a
      else
        a

/-- `generate_next_tsn`. -/
def generateNextTsn (a : AssociationInternal) : AssociationInternal × U32 :=
  ({ a with myNextTsn := a.myNextTsn + 1 }, a.myNextTsn)

/-- `generate_next_rsn`. -/
def generateNextRsn (a : AssociationInternal) : AssociationInternal × U32 :=
  ({ a with myNextRsn := a.myNextRsn + 1 }, a.myNextRsn)

/-- `move_pending_data_chunk_to_inflight_queue`. -/
def movePendingDataChunkToInflightQueue (a : AssociationInternal) (now : ℕ)
    (beginningFragment unordered : Bool) : AssociationInternal × Option ChunkPayloadData :=
  match a.pendingQueue.pop beginningFragment unordered with
  | (q, none) => ({ a with pendingQueue := q }, none)
  | (q, some c) =>
    let a := { a with pendingQueue := q, flags := c.setAllInflight a.flags }
    let (a, tsn) := a.generateNextTsn
    let c := { c with tsn, since := now, nsent := 1 }
    let a := a.checkPartialReliabilityStatus now c
    ({ a with inflightQueue := a.inflightQueue.pushNoCheck c }, some c)

/-- The `while` loop of `pop_pending_data_chunks_to_send`. Every round takes a chunk out of
the pending queue or some of the peer's window. -/
def popPendingLoop (now : ℕ) : ℕ → AssociationInternal → List ChunkPayloadData → List U16 →
    AssociationInternal × List ChunkPayloadData × List U16
  | 0, a, chunks, sisToReset => (a, chunks, sisToReset)
  | fuel + 1, a, chunks, sisToReset =>
    match a.pendingQueue.peek with
    | none => (a, chunks, sisToReset)
    | some c =>
      let dataLen := c.userData.length
      if dataLen = 0 then
        let (q, _) := a.pendingQueue.pop c.beginningFragment c.unordered
        popPendingLoop now fuel { a with pendingQueue := q } chunks
          (sisToReset ++ [c.streamIdentifier])
      else if a.inflightQueue.getNumBytes + dataLen > a.cwnd.toNat then
        (a, chunks, sisToReset)
      else if dataLen > a.rwnd.toNat then
        (a, chunks, sisToReset)
      else
        let a := { a with rwnd := a.rwnd - BitVec.ofNat 32 dataLen }
        let (a, chunk) := a.movePendingDataChunkToInflightQueue now c.beginningFragment c.unordered
        popPendingLoop now fuel a (chunks ++ chunk.toList) sisToReset

/-- A bound on the rounds of the loop. -/
def popPendingRounds (a : AssociationInternal) : ℕ :=
  a.pendingQueue.unorderedQueue.length + a.pendingQueue.orderedQueue.length + a.rwnd.toNat

/-- The probe of a window that is closed: one chunk may always be in flight. -/
def zeroWindowProbe (a : AssociationInternal) (now : ℕ) (chunks : List ChunkPayloadData) :
    AssociationInternal × List ChunkPayloadData :=
  if chunks = [] ∧ a.inflightQueue.isEmpty then
    match a.pendingQueue.peek with
    | none => (a, chunks)
    | some c =>
      let (a, chunk) := a.movePendingDataChunkToInflightQueue now c.beginningFragment c.unordered
      (a, chunks ++ chunk.toList)
  else
    (a, chunks)

/-- `pop_pending_data_chunks_to_send`. -/
def popPendingDataChunksToSend (a : AssociationInternal) (now : ℕ) :
    AssociationInternal × List ChunkPayloadData × List U16 :=
  if a.pendingQueue.len = 0 then
    (a, [], [])
  else
    let (a, chunks, sisToReset) := popPendingLoop now a.popPendingRounds a [] []
    let (a, chunks) := a.zeroWindowProbe now chunks
    (a, chunks, sisToReset)

/-- The loop of `bundle_data_chunks_into_packets`. -/
def bundleFrom (a : AssociationInternal) (chunksToSend : List Chunk) (bytesInPacket : U32) :
    List ChunkPayloadData → List Packet
  | [] => if chunksToSend = [] then [] else [a.createPacket chunksToSend]
  | c :: cs =>
    let dataLen : U32 := BitVec.ofNat 32 c.userData.length
    if bytesInPacket + dataLen > a.mtu then
      a.createPacket chunksToSend ::
        bundleFrom a [.payloadData c] (commonHeaderSize + (dataChunkHeaderSize + dataLen)) cs
    else
      bundleFrom a (chunksToSend ++ [.payloadData c])
        (bytesInPacket + (dataChunkHeaderSize + dataLen)) cs

/-- `bundle_data_chunks_into_packets`. -/
def bundleDataChunksIntoPackets (a : AssociationInternal) (chunks : List ChunkPayloadData) :
    List Packet :=
  a.bundleFrom [] commonHeaderSize chunks

/-! ## Retransmissions -/

/-- A chunk in flight is sent once more. -/
def resend (a : AssociationInternal) (now : ℕ) (tsn : U32)
    (f : ChunkPayloadData → ChunkPayloadData) : AssociationInternal × Option ChunkPayloadData :=
  let a := { a with inflightQueue := a.inflightQueue.getMut tsn f }
  match a.inflightQueue.get tsn with
  | none => (a, none)
  | some c => (a.checkPartialReliabilityStatus now c, some c)

/-- The loop of `get_data_packets_to_retransmit`; `first` in its first round. -/
def retransmitFrom (now : ℕ) (awnd : U32) (a : AssociationInternal) (bytesToSend : ℕ)
    (chunks : List ChunkPayloadData) (first : Bool) :
    List U32 → AssociationInternal × List ChunkPayloadData
  | [] => (a, chunks)
  | tsn :: tsns =>
    match a.inflightQueue.get tsn with
    | none => (a, chunks)
    | some c =>
      if !c.retransmit then
        retransmitFrom now awnd a bytesToSend chunks false tsns
      else
        let probe := first && a.rwnd < BitVec.ofNat 32 c.userData.length
        if !probe && bytesToSend + c.userData.length > awnd.toNat then
          (a, chunks)
        else
          let (a, sent) := a.resend now tsn fun c =>
            { c with retransmit := false, nsent := c.nsent + 1 }
          let chunks := chunks ++ sent.toList
          if probe then
            (a, chunks)
          else
            retransmitFrom now awnd a (bytesToSend + c.userData.length) chunks false tsns

/-- `get_data_packets_to_retransmit`. -/
def getDataPacketsToRetransmit (a : AssociationInternal) (now : ℕ) :
    AssociationInternal × List Packet :=
  let (a, chunks) := retransmitFrom now (cmpMin a.cwnd a.rwnd) a 0 [] true
    (a.inflightQueue.tsnsFrom (a.cumulativeTsnAckPoint + 1))
  (a, a.bundleDataChunksIntoPackets chunks)

/-- The loop of `gather_outbound_fast_retransmission_packets`. -/
def fastRetransmitFrom (now : ℕ) (a : AssociationInternal) (fastRetransSize : U32)
    (toFastRetrans : List Chunk) : List U32 → AssociationInternal × List Chunk
  | [] => (a, toFastRetrans)
  | tsn :: tsns =>
    match a.inflightQueue.get tsn with
    | none => (a, toFastRetrans)
    | some c =>
      if c.acked || c.isAbandoned a.flags || c.nsent > 1 || c.missIndicator < 3 then
        fastRetransmitFrom now a fastRetransSize toFastRetrans tsns
      else
        let dataChunkSize := dataChunkHeaderSize + BitVec.ofNat 32 c.userData.length
        if a.mtu < fastRetransSize + dataChunkSize then
          (a, toFastRetrans)
        else
          let (a, sent) := a.resend now tsn fun c => { c with nsent := c.nsent + 1 }
          fastRetransmitFrom now a (fastRetransSize + dataChunkSize)
            (toFastRetrans ++ sent.toList.map .payloadData) tsns

/-! ## Gathering -/

/-- `gather_outbound_data_and_reconfig_packets`, the RECONFIG part. -/
def gatherOutboundReconfigPackets (a : AssociationInternal) (sisToReset : List U16) :
    AssociationInternal × List Packet :=
  if sisToReset ≠ [] ∨ a.willRetransmitReconfig then
    let (a, packets) :=
      if a.willRetransmitReconfig then
        ({ a with willRetransmitReconfig := false },
          a.reconfigs.values.map fun c => a.createPacket [.reconfig c])
      else
        (a, [])
    let (a, packets) :=
      if sisToReset ≠ [] then
        let (a, rsn) := a.generateNextRsn
        let c : ChunkReconfig :=
          { paramA := some (.outgoingResetRequest
              { reconfigRequestSequenceNumber := rsn
                senderLastTsn := a.myNextTsn - 1
                streamIdentifiers := sisToReset }) }
        let a := { a with reconfigs := a.reconfigs.insert rsn c }
        (a, packets ++ [a.createPacket [.reconfig c]])
      else
        (a, packets)
    let a := if a.reconfigs.entries ≠ [] then { a with treconfig := a.treconfig.start } else a
    (a, packets)
  else
    (a, [])

/-- `gather_outbound_data_and_reconfig_packets`. -/
def gatherOutboundDataAndReconfigPackets (a : AssociationInternal) (now : ℕ) :
    AssociationInternal × List Packet :=
  let (a, chunks, sisToReset) := a.popPendingDataChunksToSend now
  let (a, packets) :=
    if chunks ≠ [] then
      ({ a with t3rtx := a.t3rtx.start }, a.bundleDataChunksIntoPackets chunks)
    else
      (a, [])
  let (a, reconfigPackets) := a.gatherOutboundReconfigPackets sisToReset
  (a, packets ++ reconfigPackets)

/-- `gather_outbound_fast_retransmission_packets`. -/
def gatherOutboundFastRetransmissionPackets (a : AssociationInternal) (now : ℕ) :
    AssociationInternal × List Packet :=
  if a.willRetransmitFast then
    let a := { a with willRetransmitFast := false }
    let (a, toFastRetrans) := fastRetransmitFrom now a commonHeaderSize []
      (a.inflightQueue.tsnsFrom (a.cumulativeTsnAckPoint + 1))
    (a, if toFastRetrans ≠ [] then [a.createPacket toFastRetrans] else [])
  else
    (a, [])

/-- `create_selective_ack_chunk`. -/
def createSelectiveAckChunk (a : AssociationInternal) : AssociationInternal × ChunkSelectiveAck :=
  let (payloadQueue, duplicateTsn) := a.payloadQueue.popDuplicates
  ({ a with payloadQueue },
    { cumulativeTsnAck := a.peerLastTsn
      advertisedReceiverWindowCredit := a.getMyReceiverWindowCredit
      gapAckBlocks := a.payloadQueue.getGapAckBlocks a.peerLastTsn
      duplicateTsn })

/-- `gather_outbound_sack_packets`. -/
def gatherOutboundSackPackets (a : AssociationInternal) : AssociationInternal × List Packet :=
  if a.ackState = .immediate then
    let (a, sack) := { a with ackState := .idle }.createSelectiveAckChunk
    (a, [a.createPacket [.selectiveAck sack]])
  else
    (a, [])

/-- The loop of `create_forward_tsn`: the greatest SSN of each stream up to the point. -/
def skippedStreams (a : AssociationInternal) (i : U32) (streamMap : AssocMap U16 U16) :
    AssocMap U16 U16 :=
  if sna32lte i a.advancedPeerTsnAckPoint then
    match a.inflightQueue.get i with
    | none => streamMap
    | some c =>
      let newer :=
        match streamMap.lookup c.streamIdentifier with
        | some ssn => sna16lt ssn c.streamSequenceNumber
        | none => true
      skippedStreams a (i + 1)
        (if newer then streamMap.insert c.streamIdentifier c.streamSequenceNumber else streamMap)
  else
    streamMap
termination_by roundsLeft i a.advancedPeerTsnAckPoint
decreasing_by exact roundsLeft_succ_lt (by assumption)

/-- `create_forward_tsn`. -/
def createForwardTsn (a : AssociationInternal) : ChunkForwardTsn :=
  { newCumulativeTsn := a.advancedPeerTsnAckPoint
    streams := (a.skippedStreams (a.cumulativeTsnAckPoint + 1) ∅).entries.map fun e =>
      { identifier := e.1, sequence := e.2 } }

/-- `gather_outbound_forward_tsn_packets`. -/
def gatherOutboundForwardTsnPackets (a : AssociationInternal) : AssociationInternal × List Packet :=
  if a.willSendForwardTsn then
    let a := { a with willSendForwardTsn := false }
    if sna32gt a.advancedPeerTsnAckPoint a.cumulativeTsnAckPoint then
      (a, [a.createPacket [.forwardTsn a.createForwardTsn]])
    else
      (a, [])
  else
    (a, [])

/-- The packets of a shutdown, and whether the association stays open. -/
def gatherOutboundShutdownPackets (a : AssociationInternal) :
    AssociationInternal × List Packet × Bool :=
  if a.willSendShutdown then
    let a := { a with willSendShutdown := false, t2shutdown := a.t2shutdown.start }
    (a, [a.createPacket [.shutdown a.cumulativeTsnAckPoint]], true)
  else if a.willSendShutdownAck then
    let a := { a with willSendShutdownAck := false, t2shutdown := a.t2shutdown.start }
    (a, [a.createPacket [.shutdownAck]], true)
  else if a.willSendShutdownComplete then
    ({ a with willSendShutdownComplete := false }, [a.createPacket [.shutdownComplete]], false)
  else
    (a, [], true)

/-- `gather_outbound` in the state Established. -/
def gatherEstablished (a : AssociationInternal) (now : ℕ) : AssociationInternal × List Packet :=
  let (a, retransmitted) := a.getDataPacketsToRetransmit now
  let (a, data) := a.gatherOutboundDataAndReconfigPackets now
  let (a, fast) := a.gatherOutboundFastRetransmissionPackets now
  let (a, sack) := a.gatherOutboundSackPackets
  let (a, forward) := a.gatherOutboundForwardTsnPackets
  (a, retransmitted ++ data ++ fast ++ sack ++ forward)

/-- `gather_outbound` while a shutdown is under way and data may be outstanding. -/
def gatherShutdown (a : AssociationInternal) (now : ℕ) :
    AssociationInternal × List Packet × Bool :=
  let (a, retransmitted) := a.getDataPacketsToRetransmit now
  let (a, fast) := a.gatherOutboundFastRetransmissionPackets now
  let (a, sack) := a.gatherOutboundSackPackets
  let (a, shutdown, ok) := a.gatherOutboundShutdownPackets
  (a, retransmitted ++ fast ++ sack ++ shutdown, ok)

/-- `gather_outbound`: the packets, and whether the write loop goes on. -/
def gatherOutbound (a : AssociationInternal) (now : ℕ) :
    AssociationInternal × List Packet × Bool :=
  let control := a.controlQueue
  let a := { a with controlQueue := [] }
  match a.state with
  | .established =>
    let (a, packets) := a.gatherEstablished now
    (a, control ++ packets, true)
  | .shutdownPending | .shutdownSent | .shutdownReceived =>
    let (a, packets, ok) := a.gatherShutdown now
    (a, control ++ packets, ok)
  | .shutdownAckSent =>
    let (a, packets, ok) := a.gatherOutboundShutdownPackets
    (a, control ++ packets, ok)
  | _ => (a, control, true)

/-! ## Timeouts -/

/-- `on_ack_timeout`. -/
def onAckTimeout (a : AssociationInternal) : AssociationInternal := { a with ackState := .immediate }

/-- The branch of `on_retransmission_timeout` for T3-rtx. -/
def onT3RtxTimeout (a : AssociationInternal) : AssociationInternal :=
  let a := { a with ssthresh := cmpMax (a.cwnd / 2) (4 * a.mtu), cwnd := a.mtu }
  let a := if a.useForwardTsn then a.advanceAckPoint else a
  { a with inflightQueue := a.inflightQueue.markAllToRetransmit a.flags }

/-- `on_retransmission_timeout`. -/
def onRetransmissionTimeout (a : AssociationInternal) (id : RtxTimerId) : AssociationInternal :=
  match id with
  | .t1Init => a.sendInit.1
  | .t1Cookie => a.sendCookieEcho.1
  | .t2Shutdown =>
    match a.state with
    | .shutdownSent => { a with willSendShutdown := true }
    | .shutdownAckSent => { a with willSendShutdownAck := true }
    | _ => a
  | .t3Rtx => a.onT3RtxTimeout
  | .reconfig => { a with willRetransmitReconfig := true }

/-! ## Calls of the application -/

/-- `Association::shutdown` up to the point where it waits for the association to close. -/
def shutdown (a : AssociationInternal) : AssociationInternal × Except Error Unit :=
  if a.state ≠ .established then
    (a, .error .errShutdownNonEstablished)
  else
    let a := a.setState .shutdownPending
    if a.inflightQueue.length = 0 then
      ({ a with willSendShutdown := true }.setState .shutdownSent, .ok ())
    else
      (a, .ok ())

/-- `write_sctp` on a stream object. -/
def writeSctp (a : AssociationInternal) (r : StreamRef) (p : Bytes)
    (ppi : PayloadProtocolIdentifier) : AssociationInternal × Except Error ℕ :=
  match a.objects[r]? with
  | none => (a, .error .errStreamClosed)
  | some s =>
    let (s, flags, pendingQueue, res) :=
      s.writeSctp a.maxMessageSize a.state a.flags a.pendingQueue p ppi
    ({ a with flags, pendingQueue, objects := a.objects.set r s }, res)

/-- `shutdown` on a stream object. -/
def shutdownStream (a : AssociationInternal) (r : StreamRef) (how : Shutdown) :
    AssociationInternal × Except Error Unit :=
  match a.objects[r]? with
  | none => (a, .error .errStreamClosed)
  | some s =>
    let (s, flags, pendingQueue, res) := s.shutdown a.state a.flags a.pendingQueue how
    ({ a with flags, pendingQueue, objects := a.objects.set r s }, res)

/-- A round of `read_sctp` on a stream object: `none` when it would wait. -/
def readSctp (a : AssociationInternal) (r : StreamRef) (bufLen : ℕ) :
    AssociationInternal × Option (Except Error (Bytes × PayloadProtocolIdentifier)) :=
  match a.objects[r]? with
  | none => (a, none)
  | some s =>
    let (s, res) := s.readSctp bufLen
    ({ a with objects := a.objects.set r s }, res)

end AssociationInternal

end Sctp
