import Sctp.Association.Internal

/-!
# Inbound packets

`handle_inbound` and the handlers of the chunk types. A handler gives the new state and its
`Result`; on an error the state holds what was changed before it. `now` is the system time
in nanoseconds while the packet is handled.
-/

namespace Sctp

namespace AssociationInternal

/-! ## Handshake -/

/-- `use_forward_tsn` after a look at the supported extensions. -/
def usesForwardTsn (params : List Param) : Bool :=
  params.any fun
    | .supportedExtensions chunkTypes => ctForwardTsn ∈ chunkTypes
    | _ => false

/-- The INIT parameters an INIT ACK reports back: of unknown type, with bit 14 set. -/
def unrecognizedParams (params : List Param) : List Param :=
  params.filterMap fun param =>
    match param.typ with
    | .unknown paramType =>
      if (paramType >>> 14) &&& 1 = 1 then some (.unrecognized param) else none
    | _ => none

/-- `handle_init`. -/
def handleInit (a : AssociationInternal) (p : Packet) (i : ChunkInit) :
    AssociationInternal × Except Error (List Packet) :=
  if a.state ≠ .closed ∧ a.state ≠ .cookieWait ∧ a.state ≠ .cookieEchoed then
    (a, .error .errHandleInitState)
  else
    let a :=
      { a with
        myMaxNumInboundStreams := cmpMin i.numInboundStreams a.myMaxNumInboundStreams
        myMaxNumOutboundStreams := cmpMin i.numOutboundStreams a.myMaxNumOutboundStreams
        peerVerificationTag := i.initiateTag
        sourcePort := p.destinationPort
        destinationPort := p.sourcePort
        peerLastTsn := if i.initialTsn = 0 then 0xffffffff else i.initialTsn - 1
        useForwardTsn := a.useForwardTsn || usesForwardTsn i.params }
    let initAck : ChunkInit :=
      { isAck := true
        initialTsn := a.myNextTsn
        numOutboundStreams := a.myMaxNumOutboundStreams
        numInboundStreams := a.myMaxNumInboundStreams
        initiateTag := a.myVerificationTag
        advertisedReceiverWindowCredit := a.maxReceiveBufferSize
        params := unrecognizedParams i.params }
    let a := if a.myCookie = none then { a with myCookie := some a.newCookie } else a
    let initAck :=
      match a.myCookie with
      | some myCookie => { initAck with params := [.stateCookie myCookie] }
      | none => initAck
    (a, .ok [a.createPacket [.init initAck.setSupportedExtensions]])

/-- The cookie of an INIT ACK; the last one counts. -/
def cookieParam : List Param → Option Bytes
  | [] => none
  | .stateCookie cookie :: params => (cookieParam params).or (some cookie)
  | _ :: params => cookieParam params

/-- `handle_init_ack`. -/
def handleInitAck (a : AssociationInternal) (p : Packet) (i : ChunkInit) :
    AssociationInternal × Except Error (List Packet) :=
  if a.state ≠ .cookieWait then
    (a, .ok [])
  else
    let a :=
      { a with
        myMaxNumInboundStreams := cmpMin i.numInboundStreams a.myMaxNumInboundStreams
        myMaxNumOutboundStreams := cmpMin i.numOutboundStreams a.myMaxNumOutboundStreams
        peerVerificationTag := i.initiateTag
        peerLastTsn := if i.initialTsn = 0 then 0xffffffff else i.initialTsn - 1 }
    if a.sourcePort ≠ p.destinationPort ∨ a.destinationPort ≠ p.sourcePort then
      (a, .ok [])
    else
      let a :=
        { a with
          rwnd := i.advertisedReceiverWindowCredit
          ssthresh := i.advertisedReceiverWindowCredit
          t1init := a.t1init.stop
          storedInit := none
          useForwardTsn := a.useForwardTsn || usesForwardTsn i.params }
      match cookieParam i.params with
      | some cookie =>
        match { a with storedCookieEcho := some cookie }.sendCookieEcho with
        | (a, .error e) => (a, .error e)
        | (a, .ok ()) =>
          ({ a with t1cookie := a.t1cookie.start }.setState .cookieEchoed, .ok [])
      | none => (a, .error .errInitAckNoCookie)

/-- `handle_heartbeat`. -/
def handleHeartbeat (a : AssociationInternal) (params : List Param) : List Packet :=
  match params with
  | .heartbeatInfo info :: _ => [a.createPacket [.heartbeatAck [.heartbeatInfo info]]]
  | _ => []

/-- `handle_cookie_echo`. -/
def handleCookieEcho (a : AssociationInternal) (cookie : Bytes) :
    AssociationInternal × List Packet :=
  match a.myCookie with
  | none => (a, [])
  | some myCookie =>
    match a.state with
    | .established =>
      if myCookie ≠ cookie then (a, []) else (a, [a.createPacket [.cookieAck]])
    | .closed | .cookieWait | .cookieEchoed =>
      if myCookie ≠ cookie then
        (a, [])
      else
        let a :=
          { a with
            t1init := a.t1init.stop
            storedInit := none
            t1cookie := a.t1cookie.stop
            storedCookieEcho := none }
        let a := a.setState .established
        (a, [a.createPacket [.cookieAck]])
    | _ => (a, [])

/-- `handle_cookie_ack`. -/
def handleCookieAck (a : AssociationInternal) : AssociationInternal :=
  if a.state ≠ .cookieEchoed then
    a
  else
    { a with t1cookie := a.t1cookie.stop, storedCookieEcho := none }.setState .established

/-! ## Stream resets -/

/-- `reset_streams_if_any`: performed if the TSN is reached, and answered in either case. -/
def resetStreamsIfAny (a : AssociationInternal) (p : ParamOutgoingResetRequest) :
    AssociationInternal × Packet :=
  if sna32lte p.senderLastTsn a.peerLastTsn then
    let a := p.streamIdentifiers.foldl unregisterStream a
    let a := { a with reconfigRequests := a.reconfigRequests.erase p.reconfigRequestSequenceNumber }
    (a, a.createPacket [.reconfig
      { paramA := some (.reconfigResponse
          { reconfigResponseSequenceNumber := p.reconfigRequestSequenceNumber
            result := .successPerformed }) }])
  else
    (a, a.createPacket [.reconfig
      { paramA := some (.reconfigResponse
          { reconfigResponseSequenceNumber := p.reconfigRequestSequenceNumber
            result := .inProgress }) }])

/-- `handle_reconfig_param`. -/
def handleReconfigParam (a : AssociationInternal) (raw : Param) :
    AssociationInternal × Except Error (Option Packet) :=
  match raw with
  | .outgoingResetRequest p =>
    let a :=
      { a with reconfigRequests := a.reconfigRequests.insert p.reconfigRequestSequenceNumber p }
    let (a, resp) := a.resetStreamsIfAny p
    (a, .ok (some resp))
  | .reconfigResponse p =>
    let a := { a with reconfigs := a.reconfigs.erase p.reconfigResponseSequenceNumber }
    let a := if a.reconfigs.entries = [] then { a with treconfig := a.treconfig.stop } else a
    (a, .ok none)
  | _ => (a, .error .errParamterType)

/-- The handling of a parameter of a RECONFIG chunk, if it is there. -/
def handleReconfigParam? (a : AssociationInternal) (raw : Option Param) :
    AssociationInternal × Except Error (List Packet) :=
  match raw with
  | none => (a, .ok [])
  | some raw =>
    match a.handleReconfigParam raw with
    | (a, .ok p) => (a, .ok p.toList)
    | (a, .error e) => (a, .error e)

/-- `handle_reconfig`. -/
def handleReconfig (a : AssociationInternal) (c : ChunkReconfig) :
    AssociationInternal × Except Error (List Packet) :=
  match a.handleReconfigParam? c.paramA with
  | (a, .error e) => (a, .error e)
  | (a, .ok pp) =>
    match a.handleReconfigParam? c.paramB with
    | (a, .error e) => (a, .error e)
    | (a, .ok pp') => (a, .ok (pp ++ pp'))

/-! ## Data -/

/-- Looks again at every deferred reset request. -/
def recheckReconfigRequests (a : AssociationInternal) : AssociationInternal × List Packet :=
  a.reconfigRequests.values.foldl
    (fun (a, reply) rstReq =>
      let (a, resp) := a.resetStreamsIfAny rstReq
      (a, reply ++ [resp])) (a, [])

/-- The loop that moves `peer_last_tsn` over the chunks that follow it. Every round takes a
TSN out of `sorted`, whose length bounds the rounds. -/
def advancePeerLastTsn : ℕ → AssociationInternal → List Packet → AssociationInternal × List Packet
  | 0, a, reply => (a, reply)
  | fuel + 1, a, reply =>
    match a.payloadQueue.pop (a.peerLastTsn + 1) with
    | (q, none) => ({ a with payloadQueue := q }, reply)
    | (q, some _) =>
      let a := { a with payloadQueue := q, peerLastTsn := a.peerLastTsn + 1 }
      let (a, resps) := a.recheckReconfigRequests
      advancePeerLastTsn fuel a (reply ++ resps)

/-- How the packet is to be acknowledged. -/
def triggerAck (a : AssociationInternal) (sackImmediately : Bool) : AssociationInternal :=
  let hasPacketLoss := !a.payloadQueue.isEmpty
  if (a.ackState ≠ .immediate ∧ !sackImmediately ∧ !hasPacketLoss ∧ a.ackMode = .normal) ∨
      a.ackMode = .alwaysDelay then
    if a.ackState = .idle then
      { a with delayedAckTriggered := true }
    else
      { a with immediateAckTriggered := true }
  else
    { a with immediateAckTriggered := true }

/-- `handle_peer_last_tsn_and_acknowledgement`. -/
def handlePeerLastTsnAndAcknowledgement (a : AssociationInternal) (sackImmediately : Bool) :
    AssociationInternal × List Packet :=
  let (a, reply) := advancePeerLastTsn a.payloadQueue.sorted.length a []
  (a.triggerAck sackImmediately, reply)

/-- Whether a chunk that can be pushed is kept, and so handed to its stream: there is room
in the receive buffer, or the chunk fills a gap. -/
def acceptsData (a : AssociationInternal) (d : ChunkPayloadData) : Bool :=
  if a.getMyReceiverWindowCredit > 0 then
    true
  else
    match a.payloadQueue.getLastTsnReceived with
    | some lastTsn => sna32lt d.tsn lastTsn
    | none => false

/-- `handle_data`. -/
def handleData (a : AssociationInternal) (d : ChunkPayloadData) :
    AssociationInternal × List Packet :=
  if a.payloadQueue.canPush d a.peerLastTsn then
    match a.getOrCreateStream d.streamIdentifier with
    | (a, none) => (a, [])
    | (a, some _) =>
      if a.acceptsData d then
        let a := { a with payloadQueue := (a.payloadQueue.push d a.peerLastTsn).1 }
        let a := a.modifyStream d.streamIdentifier fun s => (s.handleData d).1
        a.handlePeerLastTsnAndAcknowledgement d.immediateSack
      else
        a.handlePeerLastTsnAndAcknowledgement d.immediateSack
  else
    a.handlePeerLastTsnAndAcknowledgement d.immediateSack

/-- The loop of `handle_forward_tsn` that moves `peer_last_tsn` to `newCumulativeTsn`. -/
def forwardPeerLastTsn (newCumulativeTsn : U32) (q : PayloadQueue) (peerLastTsn : U32) :
    PayloadQueue × U32 :=
  if sna32lt peerLastTsn newCumulativeTsn then
    forwardPeerLastTsn newCumulativeTsn (q.pop (peerLastTsn + 1)).1 (peerLastTsn + 1)
  else
    (q, peerLastTsn)
termination_by Serial.dist peerLastTsn newCumulativeTsn
decreasing_by exact dist_succ_lt_of_sna32lt (by assumption)

/-- `handle_forward_tsn`. -/
def handleForwardTsn (a : AssociationInternal) (c : ChunkForwardTsn) :
    AssociationInternal × List Packet :=
  if !a.useForwardTsn then
    (a, [a.createPacket [.error [{}]]])
  else if sna32lte c.newCumulativeTsn a.peerLastTsn then
    ({ a with ackState := .immediate, ackTimer := a.ackTimer.stop }, [])
  else
    let (payloadQueue, peerLastTsn) :=
      forwardPeerLastTsn c.newCumulativeTsn a.payloadQueue a.peerLastTsn
    let a := { a with payloadQueue, peerLastTsn }
    let a := c.streams.foldl
      (fun a forwarded => a.modifyStream forwarded.identifier fun s =>
        (s.handleForwardTsnForOrdered forwarded.sequence).1) a
    let a := a.streams.keys.foldl
      (fun a si => a.modifyStream si fun s =>
        (s.handleForwardTsnForUnordered c.newCumulativeTsn).1) a
    a.handlePeerLastTsnAndAcknowledgement false

/-! ## Acknowledgements -/

/-- The bytes acknowledged of each stream. -/
abbrev BytesAcked := AssocMap U16 ℕ

/-- Bytes acknowledged for a stream. -/
def BytesAcked.add (m : BytesAcked) (si : U16) (n : ℕ) : BytesAcked :=
  m.insert si ((m.lookup si).getD 0 + n)

/-- The bytes acknowledged for all streams. -/
def BytesAcked.total (m : BytesAcked) : ℕ := m.values.sum

/-- A round-trip measurement with a chunk sent at `since`. -/
def measureRtt (a : AssociationInternal) (now since : ℕ) :
    AssociationInternal × Except Error Unit :=
  let a := { a with minTsn2measureRtt := a.myNextTsn }
  if now < since then
    (a, .error .errInvalidSystemTime)
  else
    ({ a with rtoMgr := a.rtoMgr.setNewRtt ((now - since) / 1000000) }, .ok ())

/-- What `process_selective_ack` does with a chunk popped at `i`. -/
def ackPopped (a : AssociationInternal) (now : ℕ) (i : U32) (c : ChunkPayloadData)
    (bytesAcked : BytesAcked) : AssociationInternal × Except Error BytesAcked :=
  if c.acked then
    (a, .ok bytesAcked)
  else
    let a := if i = a.cumulativeTsnAckPoint + 1 then { a with t3rtx := a.t3rtx.stop } else a
    let bytesAcked := bytesAcked.add c.streamIdentifier c.userData.length
    if c.nsent = 1 ∧ sna32gte c.tsn a.minTsn2measureRtt then
      match a.measureRtt now c.since with
      | (a, .error e) => (a, .error e)
      | (a, .ok ()) => (a, .ok bytesAcked)
    else
      (a, .ok bytesAcked)

/-- The end of fast recovery, when its exit point is popped. -/
def exitFastRecovery (a : AssociationInternal) (c : ChunkPayloadData) : AssociationInternal :=
  if a.inFastRecovery ∧ c.tsn = a.fastRecoverExitPoint then
    { a with inFastRecovery := false }
  else
    a

/-- The loop over the chunks the cumulative TSN acknowledges. -/
def popAcked (now : ℕ) (cumulativeTsnAck i : U32) (a : AssociationInternal)
    (bytesAcked : BytesAcked) : AssociationInternal × Except Error BytesAcked :=
  if sna32lte i cumulativeTsnAck then
    match a.inflightQueue.pop i with
    | (q, none) => ({ a with inflightQueue := q }, .error .errInflightQueueTsnPop)
    | (q, some c) =>
      match { a with inflightQueue := q }.ackPopped now i c bytesAcked with
      | (a, .error e) => (a, .error e)
      | (a, .ok bytesAcked) =>
        popAcked now cumulativeTsnAck (i + 1) (a.exitFastRecovery c) bytesAcked
  else
    (a, .ok bytesAcked)
termination_by roundsLeft i cumulativeTsnAck
decreasing_by exact roundsLeft_succ_lt (by assumption)

/-- The TSNs the gap blocks report, in the order of the loop. -/
def gapTsns (d : ChunkSelectiveAck) : List U32 :=
  d.gapAckBlocks.flatMap fun g =>
    (List.range' g.start.toNat (g.end_.toNat + 1 - g.start.toNat)).map d.cumulativeTsnAck.after

/-- The loop over the gap blocks; `htna` is the highest TSN newly acknowledged. -/
def ackGaps (now : ℕ) (a : AssociationInternal) (bytesAcked : BytesAcked) (htna : U32) :
    List U32 → AssociationInternal × Except Error (BytesAcked × U32)
  | [] => (a, .ok (bytesAcked, htna))
  | tsn :: tsns =>
    match a.inflightQueue.get tsn with
    | none => (a, .error .errTsnRequestNotExist)
    | some c =>
      if c.acked then
        ackGaps now a bytesAcked htna tsns
      else
        let (q, nBytesAcked) := a.inflightQueue.markAsAcked tsn
        let a := { a with inflightQueue := q }
        let bytesAcked := bytesAcked.add c.streamIdentifier nBytesAcked
        let (a, r) := if c.nsent = 1 then a.measureRtt now c.since else (a, .ok ())
        match r with
        | .error e => (a, .error e)
        | .ok () => ackGaps now a bytesAcked (if sna32lt htna tsn then tsn else htna) tsns

/-- `process_selective_ack`: the chunks up to the cumulative TSN, then those in the gap ack blocks.
-/
def processSelectiveAck (a : AssociationInternal) (now : ℕ) (d : ChunkSelectiveAck) :
    AssociationInternal × Except Error (BytesAcked × U32) :=
  match popAcked now d.cumulativeTsnAck (a.cumulativeTsnAckPoint + 1) a ∅ with
  | (a, .error e) => (a, .error e)
  | (a, .ok bytesAcked) => ackGaps now a bytesAcked d.cumulativeTsnAck (gapTsns d)

/-- `on_cumulative_tsn_ack_point_advanced`: slow start or congestion avoidance. -/
def onCumulativeTsnAckPointAdvanced (a : AssociationInternal) (totalBytesAcked : ℕ) :
    AssociationInternal :=
  let acked : U32 := BitVec.ofNat 32 totalBytesAcked
  let a :=
    if a.inflightQueue.isEmpty then
      { a with t3rtx := a.t3rtx.stop }
    else
      { a with t3rtx := a.t3rtx.start }
  if a.cwnd ≤ a.ssthresh then
    if !a.inFastRecovery ∧ a.pendingQueue.len > 0 then
      { a with cwnd := a.cwnd + cmpMin acked a.cwnd }
    else
      a
  else
    let a := { a with partialBytesAcked := a.partialBytesAcked + acked }
    if a.partialBytesAcked ≥ a.cwnd ∧ a.pendingQueue.len > 0 then
      { a with partialBytesAcked := a.partialBytesAcked - a.cwnd, cwnd := a.cwnd + a.mtu }
    else
      a

/-- One missing report for `tsn`; the third one starts fast recovery. -/
def reportMissing (a : AssociationInternal) (htna tsn : U32) (c : ChunkPayloadData) :
    AssociationInternal :=
  if !c.acked ∧ !c.isAbandoned a.flags ∧ c.missIndicator < 3 then
    let a :=
      { a with
        inflightQueue := a.inflightQueue.getMut tsn fun c =>
          { c with missIndicator := c.missIndicator + 1 } }
    if c.missIndicator + 1 = 3 ∧ !a.inFastRecovery then
      let ssthresh := cmpMax (a.cwnd / 2) (4 * a.mtu)
      { a with
        inFastRecovery := true
        fastRecoverExitPoint := htna
        ssthresh
        cwnd := ssthresh
        partialBytesAcked := 0
        willRetransmitFast := true }
    else
      a
  else
    a

/-- The loop over the TSNs below `maxTsn`. -/
def reportMissingBelow (htna maxTsn tsn : U32) (a : AssociationInternal) :
    AssociationInternal × Except Error Unit :=
  if sna32lt tsn maxTsn then
    match a.inflightQueue.get tsn with
    | none => (a, .error .errTsnRequestNotExist)
    | some c => reportMissingBelow htna maxTsn (tsn + 1) (a.reportMissing htna tsn c)
  else
    (a, .ok ())
termination_by Serial.dist tsn maxTsn
decreasing_by exact dist_succ_lt_of_sna32lt (by assumption)

/-- `process_fast_retransmission`. -/
def processFastRetransmission (a : AssociationInternal) (cumTsnAckPoint htna : U32)
    (cumTsnAckPointAdvanced : Bool) : AssociationInternal × Except Error Unit :=
  let (a, r) :=
    if !a.inFastRecovery ∨ cumTsnAckPointAdvanced then
      let maxTsn :=
        if !a.inFastRecovery then
          htna
        else
          cumTsnAckPoint + BitVec.ofNat 32 a.inflightQueue.len + 1
      reportMissingBelow htna maxTsn (cumTsnAckPoint + 1) a
    else
      (a, .ok ())
  match r with
  | .error e => (a, .error e)
  | .ok () =>
    if a.inFastRecovery ∧ cumTsnAckPointAdvanced then
      ({ a with willRetransmitFast := true }, .ok ())
    else
      (a, .ok ())

/-- RFC 3758 C2: over the abandoned chunks that follow the point. -/
def skipAbandoned (q : PayloadQueue) (flags : SharedFlags) (point : U32) : List U32 → U32
  | [] => point
  | i :: rest =>
    match q.get i with
    | some c => if c.isAbandoned flags then skipAbandoned q flags i rest else point
    | none => point

/-- RFC 3758 C2 and C3, which `handle_sack` and the T3-rtx timeout both go through. -/
def advanceAckPoint (a : AssociationInternal) : AssociationInternal :=
  let point := skipAbandoned a.inflightQueue a.flags a.advancedPeerTsnAckPoint
    (a.inflightQueue.tsnsFrom (a.advancedPeerTsnAckPoint + 1))
  let a := { a with advancedPeerTsnAckPoint := point }
  if sna32gt a.advancedPeerTsnAckPoint a.cumulativeTsnAckPoint then
    { a with willSendForwardTsn := true }
  else
    a

/-- RFC 3758 C1 to C3: the point is never behind the cumulative one. -/
def raiseAckPoint (a : AssociationInternal) : AssociationInternal :=
  if a.useForwardTsn then
    let a :=
      if sna32lt a.advancedPeerTsnAckPoint a.cumulativeTsnAckPoint then
        { a with advancedPeerTsnAckPoint := a.cumulativeTsnAckPoint }
      else
        a
    a.advanceAckPoint
  else
    a

/-- `postprocess_sack`. -/
def postprocessSack (a : AssociationInternal) (state : AssociationState) : AssociationInternal :=
  if !a.inflightQueue.isEmpty then
    { a with t3rtx := a.t3rtx.start }
  else if state = .shutdownPending then
    { a with willSendShutdown := true }.setState .shutdownSent
  else if state = .shutdownReceived then
    { a with willSendShutdownAck := true }.setState .shutdownAckSent
  else
    a

/-- The cumulative point, the send buffers of the streams and the peer's window after a SACK
has been taken into account. -/
def applySack (a : AssociationInternal) (d : ChunkSelectiveAck) (bytesAcked : BytesAcked) :
    AssociationInternal :=
  let a :=
    if sna32lt a.cumulativeTsnAckPoint d.cumulativeTsnAck then
      { a with cumulativeTsnAckPoint := d.cumulativeTsnAck }.onCumulativeTsnAckPointAdvanced
        bytesAcked.total
    else
      a
  let a := bytesAcked.entries.foldl
    (fun a e => a.modifyStream e.1 fun s => (s.onBufferReleased e.2).1) a
  let bytesOutstanding : U32 := BitVec.ofNat 32 a.inflightQueue.getNumBytes
  { a with
    rwnd :=
      if bytesOutstanding ≥ d.advertisedReceiverWindowCredit then 0
      else d.advertisedReceiverWindowCredit - bytesOutstanding }

/-- `handle_sack`. -/
def handleSack (a : AssociationInternal) (now : ℕ) (d : ChunkSelectiveAck) :
    AssociationInternal × Except Error (List Packet) :=
  let state := a.state
  if state ≠ .established ∧ state ≠ .shutdownPending ∧ state ≠ .shutdownReceived then
    (a, .ok [])
  else if sna32gt a.cumulativeTsnAckPoint d.cumulativeTsnAck then
    (a, .ok [])
  else
    let cumTsnAckPointAdvanced := sna32lt a.cumulativeTsnAckPoint d.cumulativeTsnAck
    match a.processSelectiveAck now d with
    | (a, .error e) => (a, .error e)
    | (a, .ok (bytesAcked, htna)) =>
      let a := a.applySack d bytesAcked
      match a.processFastRetransmission d.cumulativeTsnAck htna cumTsnAckPointAdvanced with
      | (a, .error e) => (a, .error e)
      | (a, .ok ()) => (a.raiseAckPoint.postprocessSack state, .ok [])

/-! ## Shutdown -/

/-- `handle_shutdown`. -/
def handleShutdown (a : AssociationInternal) : AssociationInternal :=
  if a.state = .established then
    if !a.inflightQueue.isEmpty then
      a.setState .shutdownReceived
    else
      { a with willSendShutdownAck := true }.setState .shutdownAckSent
  else if a.state = .shutdownSent then
    { a with willSendShutdownAck := true }.setState .shutdownAckSent
  else
    a

/-- `handle_shutdown_ack`. -/
def handleShutdownAck (a : AssociationInternal) : AssociationInternal :=
  if a.state = .shutdownSent ∨ a.state = .shutdownAckSent then
    { a with t2shutdown := a.t2shutdown.stop, willSendShutdownComplete := true }
  else
    a

/-- `handle_shutdown_complete`. -/
def handleShutdownComplete (a : AssociationInternal) : AssociationInternal :=
  if a.state = .shutdownAckSent then
    { a with t2shutdown := a.t2shutdown.stop }.close
  else
    a

/-! ## Packets -/

/-- `handle_chunk_start`. -/
def handleChunkStart (a : AssociationInternal) : AssociationInternal :=
  { a with delayedAckTriggered := false, immediateAckTriggered := false }

/-- `handle_chunk_end`. -/
def handleChunkEnd (a : AssociationInternal) : AssociationInternal :=
  if a.immediateAckTriggered then
    { a with ackState := .immediate, ackTimer := a.ackTimer.stop }
  else if a.delayedAckTriggered then
    { a with ackState := .delay, ackTimer := a.ackTimer.start.1 }
  else
    a

/-- `UNRECOGNIZED_CHUNK_TYPE`. -/
def unrecognizedChunkType : U16 := 6

/-- `ChunkUnknown::marshal`. -/
def marshalUnknown (hdr : ChunkHeader) (value : Bytes) : Bytes :=
  let length := hdr.valueLength + BitVec.ofNat 16 chunkHeaderSize
  hdr.typ :: hdr.flags :: (length >>> 8).setWidth 8 :: length.setWidth 8 :: value

/-- What an endpoint does with a chunk of a type it does not know. -/
def handleUnknown (a : AssociationInternal) (hdr : ChunkHeader) (value : Bytes) :
    AssociationInternal × Except Error (List Packet) :=
  let report := a.createPacket
    [.error [{ code := unrecognizedChunkType, raw := marshalUnknown hdr value }]]
  match (hdr.typ >>> 6).toNat with
  | 0 => (a, .error .errChunkTypeUnhandled)
  | 1 => ({ a with controlQueue := a.controlQueue ++ [report] }, .error .errChunkTypeUnhandled)
  | 2 => (a, .ok [])
  | _ => (a, .ok [report])

/-- The handler of the chunk. -/
def dispatchChunk (a : AssociationInternal) (now : ℕ) (p : Packet) (chunk : Chunk) :
    AssociationInternal × Except Error (List Packet) :=
  match chunk with
  | .init c => if c.isAck then a.handleInitAck p c else a.handleInit p c
  | .abort _ => (a, .error .errChunk)
  | .error _ => (a, .error .errChunk)
  | .heartbeat params => (a, .ok (a.handleHeartbeat params))
  | .cookieEcho cookie =>
    let (a, packets) := a.handleCookieEcho cookie
    (a, .ok packets)
  | .cookieAck => (a.handleCookieAck, .ok [])
  | .payloadData c =>
    let (a, packets) := a.handleData c
    (a, .ok packets)
  | .selectiveAck c => a.handleSack now c
  | .reconfig c => a.handleReconfig c
  | .forwardTsn c =>
    let (a, packets) := a.handleForwardTsn c
    (a, .ok packets)
  | .shutdown _ => (a.handleShutdown, .ok [])
  | .shutdownAck => (a.handleShutdownAck, .ok [])
  | .shutdownComplete => (a.handleShutdownComplete, .ok [])
  -- a HEARTBEAT ACK is never decoded; its type is handled as an unknown one
  | .heartbeatAck _ => (a, .error .errChunkTypeUnhandled)
  | .unknown hdr value => a.handleUnknown hdr value

/-- `handle_chunk`: the chunk is checked, handled, and its answers are queued. -/
def handleChunk (a : AssociationInternal) (now : ℕ) (p : Packet) (chunk : Chunk) :
    AssociationInternal × Except Error Unit :=
  match chunk.check with
  | .error e => (a, .error e)
  | .ok () =>
    match a.dispatchChunk now p chunk with
    | (a, .error e) => (a, .error e)
    | (a, .ok packets) => ({ a with controlQueue := a.controlQueue ++ packets }, .ok ())

/-- The loop over the chunks of a packet, which the first error ends. -/
def handleChunks (now : ℕ) (p : Packet) (a : AssociationInternal) :
    List Chunk → AssociationInternal × Except Error Unit
  | [] => (a, .ok ())
  | c :: cs =>
    match a.handleChunk now p c with
    | (a, .error e) => (a, .error e)
    | (a, .ok ()) => handleChunks now p a cs

/-- `handle_inbound`, once the packet is parsed. -/
def handleInbound (a : AssociationInternal) (now : ℕ) (p : Packet) :
    AssociationInternal × Except Error Unit :=
  match p.checkPacket with
  | .error _ => (a, .ok ())
  | .ok () =>
    match a.handleChunkStart.handleChunks now p p.chunks with
    | (a, .error e) => (a, .error e)
    | (a, .ok ()) => (a.handleChunkEnd, .ok ())

end AssociationInternal

end Sctp
