import Sctp.Association.ResetExchange
import Sctp.Association.AnswerTheorems

/-!
# What the steps of an endpoint do to reset requests

The two maps an endpoint keeps of reset requests change in few places: gathering stores a
request of its own, a response takes one out, and a request of the peer is kept until its TSN
is reached. `Exchanged` gathers what a relation between the maps and the RECONFIG chunks on the
way has to bear for packets to keep it, `Sends` what the endpoint does of its own accord.
-/

namespace Sctp

/-- A RECONFIG chunk. -/
def Chunk.isReconfig : Chunk → Bool
  | .reconfig _ => true
  | _ => false

/-- A RECONFIG chunk is no answer to the other chunks. -/
theorem notAnswered_isReconfig : AssociationInternal.NotAnswered Chunk.isReconfig :=
  ⟨fun _ => rfl, fun _ => rfl, rfl, fun _ => rfl, fun _ => rfl⟩

namespace AssociationInternal

variable {a a' : AssociationInternal}

/-! ## What packets do to the requests -/

/-- The requests of both sides, and the next RSN. -/
def resetTable (a : AssociationInternal) :
    AssocMap U32 ChunkReconfig × AssocMap U32 ParamOutgoingResetRequest × U32 :=
  (a.reconfigs, a.reconfigRequests, a.myNextRsn)

/-- The same, and the queued packets. -/
def resetFrame (a : AssociationInternal) :
    (AssocMap U32 ChunkReconfig × AssocMap U32 ParamOutgoingResetRequest × U32) × List Packet :=
  (a.resetTable, a.controlQueue)

theorem resetFrame_ignoresStreams : IgnoresStreams resetFrame := fun _ _ _ _ => rfl

theorem resetFrame_ignoresTriggers : IgnoresTriggers resetFrame := fun _ _ _ => rfl

/-- A SACK has nothing to do with reset requests. -/
theorem resetFrame_handleSack (a : AssociationInternal) (now : ℕ) (d : ChunkSelectiveAck) :
    (a.handleSack now d).1.resetFrame = a.resetFrame :=
  handleSack_kept (fun _ _ _ _ _ _ => rfl) a now d

/-- Nor has an INIT, which leaves the queue of packets alone as well. -/
theorem resetFrame_handleInit (a : AssociationInternal) (p : Packet) (i : ChunkInit) :
    (a.handleInit p i).1.resetFrame = a.resetFrame := by
  unfold handleInit
  dsimp only
  split_ifs <;> rfl

/-- An INIT ACK may queue a COOKIE ECHO. -/
theorem resetTable_handleInitAck (a : AssociationInternal) (p : Packet) (i : ChunkInit) :
    (a.handleInitAck p i).1.resetTable = a.resetTable := by
  unfold handleInitAck
  split
  · rfl
  · dsimp only
    split
    · rfl
    · cases cookieParam i.params with
      | none => rfl
      | some cookie => rfl

/-- Nor have unknown chunks. -/
theorem resetTable_handleUnknown (a : AssociationInternal) (hdr : ChunkHeader) (value : Bytes) :
    (a.handleUnknown hdr value).1.resetTable = a.resetTable := by
  unfold handleUnknown
  dsimp only
  split <;> rfl

/-- A COOKIE ECHO is answered at once. -/
theorem resetFrame_handleCookieEcho (a : AssociationInternal) (cookie : Bytes) :
    (a.handleCookieEcho cookie).1.resetFrame = a.resetFrame := by
  unfold handleCookieEcho setState
  dsimp only
  split
  · rfl
  · split
    · split <;> rfl
    · split <;> rfl
    · split <;> rfl
    · split <;> rfl
    · rfl

theorem resetFrame_handleCookieAck (a : AssociationInternal) :
    a.handleCookieAck.resetFrame = a.resetFrame := by
  unfold handleCookieAck
  split <;> rfl

theorem resetFrame_handleShutdown (a : AssociationInternal) :
    a.handleShutdown.resetFrame = a.resetFrame := by
  obtain ⟨_, _, heq⟩ := handleShutdown_eq a
  rw [heq]
  rfl

theorem resetFrame_handleShutdownAck (a : AssociationInternal) :
    a.handleShutdownAck.resetFrame = a.resetFrame := by
  unfold handleShutdownAck
  split <;> rfl

/-- Closing unregisters the streams. -/
theorem resetFrame_close (a : AssociationInternal) : a.close.resetFrame = a.resetFrame := by
  unfold close
  split
  · exact resetFrame_ignoresStreams.unregisterStreams _ _
  · rfl

theorem resetFrame_handleShutdownComplete (a : AssociationInternal) :
    a.handleShutdownComplete.resetFrame = a.resetFrame := by
  unfold handleShutdownComplete
  split
  · exact resetFrame_close _
  · rfl

/-- A relation between the requests and packets that RECONFIG chunks alone bear on, and that a
look at the requests keeps together with its answers. -/
structure Exchanged (I : AssociationInternal → List Packet → Prop) : Prop where
  congr : ∀ {a a' out}, a'.resetTable = a.resetTable → I a out → I a' out
  quiet : ∀ {a out new}, emits Chunk.isReconfig new = false → I a out → I a (out ++ new)
  recheck : ∀ {a out}, I a out → I a.recheckReconfigRequests.1 (out ++ a.recheckReconfigRequests.2)

namespace Exchanged

variable {I : AssociationInternal → List Packet → Prop}

/-- What is related to the requests and the packets on the way looks at nothing else. -/
theorem congr_frame (hI : Exchanged I) {out : List Packet} (hframe : a'.resetFrame = a.resetFrame)
    (h : I a out) : I a' out := hI.congr (congrArg Prod.fst hframe) h

/-- The loop answers requests as it goes, and the answers are on the way at once. -/
theorem advance (hI : Exchanged I) {out : List Packet} (fuel : ℕ) (a : AssociationInternal)
    (reply : List Packet) (h : I a (out ++ reply)) :
    I (advancePeerLastTsn fuel a reply).1 (out ++ (advancePeerLastTsn fuel a reply).2) := by
  induction fuel generalizing a reply with
  | zero => exact h
  | succ fuel ih =>
    unfold advancePeerLastTsn
    split
    · exact hI.congr (a := a) rfl h
    · rename_i q c _
      apply ih
      rw [← List.append_assoc]
      exact hI.recheck (hI.congr (a := a) rfl h)

/-- The whole of what ends DATA and FORWARD TSN chunks. -/
theorem acknowledgement (hI : Exchanged I) {out : List Packet} (sackImmediately : Bool)
    (h : I a out) :
    I (a.handlePeerLastTsnAndAcknowledgement sackImmediately).1
        (out ++ (a.handlePeerLastTsnAndAcknowledgement sackImmediately).2) ∧
      (a.handlePeerLastTsnAndAcknowledgement sackImmediately).1.controlQueue = a.controlQueue := by
  have hloop := hI.advance a.payloadQueue.sorted.length a [] (by rw [List.append_nil]; exact h)
  have hqueue : (advancePeerLastTsn a.payloadQueue.sorted.length a []).1.controlQueue =
      a.controlQueue :=
    (congrArg controlQueue (apartFromReceiving_advancePeerLastTsn _ a []) :)
  have htrigger := resetFrame_ignoresTriggers.triggerAck
    (advancePeerLastTsn a.payloadQueue.sorted.length a []).1 sackImmediately
  exact ⟨hI.congr_frame htrigger hloop, (congrArg Prod.snd htrigger :).trans hqueue⟩

/-- DATA answers requests. -/
theorem handleData (hI : Exchanged I) {out : List Packet} (d : ChunkPayloadData) (h : I a out) :
    I (a.handleData d).1 (out ++ (a.handleData d).2) ∧
      (a.handleData d).1.controlQueue = a.controlQueue := by
  have hcreate := resetFrame_ignoresStreams.getOrCreateStream a d.streamIdentifier
  have hcontinue : ∀ b : AssociationInternal, b.resetFrame = a.resetFrame →
      I (b.handlePeerLastTsnAndAcknowledgement d.immediateSack).1
          (out ++ (b.handlePeerLastTsnAndAcknowledgement d.immediateSack).2) ∧
        (b.handlePeerLastTsnAndAcknowledgement d.immediateSack).1.controlQueue =
          a.controlQueue := by
    intro b hb
    obtain ⟨hkept, hqueue⟩ := hI.acknowledgement d.immediateSack (hI.congr_frame hb h)
    exact ⟨hkept, hqueue.trans (congrArg Prod.snd hb)⟩
  unfold AssociationInternal.handleData
  split
  · generalize a.getOrCreateStream d.streamIdentifier = g at hcreate ⊢
    obtain ⟨b, r⟩ := g
    cases r with
    | none =>
      dsimp only
      rw [List.append_nil]
      exact ⟨hI.congr_frame hcreate h, congrArg Prod.snd hcreate⟩
    | some r =>
      dsimp only
      split
      · exact hcontinue _ ((resetFrame_ignoresStreams.modifyStream _ _ _).trans hcreate)
      · exact hcontinue b hcreate
  · exact hcontinue a rfl

/-- So does a FORWARD TSN. -/
theorem handleForwardTsn (hI : Exchanged I) {out : List Packet} (c : ChunkForwardTsn)
    (h : I a out) :
    I (a.handleForwardTsn c).1 (out ++ (a.handleForwardTsn c).2) ∧
      (a.handleForwardTsn c).1.controlQueue = a.controlQueue := by
  rcases forwardTsn_cases a c with hbehind | ⟨huse, hahead⟩
  · unfold AssociationInternal.handleForwardTsn
    by_cases huse : (!a.useForwardTsn) = true
    · rw [if_pos huse]
      exact ⟨hI.quiet rfl h, rfl⟩
    · have hlte : sna32lte c.newCumulativeTsn a.peerLastTsn = true :=
        hbehind.resolve_left fun hno => huse (by rw [hno]; rfl)
      rw [if_neg huse, if_pos hlte, List.append_nil]
      exact ⟨hI.congr (a := a) rfl h, rfl⟩
  · rw [handleForwardTsn_of_ahead huse hahead]
    have hstreams := resetFrame_ignoresStreams.forwardStreams
      { a with
        payloadQueue := (forwardPeerLastTsn c.newCumulativeTsn a.payloadQueue a.peerLastTsn).1
        peerLastTsn := (forwardPeerLastTsn c.newCumulativeTsn a.payloadQueue a.peerLastTsn).2 } c
    obtain ⟨hkept, hqueue⟩ := hI.acknowledgement false
      (hI.congr_frame (a := a) (hstreams.trans rfl) h)
    exact ⟨hkept, hqueue.trans (congrArg Prod.snd hstreams)⟩

/-- The answer of a handler goes into the queue. -/
theorem queued (hI : Exchanged I) {sent : List Packet}
    {r : AssociationInternal × Except Error (List Packet)}
    (h : I r.1 (sent ++ r.1.controlQueue ++ answer r)) :
    I (queueing r) (sent ++ (queueing r).controlQueue) := by
  obtain ⟨a', e | packets⟩ := r
  · show I a' (sent ++ a'.controlQueue)
    rw [← List.append_nil (sent ++ a'.controlQueue)]
    exact h
  · show I { a' with controlQueue := a'.controlQueue ++ packets }
      (sent ++ (a'.controlQueue ++ packets))
    rw [← List.append_assoc]
    exact hI.congr (a := a') rfl h

/-- A handler that leaves the requests alone, and answers without a RECONFIG chunk. -/
theorem queued_quiet (hI : Exchanged I) {sent : List Packet}
    {r : AssociationInternal × Except Error (List Packet)} {new : List Packet}
    (htable : r.1.resetTable = a.resetTable) (hqueue : r.1.controlQueue = a.controlQueue ++ new)
    (hnew : emits Chunk.isReconfig new = false)
    (hreply : emits Chunk.isReconfig (answer r) = false)
    (h : I a (sent ++ a.controlQueue)) :
    I (queueing r) (sent ++ (queueing r).controlQueue) := by
  have hkept : I r.1 (sent ++ r.1.controlQueue) := by
    rw [hqueue, ← List.append_assoc]
    exact hI.congr htable (hI.quiet hnew h)
  exact hI.queued (hI.quiet hreply hkept)

/-- The same where nothing is queued by the handler itself. -/
theorem queued_frame (hI : Exchanged I) {sent : List Packet}
    {r : AssociationInternal × Except Error (List Packet)} (hframe : r.1.resetFrame = a.resetFrame)
    (hreply : emits Chunk.isReconfig (answer r) = false)
    (h : I a (sent ++ a.controlQueue)) :
    I (queueing r) (sent ++ (queueing r).controlQueue) := by
  have hqueue : r.1.controlQueue = a.controlQueue ++ [] :=
    (congrArg Prod.snd hframe).trans (List.append_nil _).symm
  exact hI.queued_quiet (congrArg Prod.fst hframe) hqueue rfl hreply h

/-- **A chunk keeps what RECONFIG chunks keep**. -/
theorem dispatchChunk (hI : Exchanged I) {sent : List Packet} (now : ℕ) (p : Packet)
    {chunk : Chunk}
    (hreconfig : ∀ c, chunk = .reconfig c → ∀ a out, I a out →
      I (a.handleReconfig c).1 (out ++ answer (a.handleReconfig c)))
    (h : I a (sent ++ a.controlQueue)) :
    I (queueing (a.dispatchChunk now p chunk))
      (sent ++ (queueing (a.dispatchChunk now p chunk)).controlQueue) := by
  -- what a handler answers is queued behind what was there
  have hkept : ∀ {b packets}, I b (sent ++ a.controlQueue ++ packets) ∧
      b.controlQueue = a.controlQueue →
      I b (sent ++ b.controlQueue ++ packets) := by
    intro b packets ⟨hb, hqueue⟩
    rw [hqueue]
    exact hb
  cases chunk with
  | init c =>
    unfold AssociationInternal.dispatchChunk
    dsimp only
    split
    · obtain ⟨new, hqueue, hnew, hreply⟩ := notAnswered_isReconfig.handleInitAck a p c
      exact hI.queued_quiet (resetTable_handleInitAck a p c) hqueue hnew hreply h
    · exact hI.queued_frame (resetFrame_handleInit a p c)
        (notAnswered_isReconfig.handleInit a p c) h
  | abort _ => exact h
  | error _ => exact h
  | heartbeat params =>
    exact hI.queued_frame (r := (a, .ok (a.handleHeartbeat params))) rfl
      (notAnswered_isReconfig.handleHeartbeat a params) h
  | heartbeatAck _ => exact h
  | cookieEcho cookie =>
    exact hI.queued_frame (r := ((a.handleCookieEcho cookie).1, .ok (a.handleCookieEcho cookie).2))
      (resetFrame_handleCookieEcho a cookie)
      (notAnswered_isReconfig.handleCookieEcho a cookie) h
  | cookieAck =>
    exact hI.queued_frame (r := (a.handleCookieAck, .ok [])) (resetFrame_handleCookieAck a) rfl h
  | payloadData d =>
    exact hI.queued (r := ((a.handleData d).1, .ok (a.handleData d).2)) (hkept (hI.handleData d h))
  | selectiveAck d =>
    refine hI.queued_frame (resetFrame_handleSack a now d) ?_ h
    show emits Chunk.isReconfig (answer (a.handleSack now d)) = false
    rw [answer_handleSack]
    rfl
  | reconfig c =>
    exact hI.queued (hkept ⟨hreconfig c rfl a _ h,
      (congrArg controlQueue (apartFromStreams_handleReconfig a c) :)⟩)
  | forwardTsn c =>
    exact hI.queued (r := ((a.handleForwardTsn c).1, .ok (a.handleForwardTsn c).2))
      (hkept (hI.handleForwardTsn c h))
  | shutdown _ =>
    exact hI.queued_frame (r := (a.handleShutdown, .ok [])) (resetFrame_handleShutdown a) rfl h
  | shutdownAck =>
    exact hI.queued_frame (r := (a.handleShutdownAck, .ok [])) (resetFrame_handleShutdownAck a)
      rfl h
  | shutdownComplete =>
    exact hI.queued_frame (r := (a.handleShutdownComplete, .ok []))
      (resetFrame_handleShutdownComplete a) rfl h
  | unknown hdr value =>
    obtain ⟨new, hqueue, hnew, hreply⟩ := notAnswered_isReconfig.handleUnknown a hdr value
    exact hI.queued_quiet (resetTable_handleUnknown a hdr value) hqueue hnew hreply h

/-- What the RECONFIG chunks of a packet keep, the packet keeps. -/
theorem handleInbound (hI : Exchanged I) {sent : List Packet} (now : ℕ) {p : Packet}
    (hreconfig : ∀ c, .reconfig c ∈ p.chunks → ∀ a out, I a out →
      I (a.handleReconfig c).1 (out ++ answer (a.handleReconfig c)))
    (h : I a (sent ++ a.controlQueue)) :
    I (a.handleInbound now p).1 (sent ++ (a.handleInbound now p).1.controlQueue) := by
  refine handleInbound_invariant (I := fun b => I b (sent ++ b.controlQueue)) ?_ ?_ h
  · intro b _ _ _ _ hb
    exact hI.congr (a := b) rfl hb
  · intro b c hc _ _ hb
    exact hI.dispatchChunk now p (fun c' hc' => hreconfig c' (hc' ▸ hc)) hb

end Exchanged

/-! ## What is sent -/

/-- New data has nothing to do with requests. -/
theorem resetTable_popPending (a : AssociationInternal) (now : ℕ) :
    (a.popPendingDataChunksToSend now).1.resetTable = a.resetTable :=
  popPendingDataChunksToSend_frame (fun _ _ _ _ _ _ => rfl) a now

theorem resetTable_gatherSack (a : AssociationInternal) :
    a.gatherOutboundSackPackets.1.resetTable = a.resetTable := gatherSack_frame (fun _ _ _ => rfl) a

theorem resetTable_gatherForwardTsn (a : AssociationInternal) :
    a.gatherOutboundForwardTsnPackets.1.resetTable = a.resetTable :=
  gatherForwardTsn_frame (fun _ => rfl) a

theorem resetTable_gatherShutdownPackets (a : AssociationInternal) :
    a.gatherOutboundShutdownPackets.1.resetTable = a.resetTable :=
  gatherShutdownPackets_frame (fun _ _ _ _ _ => rfl) a

/-- A FORWARD TSN is no RECONFIG chunk. -/
theorem not_emitsReconfig_forwardTsn (a : AssociationInternal) :
    emits Chunk.isReconfig a.gatherOutboundForwardTsnPackets.2 = false := by
  unfold gatherOutboundForwardTsnPackets
  dsimp only
  split_ifs <;> rfl

/-- Nor is a SHUTDOWN. -/
theorem not_emitsReconfig_shutdown (a : AssociationInternal) :
    emits Chunk.isReconfig a.gatherOutboundShutdownPackets.2.1 = false := by
  unfold gatherOutboundShutdownPackets
  split_ifs <;> rfl

/-- While it shuts down the association sends no request. -/
theorem gatherShutdown_quiet (a : AssociationInternal) (now : ℕ) :
    (a.gatherShutdown now).1.resetTable = a.resetTable ∧
      emits Chunk.isReconfig (a.gatherShutdown now).2.1 = false := by
  constructor
  · exact gatherShutdown_frame (fun _ _ _ => rfl) (fun _ => rfl) (fun _ _ _ => rfl)
      (fun _ _ _ _ _ => rfl) a now
  · unfold gatherShutdown
    dsimp only
    rw [emits_append, emits_append, emits_append, not_emits_retransmit fun _ => rfl,
      not_emits_fast fun _ => rfl, not_emits_sack fun _ => rfl, not_emitsReconfig_shutdown]
    rfl

/-- The requests come after the data. -/
theorem gatherData_reconfig (a : AssociationInternal) (now : ℕ) :
    ∃ (b : AssociationInternal) (sisToReset : List U16) (data : List Packet),
      b.resetTable = a.resetTable ∧ emits Chunk.isReconfig data = false ∧
      a.gatherOutboundDataAndReconfigPackets now =
        ((b.gatherOutboundReconfigPackets sisToReset).1,
          data ++ (b.gatherOutboundReconfigPackets sisToReset).2) := by
  have hpop := resetTable_popPending a now
  unfold gatherOutboundDataAndReconfigPackets
  generalize a.popPendingDataChunksToSend now = r at hpop ⊢
  obtain ⟨a₁, chunks, sisToReset⟩ := r
  by_cases hchunks : chunks = []
  · subst hchunks
    exact ⟨a₁, sisToReset, [], hpop, rfl, rfl⟩
  · dsimp only
    rw [if_pos hchunks]
    have hdata := @not_emits_bundleFrom Chunk.isReconfig (fun _ => rfl)
      a₁ [] commonHeaderSize chunks rfl
    exact ⟨{ a₁ with t3rtx := a₁.t3rtx.start }, sisToReset, _, hpop, hdata, rfl⟩

/-- In the state Established, RECONFIG chunks come from one part of gathering. -/
theorem gatherEstablished_reconfig (a : AssociationInternal) (now : ℕ) :
    ∃ (b : AssociationInternal) (sisToReset : List U16) (before after : List Packet),
      b.resetTable = a.resetTable ∧
      (a.gatherEstablished now).1.resetTable =
        (b.gatherOutboundReconfigPackets sisToReset).1.resetTable ∧
      (a.gatherEstablished now).2 =
        before ++ (b.gatherOutboundReconfigPackets sisToReset).2 ++ after ∧
      emits Chunk.isReconfig before = false ∧ emits Chunk.isReconfig after = false := by
  have h1 := (congrArg resetTable (resends_getDataPacketsToRetransmit a now).frame :)
  have hretransmit := @not_emits_retransmit Chunk.isReconfig (fun _ => rfl) a now
  unfold gatherEstablished
  generalize a.getDataPacketsToRetransmit now = r at h1 hretransmit ⊢
  obtain ⟨a₁, retransmitted⟩ := r
  dsimp only at h1 hretransmit ⊢
  obtain ⟨b, sisToReset, data, hb, hdata, heq⟩ := gatherData_reconfig a₁ now
  rw [heq]
  dsimp only
  have h2 := (congrArg resetTable (resends_gatherFast
    (b.gatherOutboundReconfigPackets sisToReset).1 now).frame :)
  have hfast := @not_emits_fast Chunk.isReconfig (fun _ => rfl)
    (b.gatherOutboundReconfigPackets sisToReset).1 now
  generalize (b.gatherOutboundReconfigPackets sisToReset).1.gatherOutboundFastRetransmissionPackets
    now = r at h2 hfast ⊢
  obtain ⟨a₂, fast⟩ := r
  have h3 := resetTable_gatherSack a₂
  have hsack := @not_emits_sack Chunk.isReconfig (fun _ => rfl) a₂
  generalize a₂.gatherOutboundSackPackets = r at h3 hsack ⊢
  obtain ⟨a₃, sack⟩ := r
  have h4 := resetTable_gatherForwardTsn a₃
  have hforward := not_emitsReconfig_forwardTsn a₃
  dsimp only at h2 hfast h3 hsack ⊢
  refine ⟨b, sisToReset, retransmitted ++ data, fast ++ sack ++ a₃.gatherOutboundForwardTsnPackets.2,
    hb.trans h1, h4.trans (h3.trans h2), ?_, ?_, ?_⟩
  · simp only [List.append_assoc]
  · rw [emits_append, hretransmit, hdata]
    rfl
  · rw [emits_append, emits_append, hfast, hsack, hforward]
    rfl

/-- Gathering sends the queued packets first, and RECONFIG chunks only in the state
Established. -/
theorem gatherOutbound_reconfig (a : AssociationInternal) (now : ℕ) :
    ((a.gatherOutbound now).1.resetTable = a.resetTable ∧
      ∃ packets, (a.gatherOutbound now).2.1 = a.controlQueue ++ packets ∧
        emits Chunk.isReconfig packets = false) ∨
    ∃ (b : AssociationInternal) (sisToReset : List U16) (before after : List Packet),
      b.resetTable = a.resetTable ∧
      (a.gatherOutbound now).1.resetTable =
        (b.gatherOutboundReconfigPackets sisToReset).1.resetTable ∧
      (a.gatherOutbound now).2.1 = a.controlQueue ++
        (before ++ (b.gatherOutboundReconfigPackets sisToReset).2 ++ after) ∧
      emits Chunk.isReconfig before = false ∧ emits Chunk.isReconfig after = false := by
  unfold gatherOutbound
  dsimp only
  split
  · -- only in the state Established are RECONFIG chunks built
    obtain ⟨b, sisToReset, before, after, hb, htable, hpackets, hbefore, hafter⟩ :=
      gatherEstablished_reconfig { a with controlQueue := [] } now
    right
    refine ⟨b, sisToReset, before, after, hb, htable, ?_, hbefore, hafter⟩
    rw [hpackets]
  · have hquiet := gatherShutdown_quiet { a with controlQueue := [] } now
    exact Or.inl ⟨hquiet.1, _, rfl, hquiet.2⟩
  · have hquiet := gatherShutdown_quiet { a with controlQueue := [] } now
    exact Or.inl ⟨hquiet.1, _, rfl, hquiet.2⟩
  · have hquiet := gatherShutdown_quiet { a with controlQueue := [] } now
    exact Or.inl ⟨hquiet.1, _, rfl, hquiet.2⟩
  · exact Or.inl ⟨resetTable_gatherShutdownPackets { a with controlQueue := [] }, _, rfl,
      not_emitsReconfig_shutdown { a with controlQueue := [] }⟩
  · exact Or.inl ⟨rfl, [], (List.append_nil _).symm, rfl⟩

/-- A stored request goes out again, or a new one is stored and goes out. -/
theorem gatherReconfig_cases (b : AssociationInternal) (sisToReset : List U16) :
    (b.gatherOutboundReconfigPackets sisToReset).1.reconfigRequests = b.reconfigRequests ∧
    ∃ new : List ParamOutgoingResetRequest,
      (new = [] ∧
          (b.gatherOutboundReconfigPackets sisToReset).1.reconfigs = b.reconfigs ∧
          (b.gatherOutboundReconfigPackets sisToReset).1.myNextRsn = b.myNextRsn ∨
        ∃ p, new = [p] ∧ p.reconfigRequestSequenceNumber = b.myNextRsn ∧
          (b.gatherOutboundReconfigPackets sisToReset).1.reconfigs =
            b.reconfigs.insert b.myNextRsn (.ofRequest p) ∧
          (b.gatherOutboundReconfigPackets sisToReset).1.myNextRsn = b.myNextRsn + 1) ∧
      ∀ packet ∈ (b.gatherOutboundReconfigPackets sisToReset).2, ∀ c,
        .reconfig c ∈ packet.chunks →
          (∃ k, b.reconfigs.lookup k = some c) ∨ ∃ p ∈ new, c = .ofRequest p := by
  have hagain : ∀ (b' : AssociationInternal) (packet : Packet),
      packet ∈ b.reconfigs.values.map (fun c => b'.createPacket [.reconfig c]) →
        ∀ c, .reconfig c ∈ packet.chunks → ∃ k, b.reconfigs.lookup k = some c := by
    intro b' packet hpacket c hc
    obtain ⟨c', hc', rfl⟩ := List.mem_map.mp hpacket
    cases List.mem_singleton.mp hc
    exact AssocMap.mem_values.mp hc'
  let p : ParamOutgoingResetRequest :=
    { reconfigRequestSequenceNumber := b.myNextRsn
      senderLastTsn := b.myNextTsn - 1
      streamIdentifiers := sisToReset }
  have hfirst : ∀ (b' : AssociationInternal) (packet : Packet),
      packet ∈ [b'.createPacket [.reconfig (.ofRequest p)]] →
        ∀ c, .reconfig c ∈ packet.chunks → c = .ofRequest p := by
    intro b' packet hpacket c hc
    cases List.mem_singleton.mp hpacket
    cases List.mem_singleton.mp hc
    rfl
  unfold gatherOutboundReconfigPackets
  by_cases hsis : sisToReset = []
  · by_cases hwill : b.willRetransmitReconfig = true
    · rw [if_pos (Or.inr hwill), if_pos hwill]
      simp only [ne_eq, hsis, not_true, if_false]
      split
      · exact ⟨rfl, [], Or.inl ⟨rfl, rfl, rfl⟩, fun q hq c hc => Or.inl (hagain _ q hq c hc)⟩
      · exact ⟨rfl, [], Or.inl ⟨rfl, rfl, rfl⟩, fun q hq c hc => Or.inl (hagain _ q hq c hc)⟩
    · rw [if_neg (fun h => h.elim (fun h => h hsis) hwill)]
      exact ⟨rfl, [], Or.inl ⟨rfl, rfl, rfl⟩, fun q hq => absurd hq List.not_mem_nil⟩
  · have hnew : ∀ (b₁ b₂ : AssociationInternal) (packet : Packet),
        packet ∈ b.reconfigs.values.map (fun c => b₁.createPacket [.reconfig c]) ++
            [b₂.createPacket [.reconfig (.ofRequest p)]] →
          ∀ c, .reconfig c ∈ packet.chunks →
            (∃ k, b.reconfigs.lookup k = some c) ∨ ∃ q ∈ [p], c = .ofRequest q := by
      intro b₁ b₂ packet hpacket c hc
      rcases List.mem_append.mp hpacket with hpacket | hpacket
      · exact Or.inl (hagain _ packet hpacket c hc)
      · exact Or.inr ⟨p, List.mem_singleton_self p, hfirst _ packet hpacket c hc⟩
    rw [if_pos (Or.inl hsis)]
    by_cases hwill : b.willRetransmitReconfig = true
    · simp only [hwill, if_true, if_pos hsis, generateNextRsn]
      split
      · exact ⟨rfl, [p], Or.inr ⟨p, rfl, rfl, rfl, rfl⟩, hnew _ _⟩
      · exact ⟨rfl, [p], Or.inr ⟨p, rfl, rfl, rfl, rfl⟩, hnew _ _⟩
    · simp only [hwill, Bool.false_eq_true, if_false, if_pos hsis, generateNextRsn]
      have hnew' := fun b₂ packet hpacket => hnew b b₂ packet (List.mem_append_right _ hpacket)
      split
      · exact ⟨rfl, [p], Or.inr ⟨p, rfl, rfl, rfl, rfl⟩, hnew' _⟩
      · exact ⟨rfl, [p], Or.inr ⟨p, rfl, rfl, rfl, rfl⟩, hnew' _⟩

/-- What a step of the endpoint itself does to its requests and packets. -/
structure Sends (a a' : AssociationInternal) (out : List Packet)
    (new : List ParamOutgoingResetRequest) : Prop where
  requests : a'.reconfigRequests = a.reconfigRequests
  table : new = [] ∧ a'.reconfigs = a.reconfigs ∧ a'.myNextRsn = a.myNextRsn ∨
    ∃ p, new = [p] ∧ p.reconfigRequestSequenceNumber = a.myNextRsn ∧
      a'.reconfigs = a.reconfigs.insert a.myNextRsn (.ofRequest p) ∧
      a'.myNextRsn = a.myNextRsn + 1
  chunks : ∀ packet ∈ out ++ a'.controlQueue, ∀ c, .reconfig c ∈ packet.chunks →
    packet ∈ a.controlQueue ∨ (∃ k, a.reconfigs.lookup k = some c) ∨ ∃ p ∈ new, c = .ofRequest p
  queued : ∀ packet ∈ a.controlQueue, packet ∈ out ++ a'.controlQueue

/-- A step that leaves the requests alone and queues no RECONFIG chunk. -/
theorem Sends.of_quiet {packets : List Packet} (htable : a'.resetTable = a.resetTable)
    (hqueue : a'.controlQueue = a.controlQueue ++ packets)
    (hpackets : emits Chunk.isReconfig packets = false) : Sends a a' [] [] where
  requests := congrArg (fun t => t.2.1) htable
  table := Or.inl ⟨rfl, congrArg Prod.fst htable, congrArg (fun t => t.2.2) htable⟩
  chunks := by
    intro packet hpacket c hc
    rw [List.nil_append, hqueue] at hpacket
    rcases List.mem_append.mp hpacket with hold | hnew
    · exact Or.inl hold
    · rw [mem_emits hnew hc rfl] at hpackets
      cases hpackets
  queued := by
    intro packet hpacket
    rw [List.nil_append, hqueue]
    exact List.mem_append_left _ hpacket

/-- **Gathering sends** the requests of streams that were popped, and again the old ones. -/
theorem gatherOutbound_sends (a : AssociationInternal) (now : ℕ) :
    ∃ new, Sends a (a.gatherOutbound now).1 (a.gatherOutbound now).2.1 new := by
  have hqueue := controlQueue_gatherOutbound a now
  rcases gatherOutbound_reconfig a now with ⟨htable, packets, hpackets, hquiet⟩ |
    ⟨b, sisToReset, before, after, hb, htable, hpackets, hbefore, hafter⟩
  · refine ⟨[], congrArg (fun t => t.2.1) htable,
      Or.inl ⟨rfl, congrArg Prod.fst htable, congrArg (fun t => t.2.2) htable⟩, ?_, ?_⟩
    · intro packet hpacket c hc
      rw [hqueue, List.append_nil, hpackets] at hpacket
      rcases List.mem_append.mp hpacket with hold | hnew
      · exact Or.inl hold
      · rw [mem_emits hnew hc rfl] at hquiet
        cases hquiet
    · intro packet hpacket
      rw [hqueue, List.append_nil, hpackets]
      exact List.mem_append_left _ hpacket
  · obtain ⟨hrequests, new, hnew, hchunks⟩ := gatherReconfig_cases b sisToReset
    have hreconfigs : b.reconfigs = a.reconfigs := congrArg Prod.fst hb
    have hnext : b.myNextRsn = a.myNextRsn := congrArg (fun t => t.2.2) hb
    have hreconfigs' : (b.gatherOutboundReconfigPackets sisToReset).1.reconfigs =
        (a.gatherOutbound now).1.reconfigs := (congrArg Prod.fst htable).symm
    have hnext' : (b.gatherOutboundReconfigPackets sisToReset).1.myNextRsn =
        (a.gatherOutbound now).1.myNextRsn := (congrArg (fun t => t.2.2) htable).symm
    rw [hreconfigs, hnext, hreconfigs', hnext'] at hnew
    rw [hreconfigs] at hchunks
    refine ⟨new, ?_, hnew, ?_, ?_⟩
    · exact (congrArg (fun t => t.2.1) htable).trans
        (hrequests.trans (congrArg (fun t => t.2.1) hb))
    · intro packet hpacket c hc
      rw [hqueue, List.append_nil, hpackets] at hpacket
      rcases List.mem_append.mp hpacket with hold | hpacket
      · exact Or.inl hold
      · rcases List.mem_append.mp hpacket with hpacket | hpacket
        · rcases List.mem_append.mp hpacket with hpacket | hpacket
          · rw [mem_emits hpacket hc rfl] at hbefore
            cases hbefore
          · exact Or.inr (hchunks packet hpacket c hc)
        · rw [mem_emits hpacket hc rfl] at hafter
          cases hafter
    · intro packet hpacket
      rw [hqueue, List.append_nil, hpackets]
      exact List.mem_append_left _ hpacket

/-- What a step issues is what it stores anew. -/
theorem Sends.issued_eq {op : LocalOp} {new : List ParamOutgoingResetRequest}
    (h : Sends a (a.localStep op).1 (a.localStep op).2 new) : a.issued op = new := by
  unfold issued
  rcases h.table with ⟨rfl, _, hnext⟩ | ⟨p, rfl, _, hstored, hnext⟩
  · rw [if_pos hnext]
  · have hne : a.myNextRsn + 1 ≠ a.myNextRsn := by
      intro heq
      have hzero : (1 : U32) = 0 := by bv_omega
      exact absurd hzero (by decide)
    rw [hnext, if_neg hne, hstored, AList.lookup_insert]
    rfl

/-- Most operations do not touch the queue of packets. -/
theorem quiet_of_resetFrame {a' : AssociationInternal} (h : a'.resetFrame = a.resetFrame) :
    a'.resetTable = a.resetTable ∧ ∃ new, a'.controlQueue = a.controlQueue ++ new ∧
      ∀ kind, NotAnswered kind → emits kind new = false := by
  have hqueue : a'.controlQueue = a.controlQueue ++ [] :=
    (congrArg Prod.snd h).trans (List.append_nil _).symm
  exact ⟨congrArg Prod.fst h, [], hqueue, fun _ _ => rfl⟩

/-- A timeout queues the INIT or the COOKIE ECHO once more, or nothing. -/
theorem retransmissionTimeout_quiet (a : AssociationInternal) (id : RtxTimerId) :
    (a.onRetransmissionTimeout id).resetTable = a.resetTable ∧
      ∃ new, (a.onRetransmissionTimeout id).controlQueue = a.controlQueue ++ new ∧
        ∀ kind, NotAnswered kind → emits kind new = false := by
  cases id with
  | t1Init =>
    show a.sendInit.1.resetTable = a.resetTable ∧ _
    cases hstored : a.storedInit with
    | none =>
      have hframe : a.sendInit.1.resetFrame = a.resetFrame := by rw [sendInit_of_none hstored]
      exact quiet_of_resetFrame hframe
    | some i =>
      refine ⟨?_, [{ a with sourcePort := 5000, destinationPort := 5000 }.createPacket
        [.init i]], ?_, fun kind hk => NotAnswered.single (hk.init i) _⟩
      · rw [sendInit_of_some hstored]
        rfl
      · show a.sendInit.1.controlQueue = _
        rw [sendInit_of_some hstored]
        rfl
  | t1Cookie =>
    show a.sendCookieEcho.1.resetTable = a.resetTable ∧ _
    cases hstored : a.storedCookieEcho with
    | none =>
      have hframe : a.sendCookieEcho.1.resetFrame = a.resetFrame := by
        rw [sendCookieEcho_of_none hstored]
      exact quiet_of_resetFrame hframe
    | some cookie =>
      refine ⟨?_, [a.createPacket [.cookieEcho cookie]], ?_,
        fun kind hk => NotAnswered.single (hk.cookieEcho cookie) _⟩
      · rw [sendCookieEcho_of_some hstored]
        rfl
      · show a.sendCookieEcho.1.controlQueue = _
        rw [sendCookieEcho_of_some hstored]
  | t2Shutdown =>
    have hframe : (a.onRetransmissionTimeout .t2Shutdown).resetFrame = a.resetFrame := by
      unfold onRetransmissionTimeout
      dsimp only
      split <;> rfl
    exact quiet_of_resetFrame hframe
  | t3Rtx =>
    have hframe : a.onT3RtxTimeout.resetFrame = a.resetFrame :=
      (congrArg resetFrame (onT3RtxTimeout_frame a) :)
    exact quiet_of_resetFrame hframe
  | reconfig => exact quiet_of_resetFrame rfl

/-- What an endpoint does besides gathering queues packets of the handshake at most. -/
theorem localStep_quiet (a : AssociationInternal) {op : LocalOp} (hop : ∀ now, op ≠ .gather now) :
    (a.localStep op).1.resetTable = a.resetTable ∧ (a.localStep op).2 = [] ∧
      ∃ new, (a.localStep op).1.controlQueue = a.controlQueue ++ new ∧
        ∀ kind, NotAnswered kind → emits kind new = false := by
  have hframe : ∀ a' : AssociationInternal, a'.resetFrame = a.resetFrame →
      a'.resetTable = a.resetTable ∧ ([] : List Packet) = [] ∧
        ∃ new, a'.controlQueue = a.controlQueue ++ new ∧
          ∀ kind, NotAnswered kind → emits kind new = false :=
    fun a' h => ⟨(quiet_of_resetFrame h).1, rfl, (quiet_of_resetFrame h).2⟩
  cases op with
  | openStream si ppi =>
    obtain ⟨_, _, heq⟩ := openStream_eq a si ppi
    refine hframe (a.openStream si ppi).1 ?_
    rw [heq]
    rfl
  | acceptStream =>
    refine hframe a.acceptStream.1 ?_
    unfold acceptStream
    split <;> rfl
  | setReliabilityParams r unordered relType relVal => exact hframe _ rfl
  | write r p ppi =>
    obtain ⟨_, _, _, heq⟩ := writeSctp_eq a r p ppi
    refine hframe (a.writeSctp r p ppi).1 ?_
    rw [heq]
    rfl
  | read r bufLen =>
    refine hframe (a.readSctp r bufLen).1 ?_
    unfold readSctp
    split <;> rfl
  | shutdownStream r how =>
    obtain ⟨_, _, _, heq⟩ := shutdownStream_eq a r how
    refine hframe (a.shutdownStream r how).1 ?_
    rw [heq]
    rfl
  | shutdown =>
    obtain ⟨_, _, heq⟩ := shutdown_eq a
    refine hframe a.shutdown.1 ?_
    rw [heq]
    rfl
  | gather now => exact absurd rfl (hop now)
  | ackTimeout => exact hframe _ rfl
  | timeout id =>
    obtain ⟨htable, hqueue⟩ := retransmissionTimeout_quiet a id
    exact ⟨htable, rfl, hqueue⟩

/-- **What an endpoint does of its own accord** sends, issues or leaves requests. -/
theorem localStep_sends (a : AssociationInternal) (op : LocalOp) :
    Sends a (a.localStep op).1 (a.localStep op).2 (a.issued op) := by
  have hsends : ∃ new, Sends a (a.localStep op).1 (a.localStep op).2 new := by
    by_cases hop : ∃ now, op = .gather now
    · obtain ⟨now, rfl⟩ := hop
      exact gatherOutbound_sends a now
    · obtain ⟨htable, hout, new, hqueue, hnew⟩ := localStep_quiet a fun now h => hop ⟨now, h⟩
      rw [hout]
      exact ⟨[], Sends.of_quiet htable hqueue (hnew _ notAnswered_isReconfig)⟩
  obtain ⟨new, hsends⟩ := hsends
  rw [hsends.issued_eq]
  exact hsends

end AssociationInternal

end Sctp
