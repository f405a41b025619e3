import Sctp.Association.EndpointTheorems

/-!
# The timers of outstanding data

The T3-rtx timer is started when chunks go into flight and after every SACK that leaves some
there; it is stopped when the first chunk in flight is acknowledged. `process_selective_ack` may
stop it although chunks are left, and `postprocess_sack` starts it again.
-/

namespace Sctp

namespace AssociationInternal

variable {a a' : AssociationInternal}

/-! ## What the timers depend on -/

/-- The timers, and what they run for. -/
def timing (a : AssociationInternal) :
    RtxTimer × RtxTimer × PayloadQueue × AssocMap U32 ChunkReconfig :=
  (a.t3rtx, a.treconfig, a.inflightQueue, a.reconfigs)

/-- Only the timers, the queue in flight and the requests matter. -/
theorem TimersRun.congr (h : a.TimersRun) (htiming : a'.timing = a.timing) : a'.TimersRun := by
  unfold TimersRun at h ⊢
  rw [show a'.t3rtx = a.t3rtx from congrArg Prod.fst htiming,
    show a'.treconfig = a.treconfig from congrArg (fun t => t.2.1) htiming,
    show a'.inflightQueue = a.inflightQueue from congrArg (fun t => t.2.2.1) htiming,
    show a'.reconfigs = a.reconfigs from congrArg (fun t => t.2.2.2) htiming]
  exact h

/-- Chunks in flight may be touched. -/
theorem TimersRun.touched (h : a.TimersRun) (hqueue : a.inflightQueue.Touched a'.inflightQueue)
    (ht3rtx : a'.t3rtx = a.t3rtx) (htreconfig : a'.treconfig = a.treconfig)
    (hreconfigs : a'.reconfigs = a.reconfigs) : a'.TimersRun := by
  unfold TimersRun at h ⊢
  rw [ht3rtx, htreconfig, hreconfigs, hqueue.isEmpty_eq]
  exact h

/-! ## Gathering -/

/-- What was pushed is there. -/
theorem isEmpty_pushNoCheck (q : PayloadQueue) (c : ChunkPayloadData) :
    (q.pushNoCheck c).isEmpty = false := by
  have hmem : c.tsn ∈ (q.pushNoCheck c).chunkMap := (AList.mem_insert _).mpr (Or.inl rfl)
  have hlen : 0 < (q.pushNoCheck c).chunkMap.keys.length := List.length_pos_of_mem hmem
  unfold PayloadQueue.isEmpty PayloadQueue.len
  exact decide_eq_false (by omega)

/-- Without a chunk that moves nothing changes in flight. -/
theorem popPending_flight (a : AssociationInternal) (now : ℕ) :
    ((a.popPendingDataChunksToSend now).2.1 = [] →
        (a.popPendingDataChunksToSend now).1.inflightQueue = a.inflightQueue) ∧
      ((a.popPendingDataChunksToSend now).2.1 ≠ [] →
        (a.popPendingDataChunksToSend now).1.inflightQueue.isEmpty = false) := by
  refine popPendingDataChunksToSend_invariant
    (P := fun b chunks => (chunks = [] → b.inflightQueue = a.inflightQueue) ∧
      (chunks ≠ [] → b.inflightQueue.isEmpty = false)) ?_ ?_ ⟨fun _ => rfl, fun h => absurd rfl h⟩
  · intro b chunks c _ _ h
    exact h
  · intro b chunks c rwnd _ h
    rcases hpop : b.pendingQueue.pop c.beginningFragment c.unordered with ⟨q, _ | c'⟩
    · rw [movePending_of_none (a := { b with rwnd }) hpop]
      dsimp only
      rw [Option.toList_none, List.append_nil]
      exact h
    · obtain ⟨flags, _, heq⟩ := movePending_of_some (a := { b with rwnd }) now hpop
      rw [heq]
      refine ⟨fun hnil => ?_, fun _ => isEmpty_pushNoCheck _ _⟩
      exact absurd hnil (List.append_ne_nil_of_right_ne_nil _ (List.cons_ne_nil _ _))

/-- A map with a new entry is not empty. -/
theorem entries_insert_ne_nil (m : AssocMap U32 ChunkReconfig) (k : U32) (c : ChunkReconfig) :
    (m.insert k c).entries ≠ [] := by
  rw [AList.entries_insert]
  exact List.cons_ne_nil _ _

/-- A request starts the reconfig timer. -/
theorem TimersRun.gatherReconfig (h : a.TimersRun) (sisToReset : List U16) :
    (a.gatherOutboundReconfigPackets sisToReset).1.TimersRun := by
  refine ⟨?_, ?_⟩
  · rw [gatherReconfig_frame (f := t3rtx) fun _ _ _ _ _ => rfl,
      gatherReconfig_frame (f := inflightQueue) fun _ _ _ _ _ => rfl]
    exact h.1
  · have hrun : ∀ b : AssociationInternal, (b.reconfigs.entries = [] → b.treconfig.isRunning ≠ true) →
        ((if b.reconfigs.entries ≠ [] then { b with treconfig := b.treconfig.start }
            else b).treconfig.isRunning = true ↔
          (if b.reconfigs.entries ≠ [] then { b with treconfig := b.treconfig.start }
            else b).reconfigs.entries ≠ []) := by
      intro b hb
      split
      · rename_i hne
        exact ⟨fun _ => hne, fun _ => rfl⟩
      · rename_i hnil
        rw [not_not] at hnil
        exact ⟨fun hyes => absurd hyes (hb hnil), fun hne => absurd hnil hne⟩
    have hold : a.reconfigs.entries = [] → a.treconfig.isRunning ≠ true :=
      fun hnil hyes => h.2.mp hyes hnil
    unfold gatherOutboundReconfigPackets generateNextRsn
    by_cases hsis : sisToReset = []
    · by_cases hwill : a.willRetransmitReconfig = true
      · rw [if_pos (Or.inr hwill), if_pos hwill]
        simp only [ne_eq, hsis, not_true_eq_false, if_false]
        exact hrun { a with willRetransmitReconfig := false } hold
      · rw [if_neg (by tauto)]
        exact h.2
    · rw [if_pos (Or.inl hsis)]
      dsimp only
      rw [if_pos hsis]
      refine hrun _ fun hnil => ?_
      split at hnil
      · exact absurd hnil (entries_insert_ne_nil _ _ _)
      · exact absurd hnil (entries_insert_ne_nil _ _ _)

/-- New data starts the T3-rtx timer. -/
theorem TimersRun.gatherData (h : a.TimersRun) (now : ℕ) :
    (a.gatherOutboundDataAndReconfigPackets now).1.TimersRun := by
  obtain ⟨hnone, hsome⟩ := popPending_flight a now
  have ht3rtx := popPendingDataChunksToSend_frame (f := t3rtx) (fun _ _ _ _ _ _ => rfl) a now
  have htreconfig := popPendingDataChunksToSend_frame (f := treconfig) (fun _ _ _ _ _ _ => rfl)
    a now
  have hreconfigs := popPendingDataChunksToSend_frame (f := reconfigs) (fun _ _ _ _ _ _ => rfl)
    a now
  unfold gatherOutboundDataAndReconfigPackets
  generalize a.popPendingDataChunksToSend now = r at hnone hsome ht3rtx htreconfig hreconfigs ⊢
  obtain ⟨b, chunks, sisToReset⟩ := r
  dsimp only at hnone hsome ht3rtx htreconfig hreconfigs ⊢
  apply TimersRun.gatherReconfig
  have hreset : b.treconfig.isRunning = true ↔ b.reconfigs.entries ≠ [] := by
    rw [htreconfig, hreconfigs]
    exact h.2
  split
  · rename_i hchunks
    exact ⟨⟨fun _ => hsome hchunks, fun _ => rfl⟩, hreset⟩
  · rename_i hchunks
    refine ⟨?_, hreset⟩
    rw [ht3rtx, hnone (not_not.mp hchunks)]
    exact h.1

theorem timing_gatherSack (a : AssociationInternal) :
    a.gatherOutboundSackPackets.1.timing = a.timing := gatherSack_frame (fun _ _ _ => rfl) a

theorem timing_gatherForwardTsn (a : AssociationInternal) :
    a.gatherOutboundForwardTsnPackets.1.timing = a.timing := gatherForwardTsn_frame (fun _ => rfl) a

theorem timing_gatherShutdownPackets (a : AssociationInternal) :
    a.gatherOutboundShutdownPackets.1.timing = a.timing :=
  gatherShutdownPackets_frame (fun _ _ _ _ _ => rfl) a

/-- Retransmissions start no timer, as the timers run. -/
theorem TimersRun.retransmit (h : a.TimersRun) (now : ℕ) :
    (a.getDataPacketsToRetransmit now).1.TimersRun :=
  h.touched (resends_getDataPacketsToRetransmit a now).touched
    (getDataPacketsToRetransmit_frame (f := t3rtx) (fun _ _ _ => rfl) a now)
    (getDataPacketsToRetransmit_frame (f := treconfig) (fun _ _ _ => rfl) a now)
    (getDataPacketsToRetransmit_frame (f := reconfigs) (fun _ _ _ => rfl) a now)

theorem TimersRun.gatherFast (h : a.TimersRun) (now : ℕ) :
    (a.gatherOutboundFastRetransmissionPackets now).1.TimersRun :=
  h.touched (resends_gatherFast a now).touched
    (gatherFast_frame (f := t3rtx) (fun _ _ _ => rfl) (fun _ => rfl) a now)
    (gatherFast_frame (f := treconfig) (fun _ _ _ => rfl) (fun _ => rfl) a now)
    (gatherFast_frame (f := reconfigs) (fun _ _ _ => rfl) (fun _ => rfl) a now)

/-- **Gathering keeps the timers running**. -/
theorem TimersRun.gatherOutbound (h : a.TimersRun) (now : ℕ) :
    (a.gatherOutbound now).1.TimersRun := by
  have hopen : ∀ b : AssociationInternal, b.TimersRun → (b.gatherEstablished now).1.TimersRun := by
    intro b hb
    have hlast := ((hb.retransmit now).gatherData now).gatherFast now
    unfold gatherEstablished
    dsimp only
    exact (hlast.congr (timing_gatherSack _)).congr (timing_gatherForwardTsn _)
  have hclosing : ∀ b : AssociationInternal, b.TimersRun → (b.gatherShutdown now).1.TimersRun := by
    intro b hb
    have hlast := (hb.retransmit now).gatherFast now
    unfold gatherShutdown
    dsimp only
    exact (hlast.congr (timing_gatherSack _)).congr (timing_gatherShutdownPackets _)
  have hb : { a with controlQueue := [] }.TimersRun := h
  unfold AssociationInternal.gatherOutbound
  dsimp only
  generalize { a with controlQueue := [] } = b at hb
  split
  · exact hopen b hb
  · exact hclosing b hb
  · exact hclosing b hb
  · exact hclosing b hb
  · exact hb.congr (timing_gatherShutdownPackets b)
  · exact hb

/-! ## Acknowledgements -/

/-- The loop over the gap ack blocks has nothing to do with the timer. -/
theorem t3rtx_ackGaps (now : ℕ) (a : AssociationInternal) (b : BytesAcked) (htna : U32)
    (tsns : List U32) : (ackGaps now a b htna tsns).1.t3rtx = a.t3rtx := by
  refine ackGaps_keeps (P := fun a₁ => a₁.t3rtx = a.t3rtx) (fun _ _ h => h) ?_ now a b htna tsns rfl
  intro a₁ now since h
  unfold measureRtt
  split
  · exact h
  · exact h

theorem t3rtx_processFastRetransmission (a : AssociationInternal) (cum htna : U32)
    (advanced : Bool) : (a.processFastRetransmission cum htna advanced).1.t3rtx = a.t3rtx :=
  processFastRetransmission_keeps (P := fun b => b.t3rtx = a.t3rtx)
    (reportMissing_keeps (fun _ _ h => h) (fun _ _ _ h => h) htna) (fun _ h => h) a cum advanced rfl

theorem t3rtx_raiseAckPoint (a : AssociationInternal) : a.raiseAckPoint.t3rtx = a.t3rtx :=
  raiseAckPoint_kept (f := t3rtx) (fun _ _ _ => rfl) a

/-- With chunks left in flight the timer is started again. -/
theorem t3rtx_postprocessSack (a : AssociationInternal) (state : AssociationState) :
    (a.postprocessSack state).t3rtx =
      if a.inflightQueue.isEmpty = true then a.t3rtx else { closeTx := true } := by
  unfold postprocessSack
  cases a.inflightQueue.isEmpty with
  | false => rfl
  | true =>
    rw [if_neg (by decide), if_pos rfl]
    split_ifs <;> rfl

/-- Behind the point nothing is popped. -/
theorem popAcked_self (now : ℕ) (a : AssociationInternal) (b : BytesAcked) (t : U32) :
    popAcked now t (t + 1) a b = (a, .ok b) := by
  have hno : ¬ sna32lte (t + 1) t = true := by
    rw [sna32lte_succ_iff (by rw [Serial.dist_self]; omega), Serial.dist_self]
    omega
  rw [popAcked, if_neg hno]

/-- With nothing left in flight the T3-rtx timer has been stopped, or it did not run before. -/
theorem t3rtx_applySack {a₁ : AssociationInternal} {now : ℕ} {d : ChunkSelectiveAck}
    {b : BytesAcked} {htna : U32} (h : a.TimersRun)
    (hdist : Serial.dist a.cumulativeTsnAckPoint d.cumulativeTsnAck < 2 ^ 31)
    (hok : a.processSelectiveAck now d = (a₁, .ok (b, htna)))
    (hempty : a₁.inflightQueue.isEmpty = true) : (a₁.applySack d b).t3rtx.isRunning = false := by
  have hpoint : a₁.cumulativeTsnAckPoint = a.cumulativeTsnAckPoint := by
    have hframe := (processSelectiveAck_frame a now d).1
    rw [hok] at hframe
    exact (congrArg cumulativeTsnAckPoint hframe :)
  have hstreams : IgnoresStreams t3rtx := fun _ _ _ _ => rfl
  unfold applySack
  dsimp only
  rw [hstreams.releaseBuffers]
  split
  · have hstop : ∀ c : AssociationInternal, c.inflightQueue.isEmpty = true →
        (c.onCumulativeTsnAckPointAdvanced b.total).t3rtx.isRunning = false := by
      intro c hc
      unfold onCumulativeTsnAckPointAdvanced
      rw [if_pos hc]
      dsimp only
      split_ifs <;> rfl
    exact hstop { a₁ with cumulativeTsnAckPoint := d.cumulativeTsnAck } hempty
  · -- nothing newly acknowledged in order, so nothing was popped
    rename_i hlt
    rw [hpoint, sna32lt_iff] at hlt
    have hsame : d.cumulativeTsnAck = a.cumulativeTsnAckPoint := Serial.dist_eq_zero.mp (by omega)
    unfold processSelectiveAck at hok
    rw [hsame, popAcked_self] at hok
    dsimp only at hok
    have ht3rtx := t3rtx_ackGaps now a ∅ a.cumulativeTsnAckPoint (gapTsns d)
    have htouched := (ackGaps_touched now a ∅ a.cumulativeTsnAckPoint (gapTsns d)).2.1
    rw [hok] at ht3rtx htouched
    rw [ht3rtx, Bool.eq_false_iff]
    intro hrunning
    have hleft := h.1.mp hrunning
    rw [← htouched.isEmpty_eq, hempty] at hleft
    cases hleft

/-- **A SACK that is answered with `Ok` keeps the timers running**. -/
theorem TimersRun.handleSack (h : a.TimersRun) {now : ℕ} {d : ChunkSelectiveAck}
    (hok : (a.handleSack now d).2.isOk = true) : (a.handleSack now d).1.TimersRun := by
  have hreset : ((a.handleSack now d).1.treconfig.isRunning = true ↔
      (a.handleSack now d).1.reconfigs.entries ≠ []) := by
    have htable : (a.handleSack now d).1.resetFrame = a.resetFrame := resetFrame_handleSack a now d
    have hreconfigs : (a.handleSack now d).1.reconfigs = a.reconfigs :=
      (congrArg (fun t => t.1.1) htable :)
    have htreconfig : (a.handleSack now d).1.treconfig = a.treconfig := by
      rcases handleSack_cases a now d with heq | ⟨_, a', cum, adv, hframe, _, heq⟩
      · rw [heq]
      · have hsame : a'.treconfig = a.treconfig := (congrArg treconfig hframe :)
        rcases heq with heq | heq
        · rw [heq, hsame]
        · obtain ⟨_, _, _, hpost⟩ := postprocessSack_frame a' a.state
          have hpost' : (a'.postprocessSack a.state).treconfig = a'.treconfig :=
            (congrArg treconfig hpost :)
          rw [heq, hpost', hsame]
    -- a SACK has nothing to do with reset requests
    rw [hreconfigs, htreconfig]
    exact h.2
  refine ⟨?_, hreset⟩
  rcases handleSack_outcome a now d with
    heq | ⟨_, hd, ⟨a₁, e, _, heq⟩ | ⟨a₁, b, htna, hack, hstage⟩⟩
  · rw [heq]
    exact h.1
  · rw [heq] at hok
    cases hok
  · -- the timer is stopped if the SACK acknowledges all, and started if not
    have hstopped := fun hempty => t3rtx_applySack h hd hack hempty
    have hflight := (applySack_of_processSelectiveAck hd hack).2
    have htouched := (touches_processFastRetransmission (a₁.applySack d b) d.cumulativeTsnAck
      htna (sna32lt a.cumulativeTsnAckPoint d.cumulativeTsnAck)).touched
    have ht3rtx := t3rtx_processFastRetransmission (a₁.applySack d b) d.cumulativeTsnAck
      htna (sna32lt a.cumulativeTsnAckPoint d.cumulativeTsnAck)
    rcases hstage with ⟨a₂, e, _, heq⟩ | ⟨a₂, hfast, heq⟩
    · rw [heq] at hok
      cases hok
    · rw [hfast] at htouched ht3rtx
      rw [heq]
      dsimp only at htouched ht3rtx ⊢
      have hempty : a₂.raiseAckPoint.inflightQueue.isEmpty = a₁.inflightQueue.isEmpty := by
        rw [(quiet_raiseAckPoint a₂).inflightQueue, htouched.isEmpty_eq, hflight]
      rw [postprocessSack_inflightQueue, t3rtx_postprocessSack, hempty]
      cases hleft : a₁.inflightQueue.isEmpty with
      | false => exact ⟨fun _ => rfl, fun _ => rfl⟩
      | true =>
        rw [if_pos rfl, t3rtx_raiseAckPoint, ht3rtx, hstopped hleft]
        decide

/-! ## Other chunks -/

/-- A response takes a request out; with the last one the reconfig timer stops. -/
theorem TimersRun.handleReconfigParam (h : a.TimersRun) (raw : Param) :
    (a.handleReconfigParam raw).1.TimersRun := by
  have hstreams : IgnoresStreams timing := fun _ _ _ _ => rfl
  unfold AssociationInternal.handleReconfigParam
  cases raw with
  | outgoingResetRequest p => exact h.congr (hstreams.resetStreamsIfAny (fun _ _ => rfl) _ p)
  | reconfigResponse p =>
    dsimp only
    split
    · rename_i hnil
      exact ⟨h.1, fun hyes => absurd (show false = true from hyes) Bool.false_ne_true,
        fun hne => absurd hnil hne⟩
    · rename_i hne
      refine ⟨h.1, fun _ => hne, fun _ => h.2.mpr fun hnil => hne ?_⟩
      show (a.reconfigs.erase p.reconfigResponseSequenceNumber).entries = []
      have hentries : (a.reconfigs.erase p.reconfigResponseSequenceNumber).entries =
          List.kerase p.reconfigResponseSequenceNumber a.reconfigs.entries := rfl
      rw [hentries, hnil]
      rfl
  | _ => exact h

/-- So does a RECONFIG chunk. -/
theorem TimersRun.handleReconfig (h : a.TimersRun) (c : ChunkReconfig) :
    (a.handleReconfig c).1.TimersRun :=
  handleReconfig_invariant (fun _ raw _ hb => hb.handleReconfigParam raw) h

/-- The association without what DATA and FORWARD TSN chunks change. -/
def apartFromData (a : AssociationInternal) : AssociationInternal :=
  { a with
    streams := ∅
    objects := []
    acceptCh := none
    reconfigRequests := ∅
    payloadQueue := {}
    peerLastTsn := 0
    delayedAckTriggered := false
    immediateAckTriggered := false
    ackState := .idle
    ackTimer := {} }

/-- Streams are not looked at. -/
theorem apartFromData_ignoresStreams : IgnoresStreams apartFromData := fun _ _ _ _ => rfl

/-- The end of DATA and FORWARD TSN chunks changes the receiving side only. -/
theorem apartFromData_acknowledgement (a : AssociationInternal) (sackImmediately : Bool) :
    (a.handlePeerLastTsnAndAcknowledgement sackImmediately).1.apartFromData = a.apartFromData := by
  have hadvance : ∀ (fuel : ℕ) (b : AssociationInternal) (reply : List Packet),
      (advancePeerLastTsn fuel b reply).1.apartFromData = b.apartFromData := by
    intro fuel
    induction fuel with
    | zero => exact fun _ _ => rfl
    | succ fuel ih =>
      intro b reply
      unfold advancePeerLastTsn
      split
      · rfl
      · rename_i q c _
        have hrecheck := apartFromData_ignoresStreams.recheckReconfigRequests (fun _ _ => rfl)
          { b with payloadQueue := q, peerLastTsn := b.peerLastTsn + 1 }
        exact (ih _ _).trans hrecheck
  have htrigger : IgnoresTriggers apartFromData := fun _ _ _ => rfl
  exact (htrigger.triggerAck _ _).trans (hadvance _ a [])

/-- DATA changes the receiving side only. -/
theorem apartFromData_handleData (a : AssociationInternal) (d : ChunkPayloadData) :
    (a.handleData d).1.apartFromData = a.apartFromData := by
  have hcreate := apartFromData_ignoresStreams.getOrCreateStream a d.streamIdentifier
  unfold handleData
  split
  · generalize a.getOrCreateStream d.streamIdentifier = g at hcreate ⊢
    obtain ⟨b, r⟩ := g
    cases r with
    | none => exact hcreate
    | some r =>
      dsimp only
      split
      · exact (apartFromData_acknowledgement _ _).trans
          ((apartFromData_ignoresStreams.modifyStream _ _ _).trans hcreate)
      · exact (apartFromData_acknowledgement _ _).trans hcreate
  · exact apartFromData_acknowledgement _ _

/-- So does a FORWARD TSN. -/
theorem apartFromData_handleForwardTsn (a : AssociationInternal) (c : ChunkForwardTsn) :
    (a.handleForwardTsn c).1.apartFromData = a.apartFromData := by
  rcases forwardTsn_cases a c with hbehind | ⟨huse, hahead⟩
  · rcases handleForwardTsn_of_behind hbehind with heq | heq
    · rw [heq]
    · rw [heq]
      rfl
  · rw [handleForwardTsn_of_ahead huse hahead, apartFromData_acknowledgement]
    exact apartFromData_ignoresStreams.forwardStreams _ c

/-- The timers change with SACKs and RECONFIG chunks, and when the association closes. -/
theorem TimersRun.dispatchChunk (h : a.TimersRun) (now : ℕ) (p : Packet) {chunk : Chunk}
    (hsack : ∀ d, chunk = .selectiveAck d → (a.handleSack now d).2.isOk = true)
    (hcomplete : chunk ≠ .shutdownComplete) :
    (queueing (a.dispatchChunk now p chunk)).TimersRun := by
  have hqueued : ∀ r : AssociationInternal × Except Error (List Packet), r.1.TimersRun →
      (queueing r).TimersRun := by
    rintro ⟨b, e | packets⟩ hb
    · exact hb
    · exact hb
  -- most chunks leave alone what the timers depend on
  have hkept : ∀ r : AssociationInternal × Except Error (List Packet), r.1.timing = a.timing →
      (queueing r).TimersRun := fun r hr => hqueued r (h.congr hr)
  cases chunk with
  | init c =>
    unfold AssociationInternal.dispatchChunk
    dsimp only
    split
    · apply hkept
      unfold handleInitAck
      split
      · rfl
      · dsimp only
        split
        · rfl
        · cases cookieParam c.params with
          | none => rfl
          | some cookie => rfl
    · apply hkept
      unfold handleInit
      dsimp only
      split_ifs <;> rfl
  | abort _ => exact h
  | error _ => exact h
  | heartbeat params => exact h
  | heartbeatAck _ => exact h
  | cookieEcho cookie =>
    apply hkept ((a.handleCookieEcho cookie).1, .ok (a.handleCookieEcho cookie).2)
    unfold handleCookieEcho setState
    dsimp only
    split
    · rfl
    · split
      · split <;> rfl
      · split <;> rfl
      · split <;> rfl
      · split <;> rfl
      · rfl
  | cookieAck =>
    apply hkept (a.handleCookieAck, .ok [])
    unfold handleCookieAck
    split <;> rfl
  | payloadData d =>
    exact hkept ((a.handleData d).1, .ok (a.handleData d).2)
      (congrArg timing (apartFromData_handleData a d) :)
  | selectiveAck d => exact hqueued _ (h.handleSack (hsack d rfl))
  | reconfig c => exact hqueued _ (h.handleReconfig c)
  | forwardTsn c =>
    exact hkept ((a.handleForwardTsn c).1, .ok (a.handleForwardTsn c).2)
      (congrArg timing (apartFromData_handleForwardTsn a c) :)
  | shutdown _ =>
    apply hkept (a.handleShutdown, .ok [])
    obtain ⟨_, _, heq⟩ := handleShutdown_eq a
    rw [heq]
    rfl
  | shutdownAck =>
    apply hkept (a.handleShutdownAck, .ok [])
    unfold handleShutdownAck
    split <;> rfl
  | shutdownComplete => exact absurd rfl hcomplete
  | unknown hdr value =>
    apply hkept (a.handleUnknown hdr value)
    unfold handleUnknown
    dsimp only
    split <;> rfl

/-! ## Runs -/

/-- The T3-rtx timeout leaves the timer running. -/
theorem TimersRun.t3Rtx (h : a.TimersRun) : a.onT3RtxTimeout.TimersRun := by
  have ht3rtx := onT3RtxTimeout_kept (f := t3rtx) (fun _ _ _ _ _ _ => rfl) a
  have htreconfig := onT3RtxTimeout_kept (f := treconfig) (fun _ _ _ _ _ _ => rfl) a
  have hreconfigs := onT3RtxTimeout_kept (f := reconfigs) (fun _ _ _ _ _ _ => rfl) a
  exact h.touched a.onT3RtxTimeout_touched ht3rtx htreconfig hreconfigs

/-- So does all that an endpoint does of its own accord. -/
theorem TimersRun.localStep (h : a.TimersRun) (op : LocalOp) : (a.localStep op).1.TimersRun := by
  cases op with
  | openStream si ppi =>
    obtain ⟨_, _, heq⟩ := openStream_eq a si ppi
    show (a.openStream si ppi).1.TimersRun
    rw [heq]
    exact h
  | acceptStream =>
    refine h.congr ?_
    show a.acceptStream.1.timing = a.timing
    unfold acceptStream
    split <;> rfl
  | setReliabilityParams r unordered relType relVal => exact h
  | write r p ppi =>
    obtain ⟨_, _, _, heq⟩ := writeSctp_eq a r p ppi
    show (a.writeSctp r p ppi).1.TimersRun
    rw [heq]
    exact h
  | read r bufLen =>
    refine h.congr ?_
    show (a.readSctp r bufLen).1.timing = a.timing
    unfold readSctp
    split <;> rfl
  | shutdownStream r how =>
    obtain ⟨_, _, _, heq⟩ := shutdownStream_eq a r how
    show (a.shutdownStream r how).1.TimersRun
    rw [heq]
    exact h
  | shutdown =>
    obtain ⟨_, _, heq⟩ := shutdown_eq a
    show a.shutdown.1.TimersRun
    rw [heq]
    exact h
  | gather now => exact h.gatherOutbound now
  | ackTimeout => exact h
  | timeout id =>
    refine (?_ : (a.onRetransmissionTimeout id).TimersRun)
    unfold onRetransmissionTimeout
    cases id with
    | t1Init =>
      refine h.congr ?_
      show a.sendInit.1.timing = a.timing
      unfold sendInit
      split <;> rfl
    | t1Cookie =>
      refine h.congr ?_
      show a.sendCookieEcho.1.timing = a.timing
      unfold sendCookieEcho
      split <;> rfl
    | t2Shutdown =>
      dsimp only
      split <;> exact h
    | t3Rtx => exact h.t3Rtx
    | reconfig => exact h

/-- **One step of an endpoint** whose SACKs are answered with `Ok`. -/
theorem TimersRun.endpointStep (h : a.TimersRun) {op : EndpointOp} (hop : a.AcceptsSacks op) :
    (a.endpointStep op).TimersRun := by
  cases op with
  | act op => exact h.localStep op
  | receive now p =>
    obtain ⟨hsack, hcomplete⟩ := hop
    refine handleInbound_invariant (fun b _ _ _ _ hb => hb) ?_ h
    intro b c hc _ hok hb
    apply hb.dispatchChunk now p
    · rintro d rfl
      exact hok (hsack (List.any_eq_true.mpr ⟨_, hc, rfl⟩))
    · rintro rfl
      rw [List.any_eq_true.mpr ⟨_, hc, rfl⟩] at hcomplete
      cases hcomplete

/-- At the start nothing is in flight and no request waits. -/
theorem TimersRun.endpoint (isClient : Bool) (config : Config) :
    (endpoint isClient config).TimersRun := by
  have hnone : ({} : AssociationInternal).TimersRun := by decide
  refine hnone.congr ?_
  cases isClient with
  | false => rfl
  | true => rfl

/-- **Outstanding data has a running timer**, and so have outstanding reset requests. -/
theorem timersRun_of_run (isClient : Bool) (config : Config) {ops : List EndpointOp}
    (hops : Runs.Along endpointStep AcceptsSacks (endpoint isClient config) ops) :
    (Runs.run endpointStep (endpoint isClient config) ops).TimersRun :=
  Runs.run_invariant_along (I := TimersRun) (fun _ _ hop h => h.endpointStep hop)
    (TimersRun.endpoint isClient config) hops

/-- One of two messages is acknowledged, and the stream is being reset. -/
theorem timersRun_halfAcked :
    (Runs.run endpointStep (endpoint false { randomTsn := 5, randomTag := 2, randomCookie := [1] })
      (handshakeWith [1] ++ [.act (.openStream 1 .binary), .act (.write 0 [7] .binary),
        .act (.write 0 [8] .binary), .act (.gather 0), .act (.gather 1),
        .act (.shutdownStream 0 .both), .act (.gather 2),
        .receive 3 (peerPacket (.selectiveAck
          { cumulativeTsnAck := 5
            advertisedReceiverWindowCredit := 4096
            gapAckBlocks := []
            duplicateTsn := [] }))])).TimersRun := by
  apply timersRun_of_run
  decide +kernel

end AssociationInternal

end Sctp
