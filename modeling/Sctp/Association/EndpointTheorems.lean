import Sctp.Association.Endpoint
import Sctp.Association.ResetPacketTheorems

/-!
# What an endpoint acknowledges and which triggers it serves

A SACK tells `peer_last_tsn`, but a SHUTDOWN the point of the other direction. While a shutdown
is under way, gathering leaves out the FORWARD TSN and RECONFIG packets that it serves in the
state Established.
-/

namespace Sctp

/-- The chunk acknowledges another TSN than `t`. -/
def Chunk.misses (t : U32) (c : Chunk) : Bool :=
  match c.cumulativeTsnAck? with
  | some t' => t' != t
  | none => false

namespace AssociationInternal

variable {a a' : AssociationInternal} {kind : Chunk → Bool}

/-! ## What is queued -/

theorem NotQueued.dispatchChunk (hk : NotQueued kind) (now : ℕ) (p : Packet) (chunk : Chunk)
    (h : emits kind a.controlQueue = false) :
    emits kind (queueing (a.dispatchChunk now p chunk)).controlQueue = false := by
  -- a handler may queue packets itself, and its answer is queued behind them
  have hqueued : ∀ (r : AssociationInternal × Except Error (List Packet)) (new : List Packet),
      r.1.controlQueue = a.controlQueue ++ new → emits kind new = false →
      emits kind (answer r) = false → emits kind (queueing r).controlQueue = false := by
    rintro ⟨b, e | packets⟩ new hqueue hnew hanswer
    · show emits kind b.controlQueue = false
      rw [show b.controlQueue = a.controlQueue ++ new from hqueue, emits_append, h, hnew]
      rfl
    · show emits kind (b.controlQueue ++ packets) = false
      rw [show b.controlQueue = a.controlQueue ++ new from hqueue, emits_append, emits_append, h,
        hnew, show emits kind packets = false from hanswer]
      rfl
  -- most of them queue nothing
  have hframe : ∀ r : AssociationInternal × Except Error (List Packet),
      r.1.controlQueue = a.controlQueue → emits kind (answer r) = false →
      emits kind (queueing r).controlQueue = false := by
    intro r hqueue hanswer
    exact hqueued r [] (hqueue.trans (List.append_nil _).symm) rfl hanswer
  have hexchanged : Exchanged fun _ _ => True := ⟨fun _ h => h, fun _ h => h, fun h => h⟩
  cases chunk with
  | init c =>
    unfold AssociationInternal.dispatchChunk
    dsimp only
    split
    · obtain ⟨new, hqueue, hnew, hanswer⟩ := hk.toNotAnswered.handleInitAck a p c
      exact hqueued _ new hqueue hnew hanswer
    · exact hframe _ (congrArg Prod.snd (resetFrame_handleInit a p c))
        (hk.toNotAnswered.handleInit a p c)
  | abort _ => exact h
  | error _ => exact h
  | heartbeat params =>
    exact hframe (a, .ok (a.handleHeartbeat params)) rfl (hk.toNotAnswered.handleHeartbeat a params)
  | heartbeatAck _ => exact h
  | cookieEcho cookie =>
    exact hframe ((a.handleCookieEcho cookie).1, .ok (a.handleCookieEcho cookie).2)
      (congrArg Prod.snd (resetFrame_handleCookieEcho a cookie))
      (hk.toNotAnswered.handleCookieEcho a cookie)
  | cookieAck =>
    exact hframe (a.handleCookieAck, .ok [])
      (congrArg Prod.snd (resetFrame_handleCookieAck a)) rfl
  | payloadData d =>
    exact hframe ((a.handleData d).1, .ok (a.handleData d).2)
      (@Exchanged.handleData a _ hexchanged [] d trivial).2 (hk.handleData a d)
  | selectiveAck d =>
    refine hframe (a.handleSack now d) (congrArg Prod.snd (resetFrame_handleSack a now d)) ?_
    rw [answer_handleSack]
    rfl
  | reconfig c =>
    exact hframe (a.handleReconfig c) (congrArg controlQueue (apartFromStreams_handleReconfig a c) :)
      (hk.handleReconfig a c)
  | forwardTsn c =>
    exact hframe ((a.handleForwardTsn c).1, .ok (a.handleForwardTsn c).2)
      (@Exchanged.handleForwardTsn a _ hexchanged [] c trivial).2 (hk.handleForwardTsn a c)
  | shutdown _ =>
    exact hframe (a.handleShutdown, .ok []) (congrArg Prod.snd (resetFrame_handleShutdown a)) rfl
  | shutdownAck =>
    exact hframe (a.handleShutdownAck, .ok [])
      (congrArg Prod.snd (resetFrame_handleShutdownAck a)) rfl
  | shutdownComplete =>
    exact hframe (a.handleShutdownComplete, .ok [])
      (congrArg Prod.snd (resetFrame_handleShutdownComplete a)) rfl
  | unknown hdr value =>
    obtain ⟨new, hqueue, hnew, hanswer⟩ := hk.toNotAnswered.handleUnknown a hdr value
    exact hqueued _ new hqueue hnew hanswer

/-- Chunks that are neither of the handshake nor answers are never queued. -/
theorem NotQueued.endpointStep (hk : NotQueued kind) (op : EndpointOp)
    (h : emits kind a.controlQueue = false) :
    emits kind (a.endpointStep op).controlQueue = false := by
  cases op with
  | act op =>
    by_cases hop : ∃ now, op = .gather now
    · obtain ⟨now, rfl⟩ := hop
      show emits kind (a.gatherOutbound now).1.controlQueue = false
      rw [controlQueue_gatherOutbound]
      rfl
    · obtain ⟨_, _, new, hqueue, hnew⟩ := localStep_quiet a fun now h => hop ⟨now, h⟩
      show emits kind (a.localStep op).1.controlQueue = false
      rw [hqueue, emits_append, h, hnew kind hk.toNotAnswered]
      rfl
  | receive now p =>
    refine handleInbound_invariant (I := fun b => emits kind b.controlQueue = false) ?_ ?_ h
    · intro b _ _ _ _ hb
      exact hb
    · intro b c _ _ _ hb
      exact hk.dispatchChunk now p c hb

theorem NotQueued.endpoint (hk : NotQueued kind) (isClient : Bool) (config : Config) :
    emits kind (endpoint isClient config).controlQueue = false := by
  cases isClient with
  | false => rfl
  | true => exact NotAnswered.single (hk.init (new config).initialInit) _

/-! ## Acknowledgements -/

theorem notQueued_misses (t : U32) : NotQueued (Chunk.misses t) :=
  ⟨⟨fun _ => rfl, fun _ => rfl, rfl, fun _ => rfl, fun _ => rfl⟩, fun _ => rfl⟩

theorem acksTruthfully_iff (op : EndpointOp) : a.AcksTruthfully op ↔
    emits (Chunk.misses (a.endpointStep op).peerLastTsn) (a.endpointEmits op) = false := by
  constructor
  · intro h
    rw [← Bool.not_eq_true]
    intro hemits
    obtain ⟨p, hp, hany⟩ := List.any_eq_true.mp hemits
    obtain ⟨c, hc, hmisses⟩ := List.any_eq_true.mp hany
    unfold Chunk.misses at hmisses
    split at hmisses
    · rename_i t ht
      have htruth := h p hp c hc t ht
      rw [htruth, bne_self_eq_false] at hmisses
      cases hmisses
    · cases hmisses
  · intro h p hp c hc t ht
    by_contra hne
    have hmisses : c.misses (a.endpointStep op).peerLastTsn = true := by
      unfold Chunk.misses
      rw [ht]
      exact bne_iff_ne.mpr hne
    rw [mem_emits hp hc hmisses] at h
    cases h

instance (a : AssociationInternal) (op : EndpointOp) : Decidable (a.AcksTruthfully op) :=
  decidable_of_iff _ (acksTruthfully_iff op).symm

theorem not_misses_sack {t : U32} (h : a.peerLastTsn = t) :
    emits (Chunk.misses t) a.gatherOutboundSackPackets.2 = false := by
  unfold gatherOutboundSackPackets
  split
  · rw [emits_singleton]
    show ((a.peerLastTsn != t) || false) = false
    rw [h, bne_self_eq_false]
    rfl
  · rfl

theorem not_misses_forwardTsn (a : AssociationInternal) (t : U32) :
    emits (Chunk.misses t) a.gatherOutboundForwardTsnPackets.2 = false := by
  unfold gatherOutboundForwardTsnPackets
  dsimp only
  split_ifs <;> rfl

/-- A SHUTDOWN carries the point of the sending direction. -/
theorem misses_shutdownPackets (a : AssociationInternal) (t : U32) :
    emits (Chunk.misses t) a.gatherOutboundShutdownPackets.2.1 = false ↔
      (a.willSendShutdown = true → a.cumulativeTsnAckPoint = t) := by
  unfold gatherOutboundShutdownPackets
  by_cases hwill : a.willSendShutdown = true
  · rw [if_pos hwill]
    dsimp only
    rw [emits_singleton]
    show ((a.cumulativeTsnAckPoint != t) || false) = false ↔ _
    rw [Bool.or_false, bne_eq_false_iff_eq]
    exact ⟨fun h _ => h, fun h => h hwill⟩
  · rw [if_neg hwill]
    have hnone : ∀ packets : List Packet, emits (Chunk.misses t) packets = false →
        (emits (Chunk.misses t) packets = false ↔
          (a.willSendShutdown = true → a.cumulativeTsnAckPoint = t)) :=
      fun _ h => ⟨fun _ hyes => absurd hyes hwill, fun _ => h⟩
    split_ifs <;> exact hnone _ rfl

/-- Gathering sends a SHUTDOWN on one condition, and every SACK is truthful. -/
theorem misses_gather (now : ℕ) (h : emits (Chunk.misses a.peerLastTsn) a.controlQueue = false) :
    emits (Chunk.misses a.peerLastTsn) (a.gatherOutbound now).2.1 = false ↔
      (a.SendsShutdown → a.cumulativeTsnAckPoint = a.peerLastTsn) := by
  generalize ht : a.peerLastTsn = t at h ⊢
  have hclosing : ∀ b : AssociationInternal, b.peerLastTsn = t →
      (emits (Chunk.misses t) (b.gatherShutdown now).2.1 = false ↔
        (b.willSendShutdown = true → b.cumulativeTsnAckPoint = t)) := by
    intro b hb
    -- what comes before the SHUTDOWN changes neither the flag nor the point
    have hlast := gatherShutdown_flags b now willSendShutdown (fun _ => rfl) (fun _ => rfl)
      fun _ _ => rfl
    have hpoint := gatherShutdown_flags b now cumulativeTsnAckPoint (fun _ => rfl) (fun _ => rfl)
      fun _ _ => rfl
    have hfast : ((b.getDataPacketsToRetransmit now).1.gatherOutboundFastRetransmissionPackets
        now).1.peerLastTsn = t :=
      (gatherFast_frame (f := peerLastTsn) (fun _ _ _ => rfl) (fun _ => rfl) _ now).trans
        ((getDataPacketsToRetransmit_frame (f := peerLastTsn) (fun _ _ _ => rfl) b now).trans hb)
    unfold gatherShutdown
    dsimp only
    rw [emits_append, emits_append, emits_append, not_emits_retransmit fun _ => rfl,
      not_emits_fast fun _ => rfl, not_misses_sack hfast, Bool.false_or, Bool.false_or,
      Bool.false_or, misses_shutdownPackets, hlast, hpoint]
  have hopen : ∀ b : AssociationInternal, b.peerLastTsn = t →
      emits (Chunk.misses t) (b.gatherEstablished now).2 = false := by
    intro b hb
    -- the SACK is built from `peer_last_tsn`, which no gatherer changes
    have hsack : (((b.getDataPacketsToRetransmit now).1.gatherOutboundDataAndReconfigPackets
        now).1.gatherOutboundFastRetransmissionPackets now).1.peerLastTsn = t := by
      rw [gatherFast_frame (f := peerLastTsn) (fun _ _ _ => rfl) fun _ => rfl]
      rw [gatherData_frame (f := peerLastTsn) (fun _ _ _ _ _ _ => rfl) (fun _ _ _ _ _ _ => rfl)]
      rw [getDataPacketsToRetransmit_frame (f := peerLastTsn) (fun _ _ _ => rfl), hb]
    unfold gatherEstablished
    dsimp only
    rw [emits_append, emits_append, emits_append, emits_append, not_emits_retransmit fun _ => rfl,
      not_emits_data (fun _ => rfl) fun _ => rfl, not_emits_fast fun _ => rfl,
      not_misses_sack hsack, not_misses_forwardTsn]
    rfl
  unfold gatherOutbound SendsShutdown
  dsimp only
  generalize hb : { a with controlQueue := [] } = b
  have hlast : b.peerLastTsn = t := by rw [← hb, ht]
  have hwill : b.willSendShutdown = a.willSendShutdown := by rw [← hb]
  have hpoint : b.cumulativeTsnAckPoint = a.cumulativeTsnAckPoint := by rw [← hb]
  cases hstate : a.state with
  | established =>
    rw [emits_append, h, hopen b hlast]
    simp
  | shutdownPending =>
    rw [emits_append, h, Bool.false_or, hclosing b hlast, hwill, hpoint]
    simp
  | shutdownSent =>
    rw [emits_append, h, Bool.false_or, hclosing b hlast, hwill, hpoint]
    simp
  | shutdownReceived =>
    rw [emits_append, h, Bool.false_or, hclosing b hlast, hwill, hpoint]
    simp
  | shutdownAckSent =>
    rw [emits_append, h, Bool.false_or, misses_shutdownPackets b, hwill, hpoint]
    simp
  | closed =>
    rw [h]
    simp
  | cookieWait =>
    rw [h]
    simp
  | cookieEchoed =>
    rw [h]
    simp

/-- **When acknowledgements are truthful.** -/
theorem acksTruthfully_iff_shutsDownInStep (isClient : Bool) (config : Config)
    (ops : List EndpointOp) :
    Runs.Along endpointStep AcksTruthfully (endpoint isClient config) ops ↔
      Runs.Along endpointStep ShutsDownInStep (endpoint isClient config) ops := by
  refine Runs.along_iff_of_invariant (R := fun _ _ => True)
    (I := fun a => ∀ t, emits (Chunk.misses t) a.controlQueue = false) ?_ ?_ ?_
    (Runs.along_true _ ops)
  · intro a op _ _ h t
    exact (notQueued_misses t).endpointStep op (h t)
  · intro a op _ h
    have hsilent : a.endpointEmits op = [] → a.ShutsDownInStep op →
        (a.AcksTruthfully op ↔ a.ShutsDownInStep op) := by
      intro hnone hyes
      rw [acksTruthfully_iff, hnone]
      exact ⟨fun _ => hyes, fun _ => rfl⟩
    cases op with
    | receive now p => exact hsilent rfl trivial
    | act op =>
      cases op with
      | gather now =>
        rw [acksTruthfully_iff]
        show emits (Chunk.misses (a.gatherOutbound now).1.peerLastTsn)
          (a.gatherOutbound now).2.1 = false ↔ _
        rw [peerLastTsn_gatherOutbound]
        exact misses_gather now (h a.peerLastTsn)
      | _ => exact hsilent rfl trivial
  · intro t
    exact (notQueued_misses t).endpoint isClient config

/-- The INIT of a peer whose first TSN is 100. -/
def peerInit : ChunkInit :=
  { initialTsn := 100
    initiateTag := 1
    numOutboundStreams := 1
    numInboundStreams := 1
    advertisedReceiverWindowCredit := 4096 }

/-- The peer's packet with one chunk. -/
def peerPacket (chunk : Chunk) : Packet where
  verificationTag := 0
  sourcePort := 5000
  destinationPort := 5000
  chunks := [chunk]

/-- The handshake of the peer with an endpoint whose cookie is `cookie`. -/
def handshakeWith (cookie : Bytes) : List EndpointOp :=
  [.receive 0 (peerPacket (.init peerInit.setSupportedExtensions)),
    .receive 0 (peerPacket (.cookieEcho cookie))]

/-- The first TSN of the endpoint is 5. -/
theorem not_acksTruthfully :
    ¬ Runs.Along endpointStep AcksTruthfully
      (endpoint false { randomTsn := 5, randomTag := 2, randomCookie := [1] })
      (handshakeWith [1] ++ [.act .shutdown, .act (.gather 0)]) := by
  decide +kernel

/-! ## Triggers -/

theorem gatherFast_served (a : AssociationInternal) (now : ℕ) :
    (a.gatherOutboundFastRetransmissionPackets now).1.willRetransmitFast = false := by
  unfold gatherOutboundFastRetransmissionPackets
  split
  · exact fastRetransmitFrom_frame (f := willRetransmitFast) (fun _ _ _ => rfl) now
      { a with willRetransmitFast := false } commonHeaderSize [] _
  · rename_i hno
    exact Bool.eq_false_iff.mpr hno

theorem gatherSack_served (a : AssociationInternal) :
    a.gatherOutboundSackPackets.1.ackState ≠ .immediate := by
  unfold gatherOutboundSackPackets
  split
  · exact fun h => AckState.noConfusion h
  · rename_i hno
    exact hno

theorem gatherReconfig_served (a : AssociationInternal) (sisToReset : List U16) :
    (a.gatherOutboundReconfigPackets sisToReset).1.willRetransmitReconfig = false := by
  unfold gatherOutboundReconfigPackets generateNextRsn
  by_cases hwill : a.willRetransmitReconfig = true
  · rw [if_pos (Or.inr hwill), if_pos hwill]
    dsimp only
    split_ifs <;> rfl
  · rw [if_neg hwill]
    dsimp only
    split_ifs <;> exact Bool.eq_false_iff.mpr hwill

theorem gatherData_served (a : AssociationInternal) (now : ℕ) :
    (a.gatherOutboundDataAndReconfigPackets now).1.willRetransmitReconfig = false := by
  unfold gatherOutboundDataAndReconfigPackets
  exact gatherReconfig_served _ _

/-- A FORWARD TSN that is asked for goes out if there is something to skip. -/
theorem gatherForwardTsn_served (a : AssociationInternal) :
    a.gatherOutboundForwardTsnPackets.1.willSendForwardTsn = false ∧
      (a.willSendForwardTsn = true →
        sna32gt a.advancedPeerTsnAckPoint a.cumulativeTsnAckPoint = true →
        emits Chunk.isForwardTsn a.gatherOutboundForwardTsnPackets.2 = true) := by
  unfold gatherOutboundForwardTsnPackets
  by_cases hwill : a.willSendForwardTsn = true
  · rw [if_pos hwill]
    dsimp only
    split
    · exact ⟨rfl, fun _ _ => rfl⟩
    · rename_i hno
      exact ⟨rfl, fun _ hgt => absurd hgt hno⟩
  · rw [if_neg hwill]
    exact ⟨Bool.eq_false_iff.mpr hwill, fun hyes => absurd hyes hwill⟩

/-- In the state Established every trigger is served. -/
theorem gatherEstablished_served (a : AssociationInternal) (now : ℕ) :
    (a.gatherEstablished now).1.NoTrigger ∧
      (a.willSendForwardTsn = true →
        sna32gt a.advancedPeerTsnAckPoint a.cumulativeTsnAckPoint = true →
        emits Chunk.isForwardTsn (a.gatherEstablished now).2 = true) := by
  let f (b : AssociationInternal) :=
    (b.willSendForwardTsn, b.advancedPeerTsnAckPoint, b.cumulativeTsnAckPoint)
  unfold gatherEstablished
  -- gatherer by gatherer: what each one serves, the later ones leave alone
  have h₁ := getDataPacketsToRetransmit_frame (f := f) (fun _ _ _ => rfl) a now
  generalize a.getDataPacketsToRetransmit now = r at h₁ ⊢
  obtain ⟨a₁, retransmitted⟩ := r
  have h₂ := gatherData_frame (f := f) (fun _ _ _ _ _ _ => rfl) (fun _ _ _ _ _ _ => rfl) a₁ now
  have hreconfig := gatherData_served a₁ now
  dsimp only at h₁ h₂ hreconfig ⊢
  generalize a₁.gatherOutboundDataAndReconfigPackets now = r at h₂ hreconfig ⊢
  obtain ⟨a₂, data⟩ := r
  have h₃ := gatherFast_frame (f := f) (fun _ _ _ => rfl) (fun _ => rfl) a₂ now
  have hreconfig₃ := gatherFast_frame (f := willRetransmitReconfig) (fun _ _ _ => rfl)
    (fun _ => rfl) a₂ now
  have hfast := gatherFast_served a₂ now
  dsimp only at h₂ h₃ hreconfig hreconfig₃ hfast ⊢
  generalize a₂.gatherOutboundFastRetransmissionPackets now = r at h₃ hreconfig₃ hfast ⊢
  obtain ⟨a₃, fast⟩ := r
  have hsack := gatherSack_served a₃
  have hkept : (a₃.gatherOutboundSackPackets.1.willRetransmitFast = a₃.willRetransmitFast ∧
      a₃.gatherOutboundSackPackets.1.willRetransmitReconfig = a₃.willRetransmitReconfig) ∧
      f a₃.gatherOutboundSackPackets.1 = f a₃ := by
    unfold gatherOutboundSackPackets
    split <;> exact ⟨⟨rfl, rfl⟩, rfl⟩
  dsimp only at h₃ hreconfig₃ hfast ⊢
  generalize a₃.gatherOutboundSackPackets = r at hsack hkept ⊢
  obtain ⟨a₄, sack⟩ := r
  obtain ⟨hforward, hannounced⟩ := gatherForwardTsn_served a₄
  have hlast : a₄.gatherOutboundForwardTsnPackets.1.willRetransmitFast = a₄.willRetransmitFast ∧
      a₄.gatherOutboundForwardTsnPackets.1.willRetransmitReconfig = a₄.willRetransmitReconfig ∧
      a₄.gatherOutboundForwardTsnPackets.1.ackState = a₄.ackState := by
    unfold gatherOutboundForwardTsnPackets
    dsimp only
    split_ifs <;> exact ⟨rfl, rfl, rfl⟩
  have hf : f a₄ = f a := hkept.2.trans (h₃.trans (h₂.trans h₁))
  have hwill : a₄.willSendForwardTsn = a.willSendForwardTsn := congrArg Prod.fst hf
  have hadv : a₄.advancedPeerTsnAckPoint = a.advancedPeerTsnAckPoint :=
    congrArg (fun t => t.2.1) hf
  have hcum : a₄.cumulativeTsnAckPoint = a.cumulativeTsnAckPoint := congrArg (fun t => t.2.2) hf
  refine ⟨⟨?_, hforward, ?_, ?_⟩, ?_⟩
  · rw [hlast.1]
    exact hkept.1.1.trans hfast
  · rw [hlast.2.1]
    exact hkept.1.2.trans (hreconfig₃.trans hreconfig)
  · rw [hlast.2.2]
    exact hsack
  · intro htold hgt
    dsimp only
    rw [emits_append, hannounced (by rw [hwill]; exact htold) (by rw [hadv, hcum]; exact hgt),
      Bool.or_true]

/-- While a shutdown is under way, the FORWARD TSN and the RECONFIG chunks have to wait. -/
theorem gatherShutdown_noTrigger (a : AssociationInternal) (now : ℕ) :
    (a.gatherShutdown now).1.NoTrigger ↔
      a.willSendForwardTsn = false ∧ a.willRetransmitReconfig = false := by
  unfold gatherShutdown
  let f (b : AssociationInternal) := (b.willSendForwardTsn, b.willRetransmitReconfig)
  -- neither flag is looked at while the association shuts down
  have h₁ := getDataPacketsToRetransmit_frame (f := f) (fun _ _ _ => rfl) a now
  generalize a.getDataPacketsToRetransmit now = r at h₁ ⊢
  obtain ⟨a₁, retransmitted⟩ := r
  have h₂ := gatherFast_frame (f := f) (fun _ _ _ => rfl) (fun _ => rfl) a₁ now
  have hfast := gatherFast_served a₁ now
  dsimp only at h₁ h₂ hfast ⊢
  generalize a₁.gatherOutboundFastRetransmissionPackets now = r at h₂ hfast ⊢
  obtain ⟨a₂, fast⟩ := r
  have hsack := gatherSack_served a₂
  have hkept : a₂.gatherOutboundSackPackets.1.willRetransmitFast = a₂.willRetransmitFast ∧
      f a₂.gatherOutboundSackPackets.1 = f a₂ := by
    unfold gatherOutboundSackPackets
    split <;> exact ⟨rfl, rfl⟩
  dsimp only at h₂ hfast ⊢
  generalize a₂.gatherOutboundSackPackets = r at hsack hkept ⊢
  obtain ⟨a₃, sack⟩ := r
  obtain ⟨willSendShutdown, willSendShutdownAck, willSendShutdownComplete, t2shutdown, heq⟩ :=
    gatherOutboundShutdownPackets_eq a₃
  have hf : f a₃ = f a := hkept.2.trans (h₂.trans h₁)
  have hforward : a₃.willSendForwardTsn = a.willSendForwardTsn := congrArg Prod.fst hf
  have hreconfig : a₃.willRetransmitReconfig = a.willRetransmitReconfig := congrArg Prod.snd hf
  dsimp only
  rw [heq]
  unfold NoTrigger
  dsimp only
  rw [hforward, hreconfig]
  constructor
  · exact fun h => ⟨h.2.1, h.2.2.1⟩
  · exact fun h => ⟨hkept.1.trans hfast, h.1, h.2, hsack⟩

theorem servesTriggers_iff (a : AssociationInternal) (op : EndpointOp) :
    a.ServesTriggers op ↔ a.GathersServed op := by
  cases op with
  | receive now p => exact Iff.rfl
  | act op =>
    cases op with
    | gather now =>
      unfold ServesTriggers GathersServed MayBeOutstanding gatherOutbound
      dsimp only
      generalize hb : { a with controlQueue := [] } = b
      have hforward : b.willSendForwardTsn = a.willSendForwardTsn := by rw [← hb]
      have hreconfig : b.willRetransmitReconfig = a.willRetransmitReconfig := by rw [← hb]
      have hadv : b.advancedPeerTsnAckPoint = a.advancedPeerTsnAckPoint := by rw [← hb]
      have hcum : b.cumulativeTsnAckPoint = a.cumulativeTsnAckPoint := by rw [← hb]
      have hclosing := gatherShutdown_noTrigger b now
      rw [hforward, hreconfig] at hclosing
      cases hstate : a.state with
      | established =>
        obtain ⟨hnone, hannounced⟩ := gatherEstablished_served b now
        rw [hforward, hadv, hcum] at hannounced
        refine ⟨fun _ h => ?_, fun _ _ => ⟨hnone, fun htold hgt => ?_⟩⟩
        · rcases h with h | h <;> cases h
        · dsimp only
          rw [emits_append, hannounced htold hgt, Bool.or_true]
      | shutdownPending =>
        simp only [hclosing, true_or, or_true, true_implies]
        exact ⟨fun h => h.1, fun h => ⟨h, fun htold => absurd h.1 (by rw [htold]; decide)⟩⟩
      | shutdownReceived =>
        simp only [hclosing, or_true, true_implies]
        exact ⟨fun h => h.1, fun h => ⟨h, fun htold => absurd h.1 (by rw [htold]; decide)⟩⟩
      | _ => simp
    | _ => exact Iff.rfl

/-- **When every trigger is served.** -/
theorem servesTriggers_iff_gathersServed (isClient : Bool) (config : Config)
    (ops : List EndpointOp) :
    Runs.Along endpointStep ServesTriggers (endpoint isClient config) ops ↔
      Runs.Along endpointStep GathersServed (endpoint isClient config) ops :=
  Runs.along_iff_of_invariant (R := fun _ _ => True) (I := fun _ => True)
    (fun _ _ _ _ _ => trivial) (fun a op _ _ => servesTriggers_iff a op) trivial
    (Runs.along_true _ ops)

/-- A message is given up when it is first sent, and the T3-rtx timeout comes after the start of
the shutdown. -/
theorem not_servesTriggers :
    ¬ Runs.Along endpointStep ServesTriggers
      (endpoint false { randomTsn := 5, randomTag := 2, randomCookie := [1] })
      (handshakeWith [1] ++ [.act (.openStream 1 .binary),
        .act (.setReliabilityParams 0 false .rexmit 0), .act (.write 0 [7] .binary),
        .act (.gather 0), .act .shutdown, .act (.timeout .t3Rtx), .act (.gather 0)]) := by
  decide +kernel

end AssociationInternal

end Sctp
