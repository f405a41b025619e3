import Sctp.Association.DelayedAck
import Sctp.Association.OutboundTheorems
import Sctp.Association.ReceiverTheorems

/-!
# Delayed acknowledgements and their timer

An expiry of the `AckTimer` leaves `close_tx` behind, so the next delayed acknowledgement
finds the timer running and starts no task. As long as that does not happen, every delayed
acknowledgement has a task.
-/

namespace Sctp

namespace AssociationInternal

variable {a a' : AssociationInternal}

/-! ## What the chunks of a packet do -/

/-- The acknowledgement stays as it was or becomes immediate; what is triggered stays so. -/
structure AckMoves (a a' : AssociationInternal) : Prop where
  timer : a'.ackTimer = a.ackTimer ∧ a'.ackState = a.ackState ∨ a'.ackState = .immediate
  delayed : a.delayedAckTriggered = true → a'.delayedAckTriggered = true
  immediate : a.immediateAckTriggered = true → a'.immediateAckTriggered = true

theorem AckMoves.refl (a : AssociationInternal) : AckMoves a a := ⟨Or.inl ⟨rfl, rfl⟩, id, id⟩

theorem AckMoves.trans {a₁ a₂ a₃ : AssociationInternal} (h : AckMoves a₁ a₂)
    (h' : AckMoves a₂ a₃) : AckMoves a₁ a₃ where
  timer := by
    rcases h'.timer with ⟨htimer, hstate⟩ | himm
    · rw [htimer, hstate]
      exact h.timer
    · exact Or.inr himm
  delayed hd := h'.delayed (h.delayed hd)
  immediate hi := h'.immediate (h.immediate hi)

/-- The fields acknowledgements are about. -/
def ackFields (a : AssociationInternal) : AckState × AckTimer × Bool × Bool :=
  (a.ackState, a.ackTimer, a.delayedAckTriggered, a.immediateAckTriggered)

theorem AckMoves.of_ackFields (h : a'.ackFields = a.ackFields) : AckMoves a a' := by
  unfold ackFields at h
  rw [Prod.mk.injEq, Prod.mk.injEq, Prod.mk.injEq] at h
  obtain ⟨hstate, htimer, hd, hi⟩ := h
  exact ⟨Or.inl ⟨htimer, hstate⟩, fun h => hd.trans h, fun h => hi.trans h⟩

theorem ackFields_of_apartFromStreams (h : a'.apartFromStreams = a.apartFromStreams) :
    a'.ackFields = a.ackFields := (congrArg ackFields h :)

/-- An acknowledgement has been triggered. -/
def AckTriggered (a : AssociationInternal) : Prop :=
  a.delayedAckTriggered = true ∨ a.immediateAckTriggered = true

/-- What moves keeps a triggered acknowledgement triggered. -/
theorem AckMoves.ackTriggered (h : AckMoves a a') (ha : a.AckTriggered) : a'.AckTriggered :=
  ha.imp h.delayed h.immediate

/-- Triggering an acknowledgement takes none back. -/
theorem ackMoves_triggerAck (a : AssociationInternal) (sackImmediately : Bool) :
    AckMoves a (a.triggerAck sackImmediately) ∧ (a.triggerAck sackImmediately).AckTriggered := by
  unfold triggerAck
  dsimp only
  split
  · split
    · exact ⟨⟨Or.inl ⟨rfl, rfl⟩, fun _ => rfl, id⟩, Or.inl rfl⟩
    · exact ⟨⟨Or.inl ⟨rfl, rfl⟩, id, fun _ => rfl⟩, Or.inr rfl⟩
  · exact ⟨⟨Or.inl ⟨rfl, rfl⟩, id, fun _ => rfl⟩, Or.inr rfl⟩

theorem ackMoves_acknowledgement (h : a'.ackFields = a.ackFields) (sackImmediately : Bool) :
    AckMoves a (a'.handlePeerLastTsnAndAcknowledgement sackImmediately).1 ∧
      (a'.handlePeerLastTsnAndAcknowledgement sackImmediately).1.AckTriggered := by
  have hadvance := apartFromReceiving_advancePeerLastTsn a'.payloadQueue.sorted.length a' []
  have hfields : (advancePeerLastTsn a'.payloadQueue.sorted.length a' []).1.ackFields =
      a.ackFields := (congrArg ackFields hadvance :).trans h
  have htrigger := ackMoves_triggerAck (advancePeerLastTsn a'.payloadQueue.sorted.length a' []).1
    sackImmediately
  exact ⟨(AckMoves.of_ackFields hfields).trans htrigger.1, htrigger.2⟩

/-- A DATA chunk that comes so far triggers an acknowledgement. -/
theorem ackMoves_handleData (a : AssociationInternal) (d : ChunkPayloadData) :
    AckMoves a (a.handleData d).1 ∧ (a.reachesAck d = true → (a.handleData d).1.AckTriggered) := by
  have hcreate := apartFromStreams_ignoresStreams.getOrCreateStream a d.streamIdentifier
  unfold handleData reachesAck
  by_cases hpush : a.payloadQueue.canPush d a.peerLastTsn = true
  · rw [if_pos hpush, hpush]
    revert hcreate
    generalize a.getOrCreateStream d.streamIdentifier = g
    obtain ⟨a₁, r⟩ := g
    intro hcreate
    have h₁ := ackFields_of_apartFromStreams hcreate
    cases r with
    | none => exact ⟨AckMoves.of_ackFields h₁, fun h => absurd h Bool.false_ne_true⟩
    | some r =>
      dsimp only
      split
      · have hmodify := apartFromStreams_ignoresStreams.modifyStream
          { a₁ with payloadQueue := (a₁.payloadQueue.push d a₁.peerLastTsn).1 }
          d.streamIdentifier fun s => (s.handleData d).1
        have hfields := (ackFields_of_apartFromStreams hmodify).trans h₁
        have hack := ackMoves_acknowledgement hfields d.immediateSack
        exact ⟨hack.1, fun _ => hack.2⟩
      · have hack := ackMoves_acknowledgement h₁ d.immediateSack
        exact ⟨hack.1, fun _ => hack.2⟩
  · rw [if_neg hpush]
    have hack := ackMoves_acknowledgement (rfl : a.ackFields = a.ackFields) d.immediateSack
    exact ⟨hack.1, fun _ => hack.2⟩

theorem ackMoves_handleForwardTsn (a : AssociationInternal) (c : ChunkForwardTsn) :
    AckMoves a (a.handleForwardTsn c).1 := by
  rcases forwardTsn_cases a c with hbehind | ⟨huse, hahead⟩
  · rcases handleForwardTsn_of_behind hbehind with heq | heq
    · rw [heq]
      exact AckMoves.refl a
    · rw [heq]
      exact ⟨Or.inr rfl, id, id⟩
  · rw [handleForwardTsn_of_ahead huse hahead]
    generalize forwardPeerLastTsn c.newCumulativeTsn a.payloadQueue a.peerLastTsn = r
    have hfields := ackFields_of_apartFromStreams (apartFromStreams_ignoresStreams.forwardStreams
      { a with payloadQueue := r.1, peerLastTsn := r.2 } c)
    have hsame : { a with payloadQueue := r.1, peerLastTsn := r.2 }.ackFields = a.ackFields := rfl
    exact (ackMoves_acknowledgement (hfields.trans hsame) false).1

/-- A SACK leaves the state of the acknowledgement alone. -/
theorem ackFields_handleSack (a : AssociationInternal) (now : ℕ) (d : ChunkSelectiveAck) :
    (a.handleSack now d).1.ackFields = a.ackFields :=
  handleSack_kept (fun _ _ _ _ _ _ => rfl) a now d

/-- A chunk that finds the association established and leaves it so. -/
theorem ackMoves_dispatchChunk (h : a.state = .established) (now : ℕ) (p : Packet) (chunk : Chunk)
    (h' : (a.dispatchChunk now p chunk).1.state = .established) :
    AckMoves a (a.dispatchChunk now p chunk).1 := by
  cases chunk with
  | init c =>
    have hinit : (a.handleInit p c).1 = a := by
      unfold handleInit
      rw [if_pos (by rw [h]; decide)]
    have hinitAck : (a.handleInitAck p c).1 = a := by
      unfold handleInitAck
      rw [if_pos (by rw [h]; decide)]
    show AckMoves a (if c.isAck then a.handleInitAck p c else a.handleInit p c).1
    split
    · rw [hinitAck]
      exact AckMoves.refl a
    · rw [hinit]
      exact AckMoves.refl a
  | cookieEcho cookie =>
    have hecho : (a.handleCookieEcho cookie).1 = a := by
      unfold handleCookieEcho
      split
      · rfl
      · rw [h]
        dsimp only
        split <;> rfl
    show AckMoves a (a.handleCookieEcho cookie).1
    rw [hecho]
    exact AckMoves.refl a
  | cookieAck =>
    show AckMoves a a.handleCookieAck
    unfold handleCookieAck
    rw [if_pos (by rw [h]; decide)]
    exact AckMoves.refl a
  | payloadData d => exact (ackMoves_handleData a d).1
  | selectiveAck d => exact AckMoves.of_ackFields (ackFields_handleSack a now d)
  | reconfig c =>
    exact AckMoves.of_ackFields (ackFields_of_apartFromStreams (apartFromStreams_handleReconfig a c))
  | forwardTsn c => exact ackMoves_handleForwardTsn a c
  | shutdown tsn =>
    -- a SHUTDOWN takes the association out of the state
    exfalso
    revert h'
    show a.handleShutdown.state = .established → False
    unfold handleShutdown
    rw [if_pos h]
    split <;> exact AssociationState.noConfusion
  | shutdownAck =>
    show AckMoves a a.handleShutdownAck
    unfold handleShutdownAck
    rw [if_neg (by rw [h]; decide)]
    exact AckMoves.refl a
  | shutdownComplete =>
    show AckMoves a a.handleShutdownComplete
    unfold handleShutdownComplete
    rw [if_neg (by rw [h]; decide)]
    exact AckMoves.refl a
  | unknown hdr value =>
    show AckMoves a (a.handleUnknown hdr value).1
    unfold handleUnknown
    dsimp only
    split <;> exact AckMoves.of_ackFields rfl
  | abort _ => exact AckMoves.refl a
  | error _ => exact AckMoves.refl a
  | heartbeat _ => exact AckMoves.refl a
  | heartbeatAck _ => exact AckMoves.refl a

/-- A chunk does what it does by itself and may queue an answer. -/
theorem handleChunk_fst (a : AssociationInternal) (now : ℕ) (p : Packet) (chunk : Chunk) :
    (a.handleChunk now p chunk).1 = a ∨
      ∃ packets, (a.handleChunk now p chunk).1 =
        { (a.dispatchChunk now p chunk).1 with
          controlQueue := (a.dispatchChunk now p chunk).1.controlQueue ++ packets } := by
  unfold handleChunk
  split
  · exact Or.inl rfl
  · right
    rcases hdispatch : a.dispatchChunk now p chunk with ⟨a', e | packets⟩
    · exact ⟨[], by simp⟩
    · exact ⟨packets, rfl⟩

/-- In the established state a chunk never takes back the acknowledgement triggered. -/
theorem ackMoves_handleChunk (h : a.state = .established) (now : ℕ) (p : Packet) (chunk : Chunk)
    (h' : (a.handleChunk now p chunk).1.state = .established) :
    AckMoves a (a.handleChunk now p chunk).1 := by
  rcases handleChunk_fst a now p chunk with heq | ⟨packets, heq⟩
  · rw [heq]
    exact AckMoves.refl a
  · rw [heq] at h' ⊢
    exact (ackMoves_dispatchChunk h now p chunk h').trans ⟨Or.inl ⟨rfl, rfl⟩, id, id⟩

/-- All the chunks of a packet, as long as the association stays established. -/
theorem ackMoves_handleChunks {now : ℕ} {p : Packet} (chunks : List Chunk)
    (h : ∀ k, (handleChunks now p a (chunks.take k)).1.state = .established) :
    AckMoves a (handleChunks now p a chunks).1 := by
  induction chunks generalizing a with
  | nil => exact AckMoves.refl a
  | cons c cs ih =>
    have hstart : a.state = .established := h 0
    have hone := h 1
    have hall := fun k => h (k + 1)
    simp only [List.take_succ_cons, handleChunks] at hone hall ⊢
    rcases hchunk : a.handleChunk now p c with ⟨a₁, e | u⟩
    · rw [hchunk] at hone
      have hmoves := ackMoves_handleChunk hstart now p c (by rw [hchunk]; exact hone)
      rw [hchunk] at hmoves
      exact hmoves
    · rw [hchunk] at hone hall
      have hmoves := ackMoves_handleChunk hstart now p c (by rw [hchunk]; exact hall 0)
      rw [hchunk] at hmoves
      exact hmoves.trans (ih hall)

/-! ## Gathering -/

/-- Where an acknowledgement stands. -/
def ackStatus (a : AssociationInternal) : AckState × AckTimer := (a.ackState, a.ackTimer)

theorem Resends.ackStatus (h : Resends a a') : a'.ackStatus = a.ackStatus :=
  (congrArg AssociationInternal.ackStatus h.frame :)

/-- Sending data leaves the acknowledgement alone. -/
theorem ackStatus_popPending (a : AssociationInternal) (now : ℕ) :
    (a.popPendingDataChunksToSend now).1.ackStatus = a.ackStatus := by
  refine popPendingDataChunksToSend_invariant
    (P := fun a' _ => a'.ackStatus = a.ackStatus) ?_ ?_ rfl
  · intro a' _ c _ _ h
    exact h
  · intro a' _ c rwnd _ h
    rcases hpop : a'.pendingQueue.pop c.beginningFragment c.unordered with ⟨q, _ | c'⟩
    · rw [movePending_of_none (a := { a' with rwnd }) hpop]
      exact h
    · obtain ⟨flags, _, heq⟩ := movePending_of_some (a := { a' with rwnd }) now hpop
      rw [heq]
      exact h

theorem ackStatus_gatherReconfig (a : AssociationInternal) (sisToReset : List U16) :
    (a.gatherOutboundReconfigPackets sisToReset).1.ackStatus = a.ackStatus := by
  unfold gatherOutboundReconfigPackets generateNextRsn
  dsimp only
  split_ifs <;> rfl

theorem ackStatus_gatherData (a : AssociationInternal) (now : ℕ) :
    (a.gatherOutboundDataAndReconfigPackets now).1.ackStatus = a.ackStatus := by
  have hpop := ackStatus_popPending a now
  unfold gatherOutboundDataAndReconfigPackets
  revert hpop
  generalize a.popPendingDataChunksToSend now = r
  obtain ⟨a₁, chunks, sisToReset⟩ := r
  intro hpop
  refine (ackStatus_gatherReconfig _ sisToReset).trans ?_
  split
  · exact hpop
  · exact hpop

theorem ackStatus_gatherForwardTsn (a : AssociationInternal) :
    a.gatherOutboundForwardTsnPackets.1.ackStatus = a.ackStatus :=
  gatherForwardTsn_frame (fun _ => rfl) a

/-- A SACK goes out for an immediate acknowledgement; a delayed one is left to its timer. -/
theorem ackStatus_gatherSack (a : AssociationInternal) :
    a.gatherOutboundSackPackets.1.ackStatus = a.ackStatus ∨
      a.gatherOutboundSackPackets.1.ackStatus = (.idle, a.ackTimer) := by
  unfold gatherOutboundSackPackets
  split
  · exact Or.inr rfl
  · exact Or.inl rfl

/-- A gathered packet leaves the acknowledgement alone or sends it. -/
theorem ackStatus_gatherOutbound (h : a.state = .established) (now : ℕ) :
    (a.gatherOutbound now).1.ackStatus = a.ackStatus ∨
      (a.gatherOutbound now).1.ackStatus = (.idle, a.ackTimer) := by
  rw [gatherOutbound_of_established h now]
  unfold gatherEstablished
  rw [ackStatus_gatherForwardTsn]
  have hbefore : ((({ a with controlQueue := [] }.getDataPacketsToRetransmit
      now).1.gatherOutboundDataAndReconfigPackets now).1.gatherOutboundFastRetransmissionPackets
        now).1.ackStatus = a.ackStatus := by
    rw [(resends_gatherFast _ now).ackStatus, ackStatus_gatherData,
      (resends_getDataPacketsToRetransmit _ now).ackStatus]
    rfl
  have htimer := congrArg Prod.snd hbefore
  rcases ackStatus_gatherSack ((({ a with controlQueue := [] }.getDataPacketsToRetransmit
      now).1.gatherOutboundDataAndReconfigPackets now).1.gatherOutboundFastRetransmissionPackets
        now).1 with hsame | hidle
  · exact Or.inl (hsame.trans hbefore)
  · exact Or.inr (hidle.trans (congrArg (Prod.mk AckState.idle) htimer))

/-! ## Operations -/

/-- The chunks of a packet are handled one after the other. -/
theorem handleChunks_append (now : ℕ) (p : Packet) (a : AssociationInternal) (xs ys : List Chunk) :
    handleChunks now p a (xs ++ ys) =
      match handleChunks now p a xs with
      | (a', .ok ()) => handleChunks now p a' ys
      | (a', .error e) => (a', .error e) := by
  induction xs generalizing a with
  | nil => rfl
  | cons c cs ih =>
    rw [List.cons_append, handleChunks, handleChunks]
    rcases a.handleChunk now p c with ⟨a₁, e | u⟩
    · rfl
    · exact ih a₁

theorem afterChunks_length (a : AssociationInternal) (now : ℕ) (p : Packet) :
    a.afterChunks now p p.chunks.length = (a.handleChunkStart.handleChunks now p p.chunks).1 := by
  unfold afterChunks
  rw [List.take_length]

/-- A timer that `start` leaves without a task was running and had none. -/
theorem AckTimer.start_tasks (t : AckTimer) :
    t.start.1.tasks ≠ [] ↔ (t.isRunning = true → t.tasks ≠ []) := by
  unfold AckTimer.start AckTimer.isRunning
  by_cases h : t.closeTx.isSome = true
  · rw [if_pos h]
    exact ⟨fun htasks _ => htasks, fun htasks => htasks h⟩
  · rw [if_neg h]
    exact ⟨fun _ h' => absurd h' h, fun _ => by simp⟩

/-- The three ways a packet ends. -/
theorem handleInbound_cases (a : AssociationInternal) (now : ℕ) (p : Packet) :
    (p.checkPacket.isOk = false ∧ (a.handleInbound now p).1 = a) ∨
    (p.checkPacket.isOk = true ∧ (a.handleInbound now p).2.isOk = false ∧
      (a.handleInbound now p).1 = a.afterChunks now p p.chunks.length) ∨
    (p.checkPacket.isOk = true ∧ (a.handleInbound now p).2.isOk = true ∧
      a.handleChunkStart.handleChunks now p p.chunks =
        (a.afterChunks now p p.chunks.length, .ok ()) ∧
      (a.handleInbound now p).1 = (a.afterChunks now p p.chunks.length).handleChunkEnd) := by
  rw [afterChunks_length]
  unfold handleInbound
  rcases p.checkPacket with e | u
  · exact Or.inl ⟨rfl, rfl⟩
  · right
    dsimp only
    rcases a.handleChunkStart.handleChunks now p p.chunks with ⟨a', e | u⟩
    · exact Or.inl ⟨rfl, rfl, rfl⟩
    · exact Or.inr ⟨rfl, rfl, rfl, rfl⟩

/-- Up to the end of the packet the acknowledgement is as before, or immediate. -/
theorem AckMoves.ackBacked (h : AckMoves a.handleChunkStart a') (ha : a.AckBacked) :
    a'.AckBacked := by
  intro hdelay
  rcases h.timer with ⟨htimer, hstate⟩ | himm
  · rw [ackPending_iff, htimer]
    exact (ackPending_iff a).mp (ha (hstate.symm.trans hdelay))
  · rw [himm] at hdelay
    cases hdelay

/-- An immediate acknowledgement is due at once. -/
theorem handleChunkEnd_of_immediate (h : a.immediateAckTriggered = true) :
    a.handleChunkEnd.ackState = .immediate := by
  unfold handleChunkEnd
  rw [if_pos h]

/-- A delayed one starts its timer. -/
theorem handleChunkEnd_of_delayed (h : a.immediateAckTriggered = false)
    (hd : a.delayedAckTriggered = true) :
    a.handleChunkEnd = { a with ackState := .delay, ackTimer := a.ackTimer.start.1 } := by
  unfold handleChunkEnd
  rw [if_neg (by rw [h]; exact Bool.false_ne_true), if_pos hd]

/-- Nothing triggered leaves all as it is. -/
theorem handleChunkEnd_of_none (h : a.immediateAckTriggered = false)
    (hd : a.delayedAckTriggered = false) : a.handleChunkEnd = a := by
  unfold handleChunkEnd
  rw [if_neg (by rw [h]; exact Bool.false_ne_true), if_neg (by rw [hd]; exact Bool.false_ne_true)]

/-- A packet keeps delayed acknowledgements backed exactly if it does not end in the start of
a dead timer. -/
theorem ackBacked_inbound {now : ℕ} {p : Packet} (ha : a.AckBacked)
    (hest : a.StaysEstablished (.inbound now p)) :
    (a.ackStep (.inbound now p)).AckBacked ↔ a.StartsLive (.inbound now p) := by
  have hmoves := ackMoves_handleChunks p.chunks hest.2
  rw [← afterChunks_length] at hmoves
  have hback := hmoves.ackBacked ha
  unfold ackStep StartsLive
  dsimp only
  rcases handleInbound_cases a now p with ⟨hcheck, heq⟩ | ⟨_, herr, heq⟩ | ⟨hcheck, hok, _, heq⟩
  · rw [heq, hcheck]
    exact ⟨fun _ h => absurd h Bool.false_ne_true, fun _ => ha⟩
  · rw [heq, herr]
    exact ⟨fun _ _ h => absurd h Bool.false_ne_true, fun _ => hback⟩
  · rw [heq]
    generalize a.afterChunks now p p.chunks.length = a' at hback ⊢
    rcases himm : a'.immediateAckTriggered with _ | _
    · rcases hdel : a'.delayedAckTriggered with _ | _
      · rw [handleChunkEnd_of_none himm hdel]
        exact ⟨fun _ _ _ _ h => absurd h Bool.false_ne_true, fun _ => hback⟩
      · rw [handleChunkEnd_of_delayed himm hdel]
        have hstart := AckTimer.start_tasks a'.ackTimer
        unfold AckBacked
        rw [ackPending_iff, ackPending_iff]
        exact ⟨fun h _ _ _ _ => hstart.mp (h rfl), fun h _ => hstart.mpr (h hcheck hok rfl rfl)⟩
    · refine ⟨fun _ _ _ h => absurd h Bool.noConfusion, fun _ h => ?_⟩
      rw [handleChunkEnd_of_immediate himm] at h
      cases h

/-- Every operation keeps delayed acknowledgements backed exactly if it starts no dead
timer. -/
theorem ackBacked_ackStep (ha : a.AckBacked) {op : AckOp} (hest : a.StaysEstablished op) :
    (a.ackStep op).AckBacked ↔ a.StartsLive op := by
  cases op with
  | inbound now p => exact ackBacked_inbound ha hest
  | wake task =>
    refine ⟨fun _ => trivial, fun _ hdelay => ?_⟩
    have htasks := (ackPending_iff a).mp (ha hdelay)
    rw [ackPending_iff]
    show a.ackTimer.tasks.map _ ≠ []
    exact fun h => htasks (List.map_eq_nil_iff.mp h)
  | expire task =>
    refine ⟨fun _ => trivial, fun _ => ?_⟩
    show (a.expireAck task).AckBacked
    unfold expireAck
    split
    · intro hdelay
      cases hdelay
    · exact ha
  | gather now =>
    refine ⟨fun _ => trivial, fun _ hdelay => ?_⟩
    have hdelay' : (a.gatherOutbound now).1.ackState = .delay := hdelay
    rcases ackStatus_gatherOutbound hest.1 now with hsame | hidle
    · have hstate : (a.gatherOutbound now).1.ackState = a.ackState := congrArg Prod.fst hsame
      have htimer : (a.gatherOutbound now).1.ackTimer = a.ackTimer := congrArg Prod.snd hsame
      show (a.gatherOutbound now).1.AckPending
      rw [ackPending_iff, htimer, ← ackPending_iff]
      exact ha (hstate.symm.trans hdelay')
    · have hstate : (a.gatherOutbound now).1.ackState = .idle := congrArg Prod.fst hidle
      rw [hstate] at hdelay'
      cases hdelay'

/-- A DATA chunk that gets to the acknowledgement has triggered one when the packet ends. -/
theorem ackTriggered_of_takesData {now : ℕ} {p : Packet}
    (hest : a.StaysEstablished (.inbound now p)) (h : a.TakesData now p) :
    (a.afterChunks now p p.chunks.length).AckTriggered := by
  obtain ⟨hcheck, hok, k, d, hd, hreach⟩ := h
  have hall : a.handleChunkStart.handleChunks now p p.chunks =
      (a.afterChunks now p p.chunks.length, .ok ()) := by
    rcases handleInbound_cases a now p with ⟨hno, _⟩ | ⟨_, hno, _⟩ | ⟨_, _, hall, _⟩
    · rw [hcheck] at hno
      cases hno
    · rw [hok] at hno
      cases hno
    · exact hall
  obtain ⟨hlt, hget⟩ := List.getElem?_eq_some_iff.mp hd
  have hsplit : p.chunks = p.chunks.take k ++ .payloadData d :: p.chunks.drop (k + 1) := by
    rw [← hget, ← List.drop_eq_getElem_cons hlt, List.take_append_drop]
  have htake : ∀ j, p.chunks.take (k + 1 + j) =
      p.chunks.take k ++ .payloadData d :: (p.chunks.drop (k + 1)).take j := by
    intro j
    rw [List.take_add, List.take_succ_eq_append_getElem hlt, hget, List.append_assoc]
    rfl
  -- the chunks before it, the chunk itself, and the chunks after it
  generalize a.afterChunks now p p.chunks.length = last at hall ⊢
  rw [hsplit, handleChunks_append] at hall
  unfold afterChunks at hreach
  have hstay := fun j => hest.2 (k + 1 + j)
  unfold afterChunks at hstay
  simp only [htake, handleChunks_append] at hstay
  rcases hpre : a.handleChunkStart.handleChunks now p (p.chunks.take k) with ⟨a₁, e | u⟩
  · rw [hpre] at hall
    cases congrArg Prod.snd hall
  · rw [hpre] at hall hreach hstay
    have hdata := ackMoves_handleData a₁ d
    have hchunk : a₁.handleChunk now p (.payloadData d) =
        ({ (a₁.handleData d).1 with
            controlQueue := (a₁.handleData d).1.controlQueue ++ (a₁.handleData d).2 }, .ok ()) := rfl
    simp only [handleChunks, hchunk] at hall hstay
    have hpost := ackMoves_handleChunks (p.chunks.drop (k + 1)) hstay
    rw [hall] at hpost
    exact hpost.ackTriggered (hdata.2 hreach)

/-- What was taken is acknowledged at once or by a task. -/
theorem acknowledges_of_takesData {now : ℕ} {p : Packet}
    (hest : a.StaysEstablished (.inbound now p)) (hback : (a.ackStep (.inbound now p)).AckBacked)
    (h : a.TakesData now p) :
    (a.ackStep (.inbound now p)).ackState = .immediate ∨
      (a.ackStep (.inbound now p)).AckPending := by
  have htriggered := ackTriggered_of_takesData hest h
  rcases handleInbound_cases a now p with ⟨hno, _⟩ | ⟨_, hno, _⟩ | ⟨_, _, _, heq⟩
  · rw [h.1] at hno
    cases hno
  · rw [h.2.1] at hno
    cases hno
  · have hstep : a.ackStep (.inbound now p) =
        (a.afterChunks now p p.chunks.length).handleChunkEnd := heq
    rw [hstep] at hback ⊢
    generalize a.afterChunks now p p.chunks.length = a' at htriggered hback ⊢
    rcases himm : a'.immediateAckTriggered with _ | _
    · right
      have hdel : a'.delayedAckTriggered = true := by
        rcases htriggered with hdel | himm'
        · exact hdel
        · rw [himm] at himm'
          cases himm'
      apply hback
      rw [handleChunkEnd_of_delayed himm hdel]
    · exact Or.inl (handleChunkEnd_of_immediate himm)

/-! ## Runs -/

/-- In every run of an established association, delayed acknowledgements stay backed by a
task exactly as long as no packet ends in the start of a timer that runs without a task. -/
theorem backsAcks_iff_startsLive (a : AssociationInternal) (ha : a.AckBacked) (ops : List AckOp)
    (hest : Runs.Along ackStep StaysEstablished a ops) :
    Runs.Along ackStep BacksAcks a ops ↔ Runs.Along ackStep StartsLive a ops := by
  apply Runs.along_iff_of_invariant (I := AckBacked) (fun _ _ _ h _ => h.1) ?_ ha hest
  intro b op hest hb
  have hstep := ackBacked_ackStep hb hest
  constructor
  · intro h
    exact hstep.mp h.1
  · intro h
    have hback := hstep.mpr h
    refine ⟨hback, ?_⟩
    cases op with
    | inbound now p => exact acknowledges_of_takesData hest hback
    | wake task => trivial
    | expire task => trivial
    | gather now => trivial

/-- An established association that has received everything up to TSN 0. -/
def upToDate : AssociationInternal :=
  { new { randomTsn := 1, randomTag := 1, randomCookie := [] } with
    state := .established, peerVerificationTag := 2, sourcePort := 5000, destinationPort := 5000 }

/-- A packet with one message of one byte. -/
def oneByte (tsn : U32) (immediateSack : Bool) : Packet :=
  { sourcePort := 5000
    destinationPort := 5000
    verificationTag := 1
    chunks := [.payloadData
      { tsn, immediateSack, beginningFragment := true, endingFragment := true, userData := [1] }] }

theorem staysEstablished_oneByte {a : AssociationInternal} {now : ℕ} {tsn : U32} {imm : Bool}
    (h : a.state = .established) (h' : (a.afterChunks now (oneByte tsn imm) 1).state = .established) :
    a.StaysEstablished (.inbound now (oneByte tsn imm)) := by
  refine ⟨h, fun k => ?_⟩
  cases k with
  | zero => exact h
  | succ k =>
    rw [show a.afterChunks now (oneByte tsn imm) (k + 1) =
      a.afterChunks now (oneByte tsn imm) 1 by unfold afterChunks oneByte; simp]
    exact h'

/-- A first delayed acknowledgement times out and is sent; the next data is acknowledged at
once. -/
theorem backsAcks_immediateNext :
    Runs.Along ackStep BacksAcks upToDate
      [.inbound 0 (oneByte 1 false), .wake 0, .expire 0, .gather 0, .inbound 0 (oneByte 2 true)] := by
  refine (backsAcks_iff_startsLive upToDate (by decide) _ ?_).mpr (by decide +kernel)
  exact ⟨staysEstablished_oneByte (by decide +kernel) (by decide +kernel),
    ⟨by decide +kernel, trivial⟩, ⟨by decide +kernel, trivial⟩, ⟨by decide +kernel, trivial⟩,
    staysEstablished_oneByte (by decide +kernel) (by decide +kernel), trivial⟩

/-- A second delayed acknowledgement after the first one has timed out is never sent. -/
theorem not_backsAcks_delayedNext :
    ¬ ∀ ops : List AckOp, Runs.Along ackStep StaysEstablished upToDate ops →
      Runs.Along ackStep BacksAcks upToDate ops := by
  intro h
  have hrun := h [.inbound 0 (oneByte 1 false), .wake 0, .expire 0, .gather 0,
    .inbound 0 (oneByte 2 false)]
    ⟨staysEstablished_oneByte (by decide +kernel) (by decide +kernel),
      ⟨by decide +kernel, trivial⟩, ⟨by decide +kernel, trivial⟩, ⟨by decide +kernel, trivial⟩,
      staysEstablished_oneByte (by decide +kernel) (by decide +kernel), trivial⟩
  exact absurd hrun.2.2.2.2.1.1 (by decide +kernel)

end AssociationInternal

end Sctp
