import Sctp.Association.EmissionTheorems

/-!
# Shutting down without losing data

SACK processing starts the shutdown exchange when nothing is in flight, and so do the call
of `shutdown` and an inbound SHUTDOWN; none of them looks at the pending queue, from which
nothing is sent any more then. So the exchange is a graceful one if the pending queue is
empty when the shutdown begins: no write succeeds after that.
-/

namespace Sctp

namespace AssociationInternal

variable {a a' : AssociationInternal}

/-! ## The invariant -/

/-- The association waits for the answer to its SHUTDOWN or SHUTDOWN ACK. -/
def Closing (a : AssociationInternal) : Prop :=
  a.state = .shutdownSent ∨ a.state = .shutdownAckSent

/-- Out of Established nothing is pending, and while closing nothing is in flight either;
only then a SHUTDOWN or SHUTDOWN ACK is to be sent. -/
structure ShutdownInv (a : AssociationInternal) : Prop where
  counted : a.inflightQueue.Counted
  control : emits Chunk.isShutdown a.controlQueue = false
  pending : a.state ≠ .established → a.NothingPending
  closing : a.Closing → a.inflightQueue.isEmpty = true
  willSend : a.willSendShutdown = true ∨ a.willSendShutdownAck = true → a.Closing

namespace ShutdownInv

/-- It depends on the shutdown flags, the state and the queues. -/
theorem congr (h : a.ShutdownInv) (hq : a.inflightQueue.Touched a'.inflightQueue)
    (hcontrol : a'.controlQueue = a.controlQueue) (hstate : a'.state = a.state)
    (hpending : a'.pendingQueue = a.pendingQueue)
    (hshutdown : a'.willSendShutdown = a.willSendShutdown)
    (hack : a'.willSendShutdownAck = a.willSendShutdownAck) : a'.ShutdownInv := by
  have hclosing : a'.Closing ↔ a.Closing := by
    unfold Closing
    rw [hstate]
  have hnothing : a'.NothingPending ↔ a.NothingPending := by
    unfold NothingPending
    rw [hpending]
  refine ⟨hq.counted h.counted, ?_, ?_, ?_, ?_⟩
  · rw [hcontrol]
    exact h.control
  · rw [hstate, hnothing]
    exact h.pending
  · rw [hclosing, hq.isEmpty_eq]
    exact h.closing
  · rw [hclosing, hshutdown, hack]
    exact h.willSend

/-- A chunk to be sent is found only in Established. -/
theorem established_of_peek (h : a.ShutdownInv) {c : ChunkPayloadData}
    (hpeek : a.pendingQueue.peek = some c) : a.state = .established := by
  by_contra hne
  obtain ⟨hu, ho⟩ := h.pending hne
  unfold PendingQueue.peek at hpeek
  rw [hu, ho] at hpeek
  simp at hpeek

theorem not_closing (h : a.state = .established) : ¬ a.Closing := by
  unfold Closing
  rw [h]
  simp

theorem gather (h : a.ShutdownInv) (now : ℕ) : (a.gatherOutbound now).1.ShutdownInv := by
  refine gatherOutbound_invariant ?_ ?_ ?_ ?_ ?_ ?_
  · intro a a' hcore h
    have hq : a'.inflightQueue = a.inflightQueue := (congrArg inflightQueue hcore :)
    refine h.congr ?_ (congrArg controlQueue hcore :) (congrArg state hcore :)
      (congrArg pendingQueue hcore :) (congrArg willSendShutdown hcore :)
      (congrArg willSendShutdownAck hcore :)
    rw [hq]
    exact PayloadQueue.Touched.refl _
  · intro a a' hresend h
    have hframe := hresend.frame
    exact h.congr hresend.touched (congrArg controlQueue hframe :) (congrArg state hframe :)
      (congrArg pendingQueue hframe :) (congrArg willSendShutdown hframe :)
      (congrArg willSendShutdownAck hframe :)
  · intro a c hpeek _ h
    have hstate := h.established_of_peek hpeek
    exact ⟨h.counted, h.control, fun hne => absurd hstate hne,
      fun hc => absurd hc (not_closing hstate), h.willSend⟩
  · intro a c rwnd hpeek h
    have hstate := h.established_of_peek hpeek
    rcases hpop : a.pendingQueue.pop c.beginningFragment c.unordered with ⟨q, _ | c'⟩
    · rw [movePending_of_none (a := { a with rwnd }) hpop]
      exact ⟨h.counted, h.control, fun hne => absurd hstate hne,
        fun hc => absurd hc (not_closing hstate), h.willSend⟩
    · obtain ⟨flags, _, heq⟩ := movePending_of_some (a := { a with rwnd }) now hpop
      rw [heq]
      exact ⟨h.counted.pushNoCheck _, h.control, fun hne => absurd hstate hne,
        fun hc => absurd hc (not_closing hstate), h.willSend⟩
  · intro a h
    unfold gatherOutboundShutdownPackets
    split_ifs
    · exact ⟨h.counted, h.control, h.pending, h.closing, fun hw => h.willSend (hw.imp nofun id)⟩
    · exact ⟨h.counted, h.control, h.pending, h.closing, fun hw => h.willSend (hw.imp id nofun)⟩
    · exact ⟨h.counted, h.control, h.pending, h.closing, h.willSend⟩
    · exact h
  · exact ⟨h.counted, rfl, h.pending, h.closing, h.willSend⟩

/-! ### The other operations -/

theorem write (h : a.ShutdownInv) (r : StreamRef) (p : Bytes) (ppi : PayloadProtocolIdentifier) :
    (a.writeSctp r p ppi).1.ShutdownInv := by
  by_cases hstate : a.state = .established
  · obtain ⟨flags, pendingQueue, objects, heq⟩ := a.writeSctp_eq r p ppi
    rw [heq]
    exact ⟨h.counted, h.control, fun hne => absurd hstate hne,
      fun hc => absurd hc (not_closing hstate), h.willSend⟩
  · -- the write fails
    obtain ⟨flags, objects, heq⟩ := a.writeSctp_eq_of_ne hstate r p ppi
    rw [heq]
    exact h.congr (PayloadQueue.Touched.refl _) rfl rfl rfl rfl rfl

theorem shutdownStream (h : a.ShutdownInv) (r : StreamRef) (how : Shutdown) :
    (a.shutdownStream r how).1.ShutdownInv := by
  by_cases hstate : a.state = .established
  · obtain ⟨flags, pendingQueue, objects, heq⟩ := a.shutdownStream_eq r how
    rw [heq]
    exact ⟨h.counted, h.control, fun hne => absurd hstate hne,
      fun hc => absurd hc (not_closing hstate), h.willSend⟩
  · obtain ⟨flags, objects, heq⟩ := a.shutdownStream_eq_of_ne hstate r how
    rw [heq]
    exact h.congr (PayloadQueue.Touched.refl _) rfl rfl rfl rfl rfl

theorem t3Rtx (h : a.ShutdownInv) : a.onT3RtxTimeout.ShutdownInv := by
  have hframe := a.onT3RtxTimeout_frame
  exact h.congr a.onT3RtxTimeout_touched (congrArg controlQueue hframe :) (congrArg state hframe :)
    (congrArg pendingQueue hframe :) (congrArg willSendShutdown hframe :)
    (congrArg willSendShutdownAck hframe :)

/-- The application's shutdown, with nothing pending. -/
theorem shutdown (h : a.ShutdownInv) (hp : a.state = .established → a.NothingPending) :
    a.shutdown.1.ShutdownInv := by
  unfold AssociationInternal.shutdown setState
  by_cases hstate : a.state = .established
  · rw [if_neg (by simp [hstate])]
    dsimp only
    split
    · rename_i hlen
      exact ⟨h.counted, h.control, fun _ => hp hstate, fun _ => h.counted.isEmpty hlen,
        fun _ => Or.inl rfl⟩
    · refine ⟨h.counted, h.control, fun _ => hp hstate, ?_, ?_⟩
      · intro hc
        exact absurd hc (by unfold Closing; simp)
      · intro hw
        exact absurd (h.willSend hw) (not_closing hstate)
  · rw [if_pos hstate]
    exact h

/-- An inbound SHUTDOWN, with nothing pending. -/
theorem shutdownChunk (h : a.ShutdownInv) (hp : a.state = .established → a.NothingPending) :
    a.handleShutdown.ShutdownInv := by
  unfold handleShutdown setState
  by_cases hstate : a.state = .established
  · rw [if_pos hstate]
    dsimp only
    split
    · refine ⟨h.counted, h.control, fun _ => hp hstate, ?_, ?_⟩
      · intro hc
        exact absurd hc (by unfold Closing; simp)
      · intro hw
        exact absurd (h.willSend hw) (not_closing hstate)
    · rename_i hempty
      exact ⟨h.counted, h.control, fun _ => hp hstate, fun _ => by simpa using hempty,
        fun _ => Or.inr rfl⟩
  · rw [if_neg hstate]
    split
    · rename_i hsent
      exact ⟨h.counted, h.control, fun _ => h.pending hstate, fun _ => h.closing (Or.inl hsent),
        fun _ => Or.inr rfl⟩
    · exact h

theorem sack (h : a.ShutdownInv) (now : ℕ) (d : ChunkSelectiveAck) :
    (a.handleSack now d).1.ShutdownInv := by
  rcases a.handleSack_cases now d with heq | ⟨hstate, a', cum, adv, hframe, hcounted, heq⟩
  · rw [heq]
    exact h
  · have hnot : ¬ a.Closing := by
      unfold Closing
      rcases hstate with hs | hs | hs <;> simp [hs]
    have hstate' : a'.state = a.state := (congrArg state hframe :)
    have hpending : a'.pendingQueue = a.pendingQueue := (congrArg pendingQueue hframe :)
    have hcontrol : a'.controlQueue = a.controlQueue := (congrArg controlQueue hframe :)
    have hshutdown : a'.willSendShutdown = a.willSendShutdown :=
      (congrArg willSendShutdown hframe :)
    have hack : a'.willSendShutdownAck = a.willSendShutdownAck :=
      (congrArg willSendShutdownAck hframe :)
    have hnot' : ¬ a'.Closing := by
      unfold Closing at hnot ⊢
      rwa [hstate']
    have h' : a'.ShutdownInv := by
      refine ⟨hcounted h.counted, ?_, ?_, fun hc => absurd hc hnot', ?_⟩
      · rw [hcontrol]
        exact h.control
      · rw [hstate']
        unfold NothingPending
        rw [hpending]
        exact h.pending
      · rw [hshutdown, hack]
        intro hw
        exact absurd (h.willSend hw) hnot
    rcases heq with heq | heq
    · rw [heq]
      exact h'
    · rw [heq]
      unfold postprocessSack setState
      by_cases hempty : a'.inflightQueue.isEmpty = true
      · rw [if_neg (by simp [hempty])]
        split_ifs with h1 h2
        · exact ⟨h'.counted, h'.control, fun _ => h'.pending (by simp [hstate', h1]),
            fun _ => hempty, fun _ => Or.inl rfl⟩
        · exact ⟨h'.counted, h'.control, fun _ => h'.pending (by simp [hstate', h2]),
            fun _ => hempty, fun _ => Or.inr rfl⟩
        · exact h'
      · rw [if_pos (by simp [hempty])]
        exact ⟨h'.counted, h'.control, h'.pending, h'.closing, h'.willSend⟩

/-- What one operation keeps. -/
theorem senderStep (h : a.ShutdownInv) {op : SenderOp} (hop : a.StartsShutdownDrained op) :
    (a.senderStep op).ShutdownInv := by
  cases op with
  | openStream si ppi =>
    obtain ⟨objects, streams, heq⟩ := a.openStream_eq si ppi
    have hstep : (a.openStream si ppi).1.ShutdownInv := by
      rw [heq]
      exact h.congr (PayloadQueue.Touched.refl _) rfl rfl rfl rfl rfl
    exact hstep
  | setReliabilityParams r unordered relType relVal =>
    exact h.congr (PayloadQueue.Touched.refl _) rfl rfl rfl rfl rfl
  | write r p ppi => exact h.write r p ppi
  | shutdownStream r how => exact h.shutdownStream r how
  | push c => exact hop.elim
  | gather now => exact h.gather now
  | t3Rtx => exact h.t3Rtx
  | sack now d => exact h.sack now d
  | shutdownChunk => exact h.shutdownChunk hop
  | shutdown => exact h.shutdown hop

/-- A SHUTDOWN is sent only where it loses nothing. -/
theorem shutsDownDrained (h : a.ShutdownInv) (op : SenderOp) : a.ShutsDownDrained op := by
  intro hemits
  cases op with
  | gather now =>
    have hclosing := h.willSend (emitsShutdown_gather h.control hemits)
    refine ⟨h.pending ?_, h.closing hclosing⟩
    intro hstate
    exact not_closing hstate hclosing
  | _ => cases hemits

end ShutdownInv

theorem Fresh.shutdownInv (h : a.Fresh) (hstate : a.state = .established) : a.ShutdownInv where
  counted := by
    rw [h.inflightQueue]
    exact Nat.le_refl 0
  control := h.not_emitsShutdown
  pending hne := absurd hstate hne
  closing hc := absurd hc (ShutdownInv.not_closing hstate)
  willSend hw := by
    rw [h.willSendShutdown, h.willSendShutdownAck] at hw
    simp at hw

/-- **Graceful shutdown**: if nothing is pending whenever a shutdown starts, no SHUTDOWN or
SHUTDOWN ACK is sent before all that was written is acknowledged. -/
theorem shutsDownDrained_of_startsShutdownDrained (ha : a.Fresh) (hstate : a.state = .established)
    (ops : List SenderOp) (hops : Runs.Along senderStep StartsShutdownDrained a ops) :
    Runs.Along senderStep ShutsDownDrained a ops :=
  Runs.along_of_invariant (fun _ _ hop h => h.senderStep hop)
    (fun _ op _ h => h.shutsDownDrained op) (ha.shutdownInv hstate) hops

/-- A shutdown after the data written is acknowledged. -/
theorem shutsDownDrained_justEstablished :
    Runs.Along senderStep ShutsDownDrained justEstablished
      [.openStream 1 .binary, .write 0 [1] .binary, .gather 5, .sack 9 ⟨0xffffffff, 4096, [], []⟩,
        .shutdown, .gather 10] :=
  shutsDownDrained_of_startsShutdownDrained justEstablished_fresh rfl _ (by decide +kernel)

/-- A shutdown that is called before the write loop has taken the data written: the SHUTDOWN
goes out while the data is pending. -/
theorem not_shutsDownDrained_justEstablished :
    ¬ Runs.Along senderStep ShutsDownDrained justEstablished
      [.openStream 1 .binary, .write 0 [1] .binary, .shutdown, .gather 5] := by
  decide +kernel

end AssociationInternal

end Sctp
