import Sctp.Association.Outbound
import Sctp.Association.InboundTheorems
import Sctp.StreamTheorems

/-!
# What gathering packets changes

`gather_outbound` consists of retransmissions, of moves from the pending queue into flight,
and of changes to other fields. A property of the state that the three kinds of steps keep
is kept by the whole (`gatherOutbound_invariant`).
-/

namespace Sctp

namespace AssociationInternal

variable {a a' : AssociationInternal}

/-! ## Retransmissions -/

/-- A chunk's message is given up, or nothing happens. -/
theorem checkPartialReliabilityStatus_cases (a : AssociationInternal) (now : ℕ)
    (c : ChunkPayloadData) : a.checkPartialReliabilityStatus now c = a ∨
      a.checkPartialReliabilityStatus now c = { a with flags := c.setAbandoned a.flags true } := by
  unfold checkPartialReliabilityStatus
  split
  · exact Or.inl rfl
  · split
    · exact Or.inl rfl
    · split
      · exact Or.inl rfl
      · split_ifs
        · exact Or.inr rfl
        · exact Or.inl rfl
        · exact Or.inr rfl
        · exact Or.inl rfl
        · exact Or.inl rfl

section

variable {β : Type*} {f : AssociationInternal → β}

section

variable (hf : ∀ a inflightQueue flags, f { a with inflightQueue, flags } = f a)

include hf

/-- Sending again changes the chunks in flight and flags. -/
theorem resend_frame (a : AssociationInternal) (now : ℕ) (tsn : U32)
    (g : ChunkPayloadData → ChunkPayloadData) : f (a.resend now tsn g).1 = f a := by
  unfold resend
  dsimp only
  split
  · exact hf a _ a.flags
  · rename_i c _
    rcases checkPartialReliabilityStatus_cases
      { a with inflightQueue := a.inflightQueue.getMut tsn g } now c with heq | heq
    · rw [heq]
      exact hf a _ a.flags
    · rw [heq]
      exact hf a _ _

/-- The loop writes flags and the queue in flight only. -/
theorem retransmitFrom_frame (now : ℕ) (awnd : U32) (a : AssociationInternal) (bytesToSend : ℕ)
    (chunks : List ChunkPayloadData) (first : Bool) (tsns : List U32) :
    f (retransmitFrom now awnd a bytesToSend chunks first tsns).1 = f a := by
  induction tsns generalizing a bytesToSend chunks first with
  | nil => rfl
  | cons tsn tsns ih =>
    rw [retransmitFrom]
    split
    · rfl
    · rename_i c _
      split
      · exact ih a bytesToSend chunks false
      · dsimp only
        split
        · rfl
        · have hsend := resend_frame hf a now tsn fun c =>
            { c with retransmit := false, nsent := c.nsent + 1 }
          split
          · exact hsend
          · exact (ih _ _ _ _).trans hsend

/-- So does the loop of a fast retransmission. -/
theorem fastRetransmitFrom_frame (now : ℕ) (a : AssociationInternal) (size : U32)
    (toSend : List Chunk) (tsns : List U32) :
    f (fastRetransmitFrom now a size toSend tsns).1 = f a := by
  induction tsns generalizing a size toSend with
  | nil => rfl
  | cons tsn tsns ih =>
    rw [fastRetransmitFrom]
    split
    · rfl
    · split
      · exact ih a size toSend
      · dsimp only
        split
        · rfl
        · exact (ih _ _ _).trans (resend_frame hf a now tsn fun c => { c with nsent := c.nsent + 1 })

theorem getDataPacketsToRetransmit_frame (a : AssociationInternal) (now : ℕ) :
    f (a.getDataPacketsToRetransmit now).1 = f a := retransmitFrom_frame hf ..

/-- A fast retransmission clears its flag besides. -/
theorem gatherFast_frame (hfast : ∀ a, f { a with willRetransmitFast := false } = f a)
    (a : AssociationInternal) (now : ℕ) :
    f (a.gatherOutboundFastRetransmissionPackets now).1 = f a := by
  unfold gatherOutboundFastRetransmissionPackets
  split
  · exact (fastRetransmitFrom_frame hf now { a with willRetransmitFast := false } commonHeaderSize
      [] _).trans (hfast a)
  · rfl

end

end

/-- The only flags that differ are abandoned flags of chunks in flight, which are now set. -/
def Abandons (q : PayloadQueue) (flags flags' : SharedFlags) : Prop :=
  flags'.length = flags.length ∧ ∀ x, flags'.load x = flags.load x ∨
    (flags'.load x = true ∧ ∃ t c, q.get t = some c ∧ c.abandoned = x)

/-- Nothing is given up. -/
theorem Abandons.refl (q : PayloadQueue) (flags : SharedFlags) : Abandons q flags flags :=
  ⟨rfl, fun _ => Or.inl rfl⟩

/-- A chunk in flight is given up, and with it its message. -/
theorem Abandons.setAbandoned {q : PayloadQueue} {t : U32} {c : ChunkPayloadData}
    (hc : q.get t = some c) (flags : SharedFlags) :
    Abandons q flags (c.setAbandoned flags true) := by
  refine ⟨SharedFlags.length_store .., fun x => ?_⟩
  by_cases hx : x = c.abandoned
  · by_cases hlen : c.abandoned < flags.length
    · refine Or.inr ⟨?_, t, c, hc, hx.symm⟩
      rw [hx]
      exact SharedFlags.load_store_self hlen true
    · refine Or.inl ?_
      unfold ChunkPayloadData.setAbandoned SharedFlags.store
      rw [List.set_eq_of_length_le (Nat.le_of_not_lt hlen)]
  · exact Or.inl (SharedFlags.load_store_ne hx true)

/-- One after the other. -/
theorem Abandons.trans {q q' : PayloadQueue} {f₁ f₂ f₃ : SharedFlags} (hq : q.Touched q')
    (h : Abandons q f₁ f₂) (h' : Abandons q' f₂ f₃) : Abandons q f₁ f₃ := by
  refine ⟨h'.1.trans h.1, fun x => ?_⟩
  rcases h'.2 x with heq | ⟨hset, t, c', hc', hx⟩
  · rw [heq]
    exact h.2 x
  · obtain ⟨c, hc, hlabel⟩ := hq.get_eq_some hc'
    refine Or.inr ⟨hset, t, c, hc, ?_⟩
    rw [← hx]
    have habandoned := congrArg ChunkPayloadData.abandoned hlabel
    exact habandoned

/-- Chunks in flight are sent once more; some messages may be given up by that. -/
structure Resends (a a' : AssociationInternal) : Prop where
  frame : a'.frame = { a with flags := a'.flags }.frame
  touched : a.inflightQueue.Touched a'.inflightQueue
  abandons : Abandons a.inflightQueue a.flags a'.flags

theorem Resends.refl (a : AssociationInternal) : Resends a a :=
  ⟨rfl, PayloadQueue.Touched.refl _, Abandons.refl ..⟩

theorem Resends.trans {a₁ a₂ a₃ : AssociationInternal} (h : Resends a₁ a₂)
    (h' : Resends a₂ a₃) : Resends a₁ a₃ where
  frame := by
    have hframe : { a₂ with flags := a₃.flags }.frame = { a₁ with flags := a₃.flags }.frame := by
      show { a₂.frame with flags := a₃.flags } = _
      rw [h.frame]
      rfl
    exact h'.frame.trans hframe
  touched := h.touched.trans h'.touched
  abandons := h.abandons.trans h.touched h'.abandons

/-- Sending a chunk again takes a note and may give its message up. -/
theorem resends_resend (a : AssociationInternal) (now : ℕ) (tsn : U32)
    {f : ChunkPayloadData → ChunkPayloadData}
    (hf : ∀ c, PayloadQueue.label (f c) = PayloadQueue.label c) :
    Resends a (a.resend now tsn f).1 := by
  have htouched := PayloadQueue.Touched.getMut a.inflightQueue tsn hf
  have h1 : Resends a { a with inflightQueue := a.inflightQueue.getMut tsn f } :=
    ⟨rfl, htouched, Abandons.refl ..⟩
  unfold resend
  dsimp only
  split
  · exact h1
  · rename_i c hc
    rcases checkPartialReliabilityStatus_cases
      { a with inflightQueue := a.inflightQueue.getMut tsn f } now c with heq | heq
    · rw [heq]
      exact h1
    · rw [heq]
      exact h1.trans ⟨rfl, PayloadQueue.Touched.refl _, Abandons.setAbandoned hc a.flags⟩

/-- So does the loop of the retransmissions, chunk by chunk. -/
theorem resends_retransmitFrom (now : ℕ) (awnd : U32) (a : AssociationInternal)
    (bytesToSend : ℕ) (chunks : List ChunkPayloadData) (first : Bool) (tsns : List U32) :
    Resends a (retransmitFrom now awnd a bytesToSend chunks first tsns).1 := by
  induction tsns generalizing a bytesToSend chunks first with
  | nil => exact Resends.refl a
  | cons tsn tsns ih =>
    rw [retransmitFrom]
    split
    · exact Resends.refl a
    · rename_i c hc
      split
      · exact ih a bytesToSend chunks false
      · dsimp only
        split
        · exact Resends.refl a
        · have hsend := resends_resend a now tsn
            (f := fun c => { c with retransmit := false, nsent := c.nsent + 1 }) fun c => rfl
          split
          · exact hsend
          · exact hsend.trans (ih _ _ _ _)

/-- So does the loop of the fast retransmissions. -/
theorem resends_fastRetransmitFrom (now : ℕ) (a : AssociationInternal) (size : U32)
    (toSend : List Chunk) (tsns : List U32) :
    Resends a (fastRetransmitFrom now a size toSend tsns).1 := by
  induction tsns generalizing a size toSend with
  | nil => exact Resends.refl a
  | cons tsn tsns ih =>
    rw [fastRetransmitFrom]
    split
    · exact Resends.refl a
    · split
      · exact ih a size toSend
      · dsimp only
        split
        · exact Resends.refl a
        · have hsend := resends_resend a now tsn
            (f := fun c => { c with nsent := c.nsent + 1 }) fun c => rfl
          exact hsend.trans (ih _ _ _)

theorem resends_getDataPacketsToRetransmit (a : AssociationInternal) (now : ℕ) :
    Resends a (a.getDataPacketsToRetransmit now).1 := resends_retransmitFrom ..

theorem resends_gatherFast (a : AssociationInternal) (now : ℕ) :
    Resends a (a.gatherOutboundFastRetransmissionPackets now).1 := by
  unfold gatherOutboundFastRetransmissionPackets
  split
  · have h := resends_fastRetransmitFrom now { a with willRetransmitFast := false } commonHeaderSize
      [] (a.inflightQueue.tsnsFrom (a.cumulativeTsnAckPoint + 1))
    exact ⟨h.frame, h.touched, h.abandons⟩
  · exact Resends.refl a

/-! ## From pending to in flight -/

/-- The chunk as it goes into flight. -/
def numbered (c : ChunkPayloadData) (tsn : U32) (now : ℕ) : ChunkPayloadData :=
  { c with tsn, since := now, nsent := 1 }

/-- Nothing is popped, and nothing is moved. -/
theorem movePending_of_none {now : ℕ} {b u : Bool} {q : PendingQueue}
    (h : a.pendingQueue.pop b u = (q, none)) :
    a.movePendingDataChunkToInflightQueue now b u = ({ a with pendingQueue := q }, none) := by
  unfold movePendingDataChunkToInflightQueue
  rw [h]

/-- A chunk that moves gets the next TSN. -/
theorem movePending_of_some (now : ℕ) {b u : Bool} {q : PendingQueue} {c : ChunkPayloadData}
    (h : a.pendingQueue.pop b u = (q, some c)) :
    ∃ flags, (flags = c.setAllInflight a.flags ∨
        flags = c.setAbandoned (c.setAllInflight a.flags) true) ∧
      a.movePendingDataChunkToInflightQueue now b u =
        ({ a with
            pendingQueue := q
            flags
            myNextTsn := a.myNextTsn + 1
            inflightQueue := a.inflightQueue.pushNoCheck (numbered c a.myNextTsn now) },
          some (numbered c a.myNextTsn now)) := by
  unfold movePendingDataChunkToInflightQueue generateNextTsn
  rw [h]
  dsimp only
  rcases checkPartialReliabilityStatus_cases
    { a with pendingQueue := q, flags := c.setAllInflight a.flags, myNextTsn := a.myNextTsn + 1 }
    now { c with tsn := a.myNextTsn, since := now, nsent := 1 } with heq | heq
  · refine ⟨_, Or.inl rfl, ?_⟩
    rw [heq]
    rfl
  · refine ⟨_, Or.inr rfl, ?_⟩
    rw [heq]
    rfl

/-- Every round of the loop over the pending queue drops an end-of-stream marker or moves a
chunk into flight; a property of the state and of the chunks moved that both keep holds
after the loop. -/
theorem popPendingLoop_invariant {P : AssociationInternal → List ChunkPayloadData → Prop} {now : ℕ}
    (hdrop : ∀ a chunks c, a.pendingQueue.peek = some c → c.userData = [] → P a chunks →
      P { a with pendingQueue := (a.pendingQueue.pop c.beginningFragment c.unordered).1 } chunks)
    (hmove : ∀ a chunks c rwnd, a.pendingQueue.peek = some c → c.userData ≠ [] → P a chunks →
      P ({ a with rwnd }.movePendingDataChunkToInflightQueue now c.beginningFragment c.unordered).1
        (chunks ++ ({ a with rwnd }.movePendingDataChunkToInflightQueue now c.beginningFragment
          c.unordered).2.toList))
    (fuel : ℕ) {chunks : List ChunkPayloadData} (sisToReset : List U16) (h : P a chunks) :
    P (popPendingLoop now fuel a chunks sisToReset).1
      (popPendingLoop now fuel a chunks sisToReset).2.1 := by
  induction fuel generalizing a chunks sisToReset with
  | zero => exact h
  | succ fuel ih =>
    rw [popPendingLoop]
    split
    · exact h
    · rename_i c hpeek
      dsimp only
      split
      · rename_i hlen
        exact ih _ (hdrop a chunks c hpeek (List.length_eq_zero_iff.mp hlen) h)
      · rename_i hlen
        have hne : c.userData ≠ [] := fun h0 => hlen (by rw [h0]; rfl)
        split
        · exact h
        · split
          · exact h
          · exact ih _ (hmove a chunks c _ hpeek hne h)

/-- The same for all that is popped, the probe of a closed window included. -/
theorem popPendingDataChunksToSend_invariant
    {P : AssociationInternal → List ChunkPayloadData → Prop} {now : ℕ}
    (hdrop : ∀ a chunks c, a.pendingQueue.peek = some c → c.userData = [] → P a chunks →
      P { a with pendingQueue := (a.pendingQueue.pop c.beginningFragment c.unordered).1 } chunks)
    (hmove : ∀ a chunks c rwnd, a.pendingQueue.peek = some c → P a chunks →
      P ({ a with rwnd }.movePendingDataChunkToInflightQueue now c.beginningFragment c.unordered).1
        (chunks ++ ({ a with rwnd }.movePendingDataChunkToInflightQueue now c.beginningFragment
          c.unordered).2.toList))
    (h : P a []) :
    P (a.popPendingDataChunksToSend now).1 (a.popPendingDataChunksToSend now).2.1 := by
  unfold popPendingDataChunksToSend
  split
  · exact h
  · have hloop := popPendingLoop_invariant hdrop
      (fun a chunks c rwnd hpeek _ => hmove a chunks c rwnd hpeek) a.popPendingRounds [] h
    generalize popPendingLoop now a.popPendingRounds a [] [] = r at hloop ⊢
    obtain ⟨a₁, chunks, sisToReset⟩ := r
    show P (a₁.zeroWindowProbe now chunks).1 (a₁.zeroWindowProbe now chunks).2
    unfold zeroWindowProbe
    split
    · split
      · exact hloop
      · rename_i c hpeek
        exact hmove a₁ chunks c a₁.rwnd hpeek hloop
    · exact hloop

/-- What is popped changes the pending queue, the chunks in flight and what goes with them. -/
theorem popPendingDataChunksToSend_frame {β : Type*} {f : AssociationInternal → β}
    (hf : ∀ a pendingQueue rwnd flags myNextTsn inflightQueue,
      f { a with pendingQueue, rwnd, flags, myNextTsn, inflightQueue } = f a)
    (a : AssociationInternal) (now : ℕ) : f (a.popPendingDataChunksToSend now).1 = f a := by
  refine popPendingDataChunksToSend_invariant (P := fun b _ => f b = f a) ?_ ?_ rfl
  · intro b _ c _ _ h
    exact (hf b _ b.rwnd b.flags b.myNextTsn b.inflightQueue).trans h
  · intro b _ c rwnd _ h
    rcases hpop : b.pendingQueue.pop c.beginningFragment c.unordered with ⟨q, _ | c'⟩
    · rw [movePending_of_none (a := { b with rwnd }) hpop]
      exact (hf b q rwnd b.flags b.myNextTsn b.inflightQueue).trans h
    · obtain ⟨flags, _, heq⟩ := movePending_of_some (a := { b with rwnd }) now hpop
      rw [heq]
      exact (hf b q rwnd flags _ _).trans h

/-! ## Everything else -/

/-- What sending data and shutting down depend on. -/
def core (a : AssociationInternal) : AssociationInternal :=
  { a.frame with
    inflightQueue := a.inflightQueue
    objects := a.objects
    payloadQueue := {}
    ackState := .idle
    willRetransmitReconfig := false
    reconfigs := ∅
    myNextRsn := 0
    treconfig := {} }

/-- Gathering requests to reset streams writes the bookkeeping of the requests only. -/
theorem gatherReconfig_frame {β : Type*} {f : AssociationInternal → β}
    (hf : ∀ a willRetransmitReconfig reconfigs myNextRsn treconfig,
      f { a with willRetransmitReconfig, reconfigs, myNextRsn, treconfig } = f a)
    (a : AssociationInternal) (sisToReset : List U16) :
    f (a.gatherOutboundReconfigPackets sisToReset).1 = f a := by
  unfold gatherOutboundReconfigPackets generateNextRsn
  dsimp only
  split_ifs <;> first | rfl | exact hf a _ _ _ _

theorem core_gatherReconfig (a : AssociationInternal) (sisToReset : List U16) :
    (a.gatherOutboundReconfigPackets sisToReset).1.core = a.core :=
  gatherReconfig_frame (fun _ _ _ _ _ => rfl) a sisToReset

/-- New data and RECONFIG chunks change the queues of the sender, and what goes with them. -/
theorem gatherData_frame {β : Type*} {f : AssociationInternal → β}
    (hpop : ∀ a pendingQueue rwnd flags myNextTsn inflightQueue,
      f { a with pendingQueue, rwnd, flags, myNextTsn, inflightQueue } = f a)
    (hreconfig : ∀ a t3rtx willRetransmitReconfig reconfigs myNextRsn treconfig,
      f { a with t3rtx, willRetransmitReconfig, reconfigs, myNextRsn, treconfig } = f a)
    (a : AssociationInternal) (now : ℕ) :
    f (a.gatherOutboundDataAndReconfigPackets now).1 = f a := by
  have hpopped := popPendingDataChunksToSend_frame hpop a now
  unfold gatherOutboundDataAndReconfigPackets
  generalize a.popPendingDataChunksToSend now = r at hpopped ⊢
  obtain ⟨a₁, chunks, sisToReset⟩ := r
  dsimp only
  rw [gatherReconfig_frame fun a => hreconfig a a.t3rtx]
  split
  · exact (hreconfig a₁ _ a₁.willRetransmitReconfig a₁.reconfigs a₁.myNextRsn
      a₁.treconfig).trans hpopped
  · exact hpopped

/-- The shutdown packets change the flags that ask for them and a timer. -/
theorem gatherOutboundShutdownPackets_eq (a : AssociationInternal) :
    ∃ willSendShutdown willSendShutdownAck willSendShutdownComplete t2shutdown,
      a.gatherOutboundShutdownPackets.1 =
        { a with willSendShutdown, willSendShutdownAck, willSendShutdownComplete, t2shutdown } := by
  unfold gatherOutboundShutdownPackets
  dsimp only
  split_ifs <;> exact ⟨_, _, _, _, rfl⟩

/-! What does not look at the fields that a gatherer writes stays the same. -/

section

variable {β : Type*} {f : AssociationInternal → β}

/-- Gathering a SACK writes the acknowledgement state and forgets the duplicates. -/
theorem gatherSack_frame
    (hsack : ∀ a ackState payloadQueue, f { a with ackState, payloadQueue } = f a)
    (a : AssociationInternal) : f a.gatherOutboundSackPackets.1 = f a := by
  unfold gatherOutboundSackPackets
  split
  · exact hsack a _ _
  · rfl

/-- Gathering a FORWARD TSN clears its flag. -/
theorem gatherForwardTsn_frame (hforward : ∀ a, f { a with willSendForwardTsn := false } = f a)
    (a : AssociationInternal) : f a.gatherOutboundForwardTsnPackets.1 = f a := by
  unfold gatherOutboundForwardTsnPackets
  dsimp only
  split_ifs
  · exact hforward a
  · exact hforward a
  · rfl

/-- Gathering a SHUTDOWN clears its flag and starts the timer. -/
theorem gatherShutdownPackets_frame
    (hshutdown : ∀ a willSendShutdown willSendShutdownAck willSendShutdownComplete t2shutdown,
      f { a with willSendShutdown, willSendShutdownAck, willSendShutdownComplete, t2shutdown } = f a)
    (a : AssociationInternal) : f a.gatherOutboundShutdownPackets.1 = f a := by
  obtain ⟨_, _, _, _, heq⟩ := a.gatherOutboundShutdownPackets_eq
  rw [heq]
  exact hshutdown a _ _ _ _

/-- While a shutdown is under way nothing new is sent. -/
theorem gatherShutdown_frame
    (hresend : ∀ a inflightQueue flags, f { a with inflightQueue, flags } = f a)
    (hfast : ∀ a, f { a with willRetransmitFast := false } = f a)
    (hsack : ∀ a ackState payloadQueue, f { a with ackState, payloadQueue } = f a)
    (hshutdown : ∀ a willSendShutdown willSendShutdownAck willSendShutdownComplete t2shutdown,
      f { a with willSendShutdown, willSendShutdownAck, willSendShutdownComplete, t2shutdown } = f a)
    (a : AssociationInternal) (now : ℕ) : f (a.gatherShutdown now).1 = f a := by
  unfold gatherShutdown
  exact (gatherShutdownPackets_frame hshutdown _).trans ((gatherSack_frame hsack _).trans
    ((gatherFast_frame hresend hfast _ now).trans (getDataPacketsToRetransmit_frame hresend a now)))

/-- While it shuts down, an association gathers retransmissions, SACKs and the chunks of the
shutdown. -/
theorem gatherOutbound_frame_of_ne
    (hcontrol : ∀ a, f { a with controlQueue := [] } = f a)
    (hresend : ∀ a inflightQueue flags, f { a with inflightQueue, flags } = f a)
    (hfast : ∀ a, f { a with willRetransmitFast := false } = f a)
    (hsack : ∀ a ackState payloadQueue, f { a with ackState, payloadQueue } = f a)
    (hshutdown : ∀ a willSendShutdown willSendShutdownAck willSendShutdownComplete t2shutdown,
      f { a with willSendShutdown, willSendShutdownAck, willSendShutdownComplete, t2shutdown } = f a)
    (hstate : a.state ≠ .established) (now : ℕ) : f (a.gatherOutbound now).1 = f a := by
  have hclosing := gatherShutdown_frame hresend hfast hsack hshutdown { a with controlQueue := [] } now
  have hlast := gatherShutdownPackets_frame hshutdown { a with controlQueue := [] }
  refine Eq.trans ?_ (hcontrol a)
  unfold gatherOutbound
  dsimp only
  split
  · rename_i hestablished
    exact absurd hestablished hstate
  · exact hclosing
  · exact hclosing
  · exact hclosing
  · exact hlast
  · rfl

end

theorem core_gatherSack (a : AssociationInternal) :
    (a.gatherOutboundSackPackets).1.core = a.core := gatherSack_frame (fun _ _ _ => rfl) a

theorem core_gatherForwardTsn (a : AssociationInternal) :
    (a.gatherOutboundForwardTsnPackets).1.core = a.core := gatherForwardTsn_frame (fun _ => rfl) a

/-- An established association sends what is queued and what it gathers. -/
theorem gatherOutbound_of_established (h : a.state = .established) (now : ℕ) :
    a.gatherOutbound now = (({ a with controlQueue := [] }.gatherEstablished now).1,
      a.controlQueue ++ ({ a with controlQueue := [] }.gatherEstablished now).2, true) := by
  cases a
  cases h
  rfl

/-- What every part of `gather_outbound` leaves alone it leaves alone. -/
theorem gatherOutbound_frame {β : Type*} {f : AssociationInternal → β}
    (hcontrol : ∀ a, f { a with controlQueue := [] } = f a)
    (hresend : ∀ a inflightQueue flags, f { a with inflightQueue, flags } = f a)
    (hpop : ∀ a pendingQueue rwnd flags myNextTsn inflightQueue,
      f { a with pendingQueue, rwnd, flags, myNextTsn, inflightQueue } = f a)
    (hreconfig : ∀ a t3rtx willRetransmitReconfig reconfigs myNextRsn treconfig,
      f { a with t3rtx, willRetransmitReconfig, reconfigs, myNextRsn, treconfig } = f a)
    (hfast : ∀ a, f { a with willRetransmitFast := false } = f a)
    (hsack : ∀ a ackState payloadQueue, f { a with ackState, payloadQueue } = f a)
    (hforward : ∀ a, f { a with willSendForwardTsn := false } = f a)
    (hshutdown : ∀ a willSendShutdown willSendShutdownAck willSendShutdownComplete t2shutdown,
      f { a with willSendShutdown, willSendShutdownAck, willSendShutdownComplete, t2shutdown } = f a)
    (a : AssociationInternal) (now : ℕ) : f (a.gatherOutbound now).1 = f a := by
  by_cases hstate : a.state = .established
  · rw [gatherOutbound_of_established hstate now]
    unfold gatherEstablished
    exact (gatherForwardTsn_frame hforward _).trans ((gatherSack_frame hsack _).trans
      ((gatherFast_frame hresend hfast _ now).trans ((gatherData_frame hpop hreconfig _ now).trans
        ((getDataPacketsToRetransmit_frame hresend _ now).trans (hcontrol a)))))
  · exact gatherOutbound_frame_of_ne hcontrol hresend hfast hsack hshutdown hstate now

/-- **What gathering keeps**, gatherer by gatherer. -/
theorem gatherOutbound_keeps {P : AssociationInternal → Prop} {now : ℕ}
    (hcore : ∀ a a', a'.core = a.core → P a → P a')
    (hretransmit : ∀ a, P a → P (a.getDataPacketsToRetransmit now).1)
    (hfast : ∀ a, P a → P (a.gatherOutboundFastRetransmissionPackets now).1)
    (hdrop : ∀ a c, a.pendingQueue.peek = some c → c.userData = [] → P a →
      P { a with pendingQueue := (a.pendingQueue.pop c.beginningFragment c.unordered).1 })
    (hmove : ∀ a c rwnd, a.pendingQueue.peek = some c → P a →
      P ({ a with rwnd }.movePendingDataChunkToInflightQueue now c.beginningFragment
        c.unordered).1)
    (hshutdown : ∀ a, P a → P a.gatherOutboundShutdownPackets.1)
    (h : P { a with controlQueue := [] }) : P (a.gatherOutbound now).1 := by
  have hdata : ∀ a, P a → P (a.gatherOutboundDataAndReconfigPackets now).1 := by
    intro a h
    -- what is popped goes round by round
    have hpop := @popPendingDataChunksToSend_invariant a (fun a _ => P a) now
      (fun a _ c hpeek hne => hdrop a c hpeek hne) (fun a _ c rwnd hpeek => hmove a c rwnd hpeek) h
    unfold gatherOutboundDataAndReconfigPackets
    generalize a.popPendingDataChunksToSend now = r at hpop ⊢
    obtain ⟨a₁, chunks, sisToReset⟩ := r
    dsimp only
    refine hcore _ _ (core_gatherReconfig _ sisToReset) ?_
    split
    · exact hcore a₁ _ rfl hpop
    · exact hpop
  have hsack : ∀ a, P a → P a.gatherOutboundSackPackets.1 := fun a => hcore _ _ (core_gatherSack a)
  have hgather : ∀ a, P a → P (a.gatherShutdown now).1 := by
    intro a h
    unfold gatherShutdown
    exact hshutdown _ (hsack _ (hfast _ (hretransmit a h)))
  unfold gatherOutbound
  dsimp only
  split
  · unfold gatherEstablished
    exact hcore _ _ (core_gatherForwardTsn _) (hsack _ (hfast _ (hdata _ (hretransmit _ h))))
  · exact hgather _ h
  · exact hgather _ h
  · exact hgather _ h
  · exact hshutdown _ h
  · exact h

/-- The same for what sending again keeps. -/
theorem gatherOutbound_invariant {P : AssociationInternal → Prop} {now : ℕ}
    (hcore : ∀ a a', a'.core = a.core → P a → P a')
    (hresend : ∀ a a', Resends a a' → P a → P a')
    (hdrop : ∀ a c, a.pendingQueue.peek = some c → c.userData = [] → P a →
      P { a with pendingQueue := (a.pendingQueue.pop c.beginningFragment c.unordered).1 })
    (hmove : ∀ a c rwnd, a.pendingQueue.peek = some c → P a →
      P ({ a with rwnd }.movePendingDataChunkToInflightQueue now c.beginningFragment
        c.unordered).1)
    (hshutdown : ∀ a, P a → P a.gatherOutboundShutdownPackets.1)
    (h : P { a with controlQueue := [] }) : P (a.gatherOutbound now).1 :=
  gatherOutbound_keeps hcore (fun a => hresend _ _ (resends_getDataPacketsToRetransmit a now))
    (fun a => hresend _ _ (resends_gatherFast a now)) hdrop hmove hshutdown h

/-- The state without all that gathering changes. -/
def ungathered (a : AssociationInternal) : AssociationInternal :=
  { a.core with
    controlQueue := []
    pendingQueue := {}
    inflightQueue := {}
    objects := a.frame.objects
    flags := []
    myNextTsn := 0
    willSendShutdown := false
    willSendShutdownAck := false
    willSendShutdownComplete := false
    t2shutdown := {} }

/-- Gathering empties the control queue and leaves what it does not gather from. -/
theorem ungathered_gatherOutbound (a : AssociationInternal) (now : ℕ) :
    (a.gatherOutbound now).1.ungathered = a.ungathered ∧
      (a.gatherOutbound now).1.controlQueue = [] := by
  refine gatherOutbound_invariant
    (P := fun b => b.ungathered = a.ungathered ∧ b.controlQueue = []) ?_ ?_ ?_ ?_ ?_ ⟨rfl, rfl⟩
  · intro b b' hcore h
    have hkept : b'.ungathered = b.ungathered :=
      (congrArg (fun c : AssociationInternal => { c.ungathered with objects := c.frame.objects })
        hcore :)
    exact ⟨hkept.trans h.1, (congrArg controlQueue hcore :).trans h.2⟩
  · intro b b' hresend h
    have hkept : b'.ungathered = b.ungathered :=
      (congrArg (fun c : AssociationInternal => { c.ungathered with objects := c.objects })
        hresend.frame :)
    exact ⟨hkept.trans h.1, (congrArg controlQueue hresend.frame :).trans h.2⟩
  · intro b c _ _ h
    exact h
  · intro b c rwnd _ h
    rcases hpop : b.pendingQueue.pop c.beginningFragment c.unordered with ⟨q, _ | c'⟩
    · rw [movePending_of_none (a := { b with rwnd }) hpop]
      exact h
    · obtain ⟨flags, _, heq⟩ := movePending_of_some (a := { b with rwnd }) now hpop
      rw [heq]
      exact h
  · intro b h
    obtain ⟨_, _, _, _, heq⟩ := b.gatherOutboundShutdownPackets_eq
    rw [heq]
    exact h

/-- Nothing is acknowledged by sending. -/
theorem cumulativeTsnAckPoint_gatherOutbound (a : AssociationInternal) (now : ℕ) :
    (a.gatherOutbound now).1.cumulativeTsnAckPoint = a.cumulativeTsnAckPoint :=
  (congrArg cumulativeTsnAckPoint (a.ungathered_gatherOutbound now).1 :)

/-- Gathering has nothing to do with the point. -/
theorem peerLastTsn_gatherOutbound (a : AssociationInternal) (now : ℕ) :
    (a.gatherOutbound now).1.peerLastTsn = a.peerLastTsn :=
  (congrArg peerLastTsn (a.ungathered_gatherOutbound now).1 :)

theorem controlQueue_gatherOutbound (a : AssociationInternal) (now : ℕ) :
    (a.gatherOutbound now).1.controlQueue = [] :=
  (a.ungathered_gatherOutbound now).2

/-! ## Timeouts and calls of the application -/

/-- The T3-rtx timeout changes the frame in the advanced ack point only. -/
theorem onT3RtxTimeout_frame (a : AssociationInternal) : a.onT3RtxTimeout.frame =
    { a with advancedPeerTsnAckPoint := a.onT3RtxTimeout.advancedPeerTsnAckPoint }.frame := by
  unfold onT3RtxTimeout
  dsimp only
  split
  · exact (frame_advanceAckPoint
      { a with ssthresh := cmpMax (a.cwnd / 2) (4 * a.mtu), cwnd := a.mtu }).frame
  · rfl

/-- What the timeout does not write to. -/
theorem onT3RtxTimeout_kept {β : Type*} {f : AssociationInternal → β}
    (hf : ∀ (b : AssociationInternal) ssthresh cwnd point will q,
      f { b with
        ssthresh := ssthresh
        cwnd := cwnd
        advancedPeerTsnAckPoint := point
        willSendForwardTsn := will
        inflightQueue := q } = f b)
    (a : AssociationInternal) : f a.onT3RtxTimeout = f a := by
  unfold onT3RtxTimeout
  dsimp only
  rw [show ∀ (b : AssociationInternal) q, f { b with inflightQueue := q } = f b from
    fun b q => hf b b.ssthresh b.cwnd b.advancedPeerTsnAckPoint b.willSendForwardTsn q]
  have hslow : f { a with ssthresh := cmpMax (a.cwnd / 2) (4 * a.mtu), cwnd := a.mtu } = f a :=
    hf a _ _ a.advancedPeerTsnAckPoint a.willSendForwardTsn a.inflightQueue
  split
  · rw [advanceAckPoint_kept fun b point will =>
      hf b b.ssthresh b.cwnd point will b.inflightQueue]
    exact hslow
  · exact hslow

/-- All that the timeout does to the queue in flight is to mark chunks. -/
theorem inflightQueue_onT3RtxTimeout (a : AssociationInternal) :
    ∃ flags, a.onT3RtxTimeout.inflightQueue = a.inflightQueue.markAllToRetransmit flags := by
  unfold onT3RtxTimeout
  dsimp only
  split
  · have h := (frame_advanceAckPoint
      { a with ssthresh := cmpMax (a.cwnd / 2) (4 * a.mtu), cwnd := a.mtu }).inflightQueue
    rw [h]
    exact ⟨_, rfl⟩
  · exact ⟨_, rfl⟩

/-- It leaves the chunks in flight under their labels. -/
theorem onT3RtxTimeout_touched (a : AssociationInternal) :
    a.inflightQueue.Touched a.onT3RtxTimeout.inflightQueue := by
  obtain ⟨flags, heq⟩ := a.inflightQueue_onT3RtxTimeout
  rw [heq]
  exact PayloadQueue.Touched.markAllToRetransmit ..

/-- Opening a stream writes the table and the objects. -/
theorem openStream_eq (a : AssociationInternal) (si : U16) (ppi : PayloadProtocolIdentifier) :
    ∃ objects streams, (a.openStream si ppi).1 = { a with objects, streams } := by
  unfold openStream createStream
  split
  · exact ⟨_, _, rfl⟩
  · exact ⟨_, _, rfl⟩

/-- A write changes flags, the pending queue and the object of its stream. -/
theorem writeSctp_eq (a : AssociationInternal) (r : StreamRef) (p : Bytes)
    (ppi : PayloadProtocolIdentifier) : ∃ flags pendingQueue objects,
      (a.writeSctp r p ppi).1 = { a with flags, pendingQueue, objects } := by
  unfold writeSctp
  split <;> exact ⟨_, _, _, rfl⟩

/-- So does the shutdown of a stream. -/
theorem shutdownStream_eq (a : AssociationInternal) (r : StreamRef) (how : Shutdown) :
    ∃ flags pendingQueue objects,
      (a.shutdownStream r how).1 = { a with flags, pendingQueue, objects } := by
  unfold shutdownStream
  split <;> exact ⟨_, _, _, rfl⟩

/-- Out of Established nothing is pushed. -/
theorem writeSctp_eq_of_ne (h : a.state ≠ .established) (r : StreamRef) (p : Bytes)
    (ppi : PayloadProtocolIdentifier) :
    ∃ flags objects, (a.writeSctp r p ppi).1 = { a with flags, objects } := by
  unfold writeSctp
  split
  · exact ⟨_, _, rfl⟩
  · rename_i s hs
    rcases s.writeSctp_cases a.maxMessageSize a.state a.flags a.pendingQueue p ppi with
      ⟨e, heq⟩ | ⟨e, heq⟩ | ⟨hestablished, _⟩
    · rw [heq]
      exact ⟨_, _, rfl⟩
    · rw [heq]
      exact ⟨_, _, rfl⟩
    · exact absurd hestablished h

/-- In any other state no marker is queued. -/
theorem shutdownStream_eq_of_ne (h : a.state ≠ .established) (r : StreamRef) (how : Shutdown) :
    ∃ flags objects, (a.shutdownStream r how).1 = { a with flags, objects } := by
  unfold shutdownStream
  split
  · exact ⟨_, _, rfl⟩
  · rename_i s hs
    have hpending : (s.shutdown a.state a.flags a.pendingQueue how).2.2.1 = a.pendingQueue := by
      have hsend : ∀ si, Stream.sendResetRequest si a.state a.flags a.pendingQueue =
          (a.flags, a.pendingQueue, .error .errResetPacketInStateNotExist) := fun _ => if_pos h
      unfold Stream.shutdown
      by_cases hdone : (s.readShutdown && s.writeShutdown) = true
      · rw [if_pos hdone]
      · rw [if_neg hdone]
        dsimp only
        rw [hsend]
        split_ifs <;> rfl
    generalize s.shutdown a.state a.flags a.pendingQueue how = res at hpending
    obtain ⟨s', flags, pendingQueue, r'⟩ := res
    exact ⟨flags, a.objects.set r s', by rw [← hpending]⟩

/-- The call of `shutdown` changes the state and the flag of the SHUTDOWN. -/
theorem shutdown_eq (a : AssociationInternal) :
    ∃ state willSendShutdown, a.shutdown.1 = { a with state, willSendShutdown } := by
  unfold shutdown setState
  dsimp only
  split_ifs <;> exact ⟨_, _, rfl⟩

/-- An inbound SHUTDOWN changes the state and the flag of the SHUTDOWN ACK. -/
theorem handleShutdown_eq (a : AssociationInternal) :
    ∃ state willSendShutdownAck, a.handleShutdown = { a with state, willSendShutdownAck } := by
  unfold handleShutdown setState
  dsimp only
  split_ifs <;> exact ⟨_, _, rfl⟩

end AssociationInternal

end Sctp
