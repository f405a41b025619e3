import Sctp.Association.ResetPacketTheorems
import Sctp.Queue.EachTheorems
import Sctp.Queue.MarkerTheorems

/-!
# What an established endpoint sends

The DATA chunks of a packet are in flight or move into flight; a SACK tells `peer_last_tsn` and
a FORWARD TSN the point up to which everything is given up.
-/

namespace Sctp

/-- The DATA chunk satisfies `Q`, the TSN of a SACK `S` and that of a FORWARD TSN `F`; the
chunk is not one of a shutdown. -/
def Chunk.Tells (Q : ChunkPayloadData → Prop) (S F : U32 → Prop) : Chunk → Prop
  | .payloadData c => Q c
  | .selectiveAck c => S c.cumulativeTsnAck
  | .forwardTsn c => F c.newCumulativeTsn
  | .shutdown _ | .shutdownAck | .shutdownComplete => False
  | _ => True

/-- The packets consist of such chunks. -/
def Tell (Q : ChunkPayloadData → Prop) (S F : U32 → Prop) (packets : List Packet) : Prop :=
  ∀ packet ∈ packets, ∀ c ∈ packet.chunks, c.Tells Q S F

theorem Tell.append {Q : ChunkPayloadData → Prop} {S F : U32 → Prop} {packets more : List Packet}
    (h : Tell Q S F packets) (hmore : Tell Q S F more) : Tell Q S F (packets ++ more) := by
  intro packet hpacket
  rcases List.mem_append.mp hpacket with hold | hnew
  · exact h packet hold
  · exact hmore packet hnew

theorem Tell.nil {Q : ChunkPayloadData → Prop} {S F : U32 → Prop} : Tell Q S F [] :=
  fun _ hpacket => absurd hpacket List.not_mem_nil

/-- What has `Q` in flight keeps it when it is sent again, and is sent with `E`. -/
structure Retransmits (Q E : ChunkPayloadData → Prop) : Prop where
  again : ∀ c, Q c → c.retransmit = true →
    Q { c with retransmit := false, nsent := c.nsent + 1 } ∧
      E { c with retransmit := false, nsent := c.nsent + 1 }
  fast : ∀ c, Q c → c.acked = false →
    Q { c with nsent := c.nsent + 1 } ∧ E { c with nsent := c.nsent + 1 }

namespace AssociationInternal

variable {a a' : AssociationInternal} {Q E : ChunkPayloadData → Prop} {S F : U32 → Prop}

/-! ## Chunks that are sent again -/

theorem mem_bundleFrom {P : Chunk → Prop} (a : AssociationInternal) (toSend : List Chunk)
    (bytes : U32) (chunks : List ChunkPayloadData) (h : ∀ c ∈ toSend, P c)
    (hchunks : ∀ c ∈ chunks, P (.payloadData c)) :
    ∀ packet ∈ a.bundleFrom toSend bytes chunks, ∀ c ∈ packet.chunks, P c := by
  induction chunks generalizing toSend bytes with
  | nil =>
    rw [bundleFrom]
    split
    · exact fun _ hpacket => absurd hpacket List.not_mem_nil
    · intro packet hpacket c hc
      cases List.mem_singleton.mp hpacket
      exact h c hc
  | cons d chunks ih =>
    have hd := hchunks d List.mem_cons_self
    have hrest : ∀ c ∈ chunks, P (.payloadData c) :=
      fun c hc => hchunks c (List.mem_cons_of_mem _ hc)
    rw [bundleFrom]
    split
    · intro packet hpacket c hc
      rcases List.mem_cons.mp hpacket with rfl | hpacket
      · exact h c hc
      · refine ih [.payloadData d] _ ?_ hrest packet hpacket c hc
        intro c' hc'
        rw [List.mem_singleton.mp hc']
        exact hd
    · refine ih _ _ ?_ hrest
      intro c' hc'
      rcases List.mem_append.mp hc' with hc' | hc'
      · exact h c' hc'
      · rw [List.mem_singleton.mp hc']
        exact hd

/-- A chunk in flight that is sent once more. -/
theorem resend_each {tsn : U32} {c : ChunkPayloadData} {f : ChunkPayloadData → ChunkPayloadData}
    (now : ℕ) (h : a.inflightQueue.Each Q) (hc : a.inflightQueue.get tsn = some c)
    (htsn : (f c).tsn = c.tsn) (hf : Q (f c)) :
    (a.resend now tsn f).1.inflightQueue.Each Q ∧ (a.resend now tsn f).2 = some (f c) := by
  have hget : (a.inflightQueue.getMut tsn f).get tsn = some (f c) := by
    rw [PayloadQueue.get_getMut_self, hc]
    rfl
  have heach : (a.inflightQueue.getMut tsn f).Each Q := by
    apply h.getMut
    intro c' hc'
    rw [hc] at hc'
    cases hc'
    exact ⟨htsn, hf⟩
  unfold resend
  dsimp only
  rw [hget]
  dsimp only
  refine ⟨?_, rfl⟩
  rcases checkPartialReliabilityStatus_cases
    { a with inflightQueue := a.inflightQueue.getMut tsn f } now (f c) with heq | heq
  · rw [heq]
    exact heach
  · rw [heq]
    exact heach

theorem retransmitFrom_each (hQ : Retransmits Q E) (now : ℕ) (awnd : U32) (bytesToSend : ℕ)
    {chunks : List ChunkPayloadData} (first : Bool) (tsns : List U32)
    (h : a.inflightQueue.Each Q) (hchunks : ∀ c ∈ chunks, E c) :
    (retransmitFrom now awnd a bytesToSend chunks first tsns).1.inflightQueue.Each Q ∧
      ∀ c ∈ (retransmitFrom now awnd a bytesToSend chunks first tsns).2, E c := by
  induction tsns generalizing a bytesToSend chunks first with
  | nil => exact ⟨h, hchunks⟩
  | cons tsn tsns ih =>
    rw [retransmitFrom]
    split
    · exact ⟨h, hchunks⟩
    · rename_i d hd
      split
      · exact ih bytesToSend false h hchunks
      · rename_i hdue
        dsimp only
        split
        · exact ⟨h, hchunks⟩
        · obtain ⟨hkept, hsent⟩ := hQ.again d (h tsn d hd).2 (by simpa using hdue)
          obtain ⟨heach, hsend⟩ := resend_each (f := fun c =>
            { c with retransmit := false, nsent := c.nsent + 1 }) now h hd rfl hkept
          have hmore : ∀ c ∈ chunks ++ (a.resend now tsn fun c =>
              { c with retransmit := false, nsent := c.nsent + 1 }).2.toList, E c := by
            intro c hc
            rw [hsend, List.mem_append] at hc
            rcases hc with hc | hc
            · exact hchunks c hc
            · rw [List.mem_singleton.mp hc]
              exact hsent
          split
          · exact ⟨heach, hmore⟩
          · exact ih _ _ heach hmore

theorem fastRetransmitFrom_each (hQ : Retransmits Q E) (now : ℕ) (size : U32) {toSend : List Chunk}
    (tsns : List U32) (h : a.inflightQueue.Each Q) (hsend : ∀ c ∈ toSend, c.Tells E S F) :
    (fastRetransmitFrom now a size toSend tsns).1.inflightQueue.Each Q ∧
      ∀ c ∈ (fastRetransmitFrom now a size toSend tsns).2, c.Tells E S F := by
  induction tsns generalizing a size toSend with
  | nil => exact ⟨h, hsend⟩
  | cons tsn tsns ih =>
    rw [fastRetransmitFrom]
    split
    · exact ⟨h, hsend⟩
    · rename_i d hd
      split
      · exact ih size h hsend
      · rename_i hskip
        dsimp only
        split
        · exact ⟨h, hsend⟩
        · have hacked : d.acked = false := by
            simp only [Bool.or_eq_true, not_or] at hskip
            simpa using hskip.1.1.1
          obtain ⟨hkept, hsent⟩ := hQ.fast d (h tsn d hd).2 hacked
          obtain ⟨heach, hone⟩ := resend_each (f := fun c => { c with nsent := c.nsent + 1 })
            now h hd rfl hkept
          refine ih _ heach ?_
          intro c hc
          rw [hone, List.mem_append] at hc
          rcases hc with hc | hc
          · exact hsend c hc
          · rw [List.mem_singleton.mp hc]
            exact hsent

theorem tell_retransmit (hQ : Retransmits Q E) (now : ℕ) (h : a.inflightQueue.Each Q) :
    (a.getDataPacketsToRetransmit now).1.inflightQueue.Each Q ∧
      Tell E S F (a.getDataPacketsToRetransmit now).2 := by
  have hloop := retransmitFrom_each hQ now (cmpMin a.cwnd a.rwnd) 0 true
    (a.inflightQueue.tsnsFrom (a.cumulativeTsnAckPoint + 1)) h
    (fun _ hc => absurd hc List.not_mem_nil)
  exact ⟨hloop.1, mem_bundleFrom _ _ _ _ (fun _ hc => absurd hc List.not_mem_nil) hloop.2⟩

theorem tell_fast (hQ : Retransmits Q E) (now : ℕ) (h : a.inflightQueue.Each Q) :
    (a.gatherOutboundFastRetransmissionPackets now).1.inflightQueue.Each Q ∧
      Tell E S F (a.gatherOutboundFastRetransmissionPackets now).2 := by
  unfold gatherOutboundFastRetransmissionPackets
  split
  · have hloop := @fastRetransmitFrom_each { a with willRetransmitFast := false } Q E S F hQ now
      commonHeaderSize [] (a.inflightQueue.tsnsFrom (a.cumulativeTsnAckPoint + 1)) h
      (fun c hc => absurd hc List.not_mem_nil)
    refine ⟨hloop.1, ?_⟩
    dsimp only
    split
    · intro packet hpacket c hc
      cases List.mem_singleton.mp hpacket
      exact hloop.2 c hc
    · exact Tell.nil
  · exact ⟨h, Tell.nil⟩

theorem tell_sack (h : S a.peerLastTsn) : Tell E S F a.gatherOutboundSackPackets.2 := by
  unfold gatherOutboundSackPackets
  split
  · intro packet hpacket c hc
    cases List.mem_singleton.mp hpacket
    cases List.mem_singleton.mp hc
    exact h
  · exact Tell.nil

theorem tell_forwardTsn (h : F a.advancedPeerTsnAckPoint) :
    Tell Q S F a.gatherOutboundForwardTsnPackets.2 := by
  unfold gatherOutboundForwardTsnPackets
  dsimp only
  split_ifs
  · intro packet hpacket c hc
    cases List.mem_singleton.mp hpacket
    cases List.mem_singleton.mp hc
    exact h
  · exact Tell.nil
  · exact Tell.nil

theorem tell_reconfig (a : AssociationInternal) (sisToReset : List U16) :
    Tell Q S F (a.gatherOutboundReconfigPackets sisToReset).2 := by
  intro packet hpacket c hc
  have hquiet := @not_emits_reconfig (fun c => !c.isReconfig) (fun _ => rfl) a sisToReset
  by_contra hno
  have hkind : (!c.isReconfig) = true := by
    cases c with
    | reconfig c => exact absurd trivial hno
    | _ => rfl
  rw [mem_emits hpacket hc hkind] at hquiet
  cases hquiet

/-! ## Chunks that move into flight -/

/-- The chunks have moved from the pending queue into flight, with the next TSNs. -/
structure Moves (a b : AssociationInternal) (chunks : List ChunkPayloadData) : Prop where
  frame : b = { a with
    pendingQueue := b.pendingQueue
    rwnd := b.rwnd
    flags := b.flags
    myNextTsn := a.myNextTsn.after chunks.length
    inflightQueue := chunks.foldl PayloadQueue.pushNoCheck a.inflightQueue }
  tsns : ∀ i c, chunks[i]? = some c → c.tsn = a.myNextTsn.after i

theorem Moves.refl (a : AssociationInternal) : Moves a a [] where
  frame := by
    rw [List.length_nil, after_zero]
    rfl
  tsns i c hc := by cases hc

/-- Some of the pending queue or of the peer's window goes. -/
theorem Moves.congr {b : AssociationInternal} {chunks : List ChunkPayloadData} (h : Moves a b chunks)
    (q : PendingQueue) (rwnd : U32) : Moves a { b with pendingQueue := q, rwnd } chunks where
  frame := by
    have hframe := h.frame
    generalize chunks.foldl PayloadQueue.pushNoCheck a.inflightQueue = flight at hframe ⊢
    generalize a.myNextTsn.after chunks.length = next at hframe ⊢
    rw [hframe]
  tsns := h.tsns

theorem Moves.move {b : AssociationInternal} {chunks : List ChunkPayloadData} (h : Moves a b chunks)
    (c : ChunkPayloadData) (now : ℕ) (q : PendingQueue) (rwnd : U32) (flags : SharedFlags) :
    Moves a { b with
        pendingQueue := q
        rwnd
        flags
        myNextTsn := b.myNextTsn + 1
        inflightQueue := b.inflightQueue.pushNoCheck (numbered c b.myNextTsn now) }
      (chunks ++ [numbered c b.myNextTsn now]) where
  frame := by
    have hframe := h.frame
    have hnext : b.myNextTsn = a.myNextTsn.after chunks.length := (congrArg myNextTsn hframe :)
    have hflight : b.inflightQueue = chunks.foldl PayloadQueue.pushNoCheck a.inflightQueue :=
      (congrArg inflightQueue hframe :)
    rw [List.foldl_append, List.length_append, ← hflight, List.length_singleton, ← after_succ,
      ← hnext]
    generalize b.myNextTsn = next at hnext ⊢
    generalize b.inflightQueue = flight at hflight ⊢
    rw [hframe]
    rfl
  tsns := by
    intro i d hd
    have hnext : b.myNextTsn = a.myNextTsn.after chunks.length := (congrArg myNextTsn h.frame :)
    by_cases hi : i < chunks.length
    · rw [List.getElem?_append_left hi] at hd
      exact h.tsns i d hd
    · rw [List.getElem?_append_right (Nat.le_of_not_lt hi)] at hd
      obtain ⟨hlt, heq⟩ := List.getElem?_eq_some_iff.mp hd
      rw [List.length_singleton] at hlt
      have hlast : i = chunks.length := by omega
      rw [List.getElem_singleton] at heq
      rw [← heq, hlast]
      exact hnext

/-! ## All that is popped -/

/-- All that is popped is a move. -/
theorem popPending_moves (a : AssociationInternal) (now : ℕ) :
    Moves a (a.popPendingDataChunksToSend now).1 (a.popPendingDataChunksToSend now).2.1 := by
  refine popPendingDataChunksToSend_invariant (P := Moves a) ?_ ?_ (Moves.refl a)
  · intro b chunks c _ _ h
    exact h.congr _ b.rwnd
  · intro b chunks c rwnd _ h
    rcases hpop : b.pendingQueue.pop c.beginningFragment c.unordered with ⟨q, _ | c'⟩
    · rw [movePending_of_none (a := { b with rwnd }) hpop]
      have hkept := h.congr q rwnd
      rw [← List.append_nil chunks] at hkept
      exact hkept
    · obtain ⟨flags, _, heq⟩ := movePending_of_some (a := { b with rwnd }) now hpop
      rw [heq]
      exact h.move c' now q rwnd flags

/-! ## The whole of gathering -/

/-- What is popped of the pending queue after the retransmissions: the state, the chunks that
move into flight, and the streams to reset. -/
def popped (a : AssociationInternal) (now : ℕ) :
    AssociationInternal × List ChunkPayloadData × List U16 :=
  (a.getDataPacketsToRetransmit now).1.popPendingDataChunksToSend now

/-- The state without what sending RECONFIG chunks, fast retransmissions, SACKs and FORWARD TSNs
changes. -/
def spoken (a : AssociationInternal) : AssociationInternal :=
  { a with
    willRetransmitFast := false
    willSendForwardTsn := false
    ackState := .idle
    payloadQueue := a.payloadQueue.popDuplicates.1
    willRetransmitReconfig := false
    reconfigs := ∅
    myNextRsn := 0
    treconfig := {}
    t3rtx := {}
    inflightQueue := {}
    flags := [] }

theorem gatherSack_kept (a : AssociationInternal) :
    a.gatherOutboundSackPackets.1.spoken = a.spoken ∧
      a.gatherOutboundSackPackets.1.inflightQueue = a.inflightQueue := by
  unfold gatherOutboundSackPackets
  split
  · exact ⟨rfl, rfl⟩
  · exact ⟨rfl, rfl⟩

theorem gatherForwardTsn_kept (a : AssociationInternal) :
    a.gatherOutboundForwardTsnPackets.1.spoken = a.spoken ∧
      a.gatherOutboundForwardTsnPackets.1.inflightQueue = a.inflightQueue := by
  unfold gatherOutboundForwardTsnPackets
  dsimp only
  split_ifs <;> exact ⟨rfl, rfl⟩

/-- The request for the streams to reset. -/
def request (a : AssociationInternal) (sisToReset : List U16) : ParamOutgoingResetRequest :=
  { reconfigRequestSequenceNumber := a.myNextRsn
    senderLastTsn := a.myNextTsn - 1
    streamIdentifiers := sisToReset }

theorem spoken_gatherReconfig (a : AssociationInternal) (sisToReset : List U16) :
    (a.gatherOutboundReconfigPackets sisToReset).1.spoken = a.spoken ∧
      (a.gatherOutboundReconfigPackets sisToReset).1.inflightQueue = a.inflightQueue := by
  unfold gatherOutboundReconfigPackets generateNextRsn
  dsimp only
  split_ifs <;> exact ⟨rfl, rfl⟩

/-- A request is issued when there are streams to reset. -/
theorem gatherReconfig_request (a : AssociationInternal) (sisToReset : List U16) :
    (sisToReset = [] ∧
        (a.gatherOutboundReconfigPackets sisToReset).1.myNextRsn = a.myNextRsn) ∨
      sisToReset ≠ [] ∧
        (a.gatherOutboundReconfigPackets sisToReset).1.myNextRsn = a.myNextRsn + 1 ∧
        (a.gatherOutboundReconfigPackets sisToReset).1.reconfigs.lookup a.myNextRsn =
          some (.ofRequest (a.request sisToReset)) ∧
        ∃ packet ∈ (a.gatherOutboundReconfigPackets sisToReset).2,
          .reconfig (.ofRequest (a.request sisToReset)) ∈ packet.chunks := by
  by_cases hsis : sisToReset = []
  · refine Or.inl ⟨hsis, ?_⟩
    unfold gatherOutboundReconfigPackets
    subst hsis
    dsimp only
    simp only [ne_eq, not_true_eq_false, if_false, false_or]
    split_ifs <;> rfl
  · refine Or.inr ⟨hsis, ?_⟩
    have hlast : ∀ (packets : List Packet) (b : AssociationInternal), ∃ packet ∈ packets ++
        [b.createPacket [.reconfig (.ofRequest (a.request sisToReset))]],
        .reconfig (.ofRequest (a.request sisToReset)) ∈ packet.chunks := by
      intro packets b
      exact ⟨_, List.mem_append_right _ (List.mem_singleton_self _), List.mem_singleton_self _⟩
    unfold gatherOutboundReconfigPackets generateNextRsn
    rw [if_pos (Or.inl hsis)]
    dsimp only
    rw [if_pos hsis]
    by_cases hwill : a.willRetransmitReconfig = true
    · rw [if_pos hwill]
      dsimp only
      split_ifs <;> exact ⟨rfl, AList.lookup_insert .., hlast _ _⟩
    · rw [if_neg hwill]
      dsimp only
      split_ifs <;> exact ⟨rfl, AList.lookup_insert .., hlast _ _⟩

/-- **What gathering in the state Established does.** -/
theorem gatherEstablished_spec (a : AssociationInternal) (now : ℕ) :
    ∃ b : AssociationInternal, b.spoken = (a.popped now).1.spoken ∧
      b.inflightQueue = (a.popped now).1.inflightQueue ∧
      b.resetTable = (a.popped now).1.resetTable ∧
      (a.gatherEstablished now).1.spoken = b.spoken ∧
      b.inflightQueue.Touched (a.gatherEstablished now).1.inflightQueue ∧
      (a.gatherEstablished now).1.resetTable =
        (b.gatherOutboundReconfigPackets (a.popped now).2.2).1.resetTable ∧
      (∀ packet ∈ (b.gatherOutboundReconfigPackets (a.popped now).2.2).2,
        packet ∈ (a.gatherEstablished now).2) ∧
      ∀ {Q E : ChunkPayloadData → Prop} {S F : U32 → Prop}, Retransmits Q E →
        a.inflightQueue.Each Q → (∀ c ∈ (a.popped now).2.1, Q c ∧ E c) → S b.peerLastTsn →
          F b.advancedPeerTsnAckPoint →
            (a.gatherEstablished now).1.inflightQueue.Each Q ∧
              Tell E S F (a.gatherEstablished now).2 := by
  unfold popped gatherEstablished gatherOutboundDataAndReconfigPackets
  -- the gatherers one by one; what each one keeps is noted before it is generalised
  have hretransmit := fun Q E S F hQ => @tell_retransmit a Q E S F hQ now
  revert hretransmit
  generalize a.getDataPacketsToRetransmit now = r
  obtain ⟨a₁, retransmitted⟩ := r
  dsimp only
  have hmoves := popPending_moves a₁ now
  revert hmoves
  generalize a₁.popPendingDataChunksToSend now = r
  obtain ⟨a₂, chunks, sisToReset⟩ := r
  dsimp only
  intro hmoves hretransmit
  have hmoved : a₂.inflightQueue = chunks.foldl PayloadQueue.pushNoCheck a₁.inflightQueue :=
    (congrArg inflightQueue hmoves.frame :)
  -- the timer is started if there is new data
  have hdata : ∃ (b : AssociationInternal) (data : List Packet),
      (if chunks ≠ [] then
          ({ a₂ with t3rtx := a₂.t3rtx.start }, a₂.bundleDataChunksIntoPackets chunks)
        else (a₂, [])) = (b, data) ∧ b.spoken = a₂.spoken ∧
        b.inflightQueue = a₂.inflightQueue ∧ b.resetTable = a₂.resetTable ∧
        ∀ {E : ChunkPayloadData → Prop} {S F : U32 → Prop}, (∀ c ∈ chunks, E c) →
          Tell E S F data := by
    split
    · refine ⟨_, _, rfl, rfl, rfl, rfl, fun hchunks => ?_⟩
      exact mem_bundleFrom _ _ _ _ (fun _ hc => absurd hc List.not_mem_nil) hchunks
    · exact ⟨_, _, rfl, rfl, rfl, rfl, fun _ => Tell.nil⟩
  obtain ⟨b, data, heq, hspoken, hflight, htable, htell⟩ := hdata
  rw [heq]
  dsimp only
  obtain ⟨hreconfig, hflight₁⟩ := spoken_gatherReconfig b sisToReset
  have hreconfigs := fun E S F => @tell_reconfig E S F b sisToReset
  refine ⟨b, hspoken, hflight, htable, ?_⟩
  generalize b.gatherOutboundReconfigPackets sisToReset = r at hreconfig hflight₁ hreconfigs ⊢
  obtain ⟨a₃, reconfigs⟩ := r
  dsimp only at hreconfig hflight₁ hreconfigs ⊢
  have hfast := gatherFast_frame (f := spoken) (fun _ _ _ => rfl) (fun _ => rfl) a₃ now
  have htouched := (resends_gatherFast a₃ now).touched
  have htable₁ := (congrArg resetTable (resends_gatherFast a₃ now).frame :)
  have htellFast := fun Q E S F hQ => @tell_fast a₃ Q E S F hQ now
  generalize a₃.gatherOutboundFastRetransmissionPackets now = r at hfast htouched htable₁ htellFast ⊢
  obtain ⟨a₄, fast⟩ := r
  dsimp only at hfast htouched htable₁ htellFast ⊢
  obtain ⟨hsack, hflight₂⟩ := gatherSack_kept a₄
  have htable₂ := resetTable_gatherSack a₄
  have htellSack := fun E S F => @tell_sack a₄ E S F
  generalize a₄.gatherOutboundSackPackets = r at hsack hflight₂ htable₂ htellSack ⊢
  obtain ⟨a₅, sack⟩ := r
  dsimp only at hsack hflight₂ htable₂ htellSack ⊢
  obtain ⟨hforward, hflight₃⟩ := gatherForwardTsn_kept a₅
  have htable₃ := resetTable_gatherForwardTsn a₅
  refine ⟨hforward.trans (hsack.trans (hfast.trans hreconfig)), ?_, ?_, ?_, ?_⟩
  · rw [hflight₃, hflight₂, ← hflight₁]
    exact htouched
  · exact htable₃.trans (htable₂.trans (Eq.trans htable₁ rfl))
  · intro packet hpacket
    simp only [List.mem_append]
    tauto
  · intro Q E S F hQ hfirst hchunks hS hF
    -- the SACK and the FORWARD TSN look at points that are still as they were
    have hpoint : a₄.peerLastTsn = b.peerLastTsn :=
      (congrArg peerLastTsn (hfast.trans hreconfig) :)
    have hgiven : a₅.advancedPeerTsnAckPoint = b.advancedPeerTsnAckPoint :=
      (congrArg advancedPeerTsnAckPoint (hsack.trans (hfast.trans hreconfig)) :)
    obtain ⟨heach₁, h₁⟩ := hretransmit Q E S F hQ hfirst
    have h₂ : Tell E S F data := htell fun c hc => (hchunks c hc).2
    have heach₃ : a₃.inflightQueue.Each Q := by
      rw [hflight₁, hflight, hmoved]
      exact heach₁.pushes fun c hc => (hchunks c hc).1
    obtain ⟨heach₄, h₃⟩ := htellFast Q E S F hQ heach₃
    have h₄ : Tell E S F sack := htellSack E S F (by rw [hpoint]; exact hS)
    have h₅ : Tell E S F a₅.gatherOutboundForwardTsnPackets.2 :=
      tell_forwardTsn (by rw [hgiven]; exact hF)
    refine ⟨?_, (((h₁.append (h₂.append (hreconfigs E S F))).append h₃).append h₄).append h₅⟩
    rw [hflight₃, hflight₂]
    exact heach₄

/-- **Gathering in the state Established**: what is popped gets the next TSNs and goes into
flight, and nothing else of the state changes but bookkeeping. -/
theorem gatherOutbound_spec (hstate : a.state = .established) (now : ℕ)
    {r : AssociationInternal × List ChunkPayloadData × List U16}
    (hr : { a with controlQueue := [] }.popped now = r) :
    (a.gatherOutbound now).1.spoken =
        { a with
          controlQueue := []
          pendingQueue := r.1.pendingQueue
          rwnd := r.1.rwnd
          myNextTsn := a.myNextTsn.after r.2.1.length }.spoken ∧
      (∀ i c, r.2.1[i]? = some c → c.tsn = a.myNextTsn.after i) ∧
      ∀ {Q E : ChunkPayloadData → Prop} {S F : U32 → Prop}, Retransmits Q E →
        a.inflightQueue.Each Q → (∀ c ∈ r.2.1, Q c ∧ E c) → S a.peerLastTsn →
          F a.advancedPeerTsnAckPoint → (a.gatherOutbound now).1.inflightQueue.Each Q ∧
            ∃ packets, (a.gatherOutbound now).2.1 = a.controlQueue ++ packets ∧
              Tell E S F packets := by
  rw [gatherOutbound_of_established hstate now]
  generalize hb : { a with controlQueue := [] } = b at hr ⊢
  have hspoken : (b.getDataPacketsToRetransmit now).1.spoken = b.spoken :=
    getDataPacketsToRetransmit_frame (fun _ _ _ => rfl) b now
  obtain ⟨g, hg, _, _, hfinal, _, _, _, htell⟩ := gatherEstablished_spec b now
  rw [hr] at hg htell
  have hpop : (b.getDataPacketsToRetransmit now).1.popPendingDataChunksToSend now = r := hr
  generalize (b.getDataPacketsToRetransmit now).1 = b₁ at hspoken hpop
  have hnext : b₁.myNextTsn = a.myNextTsn := by
    rw [show b₁.myNextTsn = b.myNextTsn from (congrArg myNextTsn hspoken :), ← hb]
  have hmoves := popPending_moves b₁ now
  rw [hpop] at hmoves
  have hpopped : r.1.spoken = { b₁.spoken with
      pendingQueue := r.1.pendingQueue
      rwnd := r.1.rwnd
      myNextTsn := b₁.myNextTsn.after r.2.1.length } := (congrArg spoken hmoves.frame :)
  rw [hspoken, hnext] at hpopped
  refine ⟨?_, ?_, ?_⟩
  · rw [hfinal, hg, hpopped, ← hb]
    rfl
  · intro i c hc
    rw [← hnext]
    exact hmoves.tsns i c hc
  · intro Q E S F hQ hfirst hchunks hS hF
    have hkept : g.peerLastTsn = a.peerLastTsn ∧
        g.advancedPeerTsnAckPoint = a.advancedPeerTsnAckPoint := by
      have h := hg.trans hpopped
      rw [← hb] at h
      exact ⟨(congrArg peerLastTsn h :), (congrArg advancedPeerTsnAckPoint h :)⟩
    have hfirst' : b.inflightQueue.Each Q := by
      rw [← hb]
      exact hfirst
    obtain ⟨heach, hsent⟩ := @htell Q E S F hQ hfirst' hchunks (by rw [hkept.1]; exact hS)
      (by rw [hkept.2]; exact hF)
    exact ⟨heach, _, rfl, hsent⟩

/-- The request that is issued names the streams whose markers are popped, and the last TSN
assigned; it goes out. -/
theorem issued_gather (hstate : a.state = .established) (now : ℕ)
    {r : AssociationInternal × List ChunkPayloadData × List U16}
    (hr : { a with controlQueue := [] }.popped now = r) :
    (r.2.2 = [] ∧ a.issued (.gather now) = []) ∨
      ∃ p, a.issued (.gather now) = [p] ∧ p.streamIdentifiers = r.2.2 ∧
        p.senderLastTsn = (a.gatherOutbound now).1.myNextTsn - 1 ∧
        ∃ packet ∈ (a.gatherOutbound now).2.1, .reconfig (.ofRequest p) ∈ packet.chunks := by
  have hlocal : (a.localStep (.gather now)).1 = (a.gatherOutbound now).1 := rfl
  unfold AssociationInternal.issued
  rw [hlocal, gatherOutbound_of_established hstate now]
  generalize hb : { a with controlQueue := [] } = b at hr ⊢
  have hrsn : b.myNextRsn = a.myNextRsn := by rw [← hb]
  obtain ⟨g, hg, _, htable, hfinal, _, hreconfig, hsent, _⟩ := gatherEstablished_spec b now
  have hpopped : (b.popped now).1.resetTable = b.resetTable :=
    (resetTable_popPending _ now).trans
      (congrArg resetTable (resends_getDataPacketsToRetransmit b now).frame :)
  have hnext : g.myNextRsn = a.myNextRsn := by
    rw [← hrsn]
    exact congrArg (fun t => t.2.2) (htable.trans hpopped)
  have htsn : (b.gatherEstablished now).1.myNextTsn = g.myNextTsn := (congrArg myNextTsn hfinal :)
  rw [hr] at hreconfig hsent
  have hcase := gatherReconfig_request g r.2.2
  rw [show (g.gatherOutboundReconfigPackets r.2.2).1.myNextRsn =
        (b.gatherEstablished now).1.myNextRsn from congrArg (fun t => t.2.2) hreconfig.symm,
    show (g.gatherOutboundReconfigPackets r.2.2).1.reconfigs =
        (b.gatherEstablished now).1.reconfigs from congrArg Prod.fst hreconfig.symm, hnext] at hcase
  rcases hcase with ⟨hnone, hsame⟩ | ⟨_, hone, hstored, packet, hpacket, hc⟩
  · exact Or.inl ⟨hnone, if_pos hsame⟩
  · have hne : a.myNextRsn + 1 ≠ a.myNextRsn := by
      intro heq
      have hzero : (1 : U32) = 0 := by bv_omega
      exact absurd hzero (by decide)
    right
    rw [hone, if_neg hne, hstored]
    refine ⟨g.request r.2.2, rfl, rfl, ?_, packet, ?_, hc⟩
    · rw [htsn]
      rfl
    · exact List.mem_append_right _ (hsent packet hpacket)

end AssociationInternal

end Sctp
