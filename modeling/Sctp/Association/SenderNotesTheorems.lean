import Sctp.Association.Transmission
import Sctp.Queue.BytesTheorems
import Sctp.Queue.PayloadQueueRunTheorems

/-!
# What sending again changes in the queue

A chunk that is sent again is counted once more and loses its mark. Nothing else changes in the
queue in flight but by what gathering pushes to it.
-/

namespace Sctp

namespace PayloadQueue

variable {q q' q'' : PayloadQueue}

/-- The chunks differ in what the sender notes of its transmissions. -/
structure OnlyNotes (q q' : PayloadQueue) : Prop where
  length : q'.length = q.length
  sorted : q'.sorted = q.sorted
  nBytes : q'.nBytes = q.nBytes
  payloads : q.SamePayloads q'

theorem OnlyNotes.refl (q : PayloadQueue) : OnlyNotes q q := ⟨rfl, rfl, rfl, SamePayloads.refl q⟩

theorem OnlyNotes.trans (h : OnlyNotes q q') (h' : OnlyNotes q' q'') : OnlyNotes q q'' where
  length := h'.length.trans h.length
  sorted := h'.sorted.trans h.sorted
  nBytes := h'.nBytes.trans h.nBytes
  payloads := h.payloads.trans h'.payloads

/-- An update of the sender's notes at one chunk. -/
theorem OnlyNotes.getMut (q : PayloadQueue) (t : U32) {f : ChunkPayloadData → ChunkPayloadData}
    (hf : ∀ c, (f c).payload = c.payload) : OnlyNotes q (q.getMut t f) :=
  ⟨rfl, rfl, rfl, SamePayloads.getMut q t hf⟩

/-- A missing report is a note. -/
theorem OnlyNotes.miss (q : PayloadQueue) (t : U32) :
    OnlyNotes q (q.getMut t fun c => { c with missIndicator := c.missIndicator + 1 }) :=
  OnlyNotes.getMut q t fun _ => rfl

/-- Marking for retransmission is a note. -/
theorem OnlyNotes.markAllToRetransmit (q : PayloadQueue) (flags : SharedFlags) :
    OnlyNotes q (q.markAllToRetransmit flags) :=
  ⟨rfl, rfl, rfl, SamePayloads.markAllToRetransmit q flags⟩

/-- The labels under which chunks stand are kept. -/
theorem OnlyNotes.touched (h : OnlyNotes q q') : q.Touched q' where
  sorted := h.sorted
  length := h.length
  get t := by
    have hlabel : ∀ o : Option ChunkPayloadData,
        (o.map (·.payload)).map label = o.map label := by
      intro o
      rw [Option.map_map]
      rfl
    rw [← hlabel (q'.get t), h.payloads t, hlabel]

theorem OnlyNotes.coherent (h : OnlyNotes q q') (hq : q.Coherent) : q'.Coherent where
  toWF := h.touched.wf hq.toWF
  nBytes_eq := by
    rw [h.nBytes, hq.nBytes_eq]
    apply AssocMap.sumOf_congr_getD
    intro t
    have hlength : ∀ o : Option ChunkPayloadData,
        (o.map (·.payload)).map (·.userData.length) = o.map (·.userData.length) := by
      intro o
      rw [Option.map_map]
      rfl
    show ((q.get t).map (·.userData.length)).getD 0 = ((q'.get t).map (·.userData.length)).getD 0
    rw [← hlength (q'.get t), h.payloads t, hlength]
  neighbours := by
    rw [h.sorted]
    exact hq.neighbours

/-- A push goes on top of either. -/
theorem SamePayloads.pushNoCheck (h : SamePayloads q q') (p : ChunkPayloadData) :
    SamePayloads (q.pushNoCheck p) (q'.pushNoCheck p) := by
  intro t
  by_cases ht : t = p.tsn
  · have hself : ∀ r : PayloadQueue, (r.pushNoCheck p).get t = some p := by
      intro r
      rw [ht]
      exact AList.lookup_insert _
    rw [hself, hself]
  · have hother : ∀ r : PayloadQueue, (r.pushNoCheck p).get t = r.get t :=
      fun r => AList.lookup_insert_ne ht
    rw [hother, hother]
    exact h t

/-- Queues that differ in notes are pushed to alike. -/
theorem SamePayloads.pushes (h : SamePayloads q q') (chunks : List ChunkPayloadData) :
    SamePayloads (chunks.foldl PayloadQueue.pushNoCheck q)
      (chunks.foldl PayloadQueue.pushNoCheck q') := by
  induction chunks generalizing q q' with
  | nil => exact h
  | cons p chunks ih => exact ih (h.pushNoCheck p)

/-- New TSNs, each once, go into a coherent queue. -/
theorem Coherent.pushes (h : q.Coherent) {chunks : List ChunkPayloadData}
    (hnodup : (chunks.map (·.tsn)).Nodup) (hfree : ∀ c ∈ chunks, c.tsn ∉ q.chunkMap) :
    (chunks.foldl PayloadQueue.pushNoCheck q).Coherent := by
  induction chunks generalizing q with
  | nil => exact h
  | cons p chunks ih =>
    rw [List.map_cons, List.nodup_cons] at hnodup
    refine ih (h.pushNoCheck (hfree p List.mem_cons_self)) hnodup.2 ?_
    intro c hc hmem
    rcases (Ahead.mem_pushNoCheck q p c.tsn).mp hmem with hold | heq
    · exact hfree c (List.mem_cons_of_mem p hc) hold
    · exact hnodup.1 (heq ▸ List.mem_map_of_mem hc)

end PayloadQueue

namespace AssociationInternal

open PayloadQueue

/-! ## The loops -/

/-- A chunk in flight that is sent again goes out as the update makes it. -/
theorem resend_sent {a : AssociationInternal} {c : ChunkPayloadData} {tsn : U32} (h : a.inflightQueue.get tsn = some c)
    (now : ℕ) (f : ChunkPayloadData → ChunkPayloadData) : (a.resend now tsn f).2 = some (f c) := by
  have hget : (a.inflightQueue.getMut tsn f).get tsn = some (f c) := by
    rw [PayloadQueue.get_getMut_self, h]
    rfl
  unfold resend
  dsimp only
  rw [hget]

section

variable {P : PayloadQueue → Prop}
  (hnote : ∀ q t f, (∀ c : ChunkPayloadData, (f c).payload = c.payload) → P q → P (q.getMut t f))

include hnote

/-- What the notes do not change, sending a chunk again does not. -/
theorem resend_keeps {a : AssociationInternal} (now : ℕ) (tsn : U32)
    {f : ChunkPayloadData → ChunkPayloadData} (hf : ∀ c, (f c).payload = c.payload)
    (h : P a.inflightQueue) : P (a.resend now tsn f).1.inflightQueue := by
  have hsent : P (a.inflightQueue.getMut tsn f) := hnote a.inflightQueue tsn f hf h
  unfold resend
  dsimp only
  split
  · exact hsent
  · rename_i c _
    rcases checkPartialReliabilityStatus_cases
      { a with inflightQueue := a.inflightQueue.getMut tsn f } now c with heq | heq
    · rw [heq]
      exact hsent
    · rw [heq]
      exact hsent

/-- What a note keeps, the loop over the marked chunks keeps. -/
theorem retransmitFrom_keeps (now : ℕ) (awnd : U32) {a : AssociationInternal} (bytesToSend : ℕ)
    (chunks : List ChunkPayloadData) (first : Bool) (tsns : List U32) (h : P a.inflightQueue) :
    P (retransmitFrom now awnd a bytesToSend chunks first tsns).1.inflightQueue := by
  induction tsns generalizing a bytesToSend chunks first with
  | nil => exact h
  | cons tsn tsns ih =>
    rw [retransmitFrom]
    split
    · exact h
    · split
      · exact ih bytesToSend chunks false h
      · dsimp only
        split
        · exact h
        · have hsent := resend_keeps hnote now tsn
            (f := fun c => { c with retransmit := false, nsent := c.nsent + 1 }) (fun _ => rfl) h
          split
          · exact hsent
          · exact ih _ _ _ hsent

/-- The loop over the chunks that are reported missing. -/
theorem fastRetransmitFrom_keeps (now : ℕ) {a : AssociationInternal} (size : U32)
    (toSend : List Chunk) (tsns : List U32) (h : P a.inflightQueue) :
    P (fastRetransmitFrom now a size toSend tsns).1.inflightQueue := by
  induction tsns generalizing a size toSend with
  | nil => exact h
  | cons tsn tsns ih =>
    rw [fastRetransmitFrom]
    split
    · exact h
    · split
      · exact ih size toSend h
      · dsimp only
        split
        · exact h
        · exact ih _ _ (resend_keeps hnote now tsn (f := fun c => { c with nsent := c.nsent + 1 })
            (fun _ => rfl) h)

end

/-- Retransmissions only write notes. -/
theorem onlyNotes_getDataPacketsToRetransmit (a : AssociationInternal) (now : ℕ) :
    a.inflightQueue.OnlyNotes (a.getDataPacketsToRetransmit now).1.inflightQueue :=
  retransmitFrom_keeps (P := a.inflightQueue.OnlyNotes)
    (fun q t _ hf h => h.trans (OnlyNotes.getMut q t hf)) now _ 0 [] true _ (OnlyNotes.refl _)

/-- So do fast retransmissions. -/
theorem onlyNotes_gatherFast (a : AssociationInternal) (now : ℕ) :
    a.inflightQueue.OnlyNotes (a.gatherOutboundFastRetransmissionPackets now).1.inflightQueue := by
  unfold gatherOutboundFastRetransmissionPackets
  split
  · exact fastRetransmitFrom_keeps (P := a.inflightQueue.OnlyNotes)
      (fun q t _ hf h => h.trans (OnlyNotes.getMut q t hf)) now
      (a := { a with willRetransmitFast := false }) commonHeaderSize [] _ (OnlyNotes.refl _)
  · exact OnlyNotes.refl _

/-- So does the T3-rtx timeout. -/
theorem onlyNotes_onT3RtxTimeout (a : AssociationInternal) :
    a.inflightQueue.OnlyNotes a.onT3RtxTimeout.inflightQueue := by
  obtain ⟨flags, heq⟩ := a.inflightQueue_onT3RtxTimeout
  rw [heq]
  exact OnlyNotes.markAllToRetransmit ..

/-! ## Gathering -/

/-- After the new data nothing else touches the queue in flight. -/
theorem inflightQueue_gatherData (a : AssociationInternal) (now : ℕ) :
    (a.gatherOutboundDataAndReconfigPackets now).1.inflightQueue =
      (a.popPendingDataChunksToSend now).1.inflightQueue := by
  unfold gatherOutboundDataAndReconfigPackets
  generalize a.popPendingDataChunksToSend now = r
  obtain ⟨a₁, chunks, sisToReset⟩ := r
  dsimp only
  have hreconfig := fun b => (congrArg inflightQueue (core_gatherReconfig b sisToReset) :)
  split_ifs
  · exact hreconfig { a₁ with t3rtx := a₁.t3rtx.start }
  · exact hreconfig a₁

/-- Gathering writes notes, puts the chunks it pops into flight, and writes notes again. -/
theorem gatherEstablished_onlyNotes (a : AssociationInternal) (now : ℕ) :
    ∃ q : PayloadQueue, a.inflightQueue.OnlyNotes q ∧
      ((a.popped now).2.1.foldl PayloadQueue.pushNoCheck q).OnlyNotes
        (a.gatherEstablished now).1.inflightQueue := by
  refine ⟨_, onlyNotes_getDataPacketsToRetransmit a now, ?_⟩
  unfold popped gatherEstablished
  generalize a.getDataPacketsToRetransmit now = r
  obtain ⟨a₁, _⟩ := r
  dsimp only
  have hpushed : (a₁.popPendingDataChunksToSend now).1.inflightQueue =
      (a₁.popPendingDataChunksToSend now).2.1.foldl PayloadQueue.pushNoCheck a₁.inflightQueue :=
    (congrArg inflightQueue (popPending_moves a₁ now).frame :)
  rw [← hpushed, ← inflightQueue_gatherData, (gatherForwardTsn_kept _).2, (gatherSack_kept _).2]
  exact onlyNotes_gatherFast _ now

/-- Nothing goes into flight while the association shuts down. -/
theorem gatherShutdown_onlyNotes (a : AssociationInternal) (now : ℕ) :
    a.inflightQueue.OnlyNotes (a.gatherShutdown now).1.inflightQueue := by
  have hsent := (onlyNotes_getDataPacketsToRetransmit a now).trans
    (onlyNotes_gatherFast (a.getDataPacketsToRetransmit now).1 now)
  rw [← (gatherSack_kept ((a.getDataPacketsToRetransmit
    now).1.gatherOutboundFastRetransmissionPackets now).1).2] at hsent
  unfold gatherShutdown
  dsimp only
  obtain ⟨_, _, _, _, heq⟩ := AssociationInternal.gatherOutboundShutdownPackets_eq
    (((a.getDataPacketsToRetransmit now).1.gatherOutboundFastRetransmissionPackets
      now).1.gatherOutboundSackPackets).1
  rw [heq]
  exact hsent

/-- **The queue in flight when packets are gathered.** Chunks are sent again before and after
the new ones are pushed, and nothing else happens to it. -/
theorem gather_onlyNotes (a : AssociationInternal) (now : ℕ) :
    ∃ q : PayloadQueue, a.inflightQueue.OnlyNotes q ∧
      ((a.assigns (.gather now)).foldl PayloadQueue.pushNoCheck q).OnlyNotes
        (a.gatherOutbound now).1.inflightQueue := by
  by_cases hstate : a.state = .established
  · have hassigns : a.assigns (.gather now) = ({ a with controlQueue := [] }.popped now).2.1 :=
      if_pos hstate
    rw [hassigns, gatherOutbound_of_established hstate now]
    exact gatherEstablished_onlyNotes { a with controlQueue := [] } now
  · have hnone : a.assigns (.gather now) = [] := if_neg hstate
    have hshutdown := gatherShutdown_onlyNotes { a with controlQueue := [] } now
    rw [hnone]
    refine ⟨a.inflightQueue, OnlyNotes.refl _, ?_⟩
    show a.inflightQueue.OnlyNotes _
    unfold gatherOutbound
    dsimp only
    split
    · rename_i hestablished
      exact absurd hestablished hstate
    · exact hshutdown
    · exact hshutdown
    · exact hshutdown
    · obtain ⟨_, _, _, _, heq⟩ := { a with controlQueue := [] }.gatherOutboundShutdownPackets_eq
      rw [heq]
      exact OnlyNotes.refl _
    · exact OnlyNotes.refl _

end AssociationInternal

end Sctp
