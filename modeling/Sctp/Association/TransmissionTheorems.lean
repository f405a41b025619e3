import Sctp.Association.BundleTheorems
import Sctp.Association.ForwardTsnTheorems
import Sctp.Association.SenderTheorems
import Sctp.Association.Transmission
import Sctp.StreamTheorems

/-!
# What is sent under a TSN: theorems

A chunk in flight carries what its TSN was given last, unless it is acknowledged; then it is
not due any more.
-/

namespace Sctp

variable {Q : ChunkPayloadData → Prop}

namespace AssociationInternal

variable {a a' : AssociationInternal}

/-! ## What a chunk in flight carries -/

/-- The chunk carries what the table says of its TSN, and has not been acknowledged. -/
def Sound (M : U32 → Option ChunkPayloadData) (c : ChunkPayloadData) : Prop :=
  c.acked = false ∧ M c.tsn = some c.contents

/-- The chunk is sound, or it is acknowledged and not due. -/
def Conveys (M : U32 → Option ChunkPayloadData) (c : ChunkPayloadData) : Prop :=
  (c.acked = true ∧ c.retransmit = false) ∨ Sound M c

section
variable {M M' : U32 → Option ChunkPayloadData}

theorem Conveys.congr {c : ChunkPayloadData} (h : Conveys M c) (hM : M' c.tsn = M c.tsn) :
    Conveys M' c := by
  rcases h with hacked | ⟨hacked, hcontents⟩
  · exact Or.inl hacked
  · exact Or.inr ⟨hacked, hM.trans hcontents⟩

/-- A chunk that is sent again is not acknowledged: acknowledging it has cleared its flag. -/
theorem retransmits_conveys (M : U32 → Option ChunkPayloadData) :
    Retransmits (Conveys M) (Sound M) where
  again := by
    intro c hc hdue
    rcases hc with ⟨_, hnot⟩ | hsound
    · rw [hdue] at hnot
      cases hnot
    · have hsent : Sound M { c with retransmit := false, nsent := c.nsent + 1 } := hsound
      exact ⟨Or.inr hsent, hsent⟩
  fast := by
    intro c hc hacked
    rcases hc with ⟨hyes, _⟩ | hsound
    · rw [hacked] at hyes
      cases hyes
    · have hsent : Sound M { c with nsent := c.nsent + 1 } := hsound
      exact ⟨Or.inr hsent, hsent⟩

theorem sackKeeps_conveys (M : U32 → Option ChunkPayloadData) :
    SackKeeps (PayloadQueue.Each (Conveys M)) where
  pop _ t h := h.pop t
  mark _ t h := h.markAsAcked t fun _ _ => Or.inl ⟨rfl, rfl⟩
  miss _ t h := h.getMut fun c hc => ⟨rfl, (h t c hc).2⟩

/-- The timeout marks only what is not acknowledged. -/
theorem each_conveys_t3Rtx (h : a.inflightQueue.Each (Conveys M)) :
    a.onT3RtxTimeout.inflightQueue.Each (Conveys M) := by
  obtain ⟨flags, heq⟩ := a.inflightQueue_onT3RtxTimeout
  rw [heq]
  apply h.markAllToRetransmit
  intro c hc hacked
  rcases hc with ⟨hyes, _⟩ | hsound
  · rw [hacked] at hyes
    cases hyes
  · exact Or.inr hsound

end

/-! ## The ledger -/

theorem Consecutive.append {next : U32} {ledger chunks : List ChunkPayloadData}
    (h : Consecutive next ledger)
    (hchunks : ∀ i c, chunks[i]? = some c → c.tsn = next.after i) :
    Consecutive (next.after chunks.length) (chunks.reverse ++ ledger) := by
  intro i c hc
  by_cases hi : i < chunks.length
  · rw [List.getElem?_append_left (by rwa [List.length_reverse]),
      List.getElem?_reverse hi] at hc
    rw [hchunks _ c hc, after_add, show chunks.length - 1 - i + (i + 1) = chunks.length by omega]
  · rw [List.getElem?_append_right (by rw [List.length_reverse]; omega), List.length_reverse] at hc
    have hold := h _ c hc
    rw [← hold, after_add, show i - chunks.length + 1 + chunks.length = i + 1 by omega]

theorem lastAssigned_append_of_notMem {ledger chunks : List ChunkPayloadData} {t : U32}
    (h : ∀ c ∈ chunks, c.tsn ≠ t) :
    lastAssigned (chunks.reverse ++ ledger) t = lastAssigned ledger t := by
  have hnone : chunks.reverse.find? (fun c => decide (c.tsn = t)) = none := by
    rw [List.find?_eq_none]
    intro c hc
    simpa using h c (List.mem_reverse.mp hc)
  unfold lastAssigned
  rw [List.find?_append, hnone]
  rfl

/-- The chunks of one gathering have different TSNs. -/
theorem lastAssigned_append_of_mem {ledger chunks : List ChunkPayloadData} {next : U32}
    (hchunks : ∀ i c, chunks[i]? = some c → c.tsn = next.after i) (hlen : chunks.length < 2 ^ 32)
    {c : ChunkPayloadData} (hc : c ∈ chunks) :
    lastAssigned (chunks.reverse ++ ledger) c.tsn = some c.contents := by
  have hfind : chunks.reverse.find? (fun d => decide (d.tsn = c.tsn)) = some c := by
    have hsome : (chunks.reverse.find? fun d => decide (d.tsn = c.tsn)).isSome = true := by
      rw [List.find?_isSome]
      exact ⟨c, List.mem_reverse.mpr hc, decide_eq_true rfl⟩
    obtain ⟨d, hd⟩ := Option.isSome_iff_exists.mp hsome
    have htsn : d.tsn = c.tsn := by simpa using List.find?_some hd
    obtain ⟨i, hi, rfl⟩ := List.getElem_of_mem hc
    obtain ⟨j, hj, rfl⟩ := List.getElem_of_mem (List.mem_reverse.mp (List.mem_of_find?_eq_some hd))
    have hci := hchunks i _ (List.getElem?_eq_getElem hi)
    have hcj := hchunks j _ (List.getElem?_eq_getElem hj)
    have hij : j = i := by
      have heq : next.after j = next.after i := by rw [← hcj, ← hci, htsn]
      have hdist := congrArg (Serial.dist next) heq
      rwa [dist_after next (by omega), dist_after next (by omega)] at hdist
    rw [hd]
    subst hij
    rfl
  unfold lastAssigned
  rw [List.find?_append, hfind]
  rfl

/-! ## Gathering -/

/-- What is pending has when it moves into flight what it had before, and what is left too. -/
theorem popPending_each {now : ℕ} (hQ : ∀ c tsn, Q c → Q (numbered c tsn now))
    (h : a.pendingQueue.Each Q) :
    (a.popPendingDataChunksToSend now).1.pendingQueue.Each Q ∧
      ∀ c ∈ (a.popPendingDataChunksToSend now).2.1, Q c := by
  refine popPendingDataChunksToSend_invariant (P := fun b chunks =>
    b.pendingQueue.Each Q ∧ ∀ c ∈ chunks, Q c) ?_ ?_ ?_
  · intro b chunks c _ _ hb
    exact ⟨(hb.1.pop _ _).1, hb.2⟩
  · intro b chunks c rwnd _ hb
    obtain ⟨hrest, hpopped⟩ := hb.1.pop c.beginningFragment c.unordered
    rcases hpop : b.pendingQueue.pop c.beginningFragment c.unordered with ⟨q, _ | c'⟩
    · rw [hpop] at hrest
      rw [movePending_of_none (a := { b with rwnd }) hpop, Option.toList_none, List.append_nil]
      exact ⟨hrest, hb.2⟩
    · rw [hpop] at hrest hpopped
      obtain ⟨flags, _, heq⟩ := movePending_of_some (a := { b with rwnd }) now hpop
      rw [heq]
      refine ⟨hrest, ?_⟩
      intro d hd
      rcases List.mem_append.mp hd with hold | hnew
      · exact hb.2 d hold
      · cases List.mem_singleton.mp hnew
        exact hQ c' _ (hpopped c' rfl)
  · exact ⟨h, fun c hc => absurd hc List.not_mem_nil⟩

/-- The same for what is popped after the retransmissions. -/
theorem popped_each {now : ℕ} (hQ : ∀ c tsn, Q c → Q (numbered c tsn now))
    (h : a.pendingQueue.Each Q) :
    (a.popped now).1.pendingQueue.Each Q ∧ ∀ c ∈ (a.popped now).2.1, Q c := by
  have hkept : (a.getDataPacketsToRetransmit now).1.pendingQueue = a.pendingQueue :=
    (congrArg pendingQueue (resends_getDataPacketsToRetransmit _ now).frame :)
  refine popPending_each hQ ?_
  rw [hkept]
  exact h

/-- The interval in flight grows by the chunks that are popped, as long as it is short. -/
theorem Sending.popPending {n : ℕ} (h : a.Sending n) (hn : n < 2 ^ 31) {now : ℕ}
    (hlen : (a.popPendingDataChunksToSend now).1.inflightQueue.len < 2 ^ 31) :
    n + (a.popPendingDataChunksToSend now).2.1.length < 2 ^ 31 := by
  -- once the queue is too long it stays so
  have hP := @popPendingDataChunksToSend_invariant a (fun b chunks =>
    (b.Sending (n + chunks.length) ∧ n + chunks.length < 2 ^ 31) ∨ 2 ^ 31 ≤ b.inflightQueue.len)
    now ?_ ?_ (Or.inl ⟨h, hn⟩)
  · rcases hP with ⟨_, hshort⟩ | hlong
    · exact hshort
    · omega
  · intro b chunks c _ _ hb
    rcases hb with ⟨hs, hshort⟩ | hlong
    · exact Or.inl ⟨⟨hs.window, hs.next⟩, hshort⟩
    · exact Or.inr hlong
  · intro b chunks c rwnd _ hb
    rcases hpop : b.pendingQueue.pop c.beginningFragment c.unordered with ⟨q, _ | c'⟩
    · rw [movePending_of_none (a := { b with rwnd }) hpop, Option.toList_none, List.append_nil]
      rcases hb with ⟨hs, hshort⟩ | hlong
      · exact Or.inl ⟨⟨hs.window, hs.next⟩, hshort⟩
      · exact Or.inr hlong
    · obtain ⟨flags, _, heq⟩ := movePending_of_some (a := { b with rwnd }) now hpop
      rw [heq]
      rcases hb with ⟨hs, hshort⟩ | hlong
      · have hwindow := hs.window.pushNoCheck (by omega)
          (p := numbered c' b.myNextTsn now) hs.next
        by_cases hbound : n + (chunks.length + 1) < 2 ^ 31
        · refine Or.inl ⟨⟨?_, ?_⟩, ?_⟩
          · rw [Option.toList_some, List.length_append, List.length_singleton, ← Nat.add_assoc]
            exact hwindow
          · show b.myNextTsn + 1 = _
            rw [Option.toList_some, List.length_append, List.length_singleton, hs.next, after_succ,
              Nat.add_assoc n]
          · rw [Option.toList_some, List.length_append, List.length_singleton]
            exact hbound
        · refine Or.inr ?_
          show 2 ^ 31 ≤ (b.inflightQueue.pushNoCheck (numbered c' b.myNextTsn now)).len
          rw [hwindow.len_eq]
          omega
      · exact Or.inr (Nat.le_trans hlong (PayloadQueue.len_le_pushNoCheck ..))

/-- The queue in flight is as long as after the pops. -/
theorem len_gatherOutbound (hstate : a.state = .established) (now : ℕ) :
    (a.gatherOutbound now).1.inflightQueue.len =
      ({ a with controlQueue := [] }.popped now).1.inflightQueue.len := by
  rw [gatherOutbound_of_established hstate now]
  obtain ⟨b, _, hflight, _, _, htouched, _⟩ :=
    gatherEstablished_spec { a with controlQueue := [] } now
  rw [htouched.len_eq, hflight]

theorem mem_sendsData {op : SenderOp} {c : ChunkPayloadData} :
    c ∈ a.sendsData op ↔ ∃ packet ∈ a.senderEmits op, .payloadData c ∈ packet.chunks := by
  unfold sendsData
  rw [List.mem_flatMap]
  constructor
  · rintro ⟨packet, hpacket, hc⟩
    obtain ⟨d, hd, heq⟩ := List.mem_filterMap.mp hc
    refine ⟨packet, hpacket, ?_⟩
    cases d with
    | payloadData d =>
      cases heq
      exact hd
    | _ => cases heq
  · rintro ⟨packet, hpacket, hc⟩
    exact ⟨packet, hpacket, List.mem_filterMap.mpr ⟨_, hc, rfl⟩⟩

/-- Popped before or after the retransmissions, the state is in the same window. -/
theorem Sending.popped {n : ℕ} (h : a.Sending n) (hn : n < 2 ^ 31) {now : ℕ}
    (hlen : (a.popped now).1.inflightQueue.len < 2 ^ 31) :
    n + (a.popped now).2.1.length < 2 ^ 31 := by
  have hresends := resends_getDataPacketsToRetransmit a now
  have hs : (a.getDataPacketsToRetransmit now).1.Sending n :=
    h.congr hresends.touched (congrArg cumulativeTsnAckPoint hresends.frame :)
      (congrArg myNextTsn hresends.frame :)
  exact hs.popPending hn hlen

/-- What is in flight keeps what it carries, as the chunks that move into flight get other
TSNs. -/
theorem each_conveys_append {n : ℕ} (h : a.Sending n) {ledger chunks : List ChunkPayloadData}
    (hcarries : a.inflightQueue.Each (Conveys (lastAssigned ledger)))
    (hchunks : ∀ i c, chunks[i]? = some c → c.tsn = a.myNextTsn.after i)
    (hlen : n + chunks.length < 2 ^ 31) :
    a.inflightQueue.Each (Conveys (lastAssigned (chunks.reverse ++ ledger))) := by
  intro t c hc
  obtain ⟨htsn, hcarry⟩ := hcarries t c hc
  refine ⟨htsn, hcarry.congr (lastAssigned_append_of_notMem ?_)⟩
  intro d hd heq
  -- a chunk in flight lies in the window, one that moves behind it
  have hmem : t ∈ a.inflightQueue.chunkMap := by
    rw [← AList.lookup_isSome]
    show (a.inflightQueue.get t).isSome = true
    rw [hc]
    rfl
  have hdist := (h.window.mem_window (by omega) t).mp hmem
  obtain ⟨i, hi, hget⟩ := List.getElem_of_mem hd
  have hnew := hchunks i d (by rw [List.getElem?_eq_getElem hi, hget])
  rw [heq, htsn, h.next, after_add] at hnew
  rw [hnew, dist_after _ (by omega)] at hdist
  omega

/-- Whatever gathering sends is not acknowledged, and carries what its TSN was given last. -/
theorem gather_conveys {n : ℕ} (h : a.Sending n) (hn : n < 2 ^ 31) {now : ℕ}
    (hlen : (a.gatherOutbound now).1.inflightQueue.len < 2 ^ 31) (hstate : a.state = .established)
    {ledger : List ChunkPayloadData} (hpending : a.pendingQueue.Each (·.acked = false))
    (hcarries : a.inflightQueue.Each (Conveys (lastAssigned ledger)))
    (hcontrol : emits Chunk.isPayloadData a.controlQueue = false) :
    let chunks := a.assigns (.gather now)
    let M := lastAssigned (chunks.reverse ++ ledger)
    (a.gatherOutbound now).1.inflightQueue.Each (Conveys M) ∧
      (∀ c ∈ a.sendsData (.gather now), Sound M c) ∧
      (a.gatherOutbound now).1.pendingQueue.Each (·.acked = false) ∧
      (a.gatherOutbound now).1.myNextTsn = a.myNextTsn.after chunks.length ∧
      ∀ i c, chunks[i]? = some c → c.tsn = a.myNextTsn.after i := by
  intro chunks M
  rcases hr : { a with controlQueue := [] }.popped now with r
  have hassigns : chunks = r.2.1 := by
    show (if a.state = .established then ({ a with controlQueue := [] }.popped now).2.1 else []) = _
    rw [if_pos hstate, hr]
  obtain ⟨hspoken, htsns, htell⟩ := gatherOutbound_spec hstate now hr
  have hs : { a with controlQueue := [] }.Sending n := ⟨h.window, h.next⟩
  -- the SNA window: fewer than 2³¹ chunks are in flight, so no TSN of them is given twice
  have hshort : n + r.2.1.length < 2 ^ 31 := by
    have hpoppedLen : ({ a with controlQueue := [] }.popped now).1.inflightQueue.len < 2 ^ 31 := by
      rw [← len_gatherOutbound hstate now]
      exact hlen
    have hpopped := hs.popped hn hpoppedLen
    rwa [hr] at hpopped
  rw [← hassigns] at htsns hshort htell hspoken
  have hunacked : r.1.pendingQueue.Each (·.acked = false) ∧ ∀ c ∈ chunks, c.acked = false := by
    have hpop := @popped_each (·.acked = false) { a with controlQueue := [] } now
      (fun _ _ hc => hc) hpending
    rw [hr] at hpop
    rw [hassigns]
    exact hpop
  have hsound : ∀ c ∈ chunks, Sound M c := by
    intro c hc
    exact ⟨hunacked.2 c hc, lastAssigned_append_of_mem htsns (by omega) hc⟩
  obtain ⟨heach, packets, hpackets, hsent⟩ := @htell (Conveys M) (Sound M) (fun _ => True)
    (fun _ => True) (retransmits_conveys M) (each_conveys_append h hcarries htsns hshort)
    (fun c hc => ⟨Or.inr (hsound c hc), hsound c hc⟩) trivial trivial
  refine ⟨heach, ?_, ?_, (congrArg myNextTsn hspoken :), htsns⟩
  · intro c hc
    obtain ⟨packet, hpacket, hin⟩ := mem_sendsData.mp hc
    have hmem : packet ∈ a.controlQueue ++ packets := by
      rw [← hpackets]
      exact hpacket
    rcases List.mem_append.mp hmem with hold | hnew
    · have hdata : emits Chunk.isPayloadData a.controlQueue = true := mem_emits hold hin rfl
      rw [hcontrol] at hdata
      cases hdata
    · exact hsent packet hnew _ hin
  · have hkept : (a.gatherOutbound now).1.pendingQueue = r.1.pendingQueue :=
      (congrArg pendingQueue hspoken :)
    rw [hkept]
    exact hunacked.1

/-- The packets of a shutdown have no data. -/
theorem shutdownPackets_quiet {P : ChunkPayloadData → Prop} (a : AssociationInternal) :
    ∀ packet ∈ a.gatherOutboundShutdownPackets.2.1, ∀ c, .payloadData c ∈ packet.chunks → P c := by
  intro packet hpacket c hc
  unfold gatherOutboundShutdownPackets at hpacket
  dsimp only at hpacket
  split_ifs at hpacket
  · cases List.mem_singleton.mp hpacket
    cases List.mem_singleton.mp hc
  · cases List.mem_singleton.mp hpacket
    cases List.mem_singleton.mp hc
  · cases List.mem_singleton.mp hpacket
    cases List.mem_singleton.mp hc
  · exact absurd hpacket List.not_mem_nil

/-- While a shutdown is under way nothing moves into flight. -/
theorem gatherShutdown_each {Q E : ChunkPayloadData → Prop} (hQ : Retransmits Q E) (now : ℕ)
    (h : a.inflightQueue.Each Q) :
    (a.gatherShutdown now).1.inflightQueue.Each Q ∧
      a.inflightQueue.Touched (a.gatherShutdown now).1.inflightQueue ∧
      (a.gatherShutdown now).1.pendingQueue = a.pendingQueue ∧
      (a.gatherShutdown now).1.myNextTsn = a.myNextTsn ∧
      ∀ packet ∈ (a.gatherShutdown now).2.1, ∀ c, .payloadData c ∈ packet.chunks → E c := by
  unfold gatherShutdown
  dsimp only
  obtain ⟨heach₁, htell₁⟩ := @tell_retransmit a _ _ (fun _ => True) (fun _ => True) hQ now h
  have hresends₁ := resends_getDataPacketsToRetransmit a now
  generalize a.getDataPacketsToRetransmit now = r₁ at heach₁ htell₁ hresends₁ ⊢
  obtain ⟨heach₂, htell₂⟩ := @tell_fast r₁.1 _ _ (fun _ => True) (fun _ => True) hQ now heach₁
  have hresends₂ := resends_gatherFast r₁.1 now
  generalize r₁.1.gatherOutboundFastRetransmissionPackets now = r₂ at heach₂ htell₂ hresends₂ ⊢
  obtain ⟨hspoken, hflight⟩ := gatherSack_kept r₂.1
  have htell₃ := @tell_sack r₂.1 E (fun _ => True) (fun _ => True) trivial
  generalize r₂.1.gatherOutboundSackPackets = r₃ at hspoken hflight htell₃ ⊢
  obtain ⟨_, _, _, _, heq⟩ := r₃.1.gatherOutboundShutdownPackets_eq
  have hquiet := @shutdownPackets_quiet E r₃.1
  have hresends := hresends₁.trans hresends₂
  -- three gatherers in turn; none of them touches the pending queue or `my_next_tsn`
  rw [heq]
  refine ⟨?_, ?_, ?_, ?_, ?_⟩
  · show r₃.1.inflightQueue.Each Q
    rw [hflight]
    exact heach₂
  · show a.inflightQueue.Touched r₃.1.inflightQueue
    rw [hflight]
    exact hresends.touched
  · have h₃ : r₃.1.pendingQueue = r₂.1.pendingQueue := (congrArg pendingQueue hspoken :)
    exact h₃.trans (congrArg pendingQueue hresends.frame :)
  · have h₃ : r₃.1.myNextTsn = r₂.1.myNextTsn := (congrArg myNextTsn hspoken :)
    exact h₃.trans (congrArg myNextTsn hresends.frame :)
  · intro packet hpacket c hc
    rcases List.mem_append.mp hpacket with hsent | hshutdown
    · exact ((htell₁.append htell₂).append htell₃) packet hsent _ hc
    · exact hquiet packet hshutdown c hc

/-- Out of Established gathering sends only what is in flight. -/
theorem gather_each_of_ne {Q E : ChunkPayloadData → Prop} (hQ : Retransmits Q E)
    (hstate : a.state ≠ .established) (now : ℕ) (h : a.inflightQueue.Each Q) :
    (a.gatherOutbound now).1.inflightQueue.Each Q ∧
      a.inflightQueue.Touched (a.gatherOutbound now).1.inflightQueue ∧
      (a.gatherOutbound now).1.pendingQueue = a.pendingQueue ∧
      (a.gatherOutbound now).1.myNextTsn = a.myNextTsn ∧
      (emits Chunk.isPayloadData a.controlQueue = false → ∀ c ∈ a.sendsData (.gather now), E c) := by
  suffices hgather : (a.gatherOutbound now).1.inflightQueue.Each Q ∧
      a.inflightQueue.Touched (a.gatherOutbound now).1.inflightQueue ∧
      (a.gatherOutbound now).1.pendingQueue = a.pendingQueue ∧
      (a.gatherOutbound now).1.myNextTsn = a.myNextTsn ∧
      ∃ packets, (a.gatherOutbound now).2.1 = a.controlQueue ++ packets ∧
        ∀ packet ∈ packets, ∀ c, .payloadData c ∈ packet.chunks → E c by
    obtain ⟨heach, htouched, hpending, hnext, packets, hpackets, hsent⟩ := hgather
    refine ⟨heach, htouched, hpending, hnext, ?_⟩
    intro hcontrol c hc
    obtain ⟨packet, hpacket, hin⟩ := mem_sendsData.mp hc
    have hmem : packet ∈ a.controlQueue ++ packets := by
      rw [← hpackets]
      exact hpacket
    -- a packet that was queued, or one that was built now
    rcases List.mem_append.mp hmem with hold | hnew
    · have hdata : emits Chunk.isPayloadData a.controlQueue = true := mem_emits hold hin rfl
      rw [hcontrol] at hdata
      cases hdata
    · exact hsent packet hnew c hin
  obtain ⟨heach, htouched, hpending, hnext, hsent⟩ :=
    @gatherShutdown_each { a with controlQueue := [] } Q E hQ now h
  unfold gatherOutbound
  dsimp only
  split
  · rename_i hestablished
    exact absurd hestablished hstate
  · exact ⟨heach, htouched, hpending, hnext, _, rfl, hsent⟩
  · exact ⟨heach, htouched, hpending, hnext, _, rfl, hsent⟩
  · exact ⟨heach, htouched, hpending, hnext, _, rfl, hsent⟩
  · obtain ⟨_, _, _, _, heq⟩ := { a with controlQueue := [] }.gatherOutboundShutdownPackets_eq
    have hquiet := @shutdownPackets_quiet E { a with controlQueue := [] }
    rw [heq]
    exact ⟨h, PayloadQueue.Touched.refl _, rfl, rfl, _, rfl, hquiet⟩
  · exact ⟨h, PayloadQueue.Touched.refl _, rfl, rfl, [], (List.append_nil _).symm,
      fun _ hpacket => absurd hpacket List.not_mem_nil⟩

/-! ## The invariant -/

theorem unacked_fragments (s : Stream) (unordered : Bool) (ppi : PayloadProtocolIdentifier)
    (abandoned allInflight : SharedFlag) (raw : Bytes) (fuel i : ℕ) :
    ∀ c ∈ s.fragments unordered ppi abandoned allInflight raw fuel i, c.acked = false := by
  induction fuel generalizing i with
  | zero => exact fun c hc => absurd hc List.not_mem_nil
  | succ fuel ih =>
    rw [Stream.fragments]
    dsimp only
    split
    · exact fun c hc => absurd hc List.not_mem_nil
    · intro c hc
      rcases List.mem_cons.mp hc with rfl | hc
      · rfl
      · exact ih _ c hc

/-- A write only pushes chunks that have not been sent. -/
theorem unacked_writeSctp (h : a.pendingQueue.Each (·.acked = false)) (r : StreamRef) (p : Bytes)
    (ppi : PayloadProtocolIdentifier) :
    (a.writeSctp r p ppi).1.pendingQueue.Each (·.acked = false) := by
  unfold writeSctp
  split
  · exact h
  · rename_i s hs
    dsimp only
    rcases s.writeSctp_cases a.maxMessageSize a.state a.flags a.pendingQueue p ppi with
      ⟨e, heq⟩ | ⟨e, heq⟩ | ⟨_, heq⟩
    · rw [heq]
      exact h
    · rw [heq]
      exact h
    · rw [heq]
      exact h.pushes (unacked_fragments s _ ppi _ _ p _ _)

theorem unacked_shutdownStream (h : a.pendingQueue.Each (·.acked = false)) (r : StreamRef)
    (how : Shutdown) : (a.shutdownStream r how).1.pendingQueue.Each (·.acked = false) := by
  unfold shutdownStream
  split
  · exact h
  · rename_i s hs
    dsimp only
    obtain ⟨s', _, ⟨_, heq⟩ | heq⟩ := s.shutdown_cases a.state a.flags a.pendingQueue how
    · rw [heq]
      exact h
    · rw [heq]
      exact h.push rfl

/-- What holds of the association and its ledger in every state of a run. -/
structure Transmitting (s : AssociationInternal × List ChunkPayloadData) : Prop where
  sending : ∃ n < 2 ^ 31, s.1.Sending n
  pending : s.1.pendingQueue.Each (·.acked = false)
  inflight : s.1.inflightQueue.Each (Conveys (lastAssigned s.2))
  control : emits Chunk.isPayloadData s.1.controlQueue = false
  ledger : Consecutive s.1.myNextTsn s.2

variable {s : AssociationInternal × List ChunkPayloadData}

/-- Gathering keeps it, and sends what the ledger says. -/
theorem Transmitting.gather (h : Transmitting s) (now : ℕ)
    (hlen : (s.1.gatherOutbound now).1.inflightQueue.len < 2 ^ 31) :
    Transmitting (transmitStep s (.gather now)) ∧ SendsAssigned s (.gather now) := by
  obtain ⟨n, hn, hs⟩ := h.sending
  have hcontrol : emits Chunk.isPayloadData (s.1.gatherOutbound now).1.controlQueue = false := by
    rw [controlQueue_gatherOutbound]
    rfl
  by_cases hstate : s.1.state = .established
  · obtain ⟨heach, hsent, hpending, hnext, htsns⟩ :=
      gather_conveys hs hn hlen hstate h.pending h.inflight h.control
    refine ⟨⟨hs.gather hn hlen, hpending, heach, hcontrol, ?_⟩, hsent⟩
    have hledger := h.ledger.append htsns
    rw [← hnext] at hledger
    exact hledger
  · obtain ⟨heach, _, hpending, hnext, hsent⟩ :=
      gather_each_of_ne (retransmits_conveys _) hstate now h.inflight
    have hsame : transmitStep s (.gather now) = ((s.1.gatherOutbound now).1, s.2) := by
      show ((s.1.gatherOutbound now).1, (if s.1.state = .established then
        ({ s.1 with controlQueue := [] }.popped now).2.1 else []).reverse ++ s.2) = _
      rw [if_neg hstate]
      rfl
    unfold SendsAssigned
    rw [hsame]
    refine ⟨⟨hs.gather hn hlen, ?_, heach, hcontrol, ?_⟩, hsent h.control⟩
    · show (s.1.gatherOutbound now).1.pendingQueue.Each _
      rw [hpending]
      exact h.pending
    · show Consecutive (s.1.gatherOutbound now).1.myNextTsn s.2
      rw [hnext]
      exact h.ledger

/-- Where neither the queue in flight nor the ledger is concerned, only the pending queue
matters. -/
theorem Transmitting.congr {b : AssociationInternal} (h : Transmitting s)
    (hsending : ∃ n < 2 ^ 31, b.Sending n) (hpending : b.pendingQueue.Each (·.acked = false))
    (hflight : b.inflightQueue = s.1.inflightQueue) (hcontrol : b.controlQueue = s.1.controlQueue)
    (hnext : b.myNextTsn = s.1.myNextTsn) : Transmitting (b, s.2) where
  sending := hsending
  pending := hpending
  inflight := by
    show b.inflightQueue.Each _
    rw [hflight]
    exact h.inflight
  control := by
    show emits _ b.controlQueue = false
    rw [hcontrol]
    exact h.control
  ledger := by
    show Consecutive b.myNextTsn s.2
    rw [hnext]
    exact h.ledger

/-- **What one operation keeps.** -/
theorem Transmitting.step (h : Transmitting s) {op : SenderOp} (hop : s.1.Transmits op) :
    Transmitting (transmitStep s op) := by
  obtain ⟨n, hn, hs⟩ := h.sending
  have hsending := hs.senderStep hn hop.1
  cases op with
  | openStream si ppi =>
    obtain ⟨objects, streams, heq⟩ := s.1.openStream_eq si ppi
    have hstep : s.1.senderStep (.openStream si ppi) = { s.1 with objects, streams } := heq
    show Transmitting (s.1.senderStep (.openStream si ppi), s.2)
    rw [hstep] at hsending ⊢
    exact h.congr hsending h.pending rfl rfl rfl
  | setReliabilityParams r unordered relType relVal =>
    exact h.congr hsending h.pending rfl rfl rfl
  | write r p ppi =>
    have hpending := unacked_writeSctp h.pending r p ppi
    obtain ⟨flags, pendingQueue, objects, heq⟩ := s.1.writeSctp_eq r p ppi
    have hstep : s.1.senderStep (.write r p ppi) = { s.1 with flags, pendingQueue, objects } := heq
    rw [heq] at hpending
    show Transmitting (s.1.senderStep (.write r p ppi), s.2)
    rw [hstep] at hsending ⊢
    exact h.congr hsending hpending rfl rfl rfl
  | shutdownStream r how =>
    have hpending := unacked_shutdownStream h.pending r how
    obtain ⟨flags, pendingQueue, objects, heq⟩ := s.1.shutdownStream_eq r how
    have hstep : s.1.senderStep (.shutdownStream r how) =
        { s.1 with flags, pendingQueue, objects } := heq
    rw [heq] at hpending
    show Transmitting (s.1.senderStep (.shutdownStream r how), s.2)
    rw [hstep] at hsending ⊢
    exact h.congr hsending hpending rfl rfl rfl
  | push c => exact h.congr hsending (h.pending.push hop.2) rfl rfl rfl
  | gather now => exact (h.gather now hop.1.2).1
  | t3Rtx =>
    have hframe := s.1.onT3RtxTimeout_frame
    have hpending : s.1.onT3RtxTimeout.pendingQueue = s.1.pendingQueue :=
      (congrArg pendingQueue hframe :)
    have hcontrol : s.1.onT3RtxTimeout.controlQueue = s.1.controlQueue :=
      (congrArg controlQueue hframe :)
    have hnext : s.1.onT3RtxTimeout.myNextTsn = s.1.myNextTsn := (congrArg myNextTsn hframe :)
    refine ⟨hsending, ?_, each_conveys_t3Rtx h.inflight, ?_, ?_⟩
    · exact hpending ▸ h.pending
    · exact hcontrol ▸ h.control
    · exact hnext ▸ h.ledger
  | sack now d =>
    have hpending : (s.1.handleSack now d).1.pendingQueue = s.1.pendingQueue :=
      handleSack_kept (fun _ _ _ _ _ _ => rfl) s.1 now d
    have hcontrol : (s.1.handleSack now d).1.controlQueue = s.1.controlQueue :=
      handleSack_kept (fun _ _ _ _ _ _ => rfl) s.1 now d
    have hnext : (s.1.handleSack now d).1.myNextTsn = s.1.myNextTsn :=
      handleSack_kept (fun _ _ _ _ _ _ => rfl) s.1 now d
    refine ⟨hsending, ?_, (sackKeeps_conveys _).handleSack now d h.inflight, ?_, ?_⟩
    · exact hpending ▸ h.pending
    · exact hcontrol ▸ h.control
    · exact hnext ▸ h.ledger
  | shutdownChunk =>
    obtain ⟨state, willSendShutdownAck, heq⟩ := s.1.handleShutdown_eq
    have hstep : s.1.senderStep .shutdownChunk = { s.1 with state, willSendShutdownAck } := heq
    show Transmitting (s.1.senderStep .shutdownChunk, s.2)
    rw [hstep] at hsending ⊢
    exact h.congr hsending h.pending rfl rfl rfl
  | shutdown =>
    obtain ⟨state, willSendShutdown, heq⟩ := s.1.shutdown_eq
    have hstep : s.1.senderStep .shutdown = { s.1 with state, willSendShutdown } := heq
    show Transmitting (s.1.senderStep .shutdown, s.2)
    rw [hstep] at hsending ⊢
    exact h.congr hsending h.pending rfl rfl rfl

/-! ## Runs -/

theorem Fresh.transmitting (h : a.Fresh) (hcontrol : emits Chunk.isPayloadData a.controlQueue = false) :
    Transmitting (a, []) where
  sending := ⟨0, by omega, h.sending⟩
  pending := by
    show a.pendingQueue.Each _
    rw [h.pendingQueue]
    exact PendingQueue.Each.new
  inflight := by
    show a.inflightQueue.Each _
    rw [h.inflightQueue]
    exact PayloadQueue.Each.new
  control := hcontrol
  ledger i c hc := by cases hc

theorem Transmitting.sendsAssigned (h : Transmitting s) {op : SenderOp} (hop : s.1.Transmits op) :
    SendsAssigned s op := by
  cases op with
  | gather now => exact (h.gather now hop.1.2).2
  | _ => exact fun c hc => absurd hc List.not_mem_nil

/-- Whatever a run has sent is a chunk of the ledger, up to the sender's notes. -/
theorem mem_ledger_of_sent {ops : List SenderOp} (h : Runs.Along transmitStep SendsAssigned s ops) :
    (∃ later, (Runs.run transmitStep s ops).2 = later ++ s.2) ∧
      ∀ c ∈ s.1.sentData ops, ∃ d ∈ (Runs.run transmitStep s ops).2,
        d.tsn = c.tsn ∧ d.contents = c.contents := by
  induction ops generalizing s with
  | nil => exact ⟨⟨[], rfl⟩, fun c hc => absurd hc List.not_mem_nil⟩
  | cons op ops ih =>
    obtain ⟨⟨later, hlater⟩, hrest⟩ := ih h.2
    refine ⟨⟨later ++ (s.1.assigns op).reverse, ?_⟩, ?_⟩
    · rw [Runs.run_cons, hlater, List.append_assoc]
      rfl
    · intro c hc
      rcases List.mem_append.mp hc with hfirst | hthen
      · obtain ⟨_, hassigned⟩ := h.1 c hfirst
        obtain ⟨d, hd, hcontents⟩ := Option.map_eq_some_iff.mp hassigned
        refine ⟨d, ?_, by simpa using List.find?_some hd, hcontents⟩
        rw [Runs.run_cons, hlater]
        exact List.mem_append_right _ (List.mem_of_find?_eq_some hd)
      · exact hrest c hthen

/-- In a short ledger the TSNs are different. -/
theorem Consecutive.unique {next : U32} {ledger : List ChunkPayloadData}
    (h : Consecutive next ledger) (hlen : ledger.length ≤ 2 ^ 32) {c d : ChunkPayloadData}
    (hc : c ∈ ledger) (hd : d ∈ ledger) (htsn : c.tsn = d.tsn) : c = d := by
  obtain ⟨i, hi, rfl⟩ := List.getElem_of_mem hc
  obtain ⟨j, hj, rfl⟩ := List.getElem_of_mem hd
  have hij : i = j := by
    have hfirst := h i _ (List.getElem?_eq_getElem hi)
    have hsecond := h j _ (List.getElem?_eq_getElem hj)
    rw [← hsecond, htsn, ← after_succ, ← after_succ] at hfirst
    have hdist := congrArg (fun t => Serial.dist ledger[j].tsn (t - 1)) hfirst
    simp only [BitVec.add_sub_cancel] at hdist
    rwa [dist_after _ (by omega), dist_after _ (by omega)] at hdist
  subst hij
  rfl

/-- **What is sent under a TSN.** In every run each DATA chunk that is sent, for the first time
or again, is not acknowledged and carries the contents of the chunk that was given its TSN last.
TSNs are given in order, so that a TSN is given to another chunk only 2^32 chunks later; in a
run that gives no more than that, what is sent with the same TSN has the same contents. -/
theorem sendsAssigned_of_run (ha : a.Fresh)
    (hcontrol : emits Chunk.isPayloadData a.controlQueue = false) (ops : List SenderOp)
    (hops : Runs.Along senderStep Transmits a ops) :
    Runs.Along transmitStep SendsAssigned (a, []) ops ∧
      let s := Runs.run transmitStep (a, []) ops
      Consecutive s.1.myNextTsn s.2 ∧ (s.2.length ≤ 2 ^ 32 → SameByTsn (a.sentData ops)) := by
  have hfirst := ha.transmitting hcontrol
  have hops' : Runs.Along transmitStep (fun s op => s.1.Transmits op) (a, []) ops :=
    (Runs.along_map fun _ _ => rfl).mpr hops
  have halong : Runs.Along transmitStep SendsAssigned (a, []) ops :=
    Runs.along_of_invariant (fun _ _ hop h => h.step hop) (fun _ _ hop h => h.sendsAssigned hop)
      hfirst hops'
  have hlast : Transmitting (Runs.run transmitStep (a, []) ops) :=
    Runs.run_invariant_along (fun _ _ hop h => h.step hop) hfirst hops'
  refine ⟨halong, hlast.ledger, ?_⟩
  intro hlen c hc c' hc' htsn
  obtain ⟨_, hledger⟩ := mem_ledger_of_sent halong
  obtain ⟨d, hd, hdtsn, hdc⟩ := hledger c hc
  obtain ⟨d', hd', hdtsn', hdc'⟩ := hledger c' hc'
  have hsame : d = d' := hlast.ledger.unique hlen hd hd' (by rw [hdtsn, hdtsn', htsn])
  rw [← hdc, ← hdc', hsame]

/-- Of three messages the first is acknowledged and, in a gap, the last; the timeout has the
second sent again. -/
def resentRun : List SenderOp := sackedRun ++ [.t3Rtx, .gather 11]

theorem sendsAssigned_resentRun :
    Runs.Along transmitStep SendsAssigned (justEstablished, []) resentRun ∧
      (justEstablished.sentData resentRun).map (·.userData) = [[1], [2], [3], [2]] :=
  ⟨(sendsAssigned_of_run justEstablished_fresh rfl resentRun (by decide +kernel)).1,
    by decide +kernel⟩

/-! ## A TSN that is given again -/

/-- A chunk that is given a TSN is sent at once. -/
theorem sent_of_assigned {now : ℕ} {c : ChunkPayloadData} (hc : c ∈ a.assigns (.gather now)) :
    c ∈ a.sendsData (.gather now) := by
  have hassigns : a.assigns (.gather now) =
    if a.state = .established then ({ a with controlQueue := [] }.popped now).2.1 else [] := rfl
  rw [hassigns] at hc
  split at hc
  · rename_i hstate
    rw [mem_sendsData]
    show ∃ packet ∈ (a.gatherOutbound now).2.1, _
    rw [gatherOutbound_of_established hstate]
    unfold popped at hc
    unfold gatherEstablished gatherOutboundDataAndReconfigPackets
    dsimp only
    generalize ({ a with controlQueue := [] }.getDataPacketsToRetransmit now
      ).1.popPendingDataChunksToSend now = r at hc ⊢
    have hne : r.2.1 ≠ [] := List.ne_nil_of_mem hc
    have hbundle : .payloadData c ∈ (r.1.bundleDataChunksIntoPackets r.2.1).flatMap Packet.chunks := by
      rw [chunks_bundleDataChunksIntoPackets]
      exact List.mem_map_of_mem hc
    obtain ⟨packet, hpacket, hin⟩ := List.mem_flatMap.mp hbundle
    rw [if_pos hne]
    refine ⟨packet, ?_, hin⟩
    simp only [List.mem_append]
    tauto
  · exact absurd hc List.not_mem_nil

namespace Traffic

variable {w r : ℕ}

/-- The one message that is pending is sent under the TSN behind the ack point. -/
theorem sends (h : a.Traffic 0 1 w r) (hw : 0 < w) (hr : 0 < r) {x : Byte}
    (hx : a.pendingQueue.Each (·.userData = [x])) :
    ∃ c ∈ a.sendsData (.gather 0), c.tsn = a.cumulativeTsnAckPoint + 1 ∧ c.userData = [x] := by
  obtain ⟨chunks, hchunks⟩ : ∃ chunks, chunks = a.assigns (.gather 0) := ⟨_, rfl⟩
  have hassigns : chunks = ({ a with controlQueue := [] }.popped 0).2.1 := by
    rw [hchunks]
    exact if_pos h.state
  have hsent := h.gather (by omega) hw hr (by omega)
  obtain ⟨hspoken, htsns, _⟩ := gatherOutbound_spec h.state 0 rfl
  rw [← hassigns] at hspoken htsns
  have hdata := (@popped_each (·.userData = [x]) { a with controlQueue := [] } 0
    (fun _ _ hc => hc) hx).2
  rw [← hassigns] at hdata
  have hs : { a with controlQueue := [] }.Sending 0 := ⟨h.window (by omega), h.next⟩
  have hlen : ({ a with controlQueue := [] }.popped 0).1.inflightQueue.len < 2 ^ 31 := by
    rw [← len_gatherOutbound h.state, (hsent.window (by omega)).len_eq]
    omega
  have hshort := hs.popped (by omega) hlen
  rw [← hassigns] at hshort
  -- the next TSN tells how many have been given
  have hone : chunks.length = 1 := by
    have hnext : (a.gatherOutbound 0).1.myNextTsn = a.myNextTsn.after chunks.length :=
      (congrArg myNextTsn hspoken :)
    have hafter := hsent.next
    rw [cumulativeTsnAckPoint_gatherOutbound, hnext, h.next, after_add] at hafter
    have hdist := congrArg (Serial.dist a.cumulativeTsnAckPoint) hafter
    rw [dist_after _ (by omega), dist_after _ (by omega)] at hdist
    omega
  obtain ⟨c, rfl⟩ := List.length_eq_one_iff.mp hone
  refine ⟨c, sent_of_assigned (by rw [← hchunks]; exact List.mem_singleton_self c), ?_,
    hdata c (List.mem_singleton_self c)⟩
  rw [htsns 0 c rfl, after_zero, h.next]
  rfl

/-- A message is written and sent, and the peer acknowledges it. -/
def exchange (tsn : U32) (x : Byte) : List SenderOp :=
  [.write 0 [x] .binary, .gather 0, .sack 0 ⟨tsn, 0xffffffff, [], []⟩]

/-- The same for one byte after the other, behind `tsn`. -/
def exchanges (tsn : U32) : List Byte → List SenderOp
  | [] => []
  | x :: xs => exchange (tsn + 1) x ++ exchanges (tsn + 1) xs

theorem exchange_run (h : a.Traffic 0 0 w (2 ^ 32 - 1)) (hw : 0 < w) (hw' : w + 1 < 2 ^ 32)
    (x : Byte) :
    let ops := exchange (a.cumulativeTsnAckPoint + 1) x
    let s := Runs.run senderStep a ops
    s.Traffic 0 0 w (2 ^ 32 - 1) ∧ s.cumulativeTsnAckPoint = a.cumulativeTsnAckPoint + 1 ∧
      Runs.Along senderStep Transmits a ops ∧
      ∃ c ∈ a.sentData ops, c.tsn = a.cumulativeTsnAckPoint + 1 ∧ c.userData = [x] := by
  have hwritten := h.write x
  obtain ⟨s, s', d, _, _, _, hdata, heq⟩ := h.write_eq x
  -- nothing else is pending, so what is sent is this write
  have hx : (a.writeSctp 0 [x] .binary).1.pendingQueue.Each (·.userData = [x]) := by
    rw [heq]
    apply PendingQueue.Each.push
    · intro u c hc
      have hnone : a.pendingQueue.orderedQueue = [] := List.length_eq_zero_iff.mp h.pending
      cases u with
      | true =>
        have hc' : c ∈ a.pendingQueue.unorderedQueue := hc
        rw [h.ordered] at hc'
        exact absurd hc' List.not_mem_nil
      | false =>
        have hc' : c ∈ a.pendingQueue.orderedQueue := hc
        rw [hnone] at hc'
        exact absurd hc' List.not_mem_nil
    · exact hdata
  have hcum : (a.writeSctp 0 [x] .binary).1.cumulativeTsnAckPoint = a.cumulativeTsnAckPoint := by
    rw [heq]
  rw [Nat.zero_add] at hwritten
  obtain ⟨c, hc, htsn, hcdata⟩ := hwritten.sends hw (by omega) hx
  have hsent := hwritten.gather (by omega) hw (by omega) (by omega)
  have hcum' : ((a.writeSctp 0 [x] .binary).1.gatherOutbound 0).1.cumulativeTsnAckPoint =
      a.cumulativeTsnAckPoint := by
    rw [cumulativeTsnAckPoint_gatherOutbound, hcum]
  obtain ⟨htraffic, hok, hacked⟩ := hsent.sack hw hw' 0xffffffff
  rw [hcum'] at htraffic hok hacked
  rw [if_neg (by omega)] at htraffic
  -- one chunk is in flight at most
  have hshort : ∀ {b : AssociationInternal} {n m r : ℕ}, b.Traffic n m w r → n < 2 ^ 31 →
      b.inflightQueue.len < 2 ^ 31 := by
    intro b n m r hb hn
    rw [(hb.window (by omega)).len_eq]
    exact hn
  refine ⟨htraffic, hacked, ?_, c, ?_, ?_, hcdata⟩
  · exact ⟨⟨⟨trivial, hshort hwritten (by omega)⟩, trivial⟩,
      ⟨⟨trivial, hshort hsent (by omega)⟩, trivial⟩, ⟨⟨hok, hshort htraffic (by omega)⟩, trivial⟩,
      trivial⟩
  · exact List.mem_append_right [] (List.mem_append_left _ hc)
  · rw [htsn, hcum]

theorem exchanges_run (h : a.Traffic 0 0 w (2 ^ 32 - 1)) (hw : 0 < w) (hw' : w + 1 < 2 ^ 32)
    (xs : List Byte) :
    let ops := exchanges a.cumulativeTsnAckPoint xs
    Runs.Along senderStep Transmits a ops ∧ ∀ (i : ℕ) (x : Byte), xs[i]? = some x →
      ∃ c ∈ a.sentData ops, c.tsn = a.cumulativeTsnAckPoint.after (i + 1) ∧ c.userData = [x] := by
  induction xs generalizing a with
  | nil => exact ⟨trivial, fun i x hx => by cases hx⟩
  | cons x xs ih =>
    obtain ⟨htraffic, hcum, halong, c, hc, htsn, hdata⟩ := h.exchange_run hw hw' x
    obtain ⟨hrest, hsent⟩ := ih htraffic
    rw [hcum] at hrest hsent
    intro ops
    have hsplit : a.sentData ops = a.sentData (exchange (a.cumulativeTsnAckPoint + 1) x) ++
        (Runs.run senderStep a (exchange (a.cumulativeTsnAckPoint + 1) x)).sentData
          (exchanges (a.cumulativeTsnAckPoint + 1) xs) := by
      unfold sentData
      rw [← List.flatten_append, ← Runs.outputs_append]
      rfl
    refine ⟨(Runs.along_append _ _ _).mpr ⟨halong, hrest⟩, ?_⟩
    intro i y hy
    rw [hsplit]
    cases i with
    | zero =>
      cases hy
      exact ⟨c, List.mem_append_left _ hc, htsn, hdata⟩
    | succ i =>
      obtain ⟨d, hd, hdtsn, hddata⟩ := hsent i y hy
      refine ⟨d, List.mem_append_right _ hd, ?_, hddata⟩
      rw [hdtsn, show a.cumulativeTsnAckPoint + 1 = a.cumulativeTsnAckPoint.after 1 from rfl,
        after_add, Nat.add_comm 1 (i + 1)]

end Traffic

/-- After 2^32 messages the TSN of the first is given to another. -/
theorem not_sameByTsn_wrapped :
    ¬ ∀ a : AssociationInternal, a.Fresh → emits Chunk.isPayloadData a.controlQueue = false →
      ∀ ops, Runs.Along senderStep Transmits a ops → SameByTsn (a.sentData ops) := by
  intro hall
  obtain ⟨k, hk⟩ : ∃ k, k = 2 ^ 32 := ⟨_, rfl⟩
  obtain ⟨s, hs⟩ : ∃ s, s = Runs.run senderStep wideOpen setUp := ⟨_, rfl⟩
  have htraffic := traffic_setUp
  rw [← hs] at htraffic
  obtain ⟨halong, hsent⟩ := htraffic.exchanges_run (by omega) (by omega) (7 :: List.replicate k 0)
  have hops : Runs.Along senderStep Transmits wideOpen
      (setUp ++ Traffic.exchanges s.cumulativeTsnAckPoint (7 :: List.replicate k 0)) := by
    rw [Runs.along_append, ← hs]
    exact ⟨by decide +kernel, halong⟩
  have hsame := hall wideOpen wideOpen_fresh rfl _ hops
  have hmem : ∀ c ∈ s.sentData (Traffic.exchanges s.cumulativeTsnAckPoint (7 :: List.replicate k 0)),
      c ∈ wideOpen.sentData
        (setUp ++ Traffic.exchanges s.cumulativeTsnAckPoint (7 :: List.replicate k 0)) := by
    intro c hc
    unfold sentData at hc ⊢
    rw [Runs.outputs_append, List.flatten_append, ← hs]
    exact List.mem_append_right _ hc
  obtain ⟨c, hc, htsn, hdata⟩ := hsent 0 7 rfl
  obtain ⟨d, hd, hdtsn, hddata⟩ := hsent k 0 (by
    obtain ⟨l, rfl⟩ : ∃ l, k = l + 1 := ⟨k - 1, by omega⟩
    rw [List.getElem?_cons_succ, List.getElem?_replicate, if_pos (Nat.lt_succ_self l)])
  have hwrapped : c.tsn = d.tsn := by
    have hturn : BitVec.ofNat 32 (0 + 1) = BitVec.ofNat 32 (k + 1) := by
      apply BitVec.eq_of_toNat_eq
      rw [BitVec.toNat_ofNat, BitVec.toNat_ofNat, hk, Nat.add_mod_left]
    rw [htsn, hdtsn]
    exact congrArg (s.cumulativeTsnAckPoint + ·) hturn
  have hcontents := hsame c (hmem c hc) d (hmem d hd) hwrapped
  have hbytes : c.userData = d.userData := (congrArg ChunkPayloadData.userData hcontents :)
  rw [hdata, hddata] at hbytes
  cases hbytes

end AssociationInternal

end Sctp
