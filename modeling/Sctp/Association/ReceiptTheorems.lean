import Sctp.Association.ReceiverTheorems
import Sctp.Association.Sender
import Sctp.Lib.CompleteWindow

/-!
# What is acknowledged has been handed over

Without FORWARD TSNs `peer_last_tsn` passes only TSNs that have been handed to a stream. So what a
SACK acknowledges, by the cumulative TSN or as a gap ack block, is what the streams have got.
-/

namespace Sctp

open ReceiveWindow (Slides PassesTaken Full)

namespace AssociationInternal

variable {a a' : AssociationInternal}

/-! ## What the point passes -/

/-- The loop goes over TSNs that are held. -/
theorem advancePeerLastTsn_passes (fuel : ℕ) (a : AssociationInternal) (reply : List Packet)
    (h : a.payloadQueue.Ahead a.peerLastTsn) :
    PassesTaken a.receiveWindow (advancePeerLastTsn fuel a reply).1.receiveWindow [] := by
  intro t hpos hle
  refine Or.inl ?_
  show t ∈ a.payloadQueue.chunkMap
  change Serial.dist a.peerLastTsn t ≤
    Serial.dist a.peerLastTsn (advancePeerLastTsn fuel a reply).1.peerLastTsn at hle
  change 0 < Serial.dist a.peerLastTsn t at hpos
  induction fuel generalizing a reply with
  | zero =>
    rw [advancePeerLastTsn, Serial.dist_self] at hle
    omega
  | succ fuel ih =>
    rw [advancePeerLastTsn] at hle
    by_cases hnext : a.peerLastTsn + 1 ∈ a.payloadQueue.chunkMap
    · obtain ⟨c, q, hpop, hahead, _, hmem⟩ := h.pop hnext
      rw [hpop] at hle
      dsimp only at hle
      have hrecheck := received_of_apartFromStreams (apartFromStreams_recheckReconfigRequests
        { a with payloadQueue := q, peerLastTsn := a.peerLastTsn + 1 })
      revert hrecheck hle
      generalize recheckReconfigRequests
        { a with payloadQueue := q, peerLastTsn := a.peerLastTsn + 1 } = r
      intro hle hrecheck
      have hq : r.1.payloadQueue = q := congrArg Prod.fst hrecheck
      have hp : r.1.peerLastTsn = a.peerLastTsn + 1 := congrArg Prod.snd hrecheck
      have hone := PayloadQueue.Ahead.dist_next a.peerLastTsn
      by_cases hfirst : t = a.peerLastTsn + 1
      · rw [hfirst]
        exact hnext
      · -- the rest is passed from the next TSN on
        have hne : Serial.dist a.peerLastTsn t ≠ 1 :=
          fun heq => hfirst (Serial.dist_inj (heq.trans hone.symm))
        have hsucc := dist_succ_of_pos hpos
        have hsucc' := dist_succ_of_pos (Nat.lt_of_lt_of_le hpos hle)
        have hrest := ih r.1 (reply ++ r.2) (by rw [hq, hp]; exact hahead)
        rw [hp, hq] at hrest
        exact ((hmem t).mp (hrest (by omega) (by omega))).1
    · rw [h.pop_of_notMem hnext] at hle
      dsimp only at hle
      rw [Serial.dist_self] at hle
      omega

theorem acknowledgement_passes (h : a.payloadQueue.Ahead a.peerLastTsn) (sackImmediately : Bool) :
    PassesTaken a.receiveWindow
      (a.handlePeerLastTsnAndAcknowledgement sackImmediately).1.receiveWindow [] := by
  have hack := receiveWindow_of_received (received_ignoresTriggers.triggerAck
    (advancePeerLastTsn a.payloadQueue.sorted.length a []).1 sackImmediately)
  show PassesTaken _ ((advancePeerLastTsn a.payloadQueue.sorted.length a []).1.triggerAck
    sackImmediately).receiveWindow []
  rw [hack]
  exact advancePeerLastTsn_passes _ a [] h

/-- Where the point has not moved, nothing is passed. -/
theorem passes_of_peerLastTsn (h : a'.peerLastTsn = a.peerLastTsn) (taken : List U32) :
    PassesTaken a.receiveWindow a'.receiveWindow taken := by
  intro t hpos hle
  change Serial.dist a.peerLastTsn t ≤ Serial.dist a.peerLastTsn a'.peerLastTsn at hle
  change 0 < Serial.dist a.peerLastTsn t at hpos
  rw [h, Serial.dist_self] at hle
  omega

theorem handleData_passes (h : a.Receiving) (d : ChunkPayloadData) :
    PassesTaken a.receiveWindow (a.handleData d).1.receiveWindow
      (if a.handsOver d then [d.tsn] else []) := by
  by_cases hover : a.handsOver d = true
  · rw [if_pos hover]
    obtain ⟨r, _, heq⟩ := handleData_of_handsOver hover
    have hpush : a.payloadQueue.canPush d a.peerLastTsn = true := by
      unfold handsOver at hover
      rw [Bool.and_eq_true] at hover
      exact hover.1
    have hframe := received_ignoresStreams.getOrCreateStream a d.streamIdentifier
    have hstream := received_ignoresStreams.modifyStream
      { (a.getOrCreateStream d.streamIdentifier).1 with
        payloadQueue := (a.payloadQueue.push d a.peerLastTsn).1 } d.streamIdentifier
      (fun s => (s.handleData d).1)
    rw [heq]
    revert hstream
    generalize ({ (a.getOrCreateStream d.streamIdentifier).1 with
        payloadQueue := (a.payloadQueue.push d a.peerLastTsn).1 }).modifyStream d.streamIdentifier
      (fun s => (s.handleData d).1) = b
    intro hstream
    have hq : b.payloadQueue = (a.payloadQueue.push d a.peerLastTsn).1 := congrArg Prod.fst hstream
    have hp : b.peerLastTsn = a.peerLastTsn :=
      (congrArg Prod.snd hstream).trans (congrArg Prod.snd hframe :)
    rw [PayloadQueue.Ahead.push_eq hpush] at hq
    have hahead : b.payloadQueue.Ahead b.peerLastTsn := by
      rw [hq, hp]
      exact h.queue.pushNoCheck hpush
    intro t hpos hle
    have hpoint : b.receiveWindow.point = a.receiveWindow.point := hp
    rcases acknowledgement_passes hahead d.immediateSack t (hpoint ▸ hpos) (hpoint ▸ hle) with
      hin | hin
    · -- the queue holds what it held, and the chunk
      change t ∈ b.payloadQueue.chunkMap at hin
      rw [hq, PayloadQueue.Ahead.mem_pushNoCheck] at hin
      rcases hin with hheld | rfl
      · exact Or.inl hheld
      · exact Or.inr (List.mem_singleton_self _)
    · exact absurd hin List.not_mem_nil
  · rw [if_neg hover]
    obtain ⟨b, hframe, _, heq | heq⟩ := handleData_of_not_handsOver (by simpa using hover)
    · rw [heq]
      exact passes_of_peerLastTsn (congrArg Prod.snd hframe) []
    · rw [heq, ← receiveWindow_of_received hframe]
      exact acknowledgement_passes (h.of_received hframe).queue d.immediateSack

/-- The operation is none that skips TSNs, and a chunk that arrives lies near the start. -/
def ArrivesNear (start : U32) : ReceiverOp → Prop
  | .data d => Serial.dist start d.tsn < 2 ^ 31
  | .forwardTsn _ => False
  | _ => True

instance (start : U32) (op : ReceiverOp) : Decidable (ArrivesNear start op) :=
  match op with
  | .data d => inferInstanceAs (Decidable (Serial.dist start d.tsn < 2 ^ 31))
  | .forwardTsn _ => isFalse id
  | .reconfig _ | .accept | .read .. => isTrue trivial

theorem receiverStep_passes (h : a.Receiving) {start : U32} {op : ReceiverOp}
    (hop : ArrivesNear start op) :
    PassesTaken a.receiveWindow (a.receiverStep op).receiveWindow (a.handedOver op) := by
  cases op with
  | data d => exact handleData_passes h d
  | forwardTsn c => exact absurd hop id
  | reconfig c =>
    have hkept := received_of_apartFromStreams (apartFromStreams_handleReconfig a c)
    exact passes_of_peerLastTsn (congrArg Prod.snd hkept) _
  | accept =>
    have hkept := received_ignoresStreams.acceptStream a
    exact passes_of_peerLastTsn (congrArg Prod.snd hkept) _
  | read si n =>
    have hkept := received_ignoresStreams.modifyStream a si fun s => (s.readSctp n).1
    exact passes_of_peerLastTsn (congrArg Prod.snd hkept) _

/-! ## Runs -/

/-- The window is that of a receiver, and holds or has passed exactly what has been accepted. -/
structure Receipt (start : U32) (accepted : List U32) (a : AssociationInternal) : Prop where
  receiving : a.Receiving
  full : Full start accepted a.receiveWindow

variable {start : U32} {accepted : List U32}

theorem Receipt.new (h : a.payloadQueue = {}) : Receipt a.peerLastTsn [] a where
  receiving := Receiving.new h
  full := by
    refine Full.new a.receiveWindow ?_
    show { t | t ∈ a.payloadQueue.chunkMap } = ∅
    rw [h]
    exact Set.eq_empty_of_forall_notMem fun t ht => AList.notMem_empty _ ht

theorem handedOver_near {op : ReceiverOp} (hop : ArrivesNear start op) :
    ∀ t ∈ a.handedOver op, Serial.dist start t < 2 ^ 31 := by
  intro t ht
  cases op with
  | data d =>
    unfold handedOver at ht
    dsimp only at ht
    split at ht
    · rw [List.mem_singleton] at ht
      rw [ht]
      exact hop
    · exact absurd ht List.not_mem_nil
  | _ => exact absurd ht List.not_mem_nil

theorem Receipt.step (h : Receipt start accepted a) {op : ReceiverOp} (hop : ArrivesNear start op) :
    Receipt start (accepted ++ a.handedOver op) (a.receiverStep op) := by
  obtain ⟨hreceiving, k, hslides⟩ := h.receiving.step op
  exact ⟨hreceiving, h.full.step (by decide) hslides (receiverStep_passes h.receiving hop)
    (handedOver_near hop)⟩

/-- A SACK takes only the record of the duplicates along. -/
theorem Receipt.createSelectiveAckChunk (h : Receipt start accepted a) :
    Receipt start accepted a.createSelectiveAckChunk.1 where
  receiving :=
    { queue := { h.receiving.queue with }
      next_missing := h.receiving.next_missing }
  full := h.full

/-- What is handed over has not been. -/
theorem Receipt.not_mem (h : Receipt start accepted a) {op : ReceiverOp} {t : U32}
    (ht : t ∈ a.handedOver op) : t ∉ accepted := by
  obtain ⟨_, k, hslides⟩ := h.receiving.step op
  exact h.full.not_mem (by decide) hslides ht

theorem Receipt.run {ops : List ReceiverOp} (h : Receipt start accepted a)
    (hops : ∀ op ∈ ops, ArrivesNear start op) :
    Receipt start (accepted ++ (Runs.outputs receiverStep handedOver a ops).flatten)
      (Runs.run receiverStep a ops) := by
  induction ops generalizing a accepted with
  | nil =>
    show Receipt start (accepted ++ []) a
    rw [List.append_nil]
    exact h
  | cons op ops ih =>
    have hrest := ih (h.step (hops op List.mem_cons_self))
      fun op' hop' => hops op' (List.mem_cons_of_mem _ hop')
    rw [List.append_assoc] at hrest
    exact hrest

theorem sna32lte_iff_dist_le {t point : U32} (ht : Serial.dist start t < 2 ^ 31)
    (hpoint : Serial.dist start point < 2 ^ 31) :
    sna32lte t point = true ↔ Serial.dist start t ≤ Serial.dist start point := by
  rw [sna32lte_iff]
  by_cases hle : Serial.dist start t ≤ Serial.dist start point
  · have hdist := Serial.dist_sub hle
    omega
  · -- the way forward to the point is longer than half the space
    have hback : Serial.dist point t = Serial.dist start t - Serial.dist start point :=
      Serial.dist_sub (by omega)
    have hne : point ≠ t := by
      intro heq
      rw [heq] at hle
      exact hle (Nat.le_refl _)
    have hforward := Serial.dist_comm_of_ne hne
    omega

/-- **What has been handed to a stream is what the cumulative TSN acknowledges or the queue holds**,
whatever arrives of the TSNs of one half of the space, if none of it is a FORWARD TSN. -/
theorem handedOver_iff_acknowledged (a : AssociationInternal) (h : a.payloadQueue = {})
    (ops : List ReceiverOp) (hops : ∀ op ∈ ops, ArrivesNear a.peerLastTsn op) (t : U32) :
    t ∈ (Runs.outputs receiverStep handedOver a ops).flatten ↔
      t ≠ a.peerLastTsn ∧ Serial.dist a.peerLastTsn t < 2 ^ 31 ∧
        (sna32lte t (Runs.run receiverStep a ops).peerLastTsn = true ∨
          t ∈ (Runs.run receiverStep a ops).payloadQueue.chunkMap) := by
  have hreceipt := (Receipt.new h).run hops
  rw [List.nil_append] at hreceipt
  have hseen := hreceipt.full.seen_iff t
  constructor
  · intro ht
    have hnear : Serial.dist a.peerLastTsn t < 2 ^ 31 := hreceipt.full.taken_near t ht
    refine ⟨fun heq => hreceipt.full.start_notMem (heq ▸ ht), hnear, ?_⟩
    rcases hseen.mpr (Or.inr ht) with hheld | hpassed
    · exact Or.inr hheld
    · exact Or.inl ((sna32lte_iff_dist_le hnear hreceipt.full.near).mpr hpassed)
  · rintro ⟨hne, hnear, hacked | hheld⟩
    · have hpassed := (sna32lte_iff_dist_le hnear hreceipt.full.near).mp hacked
      exact (hseen.mp (Or.inr hpassed)).resolve_left hne
    · exact (hseen.mp (Or.inl hheld)).resolve_left hne

/-- The second TSN arrives, twice, and the first does not. -/
theorem handedOver_iff_acknowledged_gap :
    let ops : List ReceiverOp := [.data { tsn := 2 }, .accept, .data { tsn := 2 }]
    2 ∈ (Runs.outputs receiverStep handedOver justEstablished ops).flatten ↔
      (2 : U32) ≠ justEstablished.peerLastTsn ∧
        Serial.dist justEstablished.peerLastTsn 2 < 2 ^ 31 ∧
        (sna32lte 2 (Runs.run receiverStep justEstablished ops).peerLastTsn = true ∨
          2 ∈ (Runs.run receiverStep justEstablished ops).payloadQueue.chunkMap) :=
  handedOver_iff_acknowledged justEstablished rfl _ (by decide) 2

end AssociationInternal

end Sctp
