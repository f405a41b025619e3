import Sctp.Association.Sender
import Sctp.Association.OutboundTheorems

/-!
# The queue in flight

In every run the chunks in flight are those between the ack point and the next TSN, so the
loops that go over consecutive TSNs and stop at the first one missing go over all of them.
-/

namespace Sctp

namespace AssociationInternal

variable {a a' : AssociationInternal}

theorem Sending.congr {n : ℕ} (h : a.Sending n)
    (hq : a.inflightQueue.Touched a'.inflightQueue)
    (hcum : a'.cumulativeTsnAckPoint = a.cumulativeTsnAckPoint)
    (hnext : a'.myNextTsn = a.myNextTsn) : a'.Sending n := by
  refine ⟨?_, ?_⟩
  · rw [hcum]
    exact hq.window h.window
  · rw [hcum, hnext, h.next]

/-- A move adds a chunk at the end, unless nothing could be popped. -/
theorem Sending.movePending {n : ℕ} (h : a.Sending n) (hn : n + 1 ≤ 2 ^ 31) (now : ℕ)
    (b u : Bool) : ∃ m, n ≤ m ∧ m ≤ n + 1 ∧
      (a.movePendingDataChunkToInflightQueue now b u).1.Sending m := by
  rcases hpop : a.pendingQueue.pop b u with ⟨q, _ | c⟩
  · rw [movePending_of_none hpop]
    exact ⟨n, Nat.le_refl n, Nat.le_succ n, h.window, h.next⟩
  · obtain ⟨flags, _, heq⟩ := movePending_of_some now hpop
    rw [heq]
    refine ⟨n + 1, Nat.le_succ n, Nat.le_refl _, ?_, ?_⟩
    · exact h.window.pushNoCheck hn h.next
    · show a.myNextTsn + 1 = a.cumulativeTsnAckPoint.after (n + 1 + 1)
      rw [h.next, after_succ]

/-- Moves never make the queue shorter. -/
theorem le_len_movePending (a : AssociationInternal) (now : ℕ) (b u : Bool) :
    a.inflightQueue.len ≤
      (a.movePendingDataChunkToInflightQueue now b u).1.inflightQueue.len := by
  rcases hpop : a.pendingQueue.pop b u with ⟨q, _ | c⟩
  · rw [movePending_of_none hpop]
  · obtain ⟨flags, _, heq⟩ := movePending_of_some now hpop
    rw [heq]
    exact PayloadQueue.len_le_pushNoCheck ..

/-- The interval in flight grows over a `gather_outbound` that ends in bounds. -/
theorem Sending.gather {n : ℕ} (h : a.Sending n) (hn : n < 2 ^ 31) {now : ℕ}
    (hlen : (a.gatherOutbound now).1.inflightQueue.len < 2 ^ 31) :
    ∃ m < 2 ^ 31, (a.gatherOutbound now).1.Sending m := by
  -- once the queue is too long it stays so
  let P : AssociationInternal → Prop := fun a =>
    (∃ m < 2 ^ 31, a.Sending m) ∨ 2 ^ 31 ≤ a.inflightQueue.len
  have htouch : ∀ a a' : AssociationInternal, a.inflightQueue.Touched a'.inflightQueue →
      a'.cumulativeTsnAckPoint = a.cumulativeTsnAckPoint → a'.myNextTsn = a.myNextTsn →
      P a → P a' := by
    intro a a' hq hcum hnext hP
    rcases hP with ⟨m, hm, hs⟩ | hlong
    · exact Or.inl ⟨m, hm, hs.congr hq hcum hnext⟩
    · exact Or.inr (by rw [hq.len_eq]; exact hlong)
  have hP : P (a.gatherOutbound now).1 := by
    refine gatherOutbound_invariant ?_ ?_ ?_ ?_ ?_ ?_
    · intro a a' hcore
      have hq : a'.inflightQueue = a.inflightQueue := (congrArg inflightQueue hcore :)
      refine htouch a a' ?_ (congrArg cumulativeTsnAckPoint hcore :) (congrArg myNextTsn hcore :)
      rw [hq]
      exact PayloadQueue.Touched.refl _
    · intro a a' hresend
      exact htouch a a' hresend.touched (congrArg cumulativeTsnAckPoint hresend.frame :)
        (congrArg myNextTsn hresend.frame :)
    · intro a c _ _
      exact htouch a _ (PayloadQueue.Touched.refl _) rfl rfl
    · intro a c rwnd _ hP
      have hle := le_len_movePending { a with rwnd } now c.beginningFragment c.unordered
      rcases hP with ⟨m, hm, hs⟩ | hlong
      · have hs' : { a with rwnd }.Sending m := ⟨hs.window, hs.next⟩
        obtain ⟨k, hk, hk', hmoved⟩ :=
          hs'.movePending (by omega) now c.beginningFragment c.unordered
        by_cases hbound : k < 2 ^ 31
        · exact Or.inl ⟨k, hbound, hmoved⟩
        · exact Or.inr (by rw [hmoved.window.len_eq]; omega)
      · exact Or.inr (Nat.le_trans hlong hle)
    · intro a
      obtain ⟨shutdown, shutdownAck, shutdownComplete, t2shutdown, heq⟩ :=
        a.gatherOutboundShutdownPackets_eq
      rw [heq]
      exact htouch a _ (PayloadQueue.Touched.refl _) rfl rfl
    · exact Or.inl ⟨n, hn, h.window, h.next⟩
  rcases hP with hP | hlong
  · exact hP
  · omega

/-- What one operation keeps. -/
theorem Sending.senderStep {n : ℕ} (h : a.Sending n) (hn : n < 2 ^ 31) {op : SenderOp}
    (hop : a.InBounds op) : ∃ m < 2 ^ 31, (a.senderStep op).Sending m := by
  have hsame : ∀ a' : AssociationInternal, a.inflightQueue.Touched a'.inflightQueue →
      a'.cumulativeTsnAckPoint = a.cumulativeTsnAckPoint → a'.myNextTsn = a.myNextTsn →
      ∃ m < 2 ^ 31, a'.Sending m := fun a' hq hcum hnext => ⟨n, hn, h.congr hq hcum hnext⟩
  have hrefl := PayloadQueue.Touched.refl a.inflightQueue
  cases op with
  | openStream si ppi =>
    obtain ⟨objects, streams, heq⟩ := a.openStream_eq si ppi
    exact hsame (a.openStream si ppi).1 (by rw [heq]; exact hrefl) (by rw [heq]) (by rw [heq])
  | setReliabilityParams r unordered relType relVal => exact hsame _ hrefl rfl rfl
  | write r p ppi =>
    obtain ⟨flags, pendingQueue, objects, heq⟩ := a.writeSctp_eq r p ppi
    exact hsame (a.writeSctp r p ppi).1 (by rw [heq]; exact hrefl) (by rw [heq]) (by rw [heq])
  | shutdownStream r how =>
    obtain ⟨flags, pendingQueue, objects, heq⟩ := a.shutdownStream_eq r how
    exact hsame (a.shutdownStream r how).1 (by rw [heq]; exact hrefl) (by rw [heq]) (by rw [heq])
  | push c => exact hsame _ hrefl rfl rfl
  | gather now => exact h.gather hn hop.2
  | t3Rtx =>
    exact hsame a.onT3RtxTimeout a.onT3RtxTimeout_touched
      (congrArg cumulativeTsnAckPoint a.onT3RtxTimeout_frame :)
      (congrArg myNextTsn a.onT3RtxTimeout_frame :)
  | sack now d =>
    have hok : (a.handleSack now d).2.isOk = true := hop.1
    obtain ⟨m, hm, hs⟩ := h.handleSack hok
    exact ⟨m, by omega, hs⟩
  | shutdownChunk =>
    obtain ⟨state, willSendShutdownAck, heq⟩ := a.handleShutdown_eq
    exact hsame a.handleShutdown (by rw [heq]; exact hrefl) (by rw [heq]) (by rw [heq])
  | shutdown =>
    obtain ⟨state, willSendShutdown, heq⟩ := a.shutdown_eq
    exact hsame a.shutdown.1 (by rw [heq]; exact hrefl) (by rw [heq]) (by rw [heq])

theorem Fresh.sending (h : a.Fresh) : a.Sending 0 where
  window := by
    rw [h.inflightQueue]
    exact PayloadQueue.Window.new _
  next := h.myNextTsn

/-- The interval in flight in every state of a run. -/
theorem Fresh.run_sending (h : a.Fresh) {ops : List SenderOp}
    (hops : Runs.Along senderStep InBounds a ops) :
    ∃ n < 2 ^ 31, (Runs.run senderStep a ops).Sending n :=
  Runs.run_invariant_along (I := fun a => ∃ n < 2 ^ 31, a.Sending n)
    (fun _ _ hop ⟨_, hn, hs⟩ => hs.senderStep hn hop) ⟨0, by omega, h.sending⟩ hops

/-- The keys of the queue in flight are the consecutive TSNs from the one after the ack point
to the one before the next TSN. -/
def InflightConsecutive (a : AssociationInternal) : Prop :=
  ∀ t, t ∈ a.inflightQueue.chunkMap ↔ 0 < Serial.dist a.cumulativeTsnAckPoint t ∧
    Serial.dist a.cumulativeTsnAckPoint t < Serial.dist a.cumulativeTsnAckPoint a.myNextTsn

theorem Sending.inflightConsecutive {n : ℕ} (h : a.Sending n) (hn : n < 2 ^ 31) :
    a.InflightConsecutive := by
  intro t
  have hnext : Serial.dist a.cumulativeTsnAckPoint a.myNextTsn = n + 1 := by
    rw [h.next, dist_after _ (by omega)]
  rw [h.window.mem_window (by omega), hnext, Nat.lt_succ_iff]

/-- A SACK whose chunks `process_selective_ack` has taken into account finds no TSN missing. -/
theorem Sending.fastRetransmission_ok {n : ℕ} (h : a.Sending n) (hn : n < 2 ^ 31) {now : ℕ}
    {d : ChunkSelectiveAck} (hd : ¬ sna32gt a.cumulativeTsnAckPoint d.cumulativeTsnAck = true)
    {bytesAcked : BytesAcked} {htna : U32}
    (hack : a.processSelectiveAck now d = (a', .ok (bytesAcked, htna))) :
    ((a'.applySack d bytesAcked).processFastRetransmission d.cumulativeTsnAck htna
      (sna32lt a.cumulativeTsnAckPoint d.cumulativeTsnAck)).2 = .ok () := by
  rw [sna32gt_iff] at hd
  have hd' : Serial.dist a.cumulativeTsnAckPoint d.cumulativeTsnAck < 2 ^ 31 := by omega
  obtain ⟨_, hle, hwindow, _, hhtna⟩ := processSelectiveAck_window h.window hd' hack
  have hqueue := (applySack_of_processSelectiveAck hd' hack).2
  rw [← hqueue] at hwindow hhtna
  exact processFastRetransmission_ok hwindow (by omega) hhtna _

/-- The loops from the ack point on go over every chunk in flight, once. -/
theorem Sending.tsnsFrom_perm {n : ℕ} (h : a.Sending n) (hn : n < 2 ^ 31) :
    (a.inflightQueue.tsnsFrom (a.cumulativeTsnAckPoint + 1)).Perm a.inflightQueue.chunkMap.keys := by
  have htsns := h.window.tsnsFrom (by omega) (Nat.zero_le n)
  rw [Nat.sub_zero, after_zero] at htsns
  have hfirst : a.cumulativeTsnAckPoint + 1 = a.cumulativeTsnAckPoint.after (0 + 1) := rfl
  rw [hfirst, htsns, List.perm_ext_iff_of_nodup (tsnWindow_nodup _ (by omega))
    a.inflightQueue.chunkMap.keys_nodup]
  intro t
  rw [mem_tsnWindow (by omega), ← AList.mem_keys, h.window.mem_window (by omega)]

/-- **The queue in flight.** In every state of a run its keys are consecutive; no SACK makes
`process_fast_retransmission` fail after `process_selective_ack` succeeded, and the
retransmission loops go over all chunks. -/
theorem inflightConsecutive_of_run (ha : a.Fresh) (ops : List SenderOp)
    (hops : Runs.Along senderStep InBounds a ops) :
    let s := Runs.run senderStep a ops
    s.InflightConsecutive ∧
      (∀ now d s' bytesAcked htna, ¬ sna32gt s.cumulativeTsnAckPoint d.cumulativeTsnAck = true →
        s.processSelectiveAck now d = (s', .ok (bytesAcked, htna)) →
        ((s'.applySack d bytesAcked).processFastRetransmission d.cumulativeTsnAck htna
          (sna32lt s.cumulativeTsnAckPoint d.cumulativeTsnAck)).2 = .ok ()) ∧
      (s.inflightQueue.tsnsFrom (s.cumulativeTsnAckPoint + 1)).Perm s.inflightQueue.chunkMap.keys := by
  intro s
  obtain ⟨n, hn, h⟩ := ha.run_sending hops
  refine ⟨h.inflightConsecutive hn, ?_, h.tsnsFrom_perm hn⟩
  intro now d s' bytesAcked htna hd hack
  exact h.fastRetransmission_ok hn hd hack

/-- Three writes, of which a SACK then acknowledges the first and, in a gap, the last. -/
def sackedRun : List SenderOp :=
  [.openStream 1 .binary, .write 0 [1] .binary, .write 0 [2] .binary, .write 0 [3] .binary,
    .gather 5, .sack 9 ⟨0xffffffff, 4096, [⟨2, 2⟩], []⟩]

theorem inflightConsecutive_sackedRun :
    (Runs.run senderStep justEstablished sackedRun).InflightConsecutive :=
  (inflightConsecutive_of_run justEstablished_fresh sackedRun (by decide +kernel)).1

end AssociationInternal

end Sctp
