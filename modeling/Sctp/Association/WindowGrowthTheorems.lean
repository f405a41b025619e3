import Sctp.Association.PartialBytesTheorems

/-!
# How far the congestion window opens

In congestion avoidance a window of acknowledged bytes buys one MTU, and a loss takes the counter
of these bytes along. So the window and the counter together grow by no more than what SACKs
acknowledge, whatever the peer puts into them.
-/

namespace Sctp

namespace AssociationInternal

open PayloadQueue

/-- The bytes that an operation acknowledges. -/
def releasesBytes (a : AssociationInternal) : SenderOp → ℕ
  | .sack now d => (a.releases now d).total
  | _ => 0

/-- All the bytes that a run acknowledges. -/
def releasedBytes (a : AssociationInternal) (ops : List SenderOp) : ℕ :=
  (Runs.outputs senderStep releasesBytes a ops).sum

/-- All the bytes that a run gives TSNs to. -/
def assignedBytes (a : AssociationInternal) (ops : List SenderOp) : ℕ :=
  (Runs.outputs senderStep (fun a op => chunksBytes (a.assigns op)) a ops).sum

/-- The bytes in flight that have not been acknowledged. -/
def unackedBytes (a : AssociationInternal) : ℕ := a.inflightQueue.bytesOf (!·.acked)

/-- One MTU fits into the window, and the window and the counter together, or the four MTUs after
a loss, are no more than `most`. -/
structure WindowWithin (most : ℕ) (a : AssociationInternal) : Prop where
  oneMtu : a.mtu.toNat ≤ a.cwnd.toNat
  fourMtus : 4 * a.mtu.toNat ≤ most
  within : a.cwnd.toNat + a.partialBytesAcked.toNat ≤ most

variable {a a' : AssociationInternal} {now most : ℕ} {d : ChunkSelectiveAck}

/-! ## What a SACK acknowledges -/

theorem releases_of_not_reads (h : a.readsSack d = false) (now : ℕ) : a.releases now d = ∅ := by
  unfold releases
  rw [h]
  rfl

theorem releases_of_error (hreads : a.readsSack d = true) {b : AssociationInternal} {e : Error}
    (h : a.processSelectiveAck now d = (b, .error e)) : a.releases now d = ∅ := by
  unfold releases
  rw [hreads, h]
  rfl

theorem releases_of_ok (hreads : a.readsSack d = true) {b : AssociationInternal}
    {bytes : BytesAcked} {htna : U32}
    (h : a.processSelectiveAck now d = (b, .ok (bytes, htna))) : a.releases now d = bytes := by
  unfold releases
  rw [hreads, h]
  rfl

/-! ## The window after a SACK -/

/-- What the window depends on. -/
def windowing (a : AssociationInternal) : U32 × U32 × U32 := (a.mtu, a.cwnd, a.partialBytesAcked)

theorem WindowWithin.congr (h : a.WindowWithin most) (heq : a'.windowing = a.windowing) :
    a'.WindowWithin most := by
  obtain ⟨hmtu, hcwnd, hacked⟩ : a'.mtu = a.mtu ∧ a'.cwnd = a.cwnd ∧
      a'.partialBytesAcked = a.partialBytesAcked := by
    simpa only [windowing, Prod.mk.injEq] using heq
  refine ⟨?_, ?_, ?_⟩
  · rw [hmtu, hcwnd]
    exact h.oneMtu
  · rw [hmtu]
    exact h.fourMtus
  · rw [hcwnd, hacked]
    exact h.within

theorem WindowWithin.mono {most' : ℕ} (h : a.WindowWithin most) (hle : most ≤ most') :
    a.WindowWithin most' := ⟨h.oneMtu, Nat.le_trans h.fourMtus hle, Nat.le_trans h.within hle⟩

/-- **One increase** is paid for by what is acknowledged. -/
theorem WindowWithin.advanced {total : ℕ} (h : a.WindowWithin most) (hsmall : most + total < 2 ^ 32) :
    (a.onCumulativeTsnAckPointAdvanced total).WindowWithin (most + total) := by
  obtain ⟨hone, hfour, hwithin⟩ := h
  have htimer : ∃ t, (if a.inflightQueue.isEmpty then { a with t3rtx := a.t3rtx.stop }
      else { a with t3rtx := a.t3rtx.start }) = { a with t3rtx := t } := by
    split <;> exact ⟨_, rfl⟩
  obtain ⟨t, ht⟩ := htimer
  have htotal : (BitVec.ofNat 32 total).toNat = total := by
    rw [BitVec.toNat_ofNat]
    omega
  unfold onCumulativeTsnAckPointAdvanced
  rw [ht]
  dsimp only
  split
  · split
    · -- slow start: no more than what is acknowledged, and at most a window
      have hmin : (cmpMin (BitVec.ofNat 32 total) a.cwnd).toNat ≤ total := by
        unfold cmpMin
        split
        · rw [htotal]
        · rename_i hnot
          rw [BitVec.le_def, htotal] at hnot
          omega
      have hsum : (a.cwnd + cmpMin (BitVec.ofNat 32 total) a.cwnd).toNat =
          a.cwnd.toNat + (cmpMin (BitVec.ofNat 32 total) a.cwnd).toNat := by
        rw [BitVec.toNat_add]
        omega
      refine ⟨?_, by dsimp only; omega, ?_⟩
      · dsimp only
        rw [hsum]
        omega
      · dsimp only
        rw [hsum]
        omega
    · exact ⟨hone, by dsimp only; omega, by dsimp only; omega⟩
  · have hsum : (a.partialBytesAcked + BitVec.ofNat 32 total).toNat =
        a.partialBytesAcked.toNat + total := by
      rw [BitVec.toNat_add, htotal]
      omega
    split
    · -- congestion avoidance: a window is exchanged for an MTU
      rename_i hfull
      have hle : a.cwnd.toNat ≤ a.partialBytesAcked.toNat + total := by
        have hcmp := hfull.1
        rw [ge_iff_le, BitVec.le_def, hsum] at hcmp
        exact hcmp
      have hwindow : (a.cwnd + a.mtu).toNat = a.cwnd.toNat + a.mtu.toNat := by
        rw [BitVec.toNat_add]
        omega
      have hleft : (a.partialBytesAcked + BitVec.ofNat 32 total - a.cwnd).toNat =
          a.partialBytesAcked.toNat + total - a.cwnd.toNat := by
        rw [BitVec.toNat_sub_of_le hfull.1, hsum]
      refine ⟨?_, by dsimp only; omega, ?_⟩
      · dsimp only
        omega
      · dsimp only
        omega
    · refine ⟨hone, by dsimp only; omega, ?_⟩
      dsimp only
      rw [hsum]
      omega

theorem WindowWithin.applySack {b : BytesAcked} (h : a.WindowWithin most)
    (hsmall : most + b.total < 2 ^ 32) : (a.applySack d b).WindowWithin (most + b.total) := by
  have hstreams : IgnoresStreams windowing := fun _ _ _ _ => rfl
  unfold AssociationInternal.applySack
  dsimp only
  split
  · refine (WindowWithin.advanced (a := { a with cumulativeTsnAckPoint := d.cumulativeTsnAck })
      ⟨h.oneMtu, h.fourMtus, h.within⟩ hsmall).congr ?_
    exact hstreams.releaseBuffers _ b.entries
  · exact WindowWithin.mono (h.congr (hstreams.releaseBuffers a b.entries)) (Nat.le_add_right _ _)

/-- A loss takes the window down to half of it or to four MTUs, and the counter to nothing. -/
theorem WindowWithin.reportMissing (h : a.WindowWithin most) (hsmall : most < 2 ^ 32) (htna tsn : U32)
    (c : ChunkPayloadData) : (a.reportMissing htna tsn c).WindowWithin most := by
  obtain ⟨hone, hfour, hwithin⟩ := h
  have hmtus : (4 * a.mtu).toNat = 4 * a.mtu.toNat := by
    rw [BitVec.toNat_mul]
    show 4 * a.mtu.toNat % 2 ^ 32 = _
    omega
  have hhalf : (a.cwnd / 2).toNat = a.cwnd.toNat / 2 := BitVec.toNat_udiv
  unfold AssociationInternal.reportMissing
  split
  · dsimp only
    split
    · have hmax : 4 * a.mtu.toNat ≤ (cmpMax (a.cwnd / 2) (4 * a.mtu)).toNat ∧
          (cmpMax (a.cwnd / 2) (4 * a.mtu)).toNat ≤ most := by
        unfold cmpMax
        split
        · rw [hmtus]
          omega
        · rename_i hnot
          rw [BitVec.le_def, hmtus] at hnot
          omega
      refine ⟨?_, hfour, ?_⟩
      · dsimp only
        omega
      · exact hmax.2
    · exact ⟨hone, hfour, hwithin⟩
  · exact ⟨hone, hfour, hwithin⟩

/-- **One SACK**, whatever is in it. -/
theorem WindowWithin.sack (h : a.WindowWithin most) (now : ℕ) (d : ChunkSelectiveAck)
    (hsmall : most + (a.releases now d).total < 2 ^ 32) :
    (a.handleSack now d).1.WindowWithin (most + (a.releases now d).total) := by
  cases hreads : a.readsSack d with
  | false =>
    rw [handleSack_of_not_reads hreads]
    exact h.mono (Nat.le_add_right _ _)
  | true =>
    have hkept := processSelectiveAck_kept (f := windowing) (fun _ _ _ _ _ _ => rfl) a now d
    rcases hprocess : a.processSelectiveAck now d with ⟨b, e | ⟨bytes, htna⟩⟩
    · rw [hprocess] at hkept
      rw [handleSack_eq_of_reads hreads, hprocess]
      exact (h.congr hkept).mono (Nat.le_add_right _ _)
    · rw [hprocess] at hkept
      rw [releases_of_ok hreads hprocess] at hsmall ⊢
      rw [handleSack_eq_of_reads hreads, hprocess]
      have hfast := processFastRetransmission_keeps
        (P := fun b => b.WindowWithin (most + bytes.total))
        (fun b tsn c hb => hb.reportMissing hsmall htna tsn c) (fun b hb => hb.congr rfl)
        (b.applySack d bytes) d.cumulativeTsnAck
        (sna32lt a.cumulativeTsnAckPoint d.cumulativeTsnAck) ((h.congr hkept).applySack hsmall)
      dsimp only
      rcases hmissing : (b.applySack d bytes).processFastRetransmission d.cumulativeTsnAck htna
        (sna32lt a.cumulativeTsnAckPoint d.cumulativeTsnAck) with ⟨b', e | _⟩
      · rw [hmissing] at hfast
        exact hfast
      · rw [hmissing] at hfast
        refine hfast.congr ?_
        exact (postprocessSack_kept (f := windowing) (fun _ _ _ _ _ => rfl) _ _).trans
          (raiseAckPoint_kept (f := windowing) (fun _ _ _ => rfl) b')

theorem cwnd_onT3RtxTimeout (a : AssociationInternal) : a.onT3RtxTimeout.cwnd = a.mtu := by
  unfold onT3RtxTimeout
  dsimp only
  split
  · exact advanceAckPoint_kept (f := cwnd) (fun _ _ _ => rfl) _
  · rfl

/-- **One operation.** -/
theorem WindowWithin.step (h : a.WindowWithin most) (op : SenderOp)
    (hsmall : most + a.releasesBytes op < 2 ^ 32) :
    (a.senderStep op).WindowWithin (most + a.releasesBytes op) := by
  by_cases hcall : op.isCall = true
  · have hsame : (a.senderStep op).windowing = a.windowing :=
      (congrArg windowing (called_senderStep hcall).frame :)
    exact (h.congr hsame).mono (Nat.le_add_right _ _)
  · cases op with
    | gather now =>
      refine h.congr ?_
      exact gatherOutbound_frame (f := windowing) (fun _ => rfl) (fun _ _ _ => rfl)
        (fun _ _ _ _ _ _ => rfl) (fun _ _ _ _ _ _ => rfl) (fun _ => rfl) (fun _ _ _ => rfl)
        (fun _ => rfl) (fun _ _ _ _ _ => rfl) a now
    | t3Rtx =>
      have hkept := onT3RtxTimeout_kept (f := fun b => (b.mtu, b.partialBytesAcked))
        (fun _ _ _ _ _ _ => rfl) a
      have hmtu : a.onT3RtxTimeout.mtu = a.mtu := congrArg Prod.fst hkept
      have hkeeps : a.onT3RtxTimeout.partialBytesAcked = a.partialBytesAcked := congrArg Prod.snd hkept
      have hone := h.oneMtu
      have hwithin := h.within
      show a.onT3RtxTimeout.WindowWithin most
      refine ⟨?_, ?_, ?_⟩
      · rw [hmtu, cwnd_onT3RtxTimeout]
      · rw [hmtu]
        exact h.fourMtus
      · rw [hkeeps, cwnd_onT3RtxTimeout]
        omega
    | sack now d => exact h.sack now d hsmall
    | _ => exact absurd rfl hcall

/-! ## What is acknowledged has been sent -/

theorem bytesOf_pushNoCheck_le (kind : ChunkPayloadData → Bool) (q : PayloadQueue) (c : ChunkPayloadData) :
    (q.pushNoCheck c).bytesOf kind ≤ c.userData.length + q.bytesOf kind := by
  have hbytes : c.bytesIf kind ≤ c.userData.length := by
    unfold ChunkPayloadData.bytesIf
    split
    · exact Nat.le_refl _
    · exact Nat.zero_le _
  have hinsert : (q.pushNoCheck c).bytesOf kind ≤ c.bytesIf kind + q.bytesOf kind :=
    AssocMap.sumOf_insert_le q.chunkMap c.tsn c _
  omega

theorem bytesOf_pushes_le (kind : ChunkPayloadData → Bool) (q : PayloadQueue)
    (chunks : List ChunkPayloadData) :
    (chunks.foldl PayloadQueue.pushNoCheck q).bytesOf kind ≤ q.bytesOf kind + chunksBytes chunks := by
  induction chunks generalizing q with
  | nil => exact Nat.le_refl _
  | cons c chunks ih =>
    have hone := bytesOf_pushNoCheck_le kind q c
    have hrest := ih (q.pushNoCheck c)
    have hbytes : chunksBytes (c :: chunks) = c.userData.length + chunksBytes chunks := rfl
    rw [List.foldl_cons]
    omega

/-- What a SACK adds up has left what is in flight and not acknowledged. -/
theorem total_add_unackedBytes_le {b : BytesAcked} {htna : U32}
    (hd : Serial.dist a.cumulativeTsnAckPoint d.cumulativeTsnAck < 2 ^ 31)
    (hok : a.processSelectiveAck now d = (a', .ok (b, htna))) :
    b.total + a'.unackedBytes ≤ a.unackedBytes := by
  refine (processSelectiveAck_rule (R := fun q b =>
    b.total + q.bytesOf (!·.acked) ≤ a.inflightQueue.bytesOf (!·.acked)) hd ?_ ?_ hok ?_).1
  · intro t q q' c b _ hpop hsofar
    have hbytes := @bytesOf_pop (!·.acked) q t
    rw [hpop] at hbytes
    change q.bytesOf (!·.acked) = q'.bytesOf (!·.acked) + (if !c.acked then c.userData.length else 0) at hbytes
    cases hacked : c.acked with
    | true =>
      rw [hacked] at hbytes
      rw [if_pos rfl]
      exact Nat.le_trans (Nat.le_of_eq (by rw [hbytes]; rfl)) hsofar
    | false =>
      rw [hacked, if_pos (by rfl)] at hbytes
      rw [if_neg Bool.false_ne_true, BytesAcked.total_add]
      omega
  · intro t q c b _ hget hacked hsofar
    have hbytes := @bytesOf_markAsAcked (!·.acked) c q t hget
    have hwhole : c.bytesIf (!·.acked) = c.userData.length := if_pos (by simp [hacked])
    rw [BytesAcked.total_add]
    omega
  · exact Nat.le_of_eq (Nat.zero_add _)

theorem sackKeeps_unackedBytes (n : ℕ) : SackKeeps fun q => q.bytesOf (!·.acked) ≤ n where
  pop q t h := by
    have hbytes := @bytesOf_pop (!·.acked) q t
    omega
  mark q t h := by
    cases hget : q.get t with
    | none =>
      unfold PayloadQueue.markAsAcked
      rw [show q.chunkMap.lookup t = none from hget]
      exact h
    | some c =>
      have hbytes := @bytesOf_markAsAcked (!·.acked) c q t hget
      omega
  miss q t h := by
    have hsame : (q.getMut t fun c => { c with missIndicator := c.missIndicator + 1 }).bytesOf
        (!·.acked) = q.bytesOf (!·.acked) :=
      (OnlyNotes.miss q t).payloads.bytesOf fun _ => rfl
    rw [hsame]
    exact h

theorem total_add_unackedBytes_sack (a : AssociationInternal) (now : ℕ) (d : ChunkSelectiveAck) :
    (a.releases now d).total + (a.handleSack now d).1.unackedBytes ≤ a.unackedBytes := by
  have hless : (a.handleSack now d).1.unackedBytes ≤ a.unackedBytes :=
    (sackKeeps_unackedBytes a.unackedBytes).handleSack now d (Nat.le_refl _)
  have hnone : (∅ : BytesAcked).total = 0 := rfl
  cases hreads : a.readsSack d with
  | false =>
    rw [releases_of_not_reads hreads, hnone]
    omega
  | true =>
    rcases hprocess : a.processSelectiveAck now d with ⟨b, e | ⟨bytes, htna⟩⟩
    · rw [releases_of_error hreads hprocess, hnone]
      omega
    · rw [releases_of_ok hreads hprocess]
      have hacked := total_add_unackedBytes_le (dist_lt_of_reads hreads) hprocess
      -- what follows in the handler notes misses only
      have hlater : (a.handleSack now d).1.unackedBytes ≤ b.unackedBytes := by
        have happlied : (b.applySack d bytes).unackedBytes ≤ b.unackedBytes := by
          unfold unackedBytes
          rw [(applySack_of_processSelectiveAck (dist_lt_of_reads hreads) hprocess).2]
        have hfast := (sackKeeps_unackedBytes b.unackedBytes).processFastRetransmission
          d.cumulativeTsnAck htna (sna32lt a.cumulativeTsnAckPoint d.cumulativeTsnAck) happlied
        rw [handleSack_eq_of_reads hreads, hprocess]
        dsimp only
        rcases hmissing : (b.applySack d bytes).processFastRetransmission d.cumulativeTsnAck htna
          (sna32lt a.cumulativeTsnAckPoint d.cumulativeTsnAck) with ⟨b', e | _⟩
        · rw [hmissing] at hfast
          exact hfast
        · rw [hmissing] at hfast
          show PayloadQueue.bytesOf _ (b'.raiseAckPoint.postprocessSack a.state).inflightQueue ≤ _
          rw [postprocessSack_inflightQueue, (quiet_raiseAckPoint b').inflightQueue]
          exact hfast
      omega

/-- **One operation** acknowledges no more than was or is in flight. -/
theorem releasesBytes_add_unackedBytes_le (a : AssociationInternal) (op : SenderOp) :
    a.releasesBytes op + (a.senderStep op).unackedBytes ≤ a.unackedBytes + chunksBytes (a.assigns op) := by
  have hnotes : ∀ {q q' : PayloadQueue}, q.OnlyNotes q' → q'.bytesOf (!·.acked) = q.bytesOf (!·.acked) :=
    fun h => h.payloads.bytesOf fun _ => rfl
  by_cases hcall : op.isCall = true
  · have hflight : (a.senderStep op).inflightQueue = a.inflightQueue :=
      (congrArg inflightQueue (called_senderStep hcall).frame :)
    have hnone : a.releasesBytes op = 0 := by
      cases op with
      | sack => cases hcall
      | _ => rfl
    unfold unackedBytes
    rw [hflight, hnone]
    omega
  · cases op with
    | gather now =>
      obtain ⟨q, hbefore, hafter⟩ := gather_onlyNotes a now
      have hpushed := bytesOf_pushes_le (!·.acked) q (a.assigns (.gather now))
      rw [← hnotes hafter, hnotes hbefore] at hpushed
      show 0 + (a.gatherOutbound now).1.unackedBytes ≤ _
      rw [Nat.zero_add]
      exact hpushed
    | t3Rtx =>
      show 0 + a.onT3RtxTimeout.unackedBytes ≤ a.unackedBytes + 0
      rw [Nat.zero_add, Nat.add_zero]
      exact Nat.le_of_eq (hnotes a.onlyNotes_onT3RtxTimeout)
    | sack now d => exact a.total_add_unackedBytes_sack now d
    | _ => exact absurd rfl hcall

/-! ## Runs -/

theorem releasedBytes_add_le (a : AssociationInternal) (ops : List SenderOp) :
    a.releasedBytes ops + (Runs.run senderStep a ops).unackedBytes ≤
      a.unackedBytes + a.assignedBytes ops := by
  induction ops generalizing a with
  | nil => exact Nat.le_of_eq (Nat.zero_add _)
  | cons op ops ih =>
    have hone := a.releasesBytes_add_unackedBytes_le op
    have hrest := ih (a.senderStep op)
    have hacked : a.releasedBytes (op :: ops) =
      a.releasesBytes op + (a.senderStep op).releasedBytes ops := rfl
    have hassigned : a.assignedBytes (op :: ops) =
      chunksBytes (a.assigns op) + (a.senderStep op).assignedBytes ops := rfl
    rw [Runs.run_cons]
    omega

theorem WindowWithin.run (h : a.WindowWithin most) (ops : List SenderOp)
    (hsmall : most + a.releasedBytes ops < 2 ^ 32) :
    (Runs.run senderStep a ops).WindowWithin (most + a.releasedBytes ops) := by
  induction ops generalizing a most with
  | nil => exact h
  | cons op ops ih =>
    have hacked : a.releasedBytes (op :: ops) =
      a.releasesBytes op + (a.senderStep op).releasedBytes ops := rfl
    rw [hacked, ← Nat.add_assoc] at hsmall ⊢
    exact ih (h.step op (by omega)) hsmall

/-- **The window opens no further than what is acknowledged pays for**, in every run and whatever
the SACKs say: one MTU always fits into it, and beyond its start, or four MTUs, it has grown by the
bytes that were acknowledged at most, all of which had been sent. -/
theorem windowWithin_of_run (a : AssociationInternal) (hflight : a.inflightQueue = {})
    (hmtu : a.mtu.toNat ≤ a.cwnd.toNat) (ops : List SenderOp)
    (hsmall : max (a.cwnd.toNat + a.partialBytesAcked.toNat) (4 * a.mtu.toNat) +
      a.releasedBytes ops < 2 ^ 32) :
    (Runs.run senderStep a ops).WindowWithin
        (max (a.cwnd.toNat + a.partialBytesAcked.toNat) (4 * a.mtu.toNat) + a.releasedBytes ops) ∧
      a.releasedBytes ops ≤ a.assignedBytes ops := by
  have hstart : a.WindowWithin (max (a.cwnd.toNat + a.partialBytesAcked.toNat) (4 * a.mtu.toNat)) :=
    ⟨hmtu, Nat.le_max_right _ _, Nat.le_max_left _ _⟩
  refine ⟨hstart.run ops hsmall, ?_⟩
  have hbytes := a.releasedBytes_add_le ops
  have hnone : a.unackedBytes = 0 := by
    unfold unackedBytes
    rw [hflight]
    rfl
  omega

/-- The first SACK is counted, and with the second one a window is exchanged for an MTU. -/
theorem windowWithin_windowRun :
    (Runs.run senderStep justEstablished windowRun).WindowWithin
        (max (justEstablished.cwnd.toNat + justEstablished.partialBytesAcked.toNat)
          (4 * justEstablished.mtu.toNat) + justEstablished.releasedBytes windowRun) ∧
      justEstablished.releasedBytes windowRun ≤ justEstablished.assignedBytes windowRun :=
  windowWithin_of_run justEstablished rfl (by decide) windowRun (by decide +kernel)

end AssociationInternal

end Sctp
