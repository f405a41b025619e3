import Sctp.Association.OneByteTraffic
import Sctp.Association.PartialBytes
import Sctp.Association.ReleaseOnceTheorems

/-!
# The counter of congestion avoidance in a run

A SACK adds to the counter at most what it is the first to acknowledge. As long as that stays
within the window, or a whole window is taken off again since data is pending, the counter does
not grow over a run. A sender that has each byte acknowledged before it writes the next one has
nothing pending when a SACK arrives: the counter grows by one in every round.
-/

namespace Sctp

namespace AssociationInternal

open PayloadQueue

variable {a a' : AssociationInternal} {now : ℕ} {d : ChunkSelectiveAck}

/-! ## What a SACK acknowledges -/

/-- Every chunk in flight lies under its TSN. -/
def Keyed (q : PayloadQueue) : Prop := q.Each fun _ => True

/-- Notes leave every chunk under its key. -/
theorem Keyed.onlyNotes {q q' : PayloadQueue} (h : Keyed q) (hnotes : q.OnlyNotes q') : Keyed q' :=
  hnotes.payloads.each (fun _ _ _ _ => trivial) h

theorem sackKeeps_keyed : SackKeeps Keyed where
  pop _ t h := h.pop t
  mark _ t h := h.markAsAcked t fun _ _ => trivial
  miss q t h := h.onlyNotes (OnlyNotes.miss q t)

/-- Each step leaves every chunk under its key. -/
theorem keyed_senderStep (h : Keyed a.inflightQueue) (op : SenderOp) :
    Keyed (a.senderStep op).inflightQueue := by
  by_cases hcall : op.isCall = true
  · have hflight : (a.senderStep op).inflightQueue = a.inflightQueue :=
      (congrArg inflightQueue (called_senderStep hcall).frame :)
    rw [hflight]
    exact h
  · cases op with
    | gather now =>
      obtain ⟨q, hbefore, hafter⟩ := gather_onlyNotes a now
      have hpushed : Keyed ((a.assigns (.gather now)).foldl PayloadQueue.pushNoCheck q) :=
        Each.pushes (h.onlyNotes hbefore) fun _ _ => trivial
      exact hpushed.onlyNotes hafter
    | t3Rtx => exact h.onlyNotes a.onlyNotes_onT3RtxTimeout
    | sack now d => exact sackKeeps_keyed.handleSack now d h
    | _ => exact absurd rfl hcall

/-- A SACK adds up no more than what it is the first to acknowledge. -/
theorem total_le_newlyCovered {b : BytesAcked} {htna : U32} (h : Keyed a.inflightQueue)
    (hd : Serial.dist a.cumulativeTsnAckPoint d.cumulativeTsnAck < 2 ^ 31)
    (hok : a.processSelectiveAck now d = (a', .ok (b, htna))) : b.total ≤ a.newlyCovered d := by
  obtain ⟨kind, hkind⟩ : ∃ kind, kind = fun c : ChunkPayloadData =>
    !c.acked && a.covers d c.tsn := ⟨_, rfl⟩
  have hcounts : ∀ c : ChunkPayloadData, a.covers d c.tsn → c.acked = false →
      c.bytesIf kind = c.userData.length := by
    intro c hcovered hacked
    rw [hkind]
    exact if_pos (by simp [hcovered, hacked])
  -- what is added up has left the queue
  have hrule := processSelectiveAck_rule (R := fun q b => Keyed q ∧
    b.total + q.bytesOf kind ≤ a.inflightQueue.bytesOf kind) hd ?_ ?_ hok
    ⟨h, Nat.le_of_eq (Nat.zero_add _)⟩
  · have hleft := hrule.1.2
    show b.total ≤ a.inflightQueue.bytesOf fun c => !c.acked && a.covers d c.tsn
    rw [← hkind]
    omega
  · rintro t q q' c b hcovered hpop ⟨hkeyed, hsofar⟩
    have htsn := (hkeyed t c (get_of_pop_eq_some hpop)).1
    have hbytes := @bytesOf_pop kind q t
    have hrest := hkeyed.pop t
    rw [hpop] at hbytes hrest
    rw [Option.map_some, Option.getD_some] at hbytes
    dsimp only at hbytes
    refine ⟨hrest, ?_⟩
    cases hacked : c.acked with
    | true =>
      rw [if_pos rfl]
      omega
    | false =>
      rw [hcounts c (htsn ▸ hcovered) hacked] at hbytes
      rw [if_neg Bool.false_ne_true, BytesAcked.total_add]
      omega
  · rintro t q c b hcovered hget hacked ⟨hkeyed, hsofar⟩
    have htsn := (hkeyed t c hget).1
    have hbytes := @bytesOf_markAsAcked kind c q t hget
    rw [hcounts c (htsn ▸ hcovered) hacked] at hbytes
    refine ⟨hkeyed.markAsAcked t fun _ _ => trivial, ?_⟩
    rw [BytesAcked.total_add]
    omega

/-! ## One SACK -/

section

variable {β : Type*} {f : AssociationInternal → β}
  (hf : ∀ (b : AssociationInternal) inflightQueue t3rtx minTsn2measureRtt rtoMgr inFastRecovery,
    f { b with inflightQueue, t3rtx, minTsn2measureRtt, rtoMgr, inFastRecovery } = f b)

include hf

theorem measureRtt_kept (a : AssociationInternal) (now since : ℕ) :
    f (a.measureRtt now since).1 = f a := by
  unfold measureRtt
  split
  · exact hf a a.inflightQueue a.t3rtx a.myNextTsn a.rtoMgr a.inFastRecovery
  · exact hf a a.inflightQueue a.t3rtx a.myNextTsn _ a.inFastRecovery

theorem ackPopped_kept (a : AssociationInternal) (now : ℕ) (i : U32) (c : ChunkPayloadData)
    (b : BytesAcked) : f (a.ackPopped now i c b).1 = f a := by
  unfold ackPopped
  split
  · rfl
  · have hstop : f (if i = a.cumulativeTsnAckPoint + 1 then { a with t3rtx := a.t3rtx.stop }
        else a) = f a := by
      split
      · exact hf a a.inflightQueue a.t3rtx.stop a.minTsn2measureRtt a.rtoMgr a.inFastRecovery
      · rfl
    dsimp only
    generalize (if i = a.cumulativeTsnAckPoint + 1 then { a with t3rtx := a.t3rtx.stop } else a) =
      a₁ at hstop ⊢
    split
    · have hmeasured := measureRtt_kept hf a₁ now c.since
      split <;> (rename_i heq; rw [heq] at hmeasured; exact hmeasured.trans hstop)
    · exact hstop

theorem exitFastRecovery_kept (a : AssociationInternal) (c : ChunkPayloadData) :
    f (a.exitFastRecovery c) = f a := by
  unfold exitFastRecovery
  split
  · exact hf a a.inflightQueue a.t3rtx a.minTsn2measureRtt a.rtoMgr false
  · rfl

/-- What neither the queue in flight nor the measurements bear on. -/
theorem processSelectiveAck_kept (a : AssociationInternal) (now : ℕ) (d : ChunkSelectiveAck) :
    f (a.processSelectiveAck now d).1 = f a := by
  have hflight : ∀ (b : AssociationInternal) q, f { b with inflightQueue := q } = f b := fun b q =>
    hf b q b.t3rtx b.minTsn2measureRtt b.rtoMgr b.inFastRecovery
  have hpopped := popAcked_keeps (P := fun b => f b = f a) (fun b t h => (hflight b _).trans h)
    (fun b now i c bytes h => (ackPopped_kept hf b now i c bytes).trans h)
    (fun b c h => (exitFastRecovery_kept hf b c).trans h) now d.cumulativeTsnAck
    (a.cumulativeTsnAckPoint + 1) a ∅ rfl
  unfold AssociationInternal.processSelectiveAck
  split
  · rename_i b e heq
    rw [heq] at hpopped
    exact hpopped
  · rename_i b bytes heq
    rw [heq] at hpopped
    exact ackGaps_keeps (P := fun b => f b = f a) (fun b t h => (hflight b _).trans h)
      (fun b now since h => (measureRtt_kept hf b now since).trans h) now b bytes _ _ hpopped

end

/-- The credit overflows at a SACK exactly if the sum does after what the SACK acknowledges. -/
theorem handleSackOverflows_eq (a : AssociationInternal) (now : ℕ) (d : ChunkSelectiveAck) :
    a.handleSackOverflows now d = (a.readsSack d &&
      match a.processSelectiveAck now d with
      | (_, .error _) => false
      | (b, .ok (bytesAcked, _)) => b.applySackOverflows d bytesAcked) := by
  unfold handleSackOverflows
  dsimp only
  cases hreads : a.readsSack d with
  | true =>
    obtain ⟨hstate, hgt⟩ := readsSack_iff.mp hreads
    rw [if_neg (by tauto), hgt]
    rfl
  | false =>
    have hnot : ¬ a.readsSack d = true := by simp [hreads]
    rw [readsSack_iff] at hnot
    split_ifs with hstate hgt
    · rfl
    · rfl
    · exact absurd ⟨by tauto, by simpa using hgt⟩ hnot

/-- The credit once the point has moved on: it grows outside slow start, and is cut by the window when
it reaches it with data pending. -/
theorem partialBytesAcked_onCumulativeTsnAckPointAdvanced (a : AssociationInternal) (n : ℕ) :
    (a.onCumulativeTsnAckPointAdvanced n).partialBytesAcked =
      if a.cwnd ≤ a.ssthresh then
        a.partialBytesAcked
      else if a.cwnd ≤ a.partialBytesAcked + BitVec.ofNat 32 n ∧ 0 < a.pendingQueue.len then
        a.partialBytesAcked + BitVec.ofNat 32 n - a.cwnd
      else
        a.partialBytesAcked + BitVec.ofNat 32 n := by
  have htimer : ∃ t, (if a.inflightQueue.isEmpty then { a with t3rtx := a.t3rtx.stop }
      else { a with t3rtx := a.t3rtx.start }) = { a with t3rtx := t } := by
    split <;> exact ⟨_, rfl⟩
  obtain ⟨t, ht⟩ := htimer
  unfold onCumulativeTsnAckPointAdvanced
  rw [ht]
  dsimp only
  split
  · split <;> rfl
  · split <;> rfl

/-- What is credited by a SACK. -/
theorem partialBytesAcked_applySack (a : AssociationInternal) (d : ChunkSelectiveAck)
    (b : BytesAcked) : (a.applySack d b).partialBytesAcked =
      if sna32lt a.cumulativeTsnAckPoint d.cumulativeTsnAck then
        ({ a with cumulativeTsnAckPoint := d.cumulativeTsnAck }.onCumulativeTsnAckPointAdvanced
          b.total).partialBytesAcked
      else
        a.partialBytesAcked := by
  have hstreams : IgnoresStreams partialBytesAcked := fun _ _ _ _ => rfl
  unfold applySack
  dsimp only
  rw [hstreams.releaseBuffers]
  split <;> rfl

/-! ## The counter in a run -/

/-- The counter leaves room for one more window below 2^31. -/
structure Limited (a : AssociationInternal) : Prop where
  keyed : Keyed a.inflightQueue
  credit : a.partialBytesAcked.toNat < 2 ^ 31

/-- **One credit.** Below the window, or a window at most that is taken off again if the counter
has come to it. -/
theorem advanced_credit {n total : ℕ} (hp : a.partialBytesAcked.toNat < 2 ^ 31) (htotal : total ≤ n)
    (hcredits : a.ssthresh < a.cwnd → a.cwnd.toNat < 2 ^ 31 ∧
      (a.partialBytesAcked.toNat + n < a.cwnd.toNat ∨ 0 < a.pendingQueue.len ∧ n ≤ a.cwnd.toNat)) :
    a.onCumulativeTsnAckPointAdvancedOverflows total = false ∧
      (a.onCumulativeTsnAckPointAdvanced total).partialBytesAcked.toNat < 2 ^ 31 := by
  rw [partialBytesAcked_onCumulativeTsnAckPointAdvanced]
  unfold onCumulativeTsnAckPointAdvancedOverflows
  by_cases hslow : a.cwnd ≤ a.ssthresh
  · rw [if_pos hslow, if_pos hslow]
    exact ⟨rfl, hp⟩
  · rw [if_neg hslow, if_neg hslow]
    obtain ⟨hwindow, hroom⟩ := hcredits (by bv_omega)
    have hsmall : (BitVec.ofNat 32 total).toNat = total := by
      rw [BitVec.toNat_ofNat]
      omega
    have hsum : (a.partialBytesAcked + BitVec.ofNat 32 total).toNat =
        a.partialBytesAcked.toNat + total := by
      rw [BitVec.toNat_add, hsmall]
      omega
    refine ⟨?_, ?_⟩
    · unfold BitVec.uaddOverflow
      rw [hsmall]
      exact decide_eq_false (by omega)
    · split
      · rename_i hfull
        rw [BitVec.toNat_sub_of_le hfull.1, hsum]
        omega
      · rename_i hleft
        rw [hsum]
        rw [not_and_or, BitVec.le_def, hsum] at hleft
        omega

/-- The SACK is credited, or the ack point stays. -/
theorem limited_applySack {b : BytesAcked} {n : ℕ} (hp : a.partialBytesAcked.toNat < 2 ^ 31)
    (htotal : b.total ≤ n)
    (hcredits : sna32lt a.cumulativeTsnAckPoint d.cumulativeTsnAck = true → a.ssthresh < a.cwnd →
      a.cwnd.toNat < 2 ^ 31 ∧ (a.partialBytesAcked.toNat + n < a.cwnd.toNat ∨
        0 < a.pendingQueue.len ∧ n ≤ a.cwnd.toNat)) :
    a.applySackOverflows d b = false ∧ (a.applySack d b).partialBytesAcked.toNat < 2 ^ 31 := by
  rw [partialBytesAcked_applySack]
  unfold applySackOverflows
  cases hlt : sna32lt a.cumulativeTsnAckPoint d.cumulativeTsnAck with
  | false => exact ⟨rfl, hp⟩
  | true =>
    exact advanced_credit (a := { a with cumulativeTsnAckPoint := d.cumulativeTsnAck }) hp htotal
      (hcredits hlt)

/-- What follows in the handler only resets the counter. -/
theorem limited_afterwards (h : a.partialBytesAcked.toNat < 2 ^ 31) (cum htna : U32)
    (advanced : Bool) (state : AssociationState) :
    let r := a.processFastRetransmission cum htna advanced
    r.1.partialBytesAcked.toNat < 2 ^ 31 ∧
      (r.1.raiseAckPoint.postprocessSack state).partialBytesAcked.toNat < 2 ^ 31 := by
  -- fast recovery begins with the counter at 0
  have hfast := processFastRetransmission_keeps
    (P := fun b => b.partialBytesAcked.toNat < 2 ^ 31)
    (reportMissing_keeps (fun _ _ hb => hb) (fun _ _ _ _ => Nat.zero_lt_succ _) htna)
    (fun b hb => hb) a cum advanced h
  refine ⟨hfast, ?_⟩
  rw [postprocessSack_kept (f := partialBytesAcked) (fun _ _ _ _ _ => rfl),
    raiseAckPoint_kept (f := partialBytesAcked) (fun _ _ _ => rfl)]
  exact hfast

/-- A SACK whose credit stays within the window overflows nothing. -/
theorem limited_sack (h : a.Limited) (now : ℕ) (d : ChunkSelectiveAck)
    (hop : a.CreditsWithinWindow (.sack now d)) :
    a.handleSackOverflows now d = false ∧
      (a.handleSack now d).1.partialBytesAcked.toNat < 2 ^ 31 := by
  cases hreads : a.readsSack d with
  | false =>
    rw [handleSackOverflows_eq, hreads, handleSack_of_not_reads hreads]
    exact ⟨rfl, h.credit⟩
  | true =>
    have hkept := processSelectiveAck_kept (f := fun b => (b.partialBytesAcked, b.cwnd, b.ssthresh,
      b.pendingQueue, b.cumulativeTsnAckPoint)) (fun _ _ _ _ _ _ => rfl) a now d
    rw [handleSackOverflows_eq, hreads, handleSack_eq_of_reads hreads]
    rcases hprocess : a.processSelectiveAck now d with ⟨b, e | ⟨bytes, htna⟩⟩
    · rw [hprocess] at hkept
      have hcount : b.partialBytesAcked = a.partialBytesAcked := congrArg Prod.fst hkept
      refine ⟨rfl, ?_⟩
      show b.partialBytesAcked.toNat < 2 ^ 31
      rw [hcount]
      exact h.credit
    · rw [hprocess] at hkept
      obtain ⟨hcount, hcwnd, hssthresh, hpending, hcum⟩ : b.partialBytesAcked =
          a.partialBytesAcked ∧ b.cwnd = a.cwnd ∧ b.ssthresh = a.ssthresh ∧
          b.pendingQueue = a.pendingQueue ∧ b.cumulativeTsnAckPoint = a.cumulativeTsnAckPoint := by
        simpa only [Prod.mk.injEq] using hkept
      have htotal := total_le_newlyCovered h.keyed (dist_lt_of_reads hreads) hprocess
      have happlied := limited_applySack (d := d) (hcount ▸ h.credit) htotal (by
        rw [hcount, hcwnd, hssthresh, hpending, hcum]
        intro hlt hcongestion
        exact hop (by simp [creditsSack, hreads, hlt, hcongestion]))
      have hlater := limited_afterwards happlied.2 d.cumulativeTsnAck htna
        (sna32lt a.cumulativeTsnAckPoint d.cumulativeTsnAck) a.state
      refine ⟨happlied.1, ?_⟩
      dsimp only
      rcases hmissing : (b.applySack d bytes).processFastRetransmission d.cumulativeTsnAck htna
        (sna32lt a.cumulativeTsnAckPoint d.cumulativeTsnAck) with ⟨b', e | _⟩
      · rw [hmissing] at hlater
        exact hlater.1
      · rw [hmissing] at hlater
        exact hlater.2

/-- **A step whose credit stays within the window overflows nothing and keeps the bound**. -/
theorem Limited.step (h : a.Limited) {op : SenderOp} (hop : a.CreditsWithinWindow op) :
    a.creditOverflows op = false ∧ (a.senderStep op).Limited := by
  have hkeyed := keyed_senderStep h.keyed op
  by_cases hcall : op.isCall = true
  · have hcount : (a.senderStep op).partialBytesAcked = a.partialBytesAcked :=
      (congrArg partialBytesAcked (called_senderStep hcall).frame :)
    refine ⟨?_, hkeyed, hcount ▸ h.credit⟩
    cases op with
    | sack => cases hcall
    | _ => rfl
  · cases op with
    | gather now =>
      have hcount : (a.gatherOutbound now).1.partialBytesAcked = a.partialBytesAcked :=
        gatherOutbound_frame (f := partialBytesAcked) (fun _ => rfl) (fun _ _ _ => rfl)
          (fun _ _ _ _ _ _ => rfl) (fun _ _ _ _ _ _ => rfl) (fun _ => rfl) (fun _ _ _ => rfl)
          (fun _ => rfl) (fun _ _ _ _ _ => rfl) a now
      exact ⟨rfl, hkeyed, hcount ▸ h.credit⟩
    | t3Rtx =>
      have hcount : a.onT3RtxTimeout.partialBytesAcked = a.partialBytesAcked :=
        onT3RtxTimeout_kept (f := partialBytesAcked) (fun _ _ _ _ _ _ => rfl) a
      exact ⟨rfl, hkeyed, hcount ▸ h.credit⟩
    | sack now d =>
      obtain ⟨hnever, hcredit⟩ := limited_sack h now d hop
      exact ⟨hnever, hkeyed, hcredit⟩
    | _ => exact absurd rfl hcall

/-- **The counter does not overflow** in a run whose SACKs are credited within the window. -/
theorem creditOverflows_nowhere (a : AssociationInternal) (ha : a.Fresh)
    (hstart : a.partialBytesAcked = 0) (ops : List SenderOp)
    (hops : Runs.Along senderStep CreditsWithinWindow a ops) :
    Runs.Along senderStep (fun a op => a.creditOverflows op = false) a ops ∧
      (Runs.run senderStep a ops).partialBytesAcked.toNat < 2 ^ 31 := by
  have hlimited : a.Limited := by
    refine ⟨?_, ?_⟩
    · rw [ha.inflightQueue]
      exact Each.new
    · rw [hstart]
      exact Nat.zero_lt_succ _
  have hstep : ∀ (b : AssociationInternal) op, b.CreditsWithinWindow op → b.Limited →
      (b.senderStep op).Limited := fun b op hop hb => (hb.step hop).2
  refine ⟨?_, ?_⟩
  · exact Runs.along_of_invariant hstep (fun b op hop hb => (hb.step hop).1) hlimited hops
  · exact (Runs.run_invariant_along hstep hlimited hops).credit

/-- The first 3600 bytes are counted. With the next 2400 a window is full, and as more is pending
it is taken off. -/
def windowRun : List SenderOp :=
  [.openStream 1 .binary, .write 0 (List.replicate 6000 0) .binary, .gather 0,
    .sack 9 ⟨1, 4096, [], []⟩, .gather 10, .write 0 (List.replicate 6000 0) .binary,
    .sack 19 ⟨3, 4096, [], []⟩]

theorem creditOverflows_nowhere_windowRun :
    Runs.Along senderStep (fun a op => a.creditOverflows op = false) justEstablished windowRun ∧
      (Runs.run senderStep justEstablished windowRun).partialBytesAcked.toNat < 2 ^ 31 :=
  creditOverflows_nowhere justEstablished justEstablished_fresh rfl windowRun (by decide +kernel)

/-! ## A byte at a time -/

variable {k : ℕ}

/-- The stream sends in order and gives nothing up. -/
structure Reliable (s : Stream) : Prop where
  identifier : s.streamIdentifier = 1
  isOpen : s.writeShutdown = false
  isOrdered : s.unordered = false
  type : s.reliabilityType = .reliable
  size : 0 < s.maxPayloadSize.toNat

/-- Congestion avoidance, with `k` bytes counted and nothing pending. -/
structure Avoiding (a : AssociationInternal) (k : ℕ) : Prop where
  state : a.state = .established
  uses : a.useForwardTsn = true
  room : 1 ≤ a.maxMessageSize.toNat
  stream : a.streams.lookup 1 = some 0
  object : ∃ s, a.objects[0]? = some s ∧ Reliable s
  point : a.advancedPeerTsnAckPoint = a.cumulativeTsnAckPoint
  calm : a.inFastRecovery = false ∧ a.willRetransmitFast = false ∧ a.willRetransmitReconfig = false
  avoids : a.ssthresh < a.cwnd
  pending : a.pendingQueue = {}
  credit : a.partialBytesAcked = BitVec.ofNat 32 k

/-- Nothing is in flight. -/
structure Idle (a : AssociationInternal) (k : ℕ) : Prop extends a.Avoiding k where
  next : a.myNextTsn = a.cumulativeTsnAckPoint + 1
  rwnd : 0 < a.rwnd.toNat
  inflight : a.inflightQueue = {}

/-- A byte is in flight. -/
structure AwaitsSack (a : AssociationInternal) (k : ℕ) : Prop extends a.Avoiding k where
  next : a.myNextTsn = a.cumulativeTsnAckPoint + 1 + 1
  inflight : ∃ c, a.inflightQueue = PayloadQueue.pushNoCheck {} c ∧
    c.tsn = a.cumulativeTsnAckPoint + 1 ∧ OneByte a.flags c ∧ c.since = 0

theorem Idle.congr (h : a.Idle k) (heq : a'.traffic = a.traffic) : a'.Idle k := by
  have h' : a.traffic.Idle k := { h with }
  rw [← heq] at h'
  exact { h' with }

theorem AwaitsSack.congr (h : a.AwaitsSack k) (heq : a'.traffic = a.traffic) : a'.AwaitsSack k := by
  have h' : a.traffic.AwaitsSack k := { h with }
  rw [← heq] at h'
  exact { h' with }

/-! ### Writing and sending -/

/-- Writing a byte puts one chunk in the pending queue. -/
theorem Idle.write (h : a.Idle k) (x : Byte) :
    ∃ s c, Reliable s ∧ OneByte (a.flags ++ [false, false]) c ∧
      (a.writeSctp 0 [x] .binary).1 = { a with
        flags := a.flags ++ [false, false]
        pendingQueue := PendingQueue.push {} c
        objects := a.objects.set 0 s } := by
  obtain ⟨s, hs, hreliable⟩ := h.object
  obtain ⟨c, sequenceNumber, bufferedAmount, hc, hone, -, hs'⟩ :=
    packetize_byte hreliable.identifier hreliable.isOrdered hreliable.size a.flags x
  have hwrite := writeSctp_byte h.state h.room hs hreliable.isOpen hc
  rw [hs', h.pending] at hwrite
  exact ⟨{ s with sequenceNumber, bufferedAmount }, c, { hreliable with }, hone, hwrite⟩

/-- The only pending chunk has been popped and is in flight. -/
def byteSent (a : AssociationInternal) (c : ChunkPayloadData) : AssociationInternal :=
  { a with
    rwnd := a.rwnd - 1
    pendingQueue := {}
    flags := c.setAllInflight a.flags
    myNextTsn := a.myNextTsn + 1
    inflightQueue := PayloadQueue.pushNoCheck {} (numbered c a.myNextTsn 0) }

/-- A stream that is reliable does not give the chunk up. -/
theorem checkPartialReliabilityStatus_reliable {c : ChunkPayloadData} {s : Stream}
    (htype : c.payloadType ≠ .dcep) (hstream : a.stream? c.streamIdentifier = some s)
    (hreliable : s.reliabilityType = .reliable) :
    a.checkPartialReliabilityStatus 0 c = a := by
  unfold checkPartialReliabilityStatus
  rw [hstream]
  simp [htype, hreliable]

section Only

variable {c : ChunkPayloadData} (hpending : a.pendingQueue = PendingQueue.push {} c)
  (hone : OneByte a.flags c)
include hpending hone

theorem pending_byte : a.pendingQueue = { orderedQueue := [c], queueLen := 1, nBytes := 1 } := by
  rw [hpending]
  unfold PendingQueue.push
  rw [hone.ordered, hone.length]
  rfl

theorem pop_byte : a.pendingQueue.pop true false = ({}, some c) := by
  rw [pending_byte hpending hone]
  unfold PendingQueue.pop PendingQueue.popFront PendingQueue.account
  simp [hone.ending, hone.length]

variable {s : Stream} (hflight : a.inflightQueue = {}) (hstream : a.stream? 1 = some s)
  (hreliable : s.reliabilityType = .reliable)
include hflight hstream hreliable

/-- The chunk goes to the inflight queue, with the next TSN. -/
theorem move_byte :
    { a with rwnd := a.rwnd - 1 }.movePendingDataChunkToInflightQueue 0 true false =
      (a.byteSent c, some (numbered c a.myNextTsn 0)) := by
  have hcons : ∀ (b : AssociationInternal) tsn, b.streams = a.streams → b.objects = a.objects →
      b.checkPartialReliabilityStatus 0 { c with tsn, since := 0, nsent := 1 } = b := by
    intro b tsn hstreams hobjects
    refine checkPartialReliabilityStatus_reliable (s := s) ?_ ?_ hreliable
    · show c.payloadType ≠ .dcep
      simp [hone.type]
    · show b.stream? c.streamIdentifier = some s
      unfold stream?
      rw [hstreams, hobjects, hone.stream]
      exact hstream
  unfold movePendingDataChunkToInflightQueue generateNextTsn byteSent
  dsimp only
  rw [pop_byte hpending hone]
  dsimp only
  rw [hcons, hflight]
  · rfl
  · rfl
  · rfl

/-- The loop sends the one chunk and is done. -/
theorem popPendingLoop_byte (hcwnd : 0 < a.cwnd.toNat) (hrwnd : 0 < a.rwnd.toNat) (fuel : ℕ) :
    popPendingLoop 0 (fuel + 1) a [] [] = (a.byteSent c, [numbered c a.myNextTsn 0], []) := by
  have hpeek : a.pendingQueue.peek = some c := by
    rw [pending_byte hpending hone]
    rfl
  have hbytes : a.inflightQueue.getNumBytes = 0 := by
    rw [hflight]
    rfl
  have hbyte : BitVec.ofNat 32 1 = (1 : U32) := rfl
  rw [popPendingLoop, hpeek]
  dsimp only
  -- the byte fits the windows and is a chunk of user data
  rw [hone.length, if_neg (by omega), if_neg (by omega), if_neg (by omega), hone.beginning,
    hone.ordered, hbyte, move_byte hpending hone hflight hstream hreliable]
  cases fuel with
  | zero => rfl
  | succ fuel => rfl

/-- The only chunk that is pending goes into flight. -/
theorem popPending_byte (hcwnd : 0 < a.cwnd.toNat) (hrwnd : 0 < a.rwnd.toNat) :
    a.popPendingDataChunksToSend 0 = (a.byteSent c, [numbered c a.myNextTsn 0], []) := by
  obtain ⟨fuel, hfuel⟩ : ∃ fuel, a.popPendingRounds = fuel + 1 := by
    unfold popPendingRounds
    exact ⟨_, (Nat.succ_pred_eq_of_pos (by omega)).symm⟩
  have hsome : ¬a.pendingQueue.len = 0 := by
    rw [pending_byte hpending hone]
    exact Nat.one_ne_zero
  unfold popPendingDataChunksToSend
  rw [if_neg hsome, hfuel,
    popPendingLoop_byte hpending hone hflight hstream hreliable hcwnd hrwnd]
  dsimp only
  unfold zeroWindowProbe
  rw [if_neg (by simp)]

end Only

/-- What is written goes into flight with the next `gather_outbound`. -/
theorem Idle.send (h : a.Idle k) (x : Byte) :
    ((a.writeSctp 0 [x] .binary).1.gatherOutbound 0).1.AwaitsSack k := by
  obtain ⟨s, c, hreliable, hone, hwrite⟩ := h.write x
  rw [hwrite]
  obtain ⟨b, hb⟩ : ∃ b : AssociationInternal, b = { a with
    flags := a.flags ++ [false, false]
    pendingQueue := PendingQueue.push {} c
    objects := a.objects.set 0 s
    controlQueue := [] } := ⟨_, rfl⟩
  have hlt : 0 < a.objects.length := by
    obtain ⟨s₀, hs₀, _⟩ := h.object
    exact (List.getElem?_eq_some_iff.mp hs₀).1
  have hobject : b.objects[0]? = some s := by
    rw [hb]
    exact List.getElem?_set_self hlt
  have hstream : b.stream? 1 = some s := by
    unfold stream?
    rw [show b.streams.lookup 1 = some 0 by rw [hb]; exact h.stream]
    exact hobject
  have hflight : b.inflightQueue = {} := by
    rw [hb]
    exact h.inflight
  have hcwnd : 0 < b.cwnd.toNat := by
    rw [hb]
    exact Nat.lt_of_le_of_lt (Nat.zero_le _) h.avoids
  have hpop := popPending_byte (a := b) (by rw [hb]) (by rw [hb]; exact hone) hflight hstream
    hreliable.type hcwnd (by rw [hb]; exact h.rwnd)
  -- nothing is sent again, as nothing was in flight
  have hretransmit : (b.getDataPacketsToRetransmit 0).1 = b := by
    unfold getDataPacketsToRetransmit
    rw [hflight]
    rfl
  have hgather := traffic_gatherEstablished hretransmit hpop (by rw [hb]; exact h.calm.2.1)
    (by rw [hb]; exact h.calm.2.2)
  rw [gatherOutbound_of_established (by exact h.state)]
  refine AwaitsSack.congr ?_ (by rw [← hgather, hb])
  have hcells : OneByte (c.setAllInflight b.flags) (numbered c b.myNextTsn 0) := by
    have hlen : (c.setAllInflight b.flags).length = (a.flags ++ [false, false]).length := by
      rw [hb]
      unfold ChunkPayloadData.setAllInflight
      rw [hone.ending]
      exact SharedFlags.length_store ..
    refine { hone with cells := ?_ }
    rw [hlen]
    exact hone.cells
  rw [hb] at hcells ⊢
  refine { h with object := ⟨s, ?_, hreliable⟩, pending := rfl, next := ?_, inflight := ?_ }
  · exact List.getElem?_set_self hlt
  · show a.myNextTsn + 1 = a.cumulativeTsnAckPoint + 1 + 1
    rw [h.next]
  · exact ⟨_, rfl, h.next, hcells, rfl⟩

/-! ### Acknowledging -/

/-- A chunk that was pushed alone is popped alone. -/
theorem pop_pushNoCheck_new (c : ChunkPayloadData) :
    (PayloadQueue.pushNoCheck {} c).pop c.tsn = ({}, some c) := by
  have hlookup : ((∅ : AssocMap U32 ChunkPayloadData).insert c.tsn c).lookup c.tsn = some c :=
    AList.lookup_insert _
  have herase : ((∅ : AssocMap U32 ChunkPayloadData).insert c.tsn c).erase c.tsn = ∅ :=
    (AssocMap.erase_insert _ _ _).trans rfl
  have hpush : PayloadQueue.pushNoCheck {} c = ({
      length := 1
      chunkMap := (∅ : AssocMap U32 ChunkPayloadData).insert c.tsn c
      sorted := [c.tsn]
      nBytes := 0 + c.userData.length } : PayloadQueue) := rfl
  rw [hpush]
  unfold PayloadQueue.pop
  dsimp only
  rw [if_pos rfl, hlookup]
  dsimp only
  simp only [herase, Nat.zero_add, Nat.sub_self]

/-- Congestion avoidance with nothing pending counts a byte. -/
theorem traffic_congestionAvoidance (havoids : a.ssthresh < a.cwnd) (hpending : a.pendingQueue = {}) :
    (a.onCumulativeTsnAckPointAdvanced 1).traffic =
      { a with partialBytesAcked := a.partialBytesAcked + 1 }.traffic := by
  have htimer : ∃ t, (if a.inflightQueue.isEmpty then { a with t3rtx := a.t3rtx.stop }
      else { a with t3rtx := a.t3rtx.start }) = { a with t3rtx := t } := by
    split <;> exact ⟨_, rfl⟩
  obtain ⟨t, ht⟩ := htimer
  unfold onCumulativeTsnAckPointAdvanced
  rw [ht]
  dsimp only
  rw [if_neg (by bv_omega), if_neg]
  · rfl
  · rw [hpending]
    exact fun hboth => Nat.lt_irrefl 0 hboth.2

/-- **The byte is acknowledged**, and counted. -/
theorem AwaitsSack.sack (h : a.AwaitsSack k) {rwnd : U32} (hrwnd : 0 < rwnd.toNat) :
    let s := a.handleSack 0 ⟨a.cumulativeTsnAckPoint + 1, rwnd, [], []⟩
    s.1.Idle (k + 1) ∧ s.2.isOk = true ∧ s.1.cumulativeTsnAckPoint = a.cumulativeTsnAckPoint + 1 := by
  obtain ⟨c, hqueue, htsn, hone, hsince⟩ := h.inflight
  have hpop : a.inflightQueue.pop (a.cumulativeTsnAckPoint + 1) = ({}, some c) := by
    rw [hqueue, ← htsn]
    exact pop_pushNoCheck_new c
  obtain ⟨hok, htraffic⟩ := Traffic.handleSack_byte h.state h.uses h.point h.calm.1 h.stream hpop
    hone hsince (PayloadQueue.Window.new _) rfl rwnd
  have hcounted := traffic_congestionAvoidance (a := { a with
    inflightQueue := {}
    cumulativeTsnAckPoint := a.cumulativeTsnAckPoint + 1 }) h.avoids h.pending
  have hsame := htraffic.trans (congrArg (fun t : AssociationInternal => { t with
    rwnd
    objects := a.objects.modify 0 fun s => (s.onBufferReleased 1).1
    advancedPeerTsnAckPoint := a.cumulativeTsnAckPoint + 1 }) hcounted :)
  refine ⟨?_, hok, (congrArg cumulativeTsnAckPoint hsame :)⟩
  obtain ⟨b, hb⟩ : ∃ b : AssociationInternal, b = { a with
    inflightQueue := {}
    cumulativeTsnAckPoint := a.cumulativeTsnAckPoint + 1
    partialBytesAcked := a.partialBytesAcked + 1
    rwnd
    objects := a.objects.modify 0 fun s => (s.onBufferReleased 1).1
    advancedPeerTsnAckPoint := a.cumulativeTsnAckPoint + 1 } := ⟨_, rfl⟩
  refine @Idle.congr b _ _ ?_ (by rw [hb]; exact hsame)
  rw [hb]
  refine { h with object := ?_, point := rfl, credit := ?_, next := ?_, rwnd := hrwnd, inflight := rfl }
  · obtain ⟨s, hs, hreliable⟩ := h.object
    refine ⟨(s.onBufferReleased 1).1, ?_, ?_⟩
    · show (a.objects.modify 0 fun s => (s.onBufferReleased 1).1)[0]? = _
      rw [List.getElem?_modify, hs]
      rfl
    · unfold Stream.onBufferReleased
      rw [if_neg (by omega)]
      exact { hreliable with }
  · show a.partialBytesAcked + 1 = BitVec.ofNat 32 (k + 1)
    rw [h.credit, BitVec.ofNat_add]
    rfl
  · exact h.next

/-- The addition overflows when the counter is full. -/
theorem AwaitsSack.creditOverflows (h : a.AwaitsSack k) (rwnd : U32) :
    a.creditOverflows (.sack 0 ⟨a.cumulativeTsnAckPoint + 1, rwnd, [], []⟩) =
      (BitVec.ofNat 32 k).uaddOverflow 1 := by
  obtain ⟨c, hqueue, htsn, hone, hsince⟩ := h.inflight
  have hpop : a.inflightQueue.pop (a.cumulativeTsnAckPoint + 1) = ({}, some c) := by
    rw [hqueue, ← htsn]
    exact pop_pushNoCheck_new c
  obtain ⟨b, hprocess, htraffic⟩ := Traffic.processSelectiveAck_byte hpop hone hsince h.calm.1 rwnd
  have hcum : b.cumulativeTsnAckPoint = a.cumulativeTsnAckPoint :=
    (congrArg cumulativeTsnAckPoint htraffic :)
  have hcwnd : b.cwnd = a.cwnd := (congrArg AssociationInternal.cwnd htraffic :)
  have hssthresh : b.ssthresh = a.ssthresh := (congrArg AssociationInternal.ssthresh htraffic :)
  have hcredit : b.partialBytesAcked = a.partialBytesAcked := (congrArg partialBytesAcked htraffic :)
  have hdist : Serial.dist a.cumulativeTsnAckPoint (a.cumulativeTsnAckPoint + 1) = 1 :=
    Serial.dist_add_ofNat _ (k := 1) (by decide)
  have hlt : sna32lt a.cumulativeTsnAckPoint (a.cumulativeTsnAckPoint + 1) = true := by
    rw [sna32lt_iff, hdist]
    omega
  have hgt : sna32gt a.cumulativeTsnAckPoint (a.cumulativeTsnAckPoint + 1) = false := by
    rw [← Bool.not_eq_true, sna32gt_iff, hdist]
    omega
  have hreads : a.readsSack ⟨a.cumulativeTsnAckPoint + 1, rwnd, [], []⟩ = true :=
    readsSack_iff.mpr ⟨Or.inl h.state, hgt⟩
  have havoids := h.avoids
  show a.handleSackOverflows 0 _ = _
  rw [handleSackOverflows_eq, hreads, hprocess, Bool.true_and]
  dsimp only
  unfold applySackOverflows onCumulativeTsnAckPointAdvancedOverflows
  dsimp only
  rw [hcum, if_pos hlt, hcwnd, hssthresh, if_neg (by bv_omega), hcredit, h.credit]
  rfl

/-! ### Rounds -/

namespace Idle

/-- A byte is written and sent, and the SACK for it arrives. -/
def round (cumulativeTsnAck : U32) : List SenderOp :=
  [.write 0 [0] .binary, .gather 0, .sack 0 ⟨cumulativeTsnAck, 4096, [], []⟩]

/-- Rounds in which the peer acknowledges the TSNs that follow `tsn`. -/
def rounds (tsn : U32) (n : ℕ) : List SenderOp :=
  (List.range n).flatMap fun i => round (tsn.after (i + 1))

/-- A round more is a round at the end. -/
theorem rounds_succ (tsn : U32) (n : ℕ) :
    rounds tsn (n + 1) = rounds tsn n ++ round (tsn.after (n + 1)) := by
  unfold rounds
  rw [List.range_succ, List.flatMap_append, List.flatMap_singleton]

/-- Sending does not move the point. -/
theorem cumulativeTsnAckPoint_send (a : AssociationInternal) :
    ((a.writeSctp 0 [0] .binary).1.gatherOutbound 0).1.cumulativeTsnAckPoint =
      a.cumulativeTsnAckPoint := by
  obtain ⟨flags, pendingQueue, objects, heq⟩ := a.writeSctp_eq 0 [0] .binary
  rw [cumulativeTsnAckPoint_gatherOutbound, heq]

/-- **A round credits one byte**. -/
theorem round_run (h : a.Idle k) :
    let ops := round (a.cumulativeTsnAckPoint + 1)
    let s := Runs.run senderStep a ops
    s.Idle (k + 1) ∧ s.cumulativeTsnAckPoint = a.cumulativeTsnAckPoint + 1 ∧
      Runs.Along senderStep Accepted a ops := by
  have hopen : 0 < (4096 : U32).toNat := by decide
  have hsent := (h.send 0).sack hopen
  rw [cumulativeTsnAckPoint_send] at hsent
  obtain ⟨hidle, hok, hcum⟩ := hsent
  exact ⟨hidle, hcum, ⟨trivial, trivial⟩, ⟨trivial, trivial⟩, ⟨trivial, hok⟩, trivial⟩

/-- **The counter grows by one in every round.** -/
theorem rounds_run (h : a.Idle k) (n : ℕ) :
    let ops := rounds a.cumulativeTsnAckPoint n
    let s := Runs.run senderStep a ops
    s.Idle (k + n) ∧ s.cumulativeTsnAckPoint = a.cumulativeTsnAckPoint.after n ∧
      Runs.Along senderStep Accepted a ops := by
  induction n with
  | zero => exact ⟨h, (after_zero _).symm, trivial⟩
  | succ n ih =>
    obtain ⟨hidle, hcum, halong⟩ := ih
    have hnext := hidle.round_run
    dsimp only at hnext ⊢
    rw [hcum, after_succ] at hnext
    rw [rounds_succ, Runs.run_append, Runs.along_append]
    exact ⟨hnext.1, hnext.2.1, halong, hnext.2.2⟩

/-- The round after the counter has come to the last number overflows. -/
theorem rounds_overflow (h : a.Idle 0) {n : ℕ} (hn : n + 1 = 2 ^ 32) :
    ¬ Runs.Along senderStep (fun a op => a.creditOverflows op = false) a
      (rounds a.cumulativeTsnAckPoint (n + 1)) := by
  obtain ⟨hidle, hcum, -⟩ := h.rounds_run n
  rw [rounds_succ, Runs.along_append, ← after_succ, ← hcum]
  rw [Nat.zero_add] at hidle
  generalize Runs.run senderStep a (rounds a.cumulativeTsnAckPoint n) = b at hidle
  rintro ⟨-, -, -, hnever, -⟩
  have hoverflows := (hidle.send 0).creditOverflows 4096
  rw [cumulativeTsnAckPoint_send] at hoverflows
  have hfull : (BitVec.ofNat 32 n).uaddOverflow 1 = true := by
    have hone : (1 : U32).toNat = 1 := rfl
    unfold BitVec.uaddOverflow
    rw [BitVec.toNat_ofNat, Nat.mod_eq_of_lt (by omega), hone, decide_eq_true_iff]
    omega
  exact Bool.false_ne_true (hnever.symm.trans (hoverflows.trans hfull))

end Idle

/-- A stream is opened, and bytes are written one at a time. -/
def byteAtATime (n : ℕ) : List SenderOp :=
  .openStream 1 .binary :: Idle.rounds justEstablished.cumulativeTsnAckPoint n

theorem idle_openStream : (justEstablished.senderStep (.openStream 1 .binary)).Idle 0 where
  state := rfl
  uses := rfl
  room := by decide
  stream := rfl
  object := ⟨_, rfl, rfl, rfl, rfl, rfl, by decide⟩
  point := rfl
  calm := ⟨rfl, rfl, rfl⟩
  avoids := by decide
  pending := rfl
  credit := rfl
  next := by decide
  rwnd := by decide
  inflight := rfl

/-- **After 2^32 bytes the counter overflows**, though each SACK is accepted. -/
theorem creditOverflows_byteAtATime :
    justEstablished.Fresh ∧ justEstablished.partialBytesAcked = 0 ∧
      Runs.Along senderStep Accepted justEstablished (byteAtATime (2 ^ 32)) ∧
      ¬ Runs.Along senderStep (fun a op => a.creditOverflows op = false) justEstablished
        (byteAtATime (2 ^ 32)) := by
  obtain ⟨n, hn⟩ : ∃ n, n + 1 = 2 ^ 32 := ⟨2 ^ 32 - 1, by norm_num⟩
  have haccepted := (idle_openStream.rounds_run (n + 1)).2.2
  have hoverflow := idle_openStream.rounds_overflow hn
  rw [← hn]
  refine ⟨justEstablished_fresh, rfl, ⟨⟨trivial, trivial⟩, haccepted⟩, ?_⟩
  rintro ⟨-, hnever⟩
  exact hoverflow hnever

end AssociationInternal

end Sctp
