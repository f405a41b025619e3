import Sctp.Association.FlowTheorems
import Sctp.StreamTheorems

/-!
# Traffic of one-byte messages

How a sender with an open window fares that writes messages of one byte, which it gives up
as soon as they are sent: what each operation does to the numbers of chunks pending and in
flight and to the congestion window.
-/

namespace Sctp

namespace AssociationInternal

variable {a a' : AssociationInternal} {n m w r : ℕ}

/-- A chunk that is a message of one byte. -/
structure OneByte (flags : SharedFlags) (c : ChunkPayloadData) : Prop where
  length : c.userData.length = 1
  beginning : c.beginningFragment = true
  ending : c.endingFragment = true
  ordered : c.unordered = false
  stream : c.streamIdentifier = 1
  type : c.payloadType = .binary
  cells : c.abandoned < flags.length ∧ c.allInflight < flags.length
  notAcked : c.acked = false

/-- The stream gives up every message at its first transmission. -/
structure GivesUp (s : Stream) : Prop where
  identifier : s.streamIdentifier = 1
  isOpen : s.writeShutdown = false
  isOrdered : s.unordered = false
  type : s.reliabilityType = .rexmit
  value : s.reliabilityValue = 0
  size : 0 < s.maxPayloadSize.toNat

/-- A stream that sends in order makes one chunk of a byte. -/
theorem packetize_byte {s : Stream} (hid : s.streamIdentifier = 1) (hordered : s.unordered = false)
    (hsize : 0 < s.maxPayloadSize.toNat) (flags : SharedFlags) (x : Byte) :
    ∃ c sequenceNumber bufferedAmount, (s.packetize flags [x] .binary).2.2 = [c] ∧
      OneByte (flags ++ [false, false]) c ∧ c.userData = [x] ∧
      (s.packetize flags [x] .binary).1 = { s with sequenceNumber, bufferedAmount } := by
  have hmin : min s.maxPayloadSize.toNat 1 = 1 := Nat.min_eq_right hsize
  have hlen : (flags ++ [false, false]).length = flags.length + 2 := List.length_append
  refine ⟨{ streamIdentifier := s.streamIdentifier
            userData := [x]
            beginningFragment := true
            endingFragment := true
            payloadType := .binary
            streamSequenceNumber := s.sequenceNumber
            abandoned := flags.length
            allInflight := flags.length + 1 }, s.sequenceNumber + 1, s.bufferedAmount + 1, ?_, ?_,
    rfl, ?_⟩
  · unfold Stream.packetize Stream.fragments
    simp [SharedFlags.alloc, hmin, hordered, Stream.fragments]
  · refine ⟨rfl, rfl, rfl, rfl, hid, rfl, ?_, rfl⟩
    rw [hlen]
    exact ⟨Nat.lt_add_of_pos_right (by omega), Nat.lt_succ_self _⟩
  · unfold Stream.packetize
    simp [hordered]

theorem packetize_one {s : Stream} (hs : GivesUp s) (flags : SharedFlags) (x : Byte) :
    ∃ c, (s.packetize flags [x] .binary).2.2 = [c] ∧ OneByte (flags ++ [false, false]) c ∧
      c.userData = [x] ∧ GivesUp (s.packetize flags [x] .binary).1 := by
  obtain ⟨c, _, _, hc, hone, hdata, heq⟩ :=
    packetize_byte hs.identifier hs.isOrdered hs.size flags x
  refine ⟨c, hc, hone, hdata, ?_⟩
  rw [heq]
  exact { hs with }

theorem OneByte.alloc {flags : SharedFlags} {c : ChunkPayloadData} (h : OneByte flags c) :
    OneByte (flags ++ [false, false]) c := by
  have hlen : (flags ++ [false, false]).length = flags.length + 2 := List.length_append
  have hcells := h.cells
  refine { h with cells := ?_ }
  rw [hlen]
  exact ⟨Nat.lt_add_right 2 hcells.1, Nat.lt_add_right 2 hcells.2⟩

/-- The write of a byte pushes its chunk. -/
theorem writeSctp_byte {s : Stream} {c : ChunkPayloadData} {x : Byte}
    (hstate : a.state = .established) (hroom : 1 ≤ a.maxMessageSize.toNat)
    (hs : a.objects[0]? = some s) (hopen : s.writeShutdown = false)
    (hc : (s.packetize a.flags [x] .binary).2.2 = [c]) :
    (a.writeSctp 0 [x] .binary).1 = { a with
      flags := a.flags ++ [false, false]
      pendingQueue := a.pendingQueue.push c
      objects := a.objects.set 0 (s.packetize a.flags [x] .binary).1 } := by
  have hfits : ¬ [x].length > a.maxMessageSize.toNat := by
    show ¬ 1 > a.maxMessageSize.toNat
    omega
  unfold AssociationInternal.writeSctp Stream.writeSctp
  rw [hs]
  dsimp only
  rw [if_neg (by rw [hopen]; exact nofun), if_neg hfits, hstate]
  dsimp only
  unfold Stream.sendPayloadData
  rw [if_neg (by simp), hc, Stream.packetize_flags]
  rfl

/-- What of the state the traffic depends on. -/
def traffic (a : AssociationInternal) : AssociationInternal :=
  { a with
    payloadQueue := {}
    controlQueue := []
    ackState := .idle
    willSendForwardTsn := false
    t3rtx := {}
    minTsn2measureRtt := 0
    rtoMgr := {} }

/-- Where nothing is sent again, a `gather_outbound` does what popping the pending chunks does. -/
theorem traffic_gatherEstablished {a₁ : AssociationInternal} {chunks : List ChunkPayloadData}
    (hretransmit : (a.getDataPacketsToRetransmit 0).1 = a)
    (hpop : a.popPendingDataChunksToSend 0 = (a₁, chunks, []))
    (hfast : a₁.willRetransmitFast = false) (hreconfig : a₁.willRetransmitReconfig = false) :
    (a.gatherEstablished 0).1.traffic = a₁.traffic := by
  have hdata : ∃ t, (a.gatherOutboundDataAndReconfigPackets 0).1 = { a₁ with t3rtx := t } := by
    have hnone : ∀ t, ({ a₁ with t3rtx := t }.gatherOutboundReconfigPackets []).1 =
        { a₁ with t3rtx := t } := by
      intro t
      unfold gatherOutboundReconfigPackets
      rw [if_neg (by simp [hreconfig])]
    unfold gatherOutboundDataAndReconfigPackets
    rw [hpop]
    dsimp only
    split
    · exact ⟨_, hnone _⟩
    · exact ⟨_, hnone a₁.t3rtx⟩
  have hsack : ∀ b : AssociationInternal, b.gatherOutboundSackPackets.1.traffic = b.traffic := by
    intro b
    unfold gatherOutboundSackPackets
    split <;> rfl
  have hforward : ∀ b : AssociationInternal,
      b.gatherOutboundForwardTsnPackets.1.traffic = b.traffic := by
    intro b
    unfold gatherOutboundForwardTsnPackets
    dsimp only
    split_ifs <;> rfl
  obtain ⟨t, ht⟩ := hdata
  have hnot : ({ a₁ with t3rtx := t }.gatherOutboundFastRetransmissionPackets 0).1 =
      { a₁ with t3rtx := t } := by
    unfold gatherOutboundFastRetransmissionPackets
    dsimp only
    rw [hfast]
    rfl
  unfold gatherEstablished
  dsimp only
  rw [hretransmit, ht, hforward, hsack, hnot]
  rfl

/-- `n` messages are in flight, given up, and `m` are pending; the congestion window is `w` and
the peer's window `r`. -/
structure Traffic (a : AssociationInternal) (n m w r : ℕ) : Prop where
  state : a.state = .established
  uses : a.useForwardTsn = true
  room : 1 ≤ a.maxMessageSize.toNat
  stream : a.streams.lookup 1 = some 0
  object : ∃ s, a.objects[0]? = some s ∧ GivesUp s
  next : a.myNextTsn = a.cumulativeTsnAckPoint.after (n + 1)
  point : a.advancedPeerTsnAckPoint = a.cumulativeTsnAckPoint
  ssthresh : a.ssthresh = 0xffffffff
  calm : a.inFastRecovery = false ∧ a.willRetransmitFast = false ∧ a.willRetransmitReconfig = false
  cwnd : a.cwnd.toNat = w
  rwnd : a.rwnd.toNat = r
  ordered : a.pendingQueue.unorderedQueue = []
  pending : a.pendingQueue.orderedQueue.length = m
  pendingOne : ∀ c ∈ a.pendingQueue.orderedQueue, OneByte a.flags c
  pendingLen : a.pendingQueue.queueLen = m
  unselected : a.pendingQueue.selected = false
  spans : a.inflightQueue.Spans a.cumulativeTsnAckPoint n
  window : n ≤ 2 ^ 31 → a.inflightQueue.Window a.cumulativeTsnAckPoint n
  inflight : ∀ t c, a.inflightQueue.get t = some c →
    OneByte a.flags c ∧ c.isAbandoned a.flags = true ∧ c.since = 0
  bytes : a.inflightQueue.nBytes = n

namespace Traffic

theorem congr (h : a.Traffic n m w r) (heq : a'.traffic = a.traffic) : a'.Traffic n m w r := by
  have h' : a.traffic.Traffic n m w r := { h with }
  rw [← heq] at h'
  exact { h' with }

/-! ## Writing -/

/-- A write pushes one chunk. -/
theorem write_eq (h : a.Traffic n m w r) (x : Byte) :
    ∃ s s' c, a.objects[0]? = some s ∧ GivesUp s' ∧ OneByte (a.flags ++ [false, false]) c ∧
      c.userData = [x] ∧ (a.writeSctp 0 [x] .binary).1 = { a with
        flags := a.flags ++ [false, false]
        pendingQueue := a.pendingQueue.push c
        objects := a.objects.set 0 s' } := by
  obtain ⟨s, hs, hgives⟩ := h.object
  obtain ⟨c, hc, hone, hdata, hgives'⟩ := packetize_one hgives a.flags x
  exact ⟨s, (s.packetize a.flags [x] .binary).1, c, hs, hgives', hone, hdata,
    writeSctp_byte h.state h.room hs hgives.isOpen hc⟩

theorem write (h : a.Traffic n m w r) (x : Byte) :
    (a.writeSctp 0 [x] .binary).1.Traffic n (m + 1) w r := by
  obtain ⟨s, s', c, hs, hgives', hone, _, heq⟩ := h.write_eq x
  have hpush : a.pendingQueue.push c = { a.pendingQueue with
      orderedQueue := a.pendingQueue.orderedQueue ++ [c]
      queueLen := a.pendingQueue.queueLen + 1
      nBytes := a.pendingQueue.nBytes + 1 } := by
    unfold PendingQueue.push
    rw [hone.ordered, hone.length]
    rfl
  rw [heq, hpush]
  refine { h with object := ?_, pending := ?_, pendingOne := ?_, pendingLen := ?_, inflight := ?_ }
  · have hlt : 0 < a.objects.length := (List.getElem?_eq_some_iff.mp hs).1
    exact ⟨_, List.getElem?_set_self hlt, hgives'⟩
  · show (a.pendingQueue.orderedQueue ++ [c]).length = m + 1
    rw [List.length_append, h.pending]
    rfl
  · intro c' hc'
    rw [List.mem_append, List.mem_singleton] at hc'
    rcases hc' with hc' | rfl
    · exact (h.pendingOne c' hc').alloc
    · exact hone
  · show a.pendingQueue.queueLen + 1 = m + 1
    rw [h.pendingLen]
  · intro t c' hc'
    obtain ⟨hone', habandoned, hsince⟩ := h.inflight t c' hc'
    refine ⟨hone'.alloc, ?_, hsince⟩
    unfold ChunkPayloadData.isAbandoned at habandoned ⊢
    rw [SharedFlags.load_alloc, SharedFlags.load_alloc, habandoned]

/-! ## Sending -/

theorem peek (h : a.Traffic n (m + 1) w r) : ∃ c rest, a.pendingQueue.orderedQueue = c :: rest ∧
    a.pendingQueue.peek = some c ∧ OneByte a.flags c := by
  cases hq : a.pendingQueue.orderedQueue with
  | nil =>
    have hlen := h.pending
    rw [hq] at hlen
    cases hlen
  | cons c rest =>
    refine ⟨c, rest, rfl, ?_, h.pendingOne c (by rw [hq]; exact List.mem_cons_self ..)⟩
    unfold PendingQueue.peek
    rw [h.unselected, h.ordered, hq]
    rfl

/-- Sent for the first time, a message is given up. -/
theorem checkPartialReliabilityStatus_eq (h : a.Traffic n m w r) {c : ChunkPayloadData} (now : ℕ)
    (hstream : c.streamIdentifier = 1) (htype : c.payloadType = .binary) (b : AssociationInternal)
    (huse : b.useForwardTsn = a.useForwardTsn) (hstreams : b.streams = a.streams)
    (hobjects : b.objects = a.objects) :
    b.checkPartialReliabilityStatus now c = { b with flags := c.setAbandoned b.flags true } := by
  obtain ⟨s, hs, hgives⟩ := h.object
  have hfound : b.stream? c.streamIdentifier = some s := by
    unfold stream?
    rw [hstreams, hobjects, hstream, h.stream]
    exact hs
  unfold checkPartialReliabilityStatus
  rw [huse, h.uses, htype, hfound]
  simp [hgives.type, hgives.value]

/-- The cells after a message has been given up. -/
theorem setAbandoned_allInflight {flags : SharedFlags} {c : ChunkPayloadData} (h : OneByte flags c) :
    let flags' := c.setAbandoned (c.setAllInflight flags) true
    flags'.length = flags.length ∧ (∀ x, flags.load x = true → flags'.load x = true) ∧
      c.isAbandoned flags' = true := by
  have hcells := h.cells
  unfold ChunkPayloadData.isAbandoned ChunkPayloadData.setAbandoned ChunkPayloadData.setAllInflight
  rw [h.ending, if_pos rfl]
  refine ⟨by simp, ?_, ?_⟩
  · intro x hx
    exact SharedFlags.load_store_true (SharedFlags.load_store_true hx)
  · rw [Bool.and_eq_true]
    refine ⟨SharedFlags.load_store_self ?_ true, SharedFlags.load_store_true ?_⟩
    · rw [SharedFlags.length_store]
      exact hcells.1
    · exact SharedFlags.load_store_self hcells.2 true

/-- The next pending message is popped, given up and pushed to those in flight. -/
theorem move_eq (h : a.Traffic n (m + 1) w r) {c : ChunkPayloadData} {rest : List ChunkPayloadData}
    (hq : a.pendingQueue.orderedQueue = c :: rest) (hone : OneByte a.flags c) (rwnd : U32) :
    { a with rwnd }.movePendingDataChunkToInflightQueue 0 c.beginningFragment c.unordered =
      ({ a with
        rwnd
        pendingQueue := { a.pendingQueue with
          orderedQueue := rest
          nBytes := a.pendingQueue.nBytes - 1
          queueLen := a.pendingQueue.queueLen - 1 }
        flags := c.setAbandoned (c.setAllInflight a.flags) true
        myNextTsn := a.myNextTsn + 1
        inflightQueue := a.inflightQueue.pushNoCheck (numbered c a.myNextTsn 0) },
        some (numbered c a.myNextTsn 0)) := by
  have hpop : a.pendingQueue.pop true false = ({ a.pendingQueue with
      orderedQueue := rest
      nBytes := a.pendingQueue.nBytes - 1
      queueLen := a.pendingQueue.queueLen - 1 }, some c) := by
    unfold PendingQueue.pop PendingQueue.popFront PendingQueue.account
    simp [h.unselected, hq, hone.ending, hone.length]
  rw [hone.beginning, hone.ordered]
  unfold movePendingDataChunkToInflightQueue generateNextTsn
  dsimp only
  rw [hpop]
  dsimp only
  rw [h.checkPartialReliabilityStatus_eq 0 ?_ ?_ _ ?_ ?_ ?_]
  · rfl
  · exact hone.stream
  · exact hone.type
  · rfl
  · rfl
  · rfl

/-- The next pending message goes into flight. -/
theorem move (h : a.Traffic n (m + 1) w (r + 1)) (hn : n + 1 < 2 ^ 32) {c : ChunkPayloadData}
    (hpeek : a.pendingQueue.peek = some c) :
    let s := { a with rwnd := a.rwnd - BitVec.ofNat 32 c.userData.length
      }.movePendingDataChunkToInflightQueue 0 c.beginningFragment c.unordered
    s.1.Traffic (n + 1) m w r ∧ s.2 = some (numbered c a.myNextTsn 0) := by
  obtain ⟨c', rest, hq, hpeek', hone⟩ := h.peek
  rw [hpeek] at hpeek'
  injection hpeek' with hcc
  subst hcc
  have hmove := h.move_eq hq hone
  obtain ⟨hlen, hkept, hset⟩ := setAbandoned_allInflight hone
  generalize c.setAbandoned (c.setAllInflight a.flags) true = flags at hmove hlen hkept hset
  have hcarry : ∀ c', OneByte a.flags c' → OneByte flags c' := by
    intro c' hc'
    refine { hc' with cells := ?_ }
    rw [hlen]
    exact hc'.cells
  intro s
  have hs : s = _ := hmove _
  rw [hs]
  refine ⟨?_, rfl⟩
  refine { h with next := ?_, rwnd := ?_, pending := ?_, pendingOne := ?_, pendingLen := ?_,
                  spans := ?_, window := ?_, inflight := ?_, bytes := ?_ }
  · show a.myNextTsn + 1 = a.cumulativeTsnAckPoint.after (n + 1 + 1)
    rw [h.next, after_succ]
  · have hr := h.rwnd
    show (a.rwnd - BitVec.ofNat 32 c.userData.length).toNat = r
    rw [hone.length]
    have hone32 : (BitVec.ofNat 32 1).toNat = 1 := rfl
    rw [BitVec.toNat_sub_of_le (by rw [BitVec.le_def, hone32]; omega), hone32, hr]
    omega
  · show rest.length = m
    have hp := h.pending
    rw [hq, List.length_cons] at hp
    omega
  · intro c' hc'
    exact hcarry c' (h.pendingOne c' (by rw [hq]; exact List.mem_cons_of_mem _ hc'))
  · show a.pendingQueue.queueLen - 1 = m
    rw [h.pendingLen]
    rfl
  · exact h.spans.pushNoCheck hn h.next
  · intro hn'
    exact (h.window (by omega)).pushNoCheck hn' h.next
  · intro t c' hc'
    have hc'' : (a.inflightQueue.pushNoCheck (numbered c a.myNextTsn 0)).get t = some c' := hc'
    by_cases ht : t = (numbered c a.myNextTsn 0).tsn
    · -- the message itself
      rw [ht, PayloadQueue.Window.get_pushNoCheck_self] at hc''
      injection hc'' with hc''
      rw [← hc'']
      have hone' := hcarry c hone
      exact ⟨{ hone' with }, hset, rfl⟩
    · -- one that was in flight before
      rw [PayloadQueue.Window.get_pushNoCheck ht] at hc''
      obtain ⟨hone', habandoned, hsince⟩ := h.inflight t c' hc''
      refine ⟨hcarry c' hone', ?_, hsince⟩
      unfold ChunkPayloadData.isAbandoned at habandoned ⊢
      rw [Bool.and_eq_true] at habandoned ⊢
      exact ⟨hkept _ habandoned.1, hkept _ habandoned.2⟩
  · show a.inflightQueue.nBytes + c.userData.length = n + 1
    rw [h.bytes, hone.length]

/-- As long as the windows allow it, everything pending goes into flight. -/
theorem popPendingLoop (h : a.Traffic n m w r) (hw : n + m ≤ w) (hr : m ≤ r) (hn : n + m < 2 ^ 32)
    {fuel : ℕ} (hfuel : m ≤ fuel) (chunks : List ChunkPayloadData) (sisToReset : List U16) :
    ∃ a' chunks', AssociationInternal.popPendingLoop 0 fuel a chunks sisToReset =
      (a', chunks', sisToReset) ∧ a'.Traffic (n + m) 0 w (r - m) := by
  induction m generalizing a n r fuel chunks with
  | zero =>
    refine ⟨a, chunks, ?_, h⟩
    have hpeek : a.pendingQueue.peek = none := by
      unfold PendingQueue.peek
      rw [h.unselected, h.ordered, List.length_eq_zero_iff.mp h.pending]
      rfl
    cases fuel with
    | zero => rfl
    | succ fuel => rw [AssociationInternal.popPendingLoop, hpeek]
  | succ m ih =>
    obtain ⟨fuel, rfl⟩ : ∃ f, fuel = f + 1 := ⟨fuel - 1, by omega⟩
    obtain ⟨r, rfl⟩ : ∃ r', r = r' + 1 := ⟨r - 1, by omega⟩
    obtain ⟨c, rest, hq, hpeek, hone⟩ := h.peek
    obtain ⟨hmoved, _⟩ := h.move (by omega) hpeek
    obtain ⟨a', chunks', heq, htraffic⟩ := ih hmoved (by omega) (by omega) (by omega)
      (by omega : m ≤ fuel) (chunks ++ ({ a with rwnd := a.rwnd - BitVec.ofNat 32 c.userData.length
        }.movePendingDataChunkToInflightQueue 0 c.beginningFragment c.unordered).2.toList)
    refine ⟨a', chunks', ?_, ?_⟩
    · -- the windows have room for one byte more
      have hbytes := h.bytes
      have hcwnd := h.cwnd
      have hrwnd := h.rwnd
      have hlen := hone.length
      rw [AssociationInternal.popPendingLoop, hpeek]
      dsimp only
      rw [if_neg (by omega), if_neg, if_neg (by omega)]
      · exact heq
      · show ¬ a.inflightQueue.nBytes + c.userData.length > a.cwnd.toNat
        omega
    · rw [show n + (m + 1) = n + 1 + m by omega, show r + 1 - (m + 1) = r - m by omega]
      exact htraffic

theorem gatherEstablished (h : a.Traffic 0 m w r) (hm : 0 < m) (hw : m ≤ w) (hr : m ≤ r)
    (hm' : m < 2 ^ 32) : (a.gatherEstablished 0).1.Traffic m 0 w (r - m) := by
  have hretransmit : (a.getDataPacketsToRetransmit 0).1 = a := by
    have htsns := h.spans.tsnsFrom_eq (by omega) (Nat.le_refl 0)
    rw [after_succ a.cumulativeTsnAckPoint 0 |>.symm, after_zero] at htsns
    unfold getDataPacketsToRetransmit
    rw [htsns]
    rfl
  have hrounds : m ≤ a.popPendingRounds := by
    unfold popPendingRounds
    rw [h.pending]
    omega
  obtain ⟨a₁, chunks, heq, h₁⟩ := h.popPendingLoop (by omega) hr (by omega) hrounds [] []
  rw [Nat.zero_add] at h₁
  have hprobe : a₁.zeroWindowProbe 0 chunks = (a₁, chunks) := by
    have hempty : a₁.inflightQueue.isEmpty = false := by
      have hlen := (h₁.spans.keys_perm hm').length_eq
      rw [length_tsnWindow] at hlen
      unfold PayloadQueue.isEmpty PayloadQueue.len
      rw [hlen]
      exact decide_eq_false (by omega)
    unfold zeroWindowProbe
    rw [if_neg]
    intro hboth
    rw [hempty] at hboth
    exact absurd hboth.2 nofun
  have hpop : a.popPendingDataChunksToSend 0 = (a₁, chunks, []) := by
    unfold popPendingDataChunksToSend
    rw [if_neg, heq]
    · dsimp only
      rw [hprobe]
    · unfold PendingQueue.len
      rw [h.pendingLen]
      omega
  exact h₁.congr (traffic_gatherEstablished hretransmit hpop h₁.calm.2.1 h₁.calm.2.2)

/-- A `gather_outbound` sends all that is pending. -/
theorem gather (h : a.Traffic 0 m w r) (hm : 0 < m) (hw : m ≤ w) (hr : m ≤ r) (hm' : m < 2 ^ 32) :
    (a.gatherOutbound 0).1.Traffic m 0 w (r - m) := by
  have hcontrol : { a with controlQueue := [] }.Traffic 0 m w r := h.congr rfl
  rw [gatherOutbound_of_established h.state]
  exact hcontrol.gatherEstablished hm hw hr hm'

/-! ## Acknowledging -/

theorem ackPopped_ok (a : AssociationInternal) {c : ChunkPayloadData} (hacked : c.acked = false)
    (hsince : c.since = 0) (i : U32) (b : BytesAcked) :
    ∃ a', a.ackPopped 0 i c b = (a', .ok (b.add c.streamIdentifier c.userData.length)) ∧
      a'.traffic = a.traffic := by
  have hmeasure : ∀ b : AssociationInternal, b.measureRtt 0 c.since =
      ({ b with minTsn2measureRtt := b.myNextTsn, rtoMgr := b.rtoMgr.setNewRtt 0 }, .ok ()) := by
    intro b
    unfold measureRtt
    rw [hsince]
    rfl
  unfold ackPopped
  rw [hacked, if_neg nofun]
  dsimp only
  split_ifs
  · rw [hmeasure]
    exact ⟨_, rfl, rfl⟩
  · exact ⟨_, rfl, rfl⟩
  · rw [hmeasure]
    exact ⟨_, rfl, rfl⟩
  · exact ⟨_, rfl, rfl⟩

/-- A SACK for the first chunk in flight, which has one byte, takes it out. -/
theorem processSelectiveAck_byte {q : PayloadQueue} {c : ChunkPayloadData}
    (hpop : a.inflightQueue.pop (a.cumulativeTsnAckPoint + 1) = (q, some c))
    (hone : OneByte a.flags c) (hsince : c.since = 0) (hrecovery : a.inFastRecovery = false)
    (rwnd : U32) :
    ∃ a', a.processSelectiveAck 0 ⟨a.cumulativeTsnAckPoint + 1, rwnd, [], []⟩ =
        (a', .ok (BytesAcked.add ∅ 1 1, a.cumulativeTsnAckPoint + 1)) ∧
      a'.traffic = { a with inflightQueue := q }.traffic := by
  obtain ⟨a', hack, htraffic⟩ := ackPopped_ok { a with inflightQueue := q } hone.notAcked hsince
    (a.cumulativeTsnAckPoint + 1) ∅
  rw [hone.stream, hone.length] at hack
  refine ⟨a', ?_, htraffic⟩
  have hcalm : a'.inFastRecovery = false :=
    (congrArg inFastRecovery htraffic :).trans hrecovery
  have hexit : a'.exitFastRecovery c = a' := by
    unfold exitFastRecovery
    rw [hcalm, if_neg (by simp)]
  have hfirst : sna32lte (a.cumulativeTsnAckPoint + 1) (a.cumulativeTsnAckPoint + 1) = true := by
    rw [sna32lte_iff, Serial.dist_self]
    omega
  have hsecond : ¬ sna32lte (a.cumulativeTsnAckPoint + 1 + 1) (a.cumulativeTsnAckPoint + 1) = true := by
    rw [sna32lte_succ_iff (by rw [Serial.dist_self]; omega), Serial.dist_self]
    omega
  -- one round of popping, then the loop is over
  have hloop : popAcked 0 (a.cumulativeTsnAckPoint + 1) (a.cumulativeTsnAckPoint + 1) a ∅ =
      (a', .ok (BytesAcked.add ∅ 1 1)) := by
    rw [popAcked, if_pos hfirst, hpop]
    dsimp only
    rw [hack]
    dsimp only
    rw [hexit, popAcked, if_neg hsecond]
  unfold AssociationInternal.processSelectiveAck
  rw [hloop]
  rfl

theorem onCumulativeTsnAckPointAdvanced_eq (a : AssociationInternal) (n : ℕ) :
    ∃ t3rtx cwnd partialBytesAcked, a.onCumulativeTsnAckPointAdvanced n =
      { a with t3rtx, cwnd, partialBytesAcked } := by
  unfold onCumulativeTsnAckPointAdvanced
  dsimp only
  split_ifs <;> exact ⟨_, _, _, rfl⟩

/-- Congestion control depends on what the traffic depends on. -/
theorem traffic_onCumulativeTsnAckPointAdvanced (a : AssociationInternal) (n : ℕ) :
    (a.onCumulativeTsnAckPointAdvanced n).traffic =
      (a.traffic.onCumulativeTsnAckPointAdvanced n).traffic := by
  have htimer : ∀ b : AssociationInternal, ∃ t, (if b.inflightQueue.isEmpty then
      { b with t3rtx := b.t3rtx.stop } else { b with t3rtx := b.t3rtx.start }) =
      { b with t3rtx := t } := by
    intro b
    split <;> exact ⟨_, rfl⟩
  obtain ⟨t, ht⟩ := htimer a
  obtain ⟨t', ht'⟩ := htimer a.traffic
  unfold onCumulativeTsnAckPointAdvanced
  rw [ht, ht']
  dsimp only
  by_cases hslow : a.cwnd ≤ a.ssthresh
  · have hslow' : a.traffic.cwnd ≤ a.traffic.ssthresh := hslow
    rw [if_pos hslow, if_pos hslow']
    by_cases hgrow : (!a.inFastRecovery) = true ∧ a.pendingQueue.len > 0
    · have hgrow' : (!a.traffic.inFastRecovery) = true ∧ a.traffic.pendingQueue.len > 0 := hgrow
      rw [if_pos hgrow, if_pos hgrow']
      rfl
    · have hgrow' : ¬ ((!a.traffic.inFastRecovery) = true ∧ a.traffic.pendingQueue.len > 0) := hgrow
      rw [if_neg hgrow, if_neg hgrow']
      rfl
  · have hslow' : ¬ a.traffic.cwnd ≤ a.traffic.ssthresh := hslow
    rw [if_neg hslow, if_neg hslow']
    by_cases hgrow : a.partialBytesAcked + BitVec.ofNat 32 n ≥ a.cwnd ∧ a.pendingQueue.len > 0
    · have hgrow' : a.traffic.partialBytesAcked + BitVec.ofNat 32 n ≥ a.traffic.cwnd ∧
          a.traffic.pendingQueue.len > 0 := hgrow
      rw [if_pos hgrow, if_pos hgrow']
      rfl
    · have hgrow' : ¬ (a.traffic.partialBytesAcked + BitVec.ofNat 32 n ≥ a.traffic.cwnd ∧
          a.traffic.pendingQueue.len > 0) := hgrow
      rw [if_neg hgrow, if_neg hgrow']
      rfl

/-- A byte of stream 1 is acknowledged, and the queue is empty. -/
theorem applySack_byte {d : ChunkSelectiveAck} (hd : d.cumulativeTsnAck = a.cumulativeTsnAckPoint + 1)
    (hstream : a.streams.lookup 1 = some 0) (hbytes : a.inflightQueue.nBytes = 0) :
    (a.applySack d (BytesAcked.add ∅ 1 1)).traffic =
      { { a with cumulativeTsnAckPoint := d.cumulativeTsnAck }.onCumulativeTsnAckPointAdvanced 1 with
        rwnd := d.advertisedReceiverWindowCredit
        objects := a.objects.modify 0 fun s => (s.onBufferReleased 1).1 }.traffic := by
  have hlt : sna32lt a.cumulativeTsnAckPoint d.cumulativeTsnAck = true := by
    rw [sna32lt_iff, hd]
    have hdist := dist_after a.cumulativeTsnAckPoint (k := 1) (by omega)
    have hone : a.cumulativeTsnAckPoint.after 1 = a.cumulativeTsnAckPoint + 1 := rfl
    rw [hone] at hdist
    omega
  have htotal : (BytesAcked.add ∅ 1 1).total = 1 := rfl
  -- one entry, for stream 1
  have hrelease : ∀ b : AssociationInternal, b.streams = a.streams →
      (BytesAcked.add ∅ 1 1).entries.foldl
        (fun a e => a.modifyStream e.1 fun s => (s.onBufferReleased e.2).1) b =
        b.modifyObject 0 fun s => (s.onBufferReleased 1).1 := by
    intro b hb
    show b.modifyStream 1 (fun s => (s.onBufferReleased 1).1) = _
    unfold modifyStream
    rw [hb, hstream]
  have hrwnd : (if BitVec.ofNat 32 a.inflightQueue.getNumBytes ≥ d.advertisedReceiverWindowCredit
      then 0 else d.advertisedReceiverWindowCredit - BitVec.ofNat 32 a.inflightQueue.getNumBytes) =
      d.advertisedReceiverWindowCredit := by
    unfold PayloadQueue.getNumBytes
    rw [hbytes]
    split
    · rename_i hle
      have hzero : d.advertisedReceiverWindowCredit.toNat ≤ 0 := hle
      exact (BitVec.eq_of_toNat_eq (Nat.le_zero.mp hzero)).symm
    · exact BitVec.sub_zero _
  obtain ⟨t3rtx, cwnd, credit, heq⟩ := onCumulativeTsnAckPointAdvanced_eq
    { a with cumulativeTsnAckPoint := d.cumulativeTsnAck } 1
  unfold applySack
  dsimp only
  rw [if_pos hlt, htotal, heq, hrelease]
  · unfold traffic modifyObject
    dsimp only
    rw [hrwnd]
  · rfl

/-- A byte acknowledged in slow start opens the congestion window by one if something is pending. -/
theorem traffic_slowStart (hssthresh : a.ssthresh = 0xffffffff) (hcalm : a.inFastRecovery = false)
    (hcwnd : 0 < a.cwnd.toNat) : (a.onCumulativeTsnAckPointAdvanced 1).traffic = { a with
      cwnd := if 0 < a.pendingQueue.queueLen then a.cwnd + 1 else a.cwnd }.traffic := by
  have hmin : cmpMin 1#32 a.cwnd = 1 := by
    have hle : 1#32 ≤ a.cwnd := by
      rw [BitVec.le_def]
      exact hcwnd
    exact if_pos hle
  have hslow : a.cwnd ≤ a.ssthresh := by
    rw [hssthresh, BitVec.le_def]
    have hw := a.cwnd.isLt
    show a.cwnd.toNat ≤ 4294967295
    omega
  have htimer : ∃ t, (if a.inflightQueue.isEmpty then { a with t3rtx := a.t3rtx.stop }
      else { a with t3rtx := a.t3rtx.start }) = { a with t3rtx := t } := by
    split <;> exact ⟨_, rfl⟩
  obtain ⟨t, ht⟩ := htimer
  unfold onCumulativeTsnAckPointAdvanced
  rw [ht]
  dsimp only
  rw [if_pos hslow]
  by_cases hlen : 0 < a.pendingQueue.queueLen
  · rw [if_pos ⟨by rw [hcalm]; rfl, hlen⟩, if_pos hlen]
    show { a with t3rtx := t, cwnd := a.cwnd + cmpMin 1#32 a.cwnd }.traffic = _
    rw [hmin]
    rfl
  · rw [if_neg fun hboth => hlen hboth.2, if_neg hlen]
    rfl

/-- Nothing is in flight any more, so nothing is missing either. -/
theorem processFastRetransmission_eq (hcalm : a.inFastRecovery = false) (cum : U32)
    (advanced : Bool) : a.processFastRetransmission cum cum advanced = (a, .ok ()) := by
  have hlt : ¬ sna32lt (cum + 1) cum = true := by
    have hself : Serial.dist cum cum ≤ Serial.dist cum (cum + 1) := by
      rw [Serial.dist_self]
      omega
    have hone := dist_after cum (k := 1) (by omega)
    exact not_sna32lt_of_dist_le hself (hone.le.trans (by omega))
  have hround : reportMissingBelow cum cum (cum + 1) a = (a, .ok ()) := by
    rw [reportMissingBelow, if_neg hlt]
  unfold AssociationInternal.processFastRetransmission
  simp only [hcalm, Bool.not_false, true_or, if_true, hround, Bool.false_eq_true, false_and,
    if_false]

/-- The point follows the ack point, and nothing behind it is abandoned. -/
theorem raiseAckPoint_eq (huse : a.useForwardTsn = true)
    (hbehind : a.advancedPeerTsnAckPoint + 1 = a.cumulativeTsnAckPoint)
    (hwindow : a.inflightQueue.Window a.cumulativeTsnAckPoint 0) :
    a.raiseAckPoint = { a with advancedPeerTsnAckPoint := a.cumulativeTsnAckPoint } := by
  have hlt : sna32lt a.advancedPeerTsnAckPoint a.cumulativeTsnAckPoint = true := by
    have hone : a.advancedPeerTsnAckPoint.after 1 = a.cumulativeTsnAckPoint := hbehind
    rw [sna32lt_iff, ← hone, dist_after _ (by omega)]
    omega
  have htsns : a.inflightQueue.tsnsFrom (a.cumulativeTsnAckPoint + 1) = [] :=
    hwindow.tsnsFrom (k := 0) (by omega) (Nat.le_refl 0)
  have hgt : ¬ sna32gt a.cumulativeTsnAckPoint a.cumulativeTsnAckPoint = true := by
    rw [sna32gt_iff, Serial.dist_self]
    omega
  unfold raiseAckPoint
  rw [if_pos huse]
  dsimp only
  rw [if_pos hlt]
  unfold advanceAckPoint
  dsimp only
  rw [htsns]
  exact if_neg hgt

/-- The chunk in flight is gone, and its byte is released. -/
theorem acknowledged (h : a.Traffic 1 m w r) (hw' : w + 1 < 2 ^ 32) {q : PayloadQueue}
    (hwindow : q.Window (a.cumulativeTsnAckPoint + 1) 0) (hbytes : q.nBytes = 0) (rwnd : U32) :
    { a with
      inflightQueue := q
      cumulativeTsnAckPoint := a.cumulativeTsnAckPoint + 1
      cwnd := if 0 < m then a.cwnd + 1 else a.cwnd
      rwnd
      objects := a.objects.modify 0 fun s => (s.onBufferReleased 1).1
      advancedPeerTsnAckPoint := a.cumulativeTsnAckPoint + 1
        }.Traffic 0 m (if 0 < m then w + 1 else w) rwnd.toNat := by
  have hget : ∀ t, q.get t = none := fun t => hwindow.get_eq_none (by omega) (by omega)
  refine { h with object := ?_, next := ?_, point := rfl, cwnd := ?_, rwnd := rfl,
                  spans := hwindow.spans (by omega), window := fun _ => hwindow, inflight := ?_,
                  bytes := hbytes }
  · obtain ⟨s, hs, hgives⟩ := h.object
    refine ⟨(s.onBufferReleased 1).1, ?_, ?_⟩
    · show (a.objects.modify 0 fun s => (s.onBufferReleased 1).1)[0]? = _
      rw [List.getElem?_modify, hs]
      rfl
    · unfold Stream.onBufferReleased
      rw [if_neg (by omega)]
      exact { hgives with }
  · show a.myNextTsn = (a.cumulativeTsnAckPoint.after 1).after 1
    rw [h.next, after_add]
  · have hw₀ := h.cwnd
    show (if 0 < m then a.cwnd + 1 else a.cwnd).toNat = if 0 < m then w + 1 else w
    split
    · rw [BitVec.toNat_add, hw₀]
      exact Nat.mod_eq_of_lt hw'
    · exact hw₀
  · intro t c hc
    have hc' : q.get t = some c := hc
    rw [hget t] at hc'
    cases hc'

/-- What the SACK for the only chunk in flight, which has one byte, makes of the state before it
takes the point along. -/
def ackByte (a : AssociationInternal) (q : PayloadQueue) (rwnd : U32) : AssociationInternal :=
  { { a with
      inflightQueue := q
      cumulativeTsnAckPoint := a.cumulativeTsnAckPoint + 1 }.onCumulativeTsnAckPointAdvanced 1 with
    rwnd
    objects := a.objects.modify 0 fun s => (s.onBufferReleased 1).1 }

theorem ackByte_eq (a : AssociationInternal) (q : PayloadQueue) (rwnd : U32) :
    ∃ t3rtx cwnd partialBytesAcked, ackByte a q rwnd = { a with
      inflightQueue := q
      cumulativeTsnAckPoint := a.cumulativeTsnAckPoint + 1
      t3rtx
      cwnd
      partialBytesAcked
      rwnd
      objects := a.objects.modify 0 fun s => (s.onBufferReleased 1).1 } := by
  obtain ⟨t3rtx, cwnd, credit, heq⟩ := onCumulativeTsnAckPointAdvanced_eq { a with
    inflightQueue := q
    cumulativeTsnAckPoint := a.cumulativeTsnAckPoint + 1 } 1
  unfold ackByte
  rw [heq]
  exact ⟨t3rtx, cwnd, credit, rfl⟩

/-- `apply_sack` after the chunk has been taken out, told of the state before. -/
theorem traffic_applySack {q : PayloadQueue}
    (htraffic : a'.traffic = { a with inflightQueue := q }.traffic)
    (hstream : a.streams.lookup 1 = some 0) (hbytes : q.nBytes = 0) {d : ChunkSelectiveAck}
    (hd : d.cumulativeTsnAck = a.cumulativeTsnAckPoint + 1) :
    (a'.applySack d (BytesAcked.add ∅ 1 1)).traffic =
      (ackByte a q d.advertisedReceiverWindowCredit).traffic := by
  have hcum : a'.cumulativeTsnAckPoint = a.cumulativeTsnAckPoint :=
    (congrArg cumulativeTsnAckPoint htraffic :)
  have hqueue : a'.inflightQueue = q := (congrArg inflightQueue htraffic :)
  have hobjects : a'.objects = a.objects := (congrArg objects htraffic :)
  have hstreams : a'.streams = a.streams := (congrArg streams htraffic :)
  have happly := applySack_byte (a := a') (d := d) (by rw [hd, hcum]) (by rw [hstreams, hstream])
    (by rw [hqueue, hbytes])
  generalize hx : { a' with cumulativeTsnAckPoint := d.cumulativeTsnAck
    }.onCumulativeTsnAckPointAdvanced 1 = x at happly
  have hadvanced : x.traffic = ({ a with
      inflightQueue := q
      cumulativeTsnAckPoint := a.cumulativeTsnAckPoint + 1
        }.onCumulativeTsnAckPointAdvanced 1).traffic := by
    rw [← hx, traffic_onCumulativeTsnAckPointAdvanced, hd]
    show ({ a'.traffic with cumulativeTsnAckPoint := a.cumulativeTsnAckPoint + 1
      }.onCumulativeTsnAckPointAdvanced 1).traffic = _
    rw [htraffic]
    exact (traffic_onCumulativeTsnAckPointAdvanced { a with
      inflightQueue := q
      cumulativeTsnAckPoint := a.cumulativeTsnAckPoint + 1 } 1).symm
  rw [happly, hobjects]
  exact (congrArg (fun t : AssociationInternal => { t with
    rwnd := d.advertisedReceiverWindowCredit
    objects := a.objects.modify 0 fun s => (s.onBufferReleased 1).1 }) hadvanced :)

/-- Nothing is in flight: no TSN is reported missing, and the point follows. -/
theorem afterwards_eq (hcalm : a.inFastRecovery = false) (huse : a.useForwardTsn = true)
    (hbehind : a.advancedPeerTsnAckPoint + 1 = a.cumulativeTsnAckPoint)
    (hwindow : a.inflightQueue.Window a.cumulativeTsnAckPoint 0) (advanced : Bool) :
    a.processFastRetransmission a.cumulativeTsnAckPoint a.cumulativeTsnAckPoint advanced =
        (a, .ok ()) ∧
      a.raiseAckPoint.postprocessSack .established =
        { a with advancedPeerTsnAckPoint := a.cumulativeTsnAckPoint } := by
  have hempty : a.inflightQueue.isEmpty = true := hwindow.isEmpty_iff.mpr rfl
  refine ⟨processFastRetransmission_eq hcalm _ _, ?_⟩
  rw [raiseAckPoint_eq huse hbehind hwindow]
  unfold postprocessSack
  dsimp only
  rw [hempty]
  rfl

/-- A SACK for the only chunk in flight, which has one byte. -/
theorem handleSack_byte {q : PayloadQueue} {c : ChunkPayloadData} (hstate : a.state = .established)
    (huse : a.useForwardTsn = true) (hpoint : a.advancedPeerTsnAckPoint = a.cumulativeTsnAckPoint)
    (hcalm : a.inFastRecovery = false) (hstream : a.streams.lookup 1 = some 0)
    (hpop : a.inflightQueue.pop (a.cumulativeTsnAckPoint + 1) = (q, some c))
    (hone : OneByte a.flags c) (hsince : c.since = 0)
    (hwindow : q.Window (a.cumulativeTsnAckPoint + 1) 0) (hbytes : q.nBytes = 0) (rwnd : U32) :
    let s := a.handleSack 0 ⟨a.cumulativeTsnAckPoint + 1, rwnd, [], []⟩
    s.2.isOk = true ∧ s.1.traffic = { ackByte a q rwnd with
      advancedPeerTsnAckPoint := a.cumulativeTsnAckPoint + 1 }.traffic := by
  obtain ⟨a₁, hack, htraffic⟩ := processSelectiveAck_byte hpop hone hsince hcalm rwnd
  obtain ⟨d, hd⟩ : ∃ d : ChunkSelectiveAck, d = ⟨a.cumulativeTsnAckPoint + 1, rwnd, [], []⟩ :=
    ⟨_, rfl⟩
  have hdcum : d.cumulativeTsnAck = a.cumulativeTsnAckPoint + 1 := by rw [hd]
  have hdrwnd : d.advertisedReceiverWindowCredit = rwnd := by rw [hd]
  rw [← hd] at hack
  have hsame := traffic_applySack htraffic hstream hbytes hdcum
  rw [hdrwnd] at hsame
  generalize hs : a₁.applySack d (BytesAcked.add ∅ 1 1) = s at hsame
  obtain ⟨hscum, hsqueue, hscalm, hsuse, hspoint⟩ :
      s.cumulativeTsnAckPoint = a.cumulativeTsnAckPoint + 1 ∧ s.inflightQueue = q ∧
      s.inFastRecovery = false ∧ s.useForwardTsn = true ∧
      s.advancedPeerTsnAckPoint = a.cumulativeTsnAckPoint := by
    obtain ⟨t3rtx, cwnd, credit, heq⟩ := ackByte_eq a q rwnd
    rw [heq] at hsame
    exact ⟨(congrArg cumulativeTsnAckPoint hsame :), (congrArg inflightQueue hsame :),
      (congrArg inFastRecovery hsame :).trans hcalm, (congrArg useForwardTsn hsame :).trans huse,
      (congrArg advancedPeerTsnAckPoint hsame :).trans hpoint⟩
  obtain ⟨hfast, hafter⟩ := afterwards_eq hscalm hsuse (by rw [hspoint, hscum])
    (by rw [hsqueue, hscum]; exact hwindow)
    (sna32lt a.cumulativeTsnAckPoint (a.cumulativeTsnAckPoint + 1))
  have hpoint' : { s with advancedPeerTsnAckPoint := s.cumulativeTsnAckPoint } =
      { s with advancedPeerTsnAckPoint := a.cumulativeTsnAckPoint + 1 } :=
    congrArg (fun t => { s with advancedPeerTsnAckPoint := t }) hscum
  rw [hscum] at hfast
  have hgt : ¬ sna32gt a.cumulativeTsnAckPoint d.cumulativeTsnAck = true := by
    have hdist := dist_after a.cumulativeTsnAckPoint (k := 1) (by omega)
    have hnext : a.cumulativeTsnAckPoint.after 1 = d.cumulativeTsnAck := hdcum.symm
    rw [sna32gt_iff, ← hnext, hdist]
    omega
  have heq : a.handleSack 0 d =
      ({ s with advancedPeerTsnAckPoint := a.cumulativeTsnAckPoint + 1 }, .ok []) := by
    unfold handleSack
    dsimp only
    rw [if_neg (by simp [hstate]), if_neg hgt, hack]
    dsimp only
    rw [hs, hdcum, hfast]
    dsimp only
    rw [hstate, hafter, hpoint']
  rw [← hd, heq]
  refine ⟨rfl, ?_⟩
  exact (congrArg (fun t : AssociationInternal =>
    { t with advancedPeerTsnAckPoint := a.cumulativeTsnAckPoint + 1 }) hsame :)

/-- **One round more.** The SACK for the one chunk in flight opens the congestion window by a
byte, unless nothing is pending. -/
theorem sack (h : a.Traffic 1 m w r) (hw : 0 < w) (hw' : w + 1 < 2 ^ 32) (rwnd : U32) :
    let s := a.handleSack 0 ⟨a.cumulativeTsnAckPoint + 1, rwnd, [], []⟩
    s.1.Traffic 0 m (if 0 < m then w + 1 else w) rwnd.toNat ∧ s.2.isOk = true ∧
      s.1.cumulativeTsnAckPoint = a.cumulativeTsnAckPoint + 1 := by
  obtain ⟨c, q, hpop, hget, hwindow, _⟩ := (h.window (by omega)).pop
  obtain ⟨hone, _, hsince⟩ := h.inflight _ c hget
  have hbytes : q.nBytes = 0 := by
    have hn := PayloadQueue.nBytes_pop hpop
    rw [h.bytes, hone.length] at hn
    exact hn
  obtain ⟨hok, htraffic⟩ := handleSack_byte h.state h.uses h.point h.calm.1 h.stream hpop hone hsince
    hwindow hbytes rwnd
  have hslow := traffic_slowStart (a := { a with
    inflightQueue := q
    cumulativeTsnAckPoint := a.cumulativeTsnAckPoint + 1 }) h.ssthresh h.calm.1
    (by rw [h.cwnd]; exact hw)
  dsimp only at hslow
  rw [h.pendingLen] at hslow
  -- what the SACK does, with the window opened
  have hsame := htraffic.trans (congrArg (fun t : AssociationInternal => { t with
    rwnd
    objects := a.objects.modify 0 fun s => (s.onBufferReleased 1).1
    advancedPeerTsnAckPoint := a.cumulativeTsnAckPoint + 1 }) hslow :)
  refine ⟨?_, hok, (congrArg cumulativeTsnAckPoint hsame :)⟩
  exact (h.acknowledged hw' hwindow hbytes rwnd).congr hsame

/-! ## The timeout -/

/-- All that is in flight is abandoned, so the timeout takes the point behind all of it. -/
theorem t3Rtx (h : a.Traffic n m w r) (hn : n < 2 ^ 32) :
    a.onT3RtxTimeout.advancedPeerTsnAckPoint = a.cumulativeTsnAckPoint.after n ∧
      a.onT3RtxTimeout.cumulativeTsnAckPoint = a.cumulativeTsnAckPoint := by
  -- by induction on how much of the window is left
  have hskip : ∀ k ≤ n, skipAbandoned a.inflightQueue a.flags (a.cumulativeTsnAckPoint.after k)
      (tsnWindow (a.cumulativeTsnAckPoint.after k) (n - k)) = a.cumulativeTsnAckPoint.after n := by
    intro k hk
    induction hd : n - k generalizing k with
    | zero =>
      rw [show n = k by omega]
      rfl
    | succ d ih =>
      have hmem : a.cumulativeTsnAckPoint.after (k + 1) ∈ a.inflightQueue.chunkMap := by
        rw [h.spans.mem, dist_after _ (by omega)]
        omega
      obtain ⟨c, hc⟩ : ∃ c, a.inflightQueue.get (a.cumulativeTsnAckPoint.after (k + 1)) = some c :=
        Option.isSome_iff_exists.mp (AList.lookup_isSome.mpr hmem)
      rw [tsnWindow_succ_left, skipAbandoned, after_succ, hc]
      dsimp only
      rw [if_pos (h.inflight _ c hc).2.1]
      exact ih (k + 1) (by omega) (by omega)
  have htsns := h.spans.tsnsFrom_eq hn (Nat.zero_le n)
  have hall := hskip 0 (Nat.zero_le n)
  rw [← htsns, ← after_succ, after_zero] at hall
  unfold onT3RtxTimeout
  dsimp only
  rw [if_pos h.uses]
  unfold advanceAckPoint
  dsimp only
  rw [h.point]
  split
  · exact ⟨hall, rfl⟩
  · exact ⟨hall, rfl⟩

/-! ## Runs -/

/-- More and more is pending. -/
theorem writes (h : a.Traffic n m w r) (x : Byte) (k : ℕ) :
    (Runs.run senderStep a (List.replicate k (.write 0 [x] .binary))).Traffic n (m + k) w r := by
  induction k generalizing a m with
  | zero => exact h
  | succ k ih =>
    rw [List.replicate_succ, Runs.run_cons, show m + (k + 1) = m + 1 + k by omega]
    exact ih (h.write x)

/-- The pending message is sent, the next one is written, and the SACK for the first arrives,
which keeps the peer's window wide open. -/
def round (cumulativeTsnAck : U32) : List SenderOp :=
  [.gather 0, .write 0 [0] .binary, .sack 0 ⟨cumulativeTsnAck, 0xffffffff, [], []⟩]

/-- Rounds in which the peer acknowledges the TSNs that follow `tsn`. -/
def rounds (tsn : U32) (k : ℕ) : List SenderOp :=
  (List.range k).flatMap fun i => round (tsn.after (i + 1))

theorem round_run (h : a.Traffic 0 1 w (2 ^ 32 - 1)) (hw : 0 < w) (hw' : w + 1 < 2 ^ 32) :
    let ops := round (a.cumulativeTsnAckPoint + 1)
    let s := Runs.run senderStep a ops
    s.Traffic 0 1 (w + 1) (2 ^ 32 - 1) ∧ s.cumulativeTsnAckPoint = a.cumulativeTsnAckPoint + 1 ∧
      Runs.Along senderStep Accepted a ops := by
  have hsent := h.gather (by omega) hw (by omega) (by omega)
  have hwritten := hsent.write 0
  rw [show 0 + 1 = 1 by rfl] at hwritten
  have hcum : ((a.gatherOutbound 0).1.writeSctp 0 [0] .binary).1.cumulativeTsnAckPoint =
      a.cumulativeTsnAckPoint := by
    obtain ⟨flags, pendingQueue, objects, heq⟩ :=
      (a.gatherOutbound 0).1.writeSctp_eq 0 [0] .binary
    rw [heq]
    exact a.cumulativeTsnAckPoint_gatherOutbound 0
  obtain ⟨htraffic, hok, hacked⟩ := hwritten.sack hw hw' 0xffffffff
  rw [hcum] at htraffic hok hacked
  rw [if_pos (by omega)] at htraffic
  exact ⟨htraffic, hacked, ⟨trivial, trivial⟩, ⟨trivial, trivial⟩, ⟨trivial, hok⟩, trivial⟩

theorem rounds_run (h : a.Traffic 0 1 w (2 ^ 32 - 1)) (hw : 0 < w) {k : ℕ}
    (hk : w + k < 2 ^ 32) :
    let ops := rounds a.cumulativeTsnAckPoint k
    let s := Runs.run senderStep a ops
    s.Traffic 0 1 (w + k) (2 ^ 32 - 1) ∧
      s.cumulativeTsnAckPoint = a.cumulativeTsnAckPoint.after k ∧
      Runs.Along senderStep Accepted a ops := by
  induction k with
  | zero => exact ⟨h, (after_zero _).symm, trivial⟩
  | succ k ih =>
    obtain ⟨htraffic, hcum, halong⟩ := ih (by omega)
    have hnext := htraffic.round_run (by omega) (by omega)
    have hsplit : rounds a.cumulativeTsnAckPoint (k + 1) =
        rounds a.cumulativeTsnAckPoint k ++ round (a.cumulativeTsnAckPoint.after (k + 1)) := by
      unfold rounds
      rw [List.range_succ, List.flatMap_append, List.flatMap_singleton]
    dsimp only at hnext ⊢
    rw [hcum, after_succ] at hnext
    rw [hsplit, Runs.run_append, Runs.along_append]
    exact ⟨hnext.1, hnext.2.1, halong, hnext.2.2⟩

/-- A flood: the congestion window is opened for `k` rounds, then `k` messages more are written
and sent with the one that is pending, and the timeout comes. -/
def flood (tsn : U32) (k : ℕ) : List SenderOp :=
  rounds tsn k ++ (List.replicate k (.write 0 [0] .binary) ++ [.gather 0, .t3Rtx])

/-- The point is `k + 1` behind the ack point then. -/
theorem flood_run (h : a.Traffic 0 1 w (2 ^ 32 - 1)) (hw : 0 < w) {k : ℕ}
    (hk : w + k < 2 ^ 32) :
    let ops := flood a.cumulativeTsnAckPoint k
    let s := Runs.run senderStep a ops
    s.advancedPeerTsnAckPoint = s.cumulativeTsnAckPoint.after (k + 1) ∧
      Runs.Along senderStep Accepted a ops := by
  obtain ⟨htraffic, _, halong⟩ := h.rounds_run hw hk
  have hwritten := htraffic.writes 0 k
  have hsent := hwritten.gather (by omega) (by omega) (by omega) (by omega)
  have htimeout := hsent.t3Rtx (by omega)
  have halongWrites : ∀ (b : AssociationInternal) (l : ℕ), Runs.Along senderStep Accepted b
      (List.replicate l (.write 0 [0] .binary)) := by
    intro b l
    induction l generalizing b with
    | zero => trivial
    | succ l ih => exact ⟨⟨trivial, trivial⟩, ih _⟩
  intro ops s
  have hs : s = ((Runs.run senderStep (Runs.run senderStep a (rounds a.cumulativeTsnAckPoint k))
      (List.replicate k (.write 0 [0] .binary))).gatherOutbound 0).1.onT3RtxTimeout := by
    show Runs.run senderStep a (flood a.cumulativeTsnAckPoint k) = _
    unfold flood
    rw [Runs.run_append, Runs.run_append]
    rfl
  refine ⟨?_, ?_⟩
  · rw [hs, htimeout.1, htimeout.2, Nat.add_comm 1 k]
  · show Runs.Along senderStep Accepted a (flood a.cumulativeTsnAckPoint k)
    unfold flood
    rw [Runs.along_append, Runs.along_append]
    exact ⟨halong, halongWrites _ k, ⟨trivial, trivial⟩, ⟨trivial, trivial⟩, trivial⟩

end Traffic

end AssociationInternal

end Sctp
