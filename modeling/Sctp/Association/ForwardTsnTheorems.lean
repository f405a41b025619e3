import Sctp.Association.EmissionTheorems
import Sctp.Association.FlowTheorems
import Sctp.Association.OneByteTraffic

/-!
# What a FORWARD TSN skips

The point for FORWARD TSNs goes over chunks in flight that are abandoned. A chunk counts as
abandoned only when the last fragment of its message is in flight too, and messages go into
flight one behind the other; so the point never stops within a message.
-/

namespace Sctp

/-- Every chunk in the queue is one of a message held there. -/
theorem PendingQueue.Holds.mem_message {q : PendingQueue} {current : Option (Message × ℕ)}
    {waiting : Bool → List Message} (h : q.Holds current waiting) {c : ChunkPayloadData}
    (hc : c ∈ q.unorderedQueue ++ q.orderedQueue) :
    (∃ m k, current = some (m, k) ∧ c ∈ m.chunks) ∨ ∃ u, ∃ m ∈ waiting u, c ∈ m.chunks := by
  obtain ⟨u, hu⟩ : ∃ u, c ∈ PendingQueue.queueOf q u := by
    rcases List.mem_append.mp hc with hc | hc
    · exact ⟨true, hc⟩
    · exact ⟨false, hc⟩
  rw [h.queue u, List.mem_append] at hu
  rcases hu with hu | hu
  · refine Or.inl ?_
    split at hu
    · match current, hu with
      | some (m, k), hu => exact ⟨m, k, rfl, List.mem_of_mem_drop hu⟩
    · cases hu
  · obtain ⟨m, hm, hcm⟩ := List.mem_flatMap.mp hu
    exact Or.inr ⟨u, m, hm, hcm⟩

namespace AssociationInternal

variable {a a' : AssociationInternal} {n k : ℕ} {current : Option (Message × ℕ)}
  {waiting : Bool → List Message}

/-- Whether the chunk in flight `j` behind the ack point is abandoned. -/
def abandonedAt (a : AssociationInternal) (j : ℕ) : Bool :=
  a.flags.load (a.cellAt j) && a.flags.load (a.cellAt j + 1)

namespace Flow

theorem abandonedAt_eq (h : a.Flow n current waiting) {j : ℕ} {c : ChunkPayloadData}
    (hc : a.inflightQueue.get (a.cumulativeTsnAckPoint.after j) = some c) :
    a.abandonedAt j = c.isAbandoned a.flags := by
  have hcell := (h.cells _ c hc).1
  unfold abandonedAt cellAt ChunkPayloadData.isAbandoned
  rw [hc, hcell]
  rfl

/-- Abandoned chunks are followed by the rest of their message. -/
theorem endsAt_of_abandonedAt (h : a.Flow n current waiting) {j : ℕ} (hj : 0 < j) (hjn : j ≤ n)
    (habandoned : a.abandonedAt j = true) (hnext : j < n → a.abandonedAt (j + 1) = false) :
    a.endsAt j = true := by
  by_contra hends
  rw [Bool.not_eq_true] at hends
  rcases Nat.lt_or_ge j n with hlt | hge
  · have hcell := h.follows j hj hlt hends
    have hfalse := hnext hlt
    unfold abandonedAt at habandoned hfalse
    rw [hcell, habandoned] at hfalse
    cases hfalse
  · -- the rest is pending, so `all_inflight` is not set
    have hjn' : j = n := by omega
    subst hjn'
    obtain ⟨m, k, hcur, hm⟩ := h.open_ hj hends
    have hunset := (h.unsent m (by rw [hcur]; exact List.mem_cons_self ..)).unset
    unfold abandonedAt at habandoned
    rw [← hm, hunset, Bool.and_false] at habandoned
    cases habandoned

end Flow

/-- The point for FORWARD TSNs is `k` behind the ack point: over abandoned chunks and up to the
end of a message. -/
structure Skips (a : AssociationInternal) (k : ℕ) : Prop where
  point : a.advancedPeerTsnAckPoint = a.cumulativeTsnAckPoint.after k
  abandoned : ∀ j, 0 < j → j ≤ k → a.abandonedAt j = true
  ends : 0 < k → a.endsAt k = true

/-- The loop over the abandoned chunks that follow the point. -/
theorem Flow.skipAbandoned_eq (h : a.Flow n current waiting) (hn : n < 2 ^ 31) (hk : k ≤ n) :
    ∃ l, k ≤ l ∧ l ≤ n ∧ (∀ j, k < j → j ≤ l → a.abandonedAt j = true) ∧
      (l < n → a.abandonedAt (l + 1) = false) ∧
      skipAbandoned a.inflightQueue a.flags (a.cumulativeTsnAckPoint.after k)
        (tsnWindow (a.cumulativeTsnAckPoint.after k) (n - k)) = a.cumulativeTsnAckPoint.after l := by
  induction hd : n - k generalizing k with
  | zero => exact ⟨k, Nat.le_refl k, hk, fun j hj hjk => absurd hj (by omega), by omega, rfl⟩
  | succ d ih =>
    obtain ⟨c, hc, _⟩ := h.toSending.chunkAt hn (j := k + 1) (by omega) (by omega)
    have habandoned := h.abandonedAt_eq hc
    rw [tsnWindow_succ_left, skipAbandoned, after_succ, hc]
    dsimp only
    by_cases hab : c.isAbandoned a.flags = true
    · rw [if_pos hab]
      obtain ⟨l, hkl, hln, hall, hstop, heq⟩ := ih (k := k + 1) (by omega) (by omega)
      refine ⟨l, by omega, hln, ?_, hstop, heq⟩
      intro j hj hjl
      rcases Nat.lt_or_ge (k + 1) j with hlt | hge
      · exact hall j hlt hjl
      · have hjk : j = k + 1 := by omega
        rw [hjk, habandoned, hab]
    · rw [if_neg hab]
      rw [Bool.not_eq_true] at hab
      exact ⟨k, Nat.le_refl k, hk, fun j hj hjk => absurd hj (by omega),
        fun _ => by rw [habandoned, hab], rfl⟩

namespace Skips

/-- The point stays what it was when flags are raised and chunks are added behind. -/
theorem congr (h : a.Skips k) (hpoint : a'.advancedPeerTsnAckPoint = a.advancedPeerTsnAckPoint)
    (hcum : a'.cumulativeTsnAckPoint = a.cumulativeTsnAckPoint)
    (hflags : ∀ x, a.flags.load x = true → a'.flags.load x = true)
    (hat : ∀ j, 0 < j → j ≤ k → a'.cellAt j = a.cellAt j ∧ a'.endsAt j = a.endsAt j) :
    a'.Skips k where
  point := by rw [hpoint, hcum, h.point]
  abandoned j hj hjk := by
    have hab := h.abandoned j hj hjk
    unfold abandonedAt at hab ⊢
    rw [Bool.and_eq_true] at hab ⊢
    rw [(hat j hj hjk).1]
    exact ⟨hflags _ hab.1, hflags _ hab.2⟩
  ends hk := by
    rw [(hat k hk (Nat.le_refl k)).2]
    exact h.ends hk

/-- RFC 3758 C2 and C3 move the point on to the end of a message. -/
theorem advance (h : a.Skips k) (hflow : a.Flow n current waiting) (hn : n < 2 ^ 31)
    (hk : k ≤ n) : ∃ l ≤ n, a.advanceAckPoint.Skips l := by
  obtain ⟨l, hkl, hln, hall, hstop, heq⟩ := hflow.skipAbandoned_eq hn hk
  have htsns := hflow.toSending.window.tsnsFrom (by omega) hk
  have hpoint : a.advanceAckPoint.advancedPeerTsnAckPoint = a.cumulativeTsnAckPoint.after l := by
    rw [← heq, ← htsns, ← after_succ, ← h.point]
    unfold advanceAckPoint
    dsimp only
    split <;> rfl
  have hsame : a.advanceAckPoint.cumulativeTsnAckPoint = a.cumulativeTsnAckPoint ∧
      a.advanceAckPoint.flags = a.flags ∧ a.advanceAckPoint.inflightQueue = a.inflightQueue := by
    unfold advanceAckPoint
    dsimp only
    split <;> exact ⟨rfl, rfl, rfl⟩
  have habandoned : ∀ j, 0 < j → j ≤ l → a.abandonedAt j = true := by
    intro j hj hjl
    rcases Nat.lt_or_ge k j with hlt | hge
    · exact hall j hlt hjl
    · exact h.abandoned j hj hge
  refine ⟨l, hln, ?_, ?_, ?_⟩
  · rw [hpoint, hsame.1]
  · unfold abandonedAt cellAt
    rw [hsame.1, hsame.2.1, hsame.2.2]
    exact habandoned
  · intro hl
    unfold endsAt
    rw [hsame.1, hsame.2.2]
    exact hflow.endsAt_of_abandonedAt hl hln (habandoned l hl (Nat.le_refl l)) hstop

/-- The point of a SACK: behind what is acknowledged it is raised to the ack point. -/
theorem raise (huse : a.useForwardTsn = true) (hflow : a.Flow n current waiting) (hn : n < 2 ^ 31)
    (h : (∃ l, 0 < l ∧ l < 2 ^ 31 ∧ a.advancedPeerTsnAckPoint.after l = a.cumulativeTsnAckPoint) ∨
      ∃ k ≤ n, a.Skips k) :
    ∃ l ≤ n, a.raiseAckPoint.Skips l := by
  unfold raiseAckPoint
  rw [if_pos huse]
  dsimp only
  by_cases hlt : sna32lt a.advancedPeerTsnAckPoint a.cumulativeTsnAckPoint = true
  · rw [if_pos hlt]
    have hflow' : Flow { a with advancedPeerTsnAckPoint := a.cumulativeTsnAckPoint } n current
        waiting :=
      hflow.touch (PayloadQueue.Touched.refl _) rfl rfl rfl (Raised.refl _)
    refine advance (k := 0) ?_ hflow' hn (Nat.zero_le n)
    exact ⟨(after_zero _).symm, fun j hj hj0 => absurd hj (by omega),
      fun h0 => absurd h0 (Nat.lt_irrefl 0)⟩
  · rw [if_neg hlt]
    rcases h with ⟨l, hl, hl', heq⟩ | ⟨k, hk, h⟩
    · exfalso
      refine hlt ?_
      rw [sna32lt_iff, ← heq, dist_after _ (by omega)]
      omega
    · exact advance h hflow hn hk

end Skips

/-- What the point means. -/
theorem Flow.skipsWholeMessages (h : a.Flow n current waiting) (hn : n < 2 ^ 31) (hk : k ≤ n)
    (hs : a.Skips k) : a.SkipsWholeMessages a.advancedPeerTsnAckPoint := by
  have hpoint : Serial.dist a.cumulativeTsnAckPoint a.advancedPeerTsnAckPoint = k := by
    rw [hs.point, dist_after _ (by omega)]
  -- a message that goes on behind position `j` does not end there
  have hopen : ∀ i j l, 0 < i → i ≤ j → j < l → l ≤ n → a.cellAt i = a.cellAt l →
      a.endsAt j = false := by
    intro i j l hi hij hjl hln heq
    exact (h.together i l hi (by omega) hln heq j hij hjl).2
  refine ⟨?_, ?_⟩
  · refine @not_sna32lt_of_dist_le a.cumulativeTsnAckPoint _ _ ?_ ?_
    · rw [Serial.dist_self]
      exact Nat.zero_le _
    · omega
  · intro t ht htk
    rw [hpoint] at htk
    have hafter := after_dist a.cumulativeTsnAckPoint t
    obtain ⟨c, hc, hcell, _⟩ := h.toSending.chunkAt hn ht (by omega)
    have hab := h.abandonedAt_eq hc
    rw [hs.abandoned _ ht htk] at hab
    rw [hafter] at hc
    have hends := hs.ends (by omega)
    refine ⟨c, hc, hab.symm, ?_, ?_⟩
    · intro t' c' hc' heq
      rw [hpoint]
      by_contra hlt
      have hmem : t' ∈ a.inflightQueue.chunkMap := by
        rw [← AList.lookup_isSome]
        show (a.inflightQueue.get t').isSome = true
        rw [hc']
        rfl
      rw [h.toSending.window.mem_window (by omega)] at hmem
      have hcell' : a.cellAt (Serial.dist a.cumulativeTsnAckPoint t') = c'.abandoned := by
        unfold cellAt
        rw [after_dist, hc']
        rfl
      rw [hopen _ k _ ht htk (by omega) hmem.2 (by rw [hcell, hcell', heq])] at hends
      cases hends
    · intro c' hc' heq
      rcases h.holds.mem_message hc' with ⟨m, l, hcur, hm⟩ | ⟨u, m, hm, hcm⟩
      · have hshares := (h.unsent m (by rw [hcur]; exact List.mem_cons_self ..)).shares c' hm
        have hlast := h.last m l hcur _ ht (by omega) (by rw [hcell, ← heq, hshares.1])
        rcases Nat.lt_or_ge k n with hkn | hkn
        · rw [hopen _ k n ht htk hkn (Nat.le_refl n)
            (by rw [hcell, ← heq, hshares.1, hlast.1])] at hends
          cases hends
        · rw [show k = n by omega, hlast.2] at hends
          cases hends
      · have hshares := (h.unsent m (mem_pendingMessages hm)).shares c' hcm
        exact h.fresh t c hc u m hm (by rw [← hshares.1, heq])

/-! ## The invariant -/

/-- What writing and forwarding rely on from the start. -/
structure Equipped (a : AssociationInternal) : Prop where
  uses : a.useForwardTsn = true
  control : emits Chunk.isForwardTsn a.controlQueue = false
  size : 0 < a.maxPayloadSize.toNat
  sizes : ∀ s ∈ a.objects, 0 < s.maxPayloadSize.toNat

theorem Equipped.congr (h : a.Equipped) (huse : a'.useForwardTsn = a.useForwardTsn)
    (hcontrol : a'.controlQueue = a.controlQueue)
    (hmax : a'.maxPayloadSize = a.maxPayloadSize)
    (hobjects : a'.objects.map Stream.frame = a.objects.map Stream.frame) : a'.Equipped where
  uses := by rw [huse, h.uses]
  control := by rw [hcontrol, h.control]
  size := by
    rw [hmax]
    exact h.size
  sizes s hs := by
    have hmem : s.frame ∈ a.objects.map Stream.frame := by
      rw [← hobjects]
      exact List.mem_map_of_mem hs
    obtain ⟨s', hs', heq⟩ := List.mem_map.mp hmem
    have hsize : s'.maxPayloadSize = s.maxPayloadSize := (congrArg Stream.maxPayloadSize heq :)
    rw [← hsize]
    exact h.sizes s' hs'

theorem Equipped.of_frame (h : a.Equipped) (hframe : a'.frame = a.frame) : a'.Equipped :=
  h.congr (congrArg useForwardTsn hframe :) (congrArg controlQueue hframe :)
    (congrArg maxPayloadSize hframe :) (congrArg objects hframe :)

/-- With `n` chunks in flight, the point for FORWARD TSNs is `k` behind the ack point. -/
structure Forwarding (a : AssociationInternal) (n k : ℕ) (current : Option (Message × ℕ))
    (waiting : Bool → List Message) : Prop extends
    a.Flow n current waiting, a.Skips k, a.Equipped where
  lt : n < 2 ^ 31
  le : k ≤ n

/-- The invariant of the runs. -/
def Forwards (a : AssociationInternal) : Prop :=
  ∃ n k current waiting, a.Forwarding n k current waiting

namespace Forwarding

/-- Bookkeeping of the chunks and raised flags do not matter. -/
theorem touch (h : a.Forwarding n k current waiting)
    (hq : a.inflightQueue.Touched a'.inflightQueue)
    (hcum : a'.cumulativeTsnAckPoint = a.cumulativeTsnAckPoint) (hnext : a'.myNextTsn = a.myNextTsn)
    (hpending : a'.pendingQueue = a.pendingQueue) (hraised : Raised a.flags a'.flags)
    (hpoint : a'.advancedPeerTsnAckPoint = a.advancedPeerTsnAckPoint) (hequipped : a'.Equipped) :
    a'.Forwarding n k current waiting :=
  ⟨h.toFlow.touch hq hcum hnext hpending hraised,
    h.toSkips.congr hpoint hcum hraised.mono fun j _ _ => at_touched hq hcum j,
    hequipped, h.lt, h.le⟩

/-- Only messages with chunks in flight are given up while they are sent again. -/
theorem raised_of_abandons (h : a.Forwarding n k current waiting) {flags : SharedFlags}
    (habandons : Abandons a.inflightQueue a.flags flags) : Raised a.flags flags where
  length := habandons.1
  mono x hx := by
    rcases habandons.2 x with heq | ⟨hset, _⟩
    · rw [heq, hx]
    · exact hset
  odd x hodd := by
    rcases habandons.2 x with heq | ⟨_, t, c, hc, hcx⟩
    · exact heq
    · have hpair := (h.cells t c hc).2.1
      rw [hcx] at hpair
      omega

/-- Sending again keeps the state of what is forwarded. -/
theorem resend (h : a.Forwarding n k current waiting) (hresend : Resends a a') :
    a'.Forwarding n k current waiting := by
  have hframe := hresend.frame
  have hequipped : { a with flags := a'.flags }.Equipped := ⟨h.uses, h.control,
    h.size, h.sizes⟩
  exact h.touch hresend.touched (congrArg cumulativeTsnAckPoint hframe :)
    (congrArg myNextTsn hframe :) (congrArg pendingQueue hframe :)
    (h.raised_of_abandons hresend.abandons) (congrArg advancedPeerTsnAckPoint hframe :)
    (hequipped.of_frame hframe)

/-- An empty chunk may be taken from the pending queue. -/
theorem drop (h : a.Forwarding n k current waiting) {c : ChunkPayloadData}
    (hpeek : a.pendingQueue.peek = some c) (hc : c.userData = []) :
    Forwards { a with
      pendingQueue := (a.pendingQueue.pop c.beginningFragment c.unordered).1 } := by
  obtain ⟨waiting', hflow⟩ := h.toFlow.drop hpeek hc
  exact ⟨n, k, none, waiting', hflow, ⟨h.point, h.abandoned, h.ends⟩,
    ⟨h.uses, h.control, h.size, h.sizes⟩, h.lt, h.le⟩

/-- The chunk that is peeked goes into flight, which may be too many. -/
theorem move (h : a.Forwarding n k current waiting) {c : ChunkPayloadData} (rwnd : U32) (now : ℕ)
    (hpeek : a.pendingQueue.peek = some c) :
    let a' := ({ a with rwnd }.movePendingDataChunkToInflightQueue now c.beginningFragment
      c.unordered).1
    a'.Forwards ∨ 2 ^ 31 ≤ a'.inflightQueue.len := by
  intro a'
  obtain ⟨m, l, q, hget, hpop, hcases⟩ := h.holds.pop hpeek
  obtain ⟨flags, hflags, heq⟩ := movePending_of_some (a := { a with rwnd }) now hpop
  have ha' : a' = { a with
      rwnd
      pendingQueue := q
      flags
      myNextTsn := a.myNextTsn + 1
      inflightQueue := a.inflightQueue.pushNoCheck (numbered c a.myNextTsn now) } :=
    congrArg Prod.fst heq
  have hcum : a'.cumulativeTsnAckPoint = a.cumulativeTsnAckPoint := by rw [ha']
  have hin : a'.inflightQueue = a.inflightQueue.pushNoCheck (numbered c a.myNextTsn now) := by
    rw [ha']
  have hflags' : a'.flags = flags := by rw [ha']
  obtain ⟨waiting', hheads, hholds⟩ : ∃ waiting', Heads m l current waiting waiting' ∧
      q.Holds (PendingQueue.after m l) waiting' := by
    rcases hcases with ⟨hcur, hholds⟩ | ⟨hcur, hl, ms, hw, hholds⟩
    · exact ⟨waiting, Or.inl ⟨hcur, rfl⟩, hholds⟩
    · exact ⟨_, Or.inr ⟨hcur, hl, ms, hw, rfl⟩, hholds⟩
  have hlt := h.lt
  rcases Nat.lt_or_ge (n + 1) (2 ^ 31) with hn | hn
  · refine Or.inl ⟨n + 1, k, PendingQueue.after m l, waiting', ?_, ?_, ?_, hn,
      Nat.le_succ_of_le h.le⟩
    · refine h.toFlow.move hn hheads hget ?_ ?_ hcum ?_ hin
      · rw [ha']
        exact hholds
      · rw [hflags']
        exact hflags
      · rw [ha']
    · have hunsent := h.unsent m hheads.mem
      have hcell := hunsent.shares c (List.mem_of_getElem? hget)
      refine h.toSkips.congr (by rw [ha']) hcum ?_ ?_
      · rw [hflags']
        exact (flags_of_move hcell hunsent.pair.1 hflags).2.1
      · intro j _ hjk
        exact h.toSending.at_move hn hcum hin (Nat.le_trans hjk h.le)
    · rw [ha']
      exact ⟨h.uses, h.control, h.size, h.sizes⟩
  · have hwindow := h.window.pushNoCheck (p := numbered c a.myNextTsn now) (by omega)
      h.toSending.next
    refine Or.inr ?_
    rw [hin, hwindow.len_eq]
    exact hn

/-- What a `gather_outbound` that ends in bounds keeps. -/
theorem gather (h : a.Forwarding n k current waiting) {now : ℕ}
    (hlen : (a.gatherOutbound now).1.inflightQueue.len < 2 ^ 31) :
    (a.gatherOutbound now).1.Forwards := by
  -- once the queue is too long it stays so
  let P : AssociationInternal → Prop := fun a => a.Forwards ∨ 2 ^ 31 ≤ a.inflightQueue.len
  have hP : P (a.gatherOutbound now).1 := by
    refine gatherOutbound_invariant ?_ ?_ ?_ ?_ ?_ ?_
    · intro a a' hcore hP
      have hq : a'.inflightQueue = a.inflightQueue := (congrArg inflightQueue hcore :)
      have hflags : a'.flags = a.flags := (congrArg flags hcore :)
      have hobjects : a'.objects = a.objects := (congrArg objects hcore :)
      rcases hP with ⟨n, k, current, waiting, h⟩ | hlong
      · refine Or.inl ⟨n, k, current, waiting, h.touch ?_ (congrArg cumulativeTsnAckPoint hcore :)
          (congrArg myNextTsn hcore :) (congrArg pendingQueue hcore :) ?_
          (congrArg advancedPeerTsnAckPoint hcore :) ?_⟩
        · rw [hq]
          exact PayloadQueue.Touched.refl _
        · exact Raised.of_eq hflags
        · exact h.toEquipped.congr (congrArg useForwardTsn hcore :)
            (congrArg controlQueue hcore :) (congrArg maxPayloadSize hcore :) (by rw [hobjects])
      · exact Or.inr (by rw [hq]; exact hlong)
    · intro a a' hresend hP
      rcases hP with ⟨n, k, current, waiting, h⟩ | hlong
      · exact Or.inl ⟨n, k, current, waiting, h.resend hresend⟩
      · exact Or.inr (by rw [hresend.touched.len_eq]; exact hlong)
    · intro a c hpeek hc hP
      rcases hP with ⟨n, k, current, waiting, h⟩ | hlong
      · exact Or.inl (h.drop hpeek hc)
      · exact Or.inr hlong
    · intro a c rwnd hpeek hP
      rcases hP with ⟨n, k, current, waiting, h⟩ | hlong
      · exact h.move rwnd now hpeek
      · exact Or.inr (Nat.le_trans hlong
          (le_len_movePending { a with rwnd } now c.beginningFragment c.unordered))
    · intro a hP
      obtain ⟨shutdown, shutdownAck, shutdownComplete, t2shutdown, heq⟩ :=
        a.gatherOutboundShutdownPackets_eq
      rw [heq]
      rcases hP with ⟨n, k, current, waiting, h⟩ | hlong
      · exact Or.inl ⟨n, k, current, waiting, h.touch (PayloadQueue.Touched.refl _) rfl rfl rfl
          (Raised.refl _) rfl (h.toEquipped.congr rfl rfl rfl rfl)⟩
      · exact Or.inr hlong
    · refine Or.inl ⟨n, k, current, waiting, ?_⟩
      exact h.touch (PayloadQueue.Touched.refl _) rfl rfl rfl (Raised.refl _) rfl
        ⟨h.uses, rfl, h.size, h.sizes⟩
  rcases hP with hP | hlong
  · exact hP
  · omega

/-! ### The other operations -/

/-- The objects may be others, with sizes that are not 0. -/
theorem setObjects (h : a.Forwarding n k current waiting) {objects : List Stream}
    (hobjects : ∀ s ∈ objects, 0 < s.maxPayloadSize.toNat) (streams : AssocMap U16 StreamRef) :
    Forwarding { a with objects, streams } n k current waiting :=
  h.touch (PayloadQueue.Touched.refl _) rfl rfl rfl (Raised.refl _) rfl
    ⟨h.uses, h.control, h.size, hobjects⟩

theorem objects_modify (h : a.Forwarding n k current waiting) (r : StreamRef)
    {f : Stream → Stream} (hf : ∀ s, (f s).maxPayloadSize = s.maxPayloadSize) :
    ∀ s ∈ a.objects.modify r f, 0 < s.maxPayloadSize.toNat := by
  intro s hs
  obtain ⟨i, hi⟩ := List.mem_iff_getElem?.mp hs
  rw [List.getElem?_modify] at hi
  obtain ⟨s₀, hs₀, heq⟩ := Option.map_eq_some_iff.mp hi
  have hpos := h.sizes s₀ (List.mem_of_getElem? hs₀)
  rw [← heq]
  split
  · rw [hf s₀]
    exact hpos
  · exact hpos

theorem objects_set (h : a.Forwarding n k current waiting) {r : StreamRef} {s₀ s₁ : Stream}
    (hs₀ : a.objects[r]? = some s₀) (hs₁ : s₁.maxPayloadSize = s₀.maxPayloadSize) :
    ∀ s ∈ a.objects.set r s₁, 0 < s.maxPayloadSize.toNat := by
  intro s hs
  rcases List.mem_or_eq_of_mem_set hs with hs | rfl
  · exact h.sizes s hs
  · rw [hs₁]
    exact h.sizes s₀ (List.mem_of_getElem? hs₀)

/-- Opening a stream keeps it. -/
theorem openStream (h : a.Forwarding n k current waiting) (si : U16)
    (ppi : PayloadProtocolIdentifier) :
    (a.openStream si ppi).1.Forwarding n k current waiting := by
  cases hlookup : a.streams.lookup si with
  | some r =>
    unfold AssociationInternal.openStream
    rw [hlookup]
    exact h
  | none =>
    have heq : (a.openStream si ppi).1 = { a with
        objects := (a.objects ++ [Stream.new si a.maxPayloadSize]).modify a.objects.length
          (·.setDefaultPayloadType ppi)
        streams := a.streams.insert si a.objects.length } := by
      unfold AssociationInternal.openStream
      rw [hlookup]
      rfl
    have hnew : ∀ s ∈ a.objects ++ [Stream.new si a.maxPayloadSize], 0 < s.maxPayloadSize.toNat := by
      intro s hs
      rw [List.mem_append, List.mem_singleton] at hs
      rcases hs with hs | rfl
      · exact h.sizes s hs
      · exact h.size
    rw [heq]
    refine h.setObjects ?_ _
    exact (h.setObjects hnew a.streams).objects_modify a.objects.length
      (f := (·.setDefaultPayloadType ppi)) fun _ => rfl

/-- New cells, of which nobody knows. -/
theorem alloc (h : a.Forwarding n k current waiting) {objects : List Stream}
    (hobjects : ∀ s ∈ objects, 0 < s.maxPayloadSize.toNat) :
    Forwarding { a with flags := a.flags ++ [false, false], objects } n k current waiting := by
  refine ⟨h.toFlow.alloc objects, ?_, ⟨h.uses, h.control, h.size, hobjects⟩, h.lt, h.le⟩
  refine h.toSkips.congr rfl rfl ?_ fun _ _ _ => ⟨rfl, rfl⟩
  intro x hx
  show SharedFlags.load (a.flags ++ [false, false]) x = true
  rw [SharedFlags.load_alloc, hx]

/-- A message with new cells. -/
theorem push (h : a.Forwarding n k current waiting) {m : Message} (hcell : m.cell = a.flags.length)
    (hshares : m.Shares) (hsend : m.Sendable) {objects : List Stream}
    (hobjects : ∀ s ∈ objects, 0 < s.maxPayloadSize.toNat) :
    Forwarding { a with
      flags := a.flags ++ [false, false]
      pendingQueue := m.chunks.foldl PendingQueue.push a.pendingQueue
      objects } n k current
      (Function.update waiting m.unordered (waiting m.unordered ++ [m])) := by
  have halloc := h.alloc hobjects
  exact ⟨h.toFlow.push hcell hshares hsend objects,
    halloc.toSkips.congr rfl rfl (fun _ hx => hx) fun _ _ _ => ⟨rfl, rfl⟩,
    halloc.toEquipped.congr rfl rfl rfl rfl, h.lt, h.le⟩

/-- Writing keeps it. -/
theorem write (h : a.Forwarding n k current waiting) (r : StreamRef) (p : Bytes)
    (ppi : PayloadProtocolIdentifier) : (a.writeSctp r p ppi).1.Forwards := by
  unfold AssociationInternal.writeSctp
  cases hs : a.objects[r]? with
  | none => exact ⟨n, k, current, waiting, h⟩
  | some s =>
    have hmax := h.sizes s (List.mem_of_getElem? hs)
    have hset := h.objects_set hs (s.packetize_maxPayloadSize a.flags p ppi)
    rcases s.writeSctp_cases a.maxMessageSize a.state a.flags a.pendingQueue p ppi with
      ⟨e, heq⟩ | ⟨e, heq⟩ | ⟨_, heq⟩
    · dsimp only
      rw [heq]
      exact ⟨n, k, current, waiting, h.setObjects (h.objects_set hs rfl) a.streams⟩
    · dsimp only
      rw [heq, Stream.packetize_flags]
      exact ⟨n, k, current, waiting, h.alloc hset⟩
    · dsimp only
      rw [heq, Stream.packetize_flags]
      dsimp only
      by_cases hp : p = []
      · -- nothing is pushed
        subst hp
        exact ⟨n, k, current, waiting, h.alloc hset⟩
      · have hfragments := Stream.packetize_fragmentsOf hmax a.flags hp ppi
        have hcells : ∀ c ∈ (s.packetize a.flags p ppi).2.2,
            c.abandoned = a.flags.length ∧ c.allInflight = a.flags.length + 1 := by
          intro c hc
          have hheader := hfragments.header_eq c hc
          exact ⟨(congrArg ChunkPayloadData.abandoned hheader :),
            (congrArg ChunkPayloadData.allInflight hheader :)⟩
        let m : Message := ⟨_, _, hfragments.isMessage⟩
        have hcell : m.cell = a.flags.length := by
          obtain ⟨c, chunks, hchunks⟩ := List.exists_cons_of_ne_nil hfragments.ne_nil
          have hc := (hcells c (by rw [hchunks]; exact List.mem_cons_self ..)).1
          unfold Message.cell
          show (((s.packetize a.flags p ppi).2.2.head?.map (·.abandoned)).getD 0) = _
          rw [hchunks, ← hc]
          rfl
        have hshares : m.Shares := by
          intro c hc
          rw [hcell]
          exact hcells c hc
        exact ⟨n, k, current, _, h.push hcell hshares (Or.inl hfragments.data_ne) hset⟩

/-- Shutting a stream down keeps it. -/
theorem shutdownStream (h : a.Forwarding n k current waiting) (r : StreamRef) (how : Shutdown) :
    (a.shutdownStream r how).1.Forwards := by
  unfold AssociationInternal.shutdownStream
  cases hs : a.objects[r]? with
  | none => exact ⟨n, k, current, waiting, h⟩
  | some s =>
    obtain ⟨s', hs', hcases⟩ := s.shutdown_cases a.state a.flags a.pendingQueue how
    have hmax : s'.maxPayloadSize = s.maxPayloadSize := congrArg (·.maxPayloadSize) hs'
    have hset := h.objects_set hs hmax
    rcases hcases with ⟨res, heq⟩ | heq
    · dsimp only
      rw [heq]
      exact ⟨n, k, current, waiting, h.setObjects hset a.streams⟩
    · dsimp only
      rw [heq]
      let m : Message := ⟨_, _, Stream.eosMarker_isMessage s.streamIdentifier a.flags.length
        (a.flags.length + 1)⟩
      have hshares : m.Shares := by
        intro c hc
        have hc' : c = Stream.eosMarker s.streamIdentifier a.flags.length (a.flags.length + 1) :=
          List.mem_singleton.mp hc
        rw [hc']
        exact ⟨rfl, rfl⟩
      exact ⟨n, k, current, _, h.push (m := m) rfl hshares (Or.inr rfl) hset⟩

/-- So does the timeout. -/
theorem t3Rtx (h : a.Forwarding n k current waiting) : a.onT3RtxTimeout.Forwards := by
  have hframe := a.onT3RtxTimeout_frame
  have hflow := h.toFlow.touch a.onT3RtxTimeout_touched (congrArg cumulativeTsnAckPoint hframe :)
    (congrArg myNextTsn hframe :) (congrArg pendingQueue hframe :)
    (Raised.of_eq (congrArg flags hframe :))
  let a₁ := { a with ssthresh := cmpMax (a.cwnd / 2) (4 * a.mtu), cwnd := a.mtu }
  have h₁ : a₁.Forwarding n k current waiting := h.touch (PayloadQueue.Touched.refl _) rfl rfl rfl
    (Raised.refl _) rfl (h.toEquipped.congr rfl rfl rfl rfl)
  obtain ⟨l, hl, hskips⟩ := h₁.toSkips.advance h₁.toFlow h.lt h.le
  have heq : a.onT3RtxTimeout = { a₁.advanceAckPoint with
      inflightQueue := a₁.advanceAckPoint.inflightQueue.markAllToRetransmit
        a₁.advanceAckPoint.flags } := by
    unfold onT3RtxTimeout
    dsimp only
    rw [if_pos h.uses]
  refine ⟨n, l, current, waiting, hflow, ?_, ?_, h.lt, hl⟩
  · have hq : a₁.advanceAckPoint.inflightQueue.Touched a.onT3RtxTimeout.inflightQueue := by
      rw [heq]
      exact PayloadQueue.Touched.markAllToRetransmit ..
    have hcum : a.onT3RtxTimeout.cumulativeTsnAckPoint =
        a₁.advanceAckPoint.cumulativeTsnAckPoint := by rw [heq]
    refine hskips.congr (by rw [heq]) hcum ?_ fun j _ _ => at_touched hq hcum j
    rw [heq]
    exact fun _ hx => hx
  · exact h.toEquipped.congr (congrArg useForwardTsn hframe :) (congrArg controlQueue hframe :)
      (congrArg maxPayloadSize hframe :) (congrArg objects hframe :)

/-- The point after the chunks that a SACK acknowledges are gone. -/
theorem skips_popped (h : a.Forwarding n k current waiting) {d : ℕ} (hd : d ≤ n)
    (hs : a'.Sending (n - d)) (hcum : a'.cumulativeTsnAckPoint = a.cumulativeTsnAckPoint.after d)
    (hlabel : ∀ t c', a'.inflightQueue.get t = some c' →
      ∃ c, a.inflightQueue.get t = some c ∧ PayloadQueue.label c = PayloadQueue.label c')
    (hpoint : a'.advancedPeerTsnAckPoint = a.advancedPeerTsnAckPoint)
    (hflags : a'.flags = a.flags) :
    (∃ l, 0 < l ∧ l < 2 ^ 31 ∧
        a'.advancedPeerTsnAckPoint.after l = a'.cumulativeTsnAckPoint) ∨
      ∃ l ≤ n - d, a'.Skips l := by
  have hlt := h.lt
  have hle := h.le
  rcases Nat.lt_or_ge k d with hkd | hkd
  · refine Or.inl ⟨d - k, by omega, by omega, ?_⟩
    rw [hpoint, h.point, hcum, after_add]
    congr 1
    omega
  · have hat : ∀ j, 0 < j → j ≤ k - d → a'.cellAt j = a.cellAt (d + j) ∧
        a'.endsAt j = a.endsAt (d + j) := fun j hj hjk =>
      hs.at_popped (by omega) hcum hlabel hj (by omega)
    refine Or.inr ⟨k - d, by omega, ?_, ?_, ?_⟩
    · rw [hpoint, h.point, hcum, after_add]
      congr 1
      omega
    · intro j hj hjk
      have hab := h.abandoned (d + j) (by omega) (by omega)
      unfold abandonedAt at hab ⊢
      rw [hflags, (hat j hj hjk).1, hab]
    · intro hpos
      rw [(hat (k - d) hpos (Nat.le_refl _)).2, Nat.add_sub_cancel' hkd]
      exact h.ends (by omega)

/-- A SACK that is answered Ok keeps it. -/
theorem sack (h : a.Forwarding n k current waiting) {now : ℕ} {d : ChunkSelectiveAck}
    (hok : (a.handleSack now d).2.isOk = true) : (a.handleSack now d).1.Forwards := by
  have hlt := h.lt
  rcases handleSack_ok h.toSending hok with heq | ⟨a', heq, hle, hframe, hwindow, hlabel⟩
  · rw [heq]
    exact ⟨n, k, current, waiting, h⟩
  · have hafter := after_dist a.cumulativeTsnAckPoint d.cumulativeTsnAck
    generalize Serial.dist a.cumulativeTsnAckPoint d.cumulativeTsnAck = δ at hle hwindow hafter
    rw [← hafter] at hframe hwindow
    have hcum : a'.cumulativeTsnAckPoint = a.cumulativeTsnAckPoint.after δ :=
      (congrArg cumulativeTsnAckPoint hframe :)
    have hflags : a'.flags = a.flags := (congrArg flags hframe :)
    have hflow : a'.Flow (n - δ) current waiting := h.toFlow.popped hlt hle hwindow hcum hlabel
      (congrArg myNextTsn hframe :) (congrArg pendingQueue hframe :) hflags
    have hequipped : a'.Equipped := h.toEquipped.congr (congrArg useForwardTsn hframe :)
      (congrArg controlQueue hframe :) (congrArg maxPayloadSize hframe :)
      (congrArg objects hframe :)
    have hbehind := h.skips_popped hle hflow.toSending hcum hlabel
      (congrArg advancedPeerTsnAckPoint hframe :) hflags
    obtain ⟨l, hl, hskips⟩ := Skips.raise hequipped.uses hflow (by omega) hbehind
    -- what follows changes bookkeeping, the state and the shutdown flags
    obtain ⟨state', shutdown, shutdownAck, hpost⟩ :=
      postprocessSack_frame a'.raiseAckPoint a.state
    have hqueue := postprocessSack_inflightQueue a'.raiseAckPoint a.state
    have hraise := quiet_raiseAckPoint a'
    have hraised : a'.raiseAckPoint.Forwarding (n - δ) l current waiting := by
      have hframe' := hraise.frame
      refine ⟨?_, hskips, ?_, by omega, hl⟩
      · refine hflow.touch ?_ (congrArg cumulativeTsnAckPoint hframe' :)
          (congrArg myNextTsn hframe' :) (congrArg pendingQueue hframe' :)
          (Raised.of_eq (congrArg flags hframe' :))
        rw [hraise.inflightQueue]
        exact PayloadQueue.Touched.refl _
      · exact hequipped.congr (congrArg useForwardTsn hframe' :) (congrArg controlQueue hframe' :)
          (congrArg maxPayloadSize hframe' :) (congrArg objects hframe' :)
    rw [heq]
    refine ⟨n - δ, l, current, waiting, hraised.touch ?_ (congrArg cumulativeTsnAckPoint hpost :)
      (congrArg myNextTsn hpost :) (congrArg pendingQueue hpost :)
      (Raised.of_eq (congrArg flags hpost :)) (congrArg advancedPeerTsnAckPoint hpost :) ?_⟩
    · rw [hqueue]
      exact PayloadQueue.Touched.refl _
    · exact hraised.toEquipped.congr (congrArg useForwardTsn hpost :)
        (congrArg controlQueue hpost :) (congrArg maxPayloadSize hpost :)
        (congrArg objects hpost :)

end Forwarding

/-- What one operation keeps. -/
theorem Forwards.senderStep (h : a.Forwards) {op : SenderOp} (hwhole : WholeOps op)
    (hop : a.InBounds op) : (a.senderStep op).Forwards := by
  obtain ⟨n, k, current, waiting, h⟩ := h
  have hsame : ∀ a' : AssociationInternal, a'.Forwarding n k current waiting → a'.Forwards :=
    fun a' h' => ⟨n, k, current, waiting, h'⟩
  cases op with
  | openStream si ppi => exact hsame (a.openStream si ppi).1 (h.openStream si ppi)
  | setReliabilityParams r unordered relType relVal =>
    exact hsame _ (h.setObjects (h.objects_modify r
      (f := (·.setReliabilityParams unordered relType relVal)) fun _ => rfl) a.streams)
  | write r p ppi => exact h.write r p ppi
  | shutdownStream r how => exact h.shutdownStream r how
  | push c => exact absurd hwhole id
  | gather now => exact h.gather hop.2
  | t3Rtx => exact h.t3Rtx
  | sack now d => exact h.sack hop.1
  | shutdownChunk =>
    obtain ⟨state, willSendShutdownAck, heq⟩ := a.handleShutdown_eq
    refine hsame a.handleShutdown ?_
    rw [heq]
    exact h.touch (PayloadQueue.Touched.refl _) rfl rfl rfl (Raised.refl _) rfl
      (h.toEquipped.congr rfl rfl rfl rfl)
  | shutdown =>
    obtain ⟨state, willSendShutdown, heq⟩ := a.shutdown_eq
    refine hsame a.shutdown.1 ?_
    rw [heq]
    exact h.touch (PayloadQueue.Touched.refl _) rfl rfl rfl (Raised.refl _) rfl
      (h.toEquipped.congr rfl rfl rfl rfl)

/-- A fresh association has nothing to forward. -/
theorem Fresh.forwards (h : a.Fresh) (huse : a.useForwardTsn = true) : a.Forwards := by
  have hget : ∀ t, a.inflightQueue.get t = none := by
    intro t
    rw [h.inflightQueue]
    rfl
  refine ⟨0, 0, none, fun _ => [], ⟨h.sending, ⟨?_, ?_, ?_, ?_⟩, ?_, ?_, ?_, ?_, ?_, ?_⟩, ⟨?_, ?_, ?_⟩,
    ⟨huse, h.not_emitsForwardTsn, h.maxPayloadSize, h.objects⟩, by omega, Nat.le_refl 0⟩
  · rw [h.pendingQueue]
    exact PendingQueue.Holds.new
  · rw [h.flags]
    rfl
  · intro m hm
    cases hm
  · exact List.nodup_nil
  · intro t c hc
    rw [hget t] at hc
    cases hc
  · intro t c hc
    rw [hget t] at hc
    cases hc
  · intro i l hi hil hl
    omega
  · intro j hj hj'
    omega
  · intro h0
    omega
  · intro m k hcur
    cases hcur
  · rw [h.advancedPeerTsnAckPoint]
    exact (after_zero _).symm
  · intro j hj hj'
    omega
  · intro h0
    omega

/-- A FORWARD TSN carries the point, and the point skips whole abandoned messages. -/
theorem Forwards.forwardsWholeMessages (h : a.Forwards) {op : SenderOp} (hwhole : WholeOps op)
    (hop : a.InBounds op) : a.ForwardsWholeMessages op := by
  intro p hp c hc
  obtain ⟨n, k, current, waiting, hnext⟩ := h.senderStep hwhole hop
  obtain ⟨_, _, _, _, h⟩ := h
  cases op with
  | gather now =>
    rw [forwardTsn_gather h.control hp hc]
    exact hnext.toFlow.skipsWholeMessages hnext.lt hnext.le hnext.toSkips
  | openStream si ppi => cases hp
  | setReliabilityParams r unordered relType relVal => cases hp
  | write r p ppi => cases hp
  | shutdownStream r how => cases hp
  | push c => cases hp
  | t3Rtx => cases hp
  | sack now d => cases hp
  | shutdownChunk => cases hp
  | shutdown => cases hp

/-- **FORWARD TSN.** In every run of whole writes, with fewer than 2^31 chunks outstanding, the
point skips whole abandoned messages in every state reached, and so does every FORWARD TSN
that is sent. -/
theorem forwardsWholeMessages_of_run (ha : a.Fresh) (huse : a.useForwardTsn = true)
    (ops : List SenderOp)
    (hops : Runs.Along senderStep (fun a op => WholeOps op ∧ a.InBounds op) a ops) :
    (Runs.run senderStep a ops).SkipsWholeMessages
        (Runs.run senderStep a ops).advancedPeerTsnAckPoint ∧
      Runs.Along senderStep ForwardsWholeMessages a ops := by
  have hstep : ∀ (a : AssociationInternal) (op : SenderOp), WholeOps op ∧ a.InBounds op →
      a.Forwards → (a.senderStep op).Forwards := fun _ _ hop h => h.senderStep hop.1 hop.2
  refine ⟨?_, ?_⟩
  · obtain ⟨n, k, current, waiting, h⟩ := Runs.run_invariant_along hstep (ha.forwards huse) hops
    exact h.toFlow.skipsWholeMessages h.lt h.le h.toSkips
  · exact Runs.along_of_invariant hstep (fun _ _ hop h => h.forwardsWholeMessages hop.1 hop.2)
      (ha.forwards huse) hops

/-- Two messages that are given up at once, and a timeout. -/
def givenUpRun : List SenderOp :=
  [.openStream 1 .binary, .setReliabilityParams 0 false .rexmit 1, .write 0 [1] .binary,
    .write 0 [2] .binary, .gather 5, .t3Rtx, .gather 9]

theorem forwardsWholeMessages_givenUpRun :
    Runs.Along senderStep ForwardsWholeMessages justEstablished givenUpRun :=
  (forwardsWholeMessages_of_run justEstablished_fresh rfl givenUpRun (by decide +kernel)).2

/-- A stream whose messages are given up at once, on an association with the widest window. -/
def setUp : List SenderOp :=
  [.openStream 1 .binary, .setReliabilityParams 0 false .rexmit 0]

theorem traffic_setUp :
    (Runs.run senderStep wideOpen setUp).Traffic 0 0 4380 (2 ^ 32 - 1) where
  state := rfl
  uses := rfl
  room := by decide
  stream := rfl
  object := ⟨_, rfl, rfl, rfl, rfl, rfl, rfl, by decide⟩
  next := by decide
  point := rfl
  ssthresh := rfl
  calm := ⟨rfl, rfl, rfl⟩
  cwnd := by decide
  rwnd := by decide
  ordered := rfl
  pending := rfl
  pendingOne := by
    intro c hc
    cases hc
  pendingLen := rfl
  unselected := rfl
  spans := (PayloadQueue.Window.new _).spans (by omega)
  window := fun _ => PayloadQueue.Window.new _
  inflight := by
    intro t c hc
    cases hc
  bytes := rfl

/-- All is written to a stream whose messages are given up at once. -/
def floodRun (k : ℕ) : List SenderOp :=
  setUp ++ .write 0 [0] .binary :: Traffic.flood wideOpen.cumulativeTsnAckPoint k

/-- After the flood the advanced point lies `k + 1` numbers ahead. -/
theorem floodRun_point {k : ℕ} (hk : 4380 + k < 2 ^ 32) :
    let s := Runs.run senderStep wideOpen (floodRun k)
    s.advancedPeerTsnAckPoint = s.cumulativeTsnAckPoint.after (k + 1) ∧
      Runs.Along senderStep Accepted wideOpen (floodRun k) := by
  have hwritten := traffic_setUp.write 0
  obtain ⟨flags, pendingQueue, objects, heq⟩ :=
    (Runs.run senderStep wideOpen setUp).writeSctp_eq 0 [0] .binary
  have hcum : ((Runs.run senderStep wideOpen setUp).writeSctp 0 [0] .binary).1.cumulativeTsnAckPoint
      = wideOpen.cumulativeTsnAckPoint := by
    rw [heq]
    rfl
  have hflood := hwritten.flood_run (by omega) hk
  rw [hcum] at hflood
  unfold floodRun
  rw [Runs.run_append, Runs.run_cons, Runs.along_append]
  exact ⟨hflood.1, ⟨⟨trivial, trivial⟩, ⟨trivial, trivial⟩, trivial⟩, ⟨trivial, trivial⟩, hflood.2⟩

/-- With 2^31 + 1 chunks outstanding and given up the point comes out behind the ack point. -/
theorem not_forwardsWholeMessages_flood :
    ¬ ∀ a : AssociationInternal, a.Fresh → a.useForwardTsn = true →
      ∀ ops, Runs.Along senderStep Accepted a ops →
        (Runs.run senderStep a ops).SkipsWholeMessages
          (Runs.run senderStep a ops).advancedPeerTsnAckPoint := by
  intro hall
  obtain ⟨k, hk⟩ : ∃ k, k = 2 ^ 31 := ⟨_, rfl⟩
  obtain ⟨hpoint, halong⟩ := @floodRun_point k (by omega)
  have hskips := (hall wideOpen wideOpen_fresh rfl (floodRun k) halong).not_behind
  rw [hpoint] at hskips
  generalize (Runs.run senderStep wideOpen (floodRun k)).cumulativeTsnAckPoint = cum at hskips
  have hdist := dist_after cum (k := k + 1) (by omega)
  have hne : cum ≠ cum.after (k + 1) := by
    intro heq
    rw [← heq, Serial.dist_self] at hdist
    omega
  refine hskips ?_
  rw [sna32lt_iff, Serial.dist_comm_of_ne hne, hdist]
  omega

end AssociationInternal

end Sctp
