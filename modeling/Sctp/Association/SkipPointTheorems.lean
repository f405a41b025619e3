import Sctp.Association.FreeTsnTheorems
import Sctp.Association.ReleaseTheorems

/-!
# Where the advanced ack point comes to lie

RFC 3758 C2 moves the point over abandoned chunks as far as they go. In every run all that lies
between the ack point and the advanced one is abandoned, so the walk ends at the same place
wherever between the two it starts.
-/

namespace Sctp

namespace PayloadQueue

variable {q q' : PayloadQueue} {flags flags' : SharedFlags}

/-- An abandoned chunk is in flight under the TSN. -/
def AbandonedAt (q : PayloadQueue) (flags : SharedFlags) (t : U32) : Prop :=
  ∃ c, q.get t = some c ∧ c.isAbandoned flags = true

theorem isAbandoned_mono {c : ChunkPayloadData}
    (hflags : ∀ x, flags.load x = true → flags'.load x = true)
    (h : c.isAbandoned flags = true) : c.isAbandoned flags' = true := by
  unfold ChunkPayloadData.isAbandoned at h ⊢
  rw [Bool.and_eq_true] at h ⊢
  exact ⟨hflags _ h.1, hflags _ h.2⟩

/-- Abandoned is what the labels and the cells say. -/
theorem AbandonedAt.of_label {t : U32} (h : q.AbandonedAt flags t)
    (hget : (q'.get t).map label = (q.get t).map label)
    (hflags : ∀ x, flags.load x = true → flags'.load x = true) : q'.AbandonedAt flags' t := by
  obtain ⟨c, hc, habandoned⟩ := h
  rw [hc] at hget
  obtain ⟨c', hc', hlabel⟩ := Option.map_eq_some_iff.mp hget
  refine ⟨c', hc', isAbandoned_mono hflags ?_⟩
  rw [← habandoned]
  show (label c').isAbandoned flags = (label c).isAbandoned flags
  rw [hlabel]

/-- Distinct TSNs are at most as many as there are. -/
theorem length_keys_le (q : PayloadQueue) : q.chunkMap.keys.length ≤ 2 ^ 32 := by
  have hnodup : (q.chunkMap.keys.map BitVec.toNat).Nodup :=
    q.chunkMap.keys_nodup.map fun _ _ => BitVec.eq_of_toNat_eq
  have hsubset : q.chunkMap.keys.map BitVec.toNat ⊆ List.range (2 ^ 32) := by
    intro n hn
    obtain ⟨t, _, rfl⟩ := List.mem_map.mp hn
    exact List.mem_range.mpr t.isLt
  have hle := (List.subperm_of_subset hnodup hsubset).length_le
  rwa [List.length_map, List.length_range] at hle

end PayloadQueue

namespace AssociationInternal

open PayloadQueue

variable {a a' : AssociationInternal} {q : PayloadQueue} {flags : SharedFlags}

/-! ## The walk -/

/-- Once round all TSNs. -/
theorem after_full (t : U32) : t.after (2 ^ 32) = t := by
  show t + BitVec.ofNat 32 (2 ^ 32) = t
  rw [show BitVec.ofNat 32 (2 ^ 32) = 0#32 by decide, BitVec.add_zero]

/-- The walk of RFC 3758 C2 from a point. -/
def skipFrom (q : PayloadQueue) (flags : SharedFlags) (point : U32) : U32 :=
  skipAbandoned q flags point (q.tsnsFrom (point + 1))

/-- `n` rounds of the walk take `j` of them over abandoned chunks, and if there are rounds left
then what follows is not abandoned. -/
theorem skipAbandoned_upTo (q : PayloadQueue) (flags : SharedFlags) (point : U32) (n : ℕ) :
    ∃ j ≤ n, skipAbandoned q flags point (q.tsnsFromUpTo n (point + 1)) = point.after j ∧
      (∀ i < j, q.AbandonedAt flags (point.after (i + 1))) ∧
      (j < n → ¬ q.AbandonedAt flags (point.after (j + 1))) := by
  induction n generalizing point with
  | zero => exact ⟨0, Nat.le_refl 0, (after_zero point).symm, by omega, by omega⟩
  | succ n ih =>
    have hone : point.after (0 + 1) = point + 1 := rfl
    rw [tsnsFromUpTo]
    by_cases hmem : point + 1 ∈ q.chunkMap
    · rw [if_pos hmem, skipAbandoned]
      obtain ⟨c, hc⟩ := Option.isSome_iff_exists.mp (AList.lookup_isSome.mpr hmem)
      have hget : q.get (point + 1) = some c := hc
      rw [hget]
      dsimp only
      by_cases habandoned : c.isAbandoned flags = true
      · rw [if_pos habandoned]
        obtain ⟨j, hj, heq, hall, hstop⟩ := ih (point + 1)
        have hafter : ∀ i, (point + 1).after i = point.after (i + 1) := by
          intro i
          rw [show point + 1 = point.after 1 from rfl, after_add, Nat.add_comm]
        refine ⟨j + 1, by omega, by rw [heq, hafter], ?_, ?_⟩
        · intro i hi
          cases i with
          | zero => exact ⟨c, hget, habandoned⟩
          | succ i =>
            rw [← hafter]
            exact hall i (by omega)
        · intro hlt
          rw [← hafter]
          exact hstop (by omega)
      · rw [if_neg habandoned]
        refine ⟨0, Nat.zero_le _, (after_zero point).symm, by omega, ?_⟩
        rintro _ ⟨c', hc', h⟩
        rw [hone, hget] at hc'
        cases hc'
        exact habandoned h
    · rw [if_neg hmem, skipAbandoned]
      refine ⟨0, Nat.zero_le _, (after_zero point).symm, by omega, ?_⟩
      rintro _ ⟨c', hc', _⟩
      refine hmem (AList.lookup_isSome.mp ?_)
      rw [hone] at hc'
      rw [show q.chunkMap.lookup (point + 1) = some c' from hc']
      rfl

/-- **The walk.** It goes over `j` abandoned chunks, and unless it has gone once round all TSNs
what follows them is not abandoned. -/
theorem skipFrom_spec (q : PayloadQueue) (flags : SharedFlags) (point : U32) :
    ∃ j ≤ 2 ^ 32, skipFrom q flags point = point.after j ∧
      (∀ i < j, q.AbandonedAt flags (point.after (i + 1))) ∧
      (j < 2 ^ 32 → ¬ q.AbandonedAt flags (point.after (j + 1))) := by
  obtain ⟨j, hj, heq, hall, hstop⟩ := skipAbandoned_upTo q flags point q.chunkMap.keys.length
  have hkeys := length_keys_le q
  refine ⟨j, by omega, heq, hall, ?_⟩
  intro hlt habandoned
  -- with all chunks passed there is no room for one more TSN
  have hlast : j = q.chunkMap.keys.length := by
    by_contra hne
    exact hstop (by omega) habandoned
  have hnodup : ((List.range (j + 1)).map fun i => point.after (i + 1)).Nodup := by
    refine (List.nodup_map_iff_inj_on List.nodup_range).mpr ?_
    intro i hi i' hi' hsame
    have hdist : ∀ k < 2 ^ 32, Serial.dist (point + 1) (point.after (k + 1)) = k := by
      intro k hk
      rw [show point.after (k + 1) = (point + 1).after k by
        rw [show point + 1 = point.after 1 from rfl, after_add, Nat.add_comm]]
      exact dist_after (point + 1) hk
    have hi₁ := List.mem_range.mp hi
    have hi₂ := List.mem_range.mp hi'
    rw [← hdist i (by omega), hsame, hdist i' (by omega)]
  have hsubset : ((List.range (j + 1)).map fun i => point.after (i + 1)) ⊆ q.chunkMap.keys := by
    intro t ht
    obtain ⟨i, hi, rfl⟩ := List.mem_map.mp ht
    have hin : q.AbandonedAt flags (point.after (i + 1)) := by
      by_cases hij : i < j
      · exact hall i hij
      · have hi' := List.mem_range.mp hi
        rw [show i = j by omega]
        exact habandoned
    obtain ⟨c, hc, _⟩ := hin
    refine AList.mem_keys.mp (AList.lookup_isSome.mp ?_)
    rw [show q.chunkMap.lookup (point.after (i + 1)) = some c from hc]
    rfl
  have hle := (List.subperm_of_subset hnodup hsubset).length_le
  rw [List.length_map, List.length_range] at hle
  omega

/-- All that lies behind `base` up to the point is abandoned. -/
def AbandonedUpTo (q : PayloadQueue) (flags : SharedFlags) (base point : U32) : Prop :=
  ∀ t, 0 < Serial.dist base t → Serial.dist base t ≤ Serial.dist base point →
    q.AbandonedAt flags t

theorem AbandonedUpTo.refl (q : PayloadQueue) (flags : SharedFlags) (base : U32) :
    AbandonedUpTo q flags base base := by
  intro t hpos hle
  rw [Serial.dist_self] at hle
  omega

/-- The walk keeps this. -/
theorem AbandonedUpTo.skipFrom {base point : U32} (h : AbandonedUpTo q flags base point) :
    AbandonedUpTo q flags base (skipFrom q flags point) := by
  obtain ⟨j, _, heq, hall, _⟩ := skipFrom_spec q flags point
  rw [heq]
  intro t hpos hle
  by_cases hbefore : Serial.dist base t ≤ Serial.dist base point
  · exact h t hpos hbefore
  · have hfrom : Serial.dist point t = Serial.dist base t - Serial.dist base point :=
      Serial.dist_sub (by omega)
    have hend : Serial.dist base (point.after j) ≤ Serial.dist base point + j := by
      rw [Serial.dist_trans base point (point.after j)]
      have hstep : Serial.dist point (point.after j) ≤ j := by
        rw [Serial.dist]
        show (point + BitVec.ofNat 32 j - point).toNat ≤ j
        rw [show point + BitVec.ofNat 32 j - point = BitVec.ofNat 32 j by bv_omega,
          BitVec.toNat_ofNat]
        exact Nat.mod_le j (2 ^ 32)
      exact (Nat.mod_le _ _).trans (by omega)
    have hin := hall (Serial.dist point t - 1) (by omega)
    rwa [show Serial.dist point t - 1 + 1 = Serial.dist point t by omega, after_dist] at hin

/-- A walk from the place where one has ended does not move. -/
theorem skipFrom_skipFrom (q : PayloadQueue) (flags : SharedFlags) (point : U32) :
    skipFrom q flags (skipFrom q flags point) = skipFrom q flags point := by
  obtain ⟨j, hj, heq, hall, hstop⟩ := skipFrom_spec q flags point
  obtain ⟨k, hk, heq', hall', hstop'⟩ := skipFrom_spec q flags (skipFrom q flags point)
  rw [heq']
  rcases Nat.eq_zero_or_pos k with hzero | hpos
  · rw [hzero, after_zero]
  · -- the next chunk is abandoned, so the first walk has gone round
    have hnext := hall' 0 hpos
    rw [heq, after_add] at hnext
    have hround : j = 2 ^ 32 := by
      by_contra hne
      exact hstop (by omega) hnext
    have hevery : ∀ t, q.AbandonedAt flags t := by
      intro t
      have hin := hall (Serial.dist (point + 1) t) (by
        rw [hround]
        exact Serial.dist_lt (point + 1) t)
      rwa [show point.after (Serial.dist (point + 1) t + 1) = t by
        rw [Nat.add_comm, ← after_add]
        exact after_dist (point + 1) t] at hin
    have hround' : k = 2 ^ 32 := by
      by_contra hne
      exact hstop' (by omega) (hevery _)
    rw [hround']
    exact after_full _

/-- From behind the point, over abandoned chunks only, the walk ends where the one from the point
ends, as long as that has not gone round. -/
theorem skipFrom_of_behind {base point : U32} (h : AbandonedUpTo q flags base (skipFrom q flags point))
    (hmoved : skipFrom q flags point ≠ point) : skipFrom q flags base = skipFrom q flags point := by
  obtain ⟨j, hj, heq, hall, hstop⟩ := skipFrom_spec q flags point
  have hround : j < 2 ^ 32 := by
    by_contra hne
    rw [heq, show j = 2 ^ 32 by omega, after_full] at hmoved
    exact hmoved rfl
  have hend : ¬ q.AbandonedAt flags ((skipFrom q flags point).after 1) := by
    rw [heq, after_add]
    exact hstop hround
  obtain ⟨k, hk, heq', hall', hstop'⟩ := skipFrom_spec q flags base
  have hbound := Serial.dist_lt base (skipFrom q flags point)
  have hpoint := after_dist base (skipFrom q flags point)
  -- both ends are the first place behind which nothing abandoned follows
  have hlen : k = Serial.dist base (skipFrom q flags point) := by
    rcases Nat.lt_trichotomy k (Serial.dist base (skipFrom q flags point)) with hlt | hsame | hgt
    · refine absurd (h (base.after (k + 1)) ?_ ?_) (hstop' (by omega))
      · rw [dist_after base (by omega)]
        omega
      · rw [dist_after base (by omega)]
        omega
    · exact hsame
    · have hin := hall' _ hgt
      rw [← after_add, hpoint] at hin
      exact absurd hin hend
  rw [heq', hlen, hpoint]

/-! ## C1 to C3 -/

theorem advanceAckPoint_eq (a : AssociationInternal) :
    a.advanceAckPoint =
      { a with
        advancedPeerTsnAckPoint := skipFrom a.inflightQueue a.flags a.advancedPeerTsnAckPoint
        willSendForwardTsn := a.willSendForwardTsn ||
          sna32gt (skipFrom a.inflightQueue a.flags a.advancedPeerTsnAckPoint)
            a.cumulativeTsnAckPoint } := by
  unfold advanceAckPoint skipFrom
  dsimp only
  split
  · rename_i hgt
    rw [hgt, Bool.or_true]
  · rename_i hgt
    rw [Bool.not_eq_true] at hgt
    rw [hgt, Bool.or_false]

/-- Where C1 has the walk begin. -/
def ackPointFloor (a : AssociationInternal) : U32 :=
  if sna32lt a.advancedPeerTsnAckPoint a.cumulativeTsnAckPoint then a.cumulativeTsnAckPoint
  else a.advancedPeerTsnAckPoint

theorem not_behind_ackPointFloor (a : AssociationInternal) :
    ¬ sna32lt a.ackPointFloor a.cumulativeTsnAckPoint = true := by
  unfold ackPointFloor
  split
  · rw [sna32lt_iff, Serial.dist_self]
    omega
  · assumption

theorem raiseAckPoint_eq (huse : a.useForwardTsn = true) :
    a.raiseAckPoint =
      { a with
        advancedPeerTsnAckPoint := skipFrom a.inflightQueue a.flags a.ackPointFloor
        willSendForwardTsn := a.willSendForwardTsn ||
          sna32gt (skipFrom a.inflightQueue a.flags a.ackPointFloor) a.cumulativeTsnAckPoint } := by
  unfold raiseAckPoint ackPointFloor
  rw [if_pos huse]
  dsimp only
  split
  · exact advanceAckPoint_eq _
  · exact advanceAckPoint_eq _

/-- With FORWARD TSNs in use, all between the ack point and the advanced one is abandoned. -/
def SkipsAbandoned (a : AssociationInternal) : Prop :=
  a.useForwardTsn = true →
    AbandonedUpTo a.inflightQueue a.flags a.cumulativeTsnAckPoint a.advancedPeerTsnAckPoint

/-- The same of the point from which C1 has the walk begin. -/
def FloorAbandoned (a : AssociationInternal) : Prop :=
  a.useForwardTsn = true →
    AbandonedUpTo a.inflightQueue a.flags a.cumulativeTsnAckPoint a.ackPointFloor

theorem FloorAbandoned.raise (h : a.FloorAbandoned) : a.raiseAckPoint.SkipsAbandoned := by
  by_cases huse : a.useForwardTsn = true
  · rw [raiseAckPoint_eq huse]
    exact fun _ => (h huse).skipFrom
  · intro hraised
    unfold raiseAckPoint at hraised
    rw [if_neg huse] at hraised
    exact absurd hraised huse

/-- **C1 to C3 again.** -/
theorem raiseAckPoint_raiseAckPoint (h : a.FloorAbandoned) :
    a.raiseAckPoint.raiseAckPoint = a.raiseAckPoint := by
  by_cases huse : a.useForwardTsn = true
  · have hend : skipFrom a.inflightQueue a.flags a.raiseAckPoint.ackPointFloor =
        skipFrom a.inflightQueue a.flags a.ackPointFloor := by
      have hfloor : a.raiseAckPoint.ackPointFloor =
          if sna32lt (skipFrom a.inflightQueue a.flags a.ackPointFloor) a.cumulativeTsnAckPoint
            then a.cumulativeTsnAckPoint else skipFrom a.inflightQueue a.flags a.ackPointFloor := by
        rw [raiseAckPoint_eq huse]
        rfl
      rw [hfloor]
      split
      · -- the walk has gone more than half round, so it has moved
        rename_i hlt
        refine skipFrom_of_behind (h huse).skipFrom ?_
        intro hsame
        rw [hsame] at hlt
        exact a.not_behind_ackPointFloor hlt
      · exact skipFrom_skipFrom a.inflightQueue a.flags a.ackPointFloor
    have huse' : a.raiseAckPoint.useForwardTsn = true := by
      rw [raiseAckPoint_eq huse]
      exact huse
    rw [raiseAckPoint_eq huse']
    rw [raiseAckPoint_eq huse] at hend ⊢
    dsimp only at hend ⊢
    rw [hend, Bool.or_assoc, Bool.or_self]
  · have hsame : a.raiseAckPoint = a := by
      unfold raiseAckPoint
      rw [if_neg huse]
    rw [hsame, hsame]

theorem SkipsAbandoned.advance (h : a.SkipsAbandoned) : a.advanceAckPoint.SkipsAbandoned := by
  rw [advanceAckPoint_eq]
  exact fun huse => (h huse).skipFrom

/-- Flags may be raised and chunks may follow. -/
theorem SkipsAbandoned.congr (h : a.SkipsAbandoned) (huse : a'.useForwardTsn = a.useForwardTsn)
    (hcum : a'.cumulativeTsnAckPoint = a.cumulativeTsnAckPoint)
    (hadv : a'.advancedPeerTsnAckPoint = a.advancedPeerTsnAckPoint)
    (hkept : ∀ t, a.inflightQueue.AbandonedAt a.flags t →
      a'.inflightQueue.AbandonedAt a'.flags t) : a'.SkipsAbandoned := by
  intro huse'
  rw [hcum, hadv]
  intro t hpos hle
  exact hkept t (h (huse ▸ huse') t hpos hle)

/-! ## What gathering and a timeout keep -/

/-- Chunks in flight keep their labels while no TSN is given again. -/
theorem label_gatherOutbound {now : ℕ} {t : U32} (hfree : a.GivesFreeTsns (.gather now))
    (ht : t ∈ a.inflightQueue.chunkMap) :
    ((a.gatherOutbound now).1.inflightQueue.get t).map label = (a.inflightQueue.get t).map label := by
  obtain ⟨q, hbefore, hafter⟩ := gather_onlyNotes a now
  rw [hafter.touched.get t, get_pushes_of_notMem, hbefore.touched.get t]
  intro c hc heq
  rw [← heq] at ht
  exact hfree c hc ht

/-- Gathering sets flags only. -/
theorem load_gatherOutbound {x : SharedFlag} (h : a.flags.load x = true) (now : ℕ) :
    (a.gatherOutbound now).1.flags.load x = true := by
  refine gatherOutbound_invariant (P := fun b => b.flags.load x = true) ?_ ?_ ?_ ?_ ?_ h
  · intro b b' hcore hb
    have hflags : b'.flags = b.flags := (congrArg flags hcore :)
    rwa [hflags]
  · intro b b' hresends hb
    rcases hresends.abandons.2 x with hsame | ⟨hset, _⟩
    · rwa [hsame]
    · exact hset
  · exact fun b c _ _ hb => hb
  · intro b c rwnd _ hb
    rcases hpop : b.pendingQueue.pop c.beginningFragment c.unordered with ⟨q, _ | c'⟩
    · rw [movePending_of_none (a := { b with rwnd }) hpop]
      exact hb
    · obtain ⟨flags, hflags, heq⟩ := movePending_of_some (a := { b with rwnd }) now hpop
      rw [heq]
      have hall : (c'.setAllInflight b.flags).load x = true := by
        unfold ChunkPayloadData.setAllInflight
        split
        · exact SharedFlags.load_store_true hb
        · exact hb
      rcases hflags with heq' | heq'
      · rw [heq']
        exact hall
      · rw [heq']
        exact SharedFlags.load_store_true hall
  · intro b hb
    obtain ⟨_, _, _, _, heq⟩ := b.gatherOutboundShutdownPackets_eq
    rwa [heq]

theorem SkipsAbandoned.gather {now : ℕ} (h : a.SkipsAbandoned)
    (hfree : a.GivesFreeTsns (.gather now)) : (a.gatherOutbound now).1.SkipsAbandoned := by
  have hsame := (ungathered_gatherOutbound a now).1
  refine h.congr (congrArg useForwardTsn hsame :) (congrArg cumulativeTsnAckPoint hsame :)
    (congrArg advancedPeerTsnAckPoint hsame :) ?_
  intro t habandoned
  refine habandoned.of_label (label_gatherOutbound hfree ?_) fun x hx => load_gatherOutbound hx now
  obtain ⟨c, hc, _⟩ := habandoned
  refine AList.lookup_isSome.mp ?_
  rw [show a.inflightQueue.chunkMap.lookup t = some c from hc]
  rfl

theorem SkipsAbandoned.t3Rtx (h : a.SkipsAbandoned) : a.onT3RtxTimeout.SkipsAbandoned := by
  let b : AssociationInternal :=
    { a with ssthresh := cmpMax (a.cwnd / 2) (4 * a.mtu), cwnd := a.mtu }
  have hb : b.SkipsAbandoned := h
  have hpoint : (if b.useForwardTsn then b.advanceAckPoint else b).SkipsAbandoned := by
    split
    · exact hb.advance
    · exact hb
  refine hpoint.congr rfl rfl rfl ?_
  intro t habandoned
  exact habandoned.of_label ((Touched.markAllToRetransmit _ _).get t) fun _ hx => hx

theorem SkipsAbandoned.call (h : a.SkipsAbandoned) {op : SenderOp} (hcall : op.isCall = true) :
    (a.senderStep op).SkipsAbandoned := by
  have hcalled := called_senderStep (a := a) hcall
  refine h.congr (congrArg useForwardTsn hcalled.frame :)
    (congrArg cumulativeTsnAckPoint hcalled.frame :)
    (congrArg advancedPeerTsnAckPoint hcalled.frame :) ?_
  intro t habandoned
  have hflight : (a.senderStep op).inflightQueue = a.inflightQueue :=
    (congrArg inflightQueue hcalled.frame :)
  rw [hflight]
  exact habandoned.of_label rfl fun x hx => (hcalled.load x).trans hx

end AssociationInternal

end Sctp
