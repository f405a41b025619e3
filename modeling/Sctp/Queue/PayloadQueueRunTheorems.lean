import Sctp.Queue.PayloadQueueRuns
import Sctp.Queue.EachTheorems

/-!
# The representation of a payload queue

The sort is asked for an order on TSNs that `sna32lt` does not order. What it keeps in any
case is that no two neighbours are in the wrong order, and the front leaves without making new
neighbours. That is enough once the TSNs lie in one window.
-/

namespace Sctp

/-- No TSN is both before and behind another. -/
theorem not_sna32lt_of_sna32lt (a b : U32) (h : sna32lt a b = true) : ¬ sna32lt b a = true := by
  have hab := (sna32lt_iff a b).mp h
  intro hba
  rw [sna32lt_iff] at hba
  have hne : a ≠ b := by
    intro heq
    rw [heq, Serial.dist_self] at hab
    omega
  have hback : Serial.dist b a = 2 ^ 32 - Serial.dist a b := Serial.dist_comm_of_ne hne
  omega

/-- In a window of less than half the space `sna32lt` is the order of the distances. -/
theorem ranksOn_dist {base : U32} {l : List U32} (h : ∀ t ∈ l, Serial.dist base t < 2 ^ 31) :
    StableSort.RanksOn sna32lt (Serial.dist base) l := by
  intro a ha b hb
  have hda := h a ha
  have hdb := h b hb
  have hhalf : Serial.half 32 = 2 ^ 31 := rfl
  exact Serial.lt_iff_dist_lt (by decide) (by omega) (by omega)

namespace PayloadQueue

variable {q q' : PayloadQueue}

/-- What every operation keeps. -/
structure Coherent (q : PayloadQueue) : Prop extends q.WF where
  nBytes_eq : q.nBytes = q.chunkMap.sumOf (·.userData.length)
  neighbours : q.sorted.IsChain fun t t' => ¬ sna32lt t' t = true

/-- An empty queue. -/
theorem Coherent.new : Coherent {} where
  toWF := WF.new
  nBytes_eq := rfl
  neighbours := List.isChain_nil

/-- An entry has no more bytes than the queue. -/
theorem Coherent.length_le (h : q.Coherent) {t : U32} {c : ChunkPayloadData}
    (hc : q.get t = some c) : c.userData.length ≤ q.nBytes := by
  have hsum := AssocMap.sumOf_erase hc (·.userData.length)
  rw [h.nBytes_eq, hsum]
  exact Nat.le_add_right ..

/-! ## The operations -/

/-- A push of a new TSN. -/
theorem Coherent.pushNoCheck (h : q.Coherent) {p : ChunkPayloadData} (hp : p.tsn ∉ q.chunkMap) :
    (q.pushNoCheck p).Coherent where
  toWF := h.toWF.pushNoCheck hp
  nBytes_eq := by
    show q.nBytes + p.userData.length = AssocMap.sumOf _ (q.chunkMap.insert p.tsn p)
    rw [AssocMap.sumOf_insert_of_notMem hp, h.nBytes_eq, Nat.add_comm]
  neighbours := StableSort.isChain_sortBy not_sna32lt_of_sna32lt _

/-- `push` does not push a TSN that is there. -/
theorem Coherent.push (h : q.Coherent) (p : ChunkPayloadData) (cumulativeTsn : U32) :
    (q.push p cumulativeTsn).1.Coherent := by
  unfold PayloadQueue.push
  split
  · exact ⟨⟨h.nodup, h.mem_iff, h.tsn_eq, h.length_eq⟩, h.nBytes_eq, h.neighbours⟩
  · rename_i hnew
    rw [not_or] at hnew
    exact h.pushNoCheck hnew.1

/-- What is popped is the entry of the oldest TSN. -/
theorem Coherent.pop_some (h : q.Coherent) {t : U32} {c : ChunkPayloadData}
    (hpop : (q.pop t).2 = some c) : q.get t = some c ∧ 0 < q.length ∧ (q.pop t).1.Coherent := by
  have hhead : q.sorted.head? = some t := by
    by_contra hne
    rw [pop_of_head?_ne hne] at hpop
    cases hpop
  obtain ⟨rest, hs⟩ := List.head?_eq_some_iff.mp hhead
  obtain ⟨c', q', heq, hget, hrest, hmap, hwf⟩ := h.toWF.pop_head hs
  rw [heq] at hpop ⊢
  have hc : c' = c := Option.some.inj hpop
  subst hc
  have hbytes : q'.nBytes = q.nBytes - c'.userData.length := nBytes_pop heq
  refine ⟨hget, ?_, hwf, ?_, ?_⟩
  · rw [h.length_eq, hs]
    exact Nat.succ_pos _
  · have hsum := AssocMap.sumOf_erase hget (·.userData.length)
    rw [hbytes, h.nBytes_eq, hmap]
    omega
  · rw [hrest]
    have hchain := h.neighbours
    rw [hs] at hchain
    exact (List.isChain_cons.mp hchain).2

/-- A pop takes the TSN out of the list and of the map. -/
theorem Coherent.pop (h : q.Coherent) (t : U32) : (q.pop t).1.Coherent := by
  cases hpop : (q.pop t).2 with
  | some c => exact (h.pop_some hpop).2.2
  | none =>
    have hne : q.sorted.head? ≠ some t := by
      intro hhead
      obtain ⟨rest, hs⟩ := List.head?_eq_some_iff.mp hhead
      obtain ⟨c, q', heq, _⟩ := h.toWF.pop_head hs
      rw [heq] at hpop
      cases hpop
    rw [pop_of_head?_ne hne]
    exact h

/-- An acknowledged chunk loses its data, which is counted off. -/
theorem Coherent.markAsAcked (h : q.Coherent) (t : U32) : (q.markAsAcked t).1.Coherent := by
  have ht := Touched.markAsAcked q t
  refine ⟨ht.wf h.toWF, ?_, ht.sorted ▸ h.neighbours⟩
  unfold PayloadQueue.markAsAcked
  split
  · rename_i c hc
    let f (c : ChunkPayloadData) : ChunkPayloadData :=
      { c with acked := true, retransmit := false, userData := [] }
    have hsum := AssocMap.sumOf_modify hc f (·.userData.length)
    have hnil : (f c).userData.length = 0 := rfl
    show q.nBytes - c.userData.length = AssocMap.sumOf (·.userData.length) (q.chunkMap.modify t f)
    rw [h.nBytes_eq]
    omega
  · exact h.nBytes_eq

/-- Marking changes no bytes. -/
theorem Coherent.markAllToRetransmit (h : q.Coherent) (flags : SharedFlags) :
    (q.markAllToRetransmit flags).Coherent := by
  have ht := Touched.markAllToRetransmit q flags
  refine ⟨ht.wf h.toWF, ?_, ht.sorted ▸ h.neighbours⟩
  show q.nBytes = _
  rw [h.nBytes_eq]
  refine (AssocMap.sumOf_mapVals (fun _ c => ?_) q.chunkMap).symm
  split <;> rfl

/-- **One operation** that pushes no TSN twice. -/
theorem Coherent.applyOp (q : PayloadQueue) (op : PayloadOp) (hop : q.PushesNew op)
    (h : q.Coherent) : (q.applyOp op).Coherent := by
  cases op with
  | push p cumulativeTsn => exact h.push p cumulativeTsn
  | pushNoCheck p => exact h.pushNoCheck hop
  | pop t => exact h.pop t
  | markAsAcked t => exact h.markAsAcked t
  | markAllToRetransmit flags => exact h.markAllToRetransmit flags
  | popDuplicates => exact ⟨⟨h.nodup, h.mem_iff, h.tsn_eq, h.length_eq⟩, h.nBytes_eq, h.neighbours⟩

/-! ## What it comes to -/

/-- A coherent queue represents its chunks. -/
theorem Coherent.represents (h : q.Coherent) : q.Represents where
  sorted_perm := by
    rw [List.perm_ext_iff_of_nodup h.nodup q.chunkMap.keys_nodup]
    intro t
    rw [h.mem_iff t, AList.mem_keys]
  length_eq := by rw [h.toWF.len_eq, h.length_eq]
  nBytes_eq := h.nBytes_eq
  increasing base hwindow := by
    have hnear : ∀ t ∈ q.sorted, Serial.dist base t < 2 ^ 31 :=
      fun t ht => hwindow t ((h.mem_iff t).mp ht)
    have hranks := ranksOn_dist hnear
    have hinj : (q.sorted.map (Serial.dist base)).Nodup :=
      List.Nodup.map (fun x y => Serial.dist_inj) h.nodup
    refine (StableSort.pairwise_lt_of_isChain hranks hinj h.neighbours).imp_of_mem ?_
    intro t t' ht ht' hlt
    exact (hranks t ht t' ht').mpr hlt

/-- And never counts off more than it has. -/
theorem Coherent.noUnderflow (h : q.Coherent) (op : PayloadOp) : q.NoUnderflow op := by
  cases op with
  | pop t =>
    intro c hpop
    obtain ⟨hget, hpos, _⟩ := h.pop_some hpop
    exact ⟨hpos, h.length_le hget⟩
  | markAsAcked t => exact fun c hc => h.length_le hc
  | push | pushNoCheck | markAllToRetransmit | popDuplicates => trivial

/-- An entry is marked only by taking its data away. -/
theorem Each.applyOp (q : PayloadQueue) (op : PayloadOp) (hop : op.PushesBare)
    (h : q.Each ChunkPayloadData.BareIfAcked) :
    (q.applyOp op).Each ChunkPayloadData.BareIfAcked := by
  cases op with
  | push p cumulativeTsn =>
    show (q.push p cumulativeTsn).1.Each _
    unfold PayloadQueue.push
    split
    · exact h
    · exact h.pushNoCheck hop
  | pushNoCheck p => exact h.pushNoCheck hop
  | pop t => exact h.pop t
  | markAsAcked t => exact h.markAsAcked t fun c _ _ => ⟨rfl, rfl⟩
  | markAllToRetransmit flags =>
    refine h.markAllToRetransmit flags fun c _ hacked hset => ?_
    have hset' : c.acked = true := hset
    rw [hacked] at hset'
    cases hset'
  | popDuplicates => exact h

/-- **The representation invariant** of the payload queue. Only the last part asks that nothing
is pushed that is marked as acknowledged and has data. -/
theorem represents_of_run (ops : List PayloadOp) (h : Runs.Along applyOp PushesNew new ops) :
    (Runs.run applyOp new ops).Represents ∧ Runs.Along applyOp NoUnderflow new ops ∧
      ((∀ op ∈ ops, op.PushesBare) → (Runs.run applyOp new ops).AckedBare) := by
  have hnew : new.Coherent := Coherent.new
  refine ⟨(Runs.run_invariant_along Coherent.applyOp hnew h).represents, ?_, ?_⟩
  · exact Runs.along_of_invariant Coherent.applyOp (fun q op _ hq => hq.noUnderflow op) hnew h
  · intro hbare
    have halong : Runs.Along applyOp (fun _ op => op.PushesBare) new ops :=
      Runs.along_of_forall new hbare
    have heach : new.Each ChunkPayloadData.BareIfAcked := Each.new
    exact fun t c hc => (Runs.run_invariant_along Each.applyOp heach halong t c hc).2

/-- TSNs on both sides of the wrap, one of them acknowledged twice and popped. -/
def wrappingOps : List PayloadOp :=
  [.push { tsn := 1, userData := [1, 2] } 0xfffffff0, .pushNoCheck { tsn := 0xffffffff, userData := [3] },
    .markAsAcked 0xffffffff, .markAsAcked 0xffffffff, .push { tsn := 1 } 0xfffffff0, .popDuplicates,
    .markAllToRetransmit [], .pop 0xffffffff]

theorem represents_wrappingOps : (Runs.run applyOp new wrappingOps).Represents ∧
    (Runs.run applyOp new wrappingOps).AckedBare :=
  have h := represents_of_run wrappingOps (by decide +kernel)
  ⟨h.1, h.2.2 (by simp [wrappingOps, PayloadOp.PushesBare, ChunkPayloadData.BareIfAcked])⟩

/-- A chunk that is marked as acknowledged by who pushes it keeps its data. -/
theorem not_ackedBare_pushed : Runs.Along applyOp PushesNew new
      [.push { tsn := 1, userData := [1], acked := true } 0] ∧
    ¬ (Runs.run applyOp new [.push { tsn := 1, userData := [1], acked := true } 0]).AckedBare := by
  refine ⟨by decide +kernel, ?_⟩
  intro h
  have hbare := h 1 { tsn := 1, userData := [1], acked := true } rfl rfl
  cases hbare.1

end PayloadQueue

end Sctp
