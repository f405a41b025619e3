import Sctp.Association.WindowCredit
import Sctp.Queue.ReassemblyTheorems

/-!
# When the advertised window is what is left

The counters of the queues are exact, whatever happens to them. They are added up in 32 bits.
-/

namespace Sctp

namespace AssociationInternal

variable {a : AssociationInternal}

/-- A sum in `u32`s is the sum modulo 2³². -/
theorem foldl_add_ofNat {α : Type*} (f : α → ℕ) (l : List α) (n : U32) :
    (l.foldl (fun n x => n + BitVec.ofNat 32 (f x)) n).toNat = (n.toNat + (l.map f).sum) % 2 ^ 32 := by
  induction l generalizing n with
  | nil => exact (Nat.mod_eq_of_lt n.isLt).symm
  | cons x l ih =>
    rw [List.foldl_cons, ih, BitVec.toNat_add, BitVec.toNat_ofNat, List.map_cons, List.sum_cons]
    omega

theorem toNat_bytesQueued (h : a.QueuesRun) : a.bytesQueued.toNat = a.heldTotal % 2 ^ 32 := by
  unfold bytesQueued
  rw [foldl_add_ofNat fun e : Sigma fun _ : U16 => StreamRef =>
    (a.objects[e.2]?.map (·.getNumBytesInReassemblyQueue)).getD 0]
  have hsum : (a.streams.entries.map fun e =>
      (a.objects[e.2]?.map (·.getNumBytesInReassemblyQueue)).getD 0).sum = a.heldTotal := by
    unfold heldTotal AssocMap.sumOf AssocMap.values
    rw [List.map_map]
    congr 1
    refine List.map_congr_left fun e he => ?_
    show _ = (a.objects[e.2]?.map (·.reassemblyQueue.heldBytes)).getD 0
    cases hs : a.objects[e.2]? with
    | none => rfl
    | some s =>
      obtain ⟨si', ops, hfresh, hrun⟩ := h e.1 e.2 s (AList.mem_lookup_iff.mpr he) hs
      have hcount := (ReassemblyQueue.countsHeld_of_run hfresh).1
      rw [← hrun] at hcount
      exact hcount
  rw [hsum]
  show (0 + a.heldTotal) % 2 ^ 32 = _
  rw [Nat.zero_add]

/-- The window is right unless the sum has wrapped and fits in again. -/
theorem advertisesRest_iff (h : a.QueuesRun) : a.AdvertisesRest ↔
    a.heldTotal < 2 ^ 32 ∨ a.maxReceiveBufferSize.toNat ≤ a.heldTotal % 2 ^ 32 := by
  have hqueued := toNat_bytesQueued h
  have hmax := a.maxReceiveBufferSize.isLt
  unfold AdvertisesRest getMyReceiverWindowCredit
  by_cases hge : a.bytesQueued ≥ a.maxReceiveBufferSize
  · have hle : a.maxReceiveBufferSize.toNat ≤ a.bytesQueued.toNat := hge
    rw [if_pos hge]
    show 0 = _ ↔ _
    omega
  · have hlt : a.bytesQueued.toNat < a.maxReceiveBufferSize.toNat := Nat.lt_of_not_le hge
    have hsub : (a.maxReceiveBufferSize - a.bytesQueued).toNat =
        a.maxReceiveBufferSize.toNat - a.bytesQueued.toNat :=
      BitVec.toNat_sub_of_le (BitVec.le_of_lt hlt)
    rw [if_neg hge, hsub]
    omega

/-- **The receive window counts the bytes held**: `n_bytes` always, the advertised window unless
the bytes of all streams do not fit into 32 bits. -/
theorem advertisesRest_of_countsHeld {si : U16} {ops : List ReassemblyOp}
    (hops : Runs.Along ReassemblyQueue.applyOp ReassemblyQueue.PushesFresh (ReassemblyQueue.new si) ops)
    (ha : a.QueuesRun) :
    (Runs.run ReassemblyQueue.applyOp (ReassemblyQueue.new si) ops).CountsHeld ∧
      Runs.Along ReassemblyQueue.applyOp ReassemblyQueue.NeverSaturates (ReassemblyQueue.new si) ops ∧
      (a.AdvertisesRest ↔
        a.heldTotal < 2 ^ 32 ∨ a.maxReceiveBufferSize.toNat ≤ a.heldTotal % 2 ^ 32) := by
  obtain ⟨hcount, hsat⟩ := ReassemblyQueue.countsHeld_of_run hops
  exact ⟨hcount, hsat, advertisesRest_iff ha⟩

/-! ## Four gigabytes of fragments -/

/-- A middle fragment of 1024 bytes. -/
def middleFragment (tsn : U32) : ChunkPayloadData :=
  { tsn, unordered := true, userData := List.replicate 1024 0 }

/-- Middle fragments under the first `n` TSNs. -/
def fragmentPushes (n : ℕ) : List ReassemblyOp :=
  (List.range n).map fun i => .push (middleFragment (BitVec.ofNat 32 i))

/-- All of them are kept. -/
theorem fragmentPushes_run {n : ℕ} (hn : n ≤ 2 ^ 32) :
    let q := Runs.run ReassemblyQueue.applyOp (ReassemblyQueue.new 0) (fragmentPushes n)
    Runs.Along ReassemblyQueue.applyOp ReassemblyQueue.PushesFresh (ReassemblyQueue.new 0)
      (fragmentPushes n) ∧ q.si = 0 ∧ q.nBytes = n * 1024 ∧
        ∀ c ∈ q.held, ∃ i < n, c.tsn = BitVec.ofNat 32 i := by
  induction n with
  | zero => exact ⟨trivial, rfl, rfl, fun c hc => absurd hc List.not_mem_nil⟩
  | succ n ih =>
    obtain ⟨halong, hsi, hbytes, hheld⟩ := ih (by omega)
    have hops : fragmentPushes (n + 1) =
        fragmentPushes n ++ [.push (middleFragment (BitVec.ofNat 32 n))] := by
      unfold fragmentPushes
      rw [List.range_succ, List.map_append]
      rfl
    rw [hops, Runs.run_append, Runs.along_append, Runs.run_cons, Runs.run_nil]
    dsimp only
    generalize Runs.run ReassemblyQueue.applyOp (ReassemblyQueue.new 0) (fragmentPushes n) = q at *
    -- the TSNs do not come round again below 2³² fragments
    have hfresh : q.PushesFresh (.push (middleFragment (BitVec.ofNat 32 n))) := by
      intro c hc heq
      obtain ⟨i, hi, htsn⟩ := hheld c hc
      rw [htsn] at heq
      have hnat := congrArg BitVec.toNat heq
      rw [BitVec.toNat_ofNat, Nat.mod_eq_of_lt (by omega)] at hnat
      have hn' : (BitVec.ofNat 32 n).toNat = n := by
        rw [BitVec.toNat_ofNat, Nat.mod_eq_of_lt (by omega)]
      have hnat' : i = (BitVec.ofNat 32 n).toNat := hnat
      omega
    have hacc : q.accepted (.push (middleFragment (BitVec.ofNat 32 n))) =
        [middleFragment (BitVec.ofNat 32 n)] := by
      rw [ReassemblyQueue.accepted_push, if_pos]
      unfold ReassemblyQueue.accepts
      rw [hsi]
      rfl
    refine ⟨⟨halong, hfresh, trivial⟩, ?_, ?_, ?_⟩
    · exact (q.si_applyOp _).trans hsi
    · have hadd := q.nBytes_applyOp (.push (middleFragment (BitVec.ofNat 32 n)))
      have hone : chunksBytes [middleFragment (BitVec.ofNat 32 n)] = 1024 := by
        show (List.replicate 1024 (0 : BitVec 8)).length + 0 = 1024
        rw [List.length_replicate]
      have hnone : chunksBytes (q.taken (.push (middleFragment (BitVec.ofNat 32 n))) ++
        q.discarded (.push (middleFragment (BitVec.ofNat 32 n)))) = 0 := rfl
      rw [hacc, hone, hnone, hbytes] at hadd
      rw [hadd]
      omega
    · intro c hc
      have hperm := ReassemblyQueue.held_applyOp hfresh
      rw [hacc] at hperm
      have hmem := hperm.mem_iff.mpr (List.mem_append_left _ hc)
      rcases List.mem_append.mp hmem with hold | hnew
      · obtain ⟨i, hi, htsn⟩ := hheld c hold
        exact ⟨i, by omega, htsn⟩
      · rw [List.mem_singleton.mp hnew]
        exact ⟨n, by omega, rfl⟩

/-- The queue of a stream after the fragments have come in. -/
def fragmentsQueue (n : ℕ) : ReassemblyQueue :=
  Runs.run ReassemblyQueue.applyOp (ReassemblyQueue.new 0) (fragmentPushes n)

/-- An association whose one stream has the queue. -/
def withFragments (n : ℕ) : AssociationInternal :=
  { maxReceiveBufferSize := initialRecvBufSize
    streams := (∅ : AssocMap U16 StreamRef).insert 0 0
    objects := [{ reassemblyQueue := fragmentsQueue n }] }

theorem queuesRun_withFragments {n : ℕ} (hn : n ≤ 2 ^ 32) : (withFragments n).QueuesRun := by
  intro si r s hr hs
  have hzero : si = 0 ∧ r = 0 := by
    have hr' : ((∅ : AssocMap U16 StreamRef).insert 0 0).lookup si = some r := hr
    by_cases hsi : si = 0
    · rw [hsi, AList.lookup_insert] at hr'
      exact ⟨hsi, (Option.some.inj hr').symm⟩
    · rw [AList.lookup_insert_ne hsi] at hr'
      cases hr'
  rw [hzero.2] at hs
  have hs' : ({ reassemblyQueue := fragmentsQueue n } : Stream) = s := Option.some.inj hs
  exact ⟨0, fragmentPushes n, (fragmentPushes_run hn).1, by rw [← hs']; rfl⟩

theorem heldTotal_withFragments {n : ℕ} (hn : n ≤ 2 ^ 32) :
    (withFragments n).heldTotal = n * 1024 := by
  obtain ⟨halong, _, hbytes, _⟩ := fragmentPushes_run hn
  have hcount := (ReassemblyQueue.countsHeld_of_run halong).1
  unfold ReassemblyQueue.CountsHeld at hcount
  rw [hbytes] at hcount
  have hinsert := AssocMap.sumOf_insert_of_notMem (AList.notMem_empty (0 : U16)) (0 : StreamRef)
    fun r => ((withFragments n).objects[r]?.map (·.reassemblyQueue.heldBytes)).getD 0
  exact hinsert.trans hcount.symm

theorem advertisesRest_withFragments : (withFragments 1).AdvertisesRest ∧
    (fragmentsQueue 1).CountsHeld := by
  have h := advertisesRest_of_countsHeld (fragmentPushes_run (n := 1) (by decide)).1
    (queuesRun_withFragments (n := 1) (by decide))
  refine ⟨h.2.2.mpr (Or.inl ?_), h.1⟩
  rw [heldTotal_withFragments (by decide)]
  decide

/-- Four gigabytes are held, and the whole window is advertised. -/
theorem not_advertisesRest_withFragments : (withFragments (2 ^ 22)).QueuesRun ∧
    ¬ (withFragments (2 ^ 22)).AdvertisesRest := by
  have hrun : (withFragments (2 ^ 22)).QueuesRun := queuesRun_withFragments (by decide)
  refine ⟨hrun, ?_⟩
  rw [advertisesRest_iff hrun, heldTotal_withFragments (by decide)]
  show ¬ (_ ∨ initialRecvBufSize.toNat ≤ _)
  decide

end AssociationInternal

end Sctp
