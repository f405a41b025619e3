import Sctp.Association.SenderNotesTheorems
import Sctp.Association.SenderCallTheorems

/-!
# TSNs that are free

The map of the queue in flight holds one chunk for each TSN, while `length` counts every push.
Once a TSN is given again while it is in flight the two differ, and nothing makes up for it, so
the assertion in `len` fails from then on.
-/

namespace Sctp

namespace PayloadQueue

variable {q q' : PayloadQueue} {k : ℕ}

/-- `k` pushes at least have put a chunk in the place of another. -/
def Exceeds (k : ℕ) (q : PayloadQueue) : Prop := q.len + k ≤ q.length

theorem Exceeds.pushNoCheck (h : q.Exceeds k) (p : ChunkPayloadData) :
    (q.pushNoCheck p).Exceeds k := by
  show (q.chunkMap.insert p.tsn p).keys.length + k ≤ q.length + 1
  have hlen : q.chunkMap.keys.length + k ≤ q.length := h
  have hle := List.length_erase_le (l := q.chunkMap.keys) (a := p.tsn)
  rw [AList.keys_insert, List.length_cons]
  omega

theorem Exceeds.pushNoCheck_of_mem (h : q.Exceeds k) {p : ChunkPayloadData}
    (hp : p.tsn ∈ q.chunkMap) : (q.pushNoCheck p).Exceeds (k + 1) := by
  show (q.chunkMap.insert p.tsn p).keys.length + (k + 1) ≤ q.length + 1
  have hlen : q.chunkMap.keys.length + k ≤ q.length := h
  have hpos := List.length_pos_of_mem (AList.mem_keys.mp hp)
  rw [AList.keys_insert, List.length_cons, List.length_erase_of_mem (AList.mem_keys.mp hp)]
  omega

theorem Exceeds.pushes (h : q.Exceeds k) (chunks : List ChunkPayloadData) :
    (chunks.foldl PayloadQueue.pushNoCheck q).Exceeds k := by
  induction chunks generalizing q with
  | nil => exact h
  | cons p chunks ih => exact ih (h.pushNoCheck p)

theorem Exceeds.pushes_of_mem (h : q.Exceeds k) {chunks : List ChunkPayloadData}
    {p : ChunkPayloadData} (hp : p ∈ chunks) (hmem : p.tsn ∈ q.chunkMap) :
    (chunks.foldl PayloadQueue.pushNoCheck q).Exceeds (k + 1) := by
  induction chunks generalizing q with
  | nil => cases hp
  | cons p' chunks ih =>
    rcases List.mem_cons.mp hp with heq | hlater
    · rw [heq] at hmem
      exact (h.pushNoCheck_of_mem hmem).pushes chunks
    · exact ih (h.pushNoCheck p') hlater ((Ahead.mem_pushNoCheck q p' p.tsn).mpr (Or.inl hmem))

theorem Exceeds.pushes_of_not_nodup (h : q.Exceeds k) {chunks : List ChunkPayloadData}
    (hdup : ¬ (chunks.map (·.tsn)).Nodup) :
    (chunks.foldl PayloadQueue.pushNoCheck q).Exceeds (k + 1) := by
  induction chunks generalizing q with
  | nil => exact absurd List.nodup_nil hdup
  | cons p chunks ih =>
    by_cases hin : p.tsn ∈ chunks.map (·.tsn)
    · obtain ⟨p', hp', heq⟩ := List.mem_map.mp hin
      have hmem : p'.tsn ∈ (q.pushNoCheck p).chunkMap := by
        rw [Ahead.mem_pushNoCheck]
        exact Or.inr heq
      exact (h.pushNoCheck p).pushes_of_mem hp' hmem
    · rw [List.map_cons, List.nodup_cons] at hdup
      exact ih (h.pushNoCheck p) fun hnodup => hdup ⟨hin, hnodup⟩

theorem Exceeds.pop (h : q.Exceeds k) (t : U32) : (q.pop t).1.Exceeds k := by
  have hlen : q.chunkMap.keys.length + k ≤ q.length := h
  unfold PayloadQueue.pop
  split
  · exact h
  · split
    · split
      · rename_i c hc
        have hmem : t ∈ q.chunkMap.keys := by
          rw [← AList.mem_keys, ← AList.lookup_isSome, hc]
          rfl
        show (q.chunkMap.erase t).keys.length + k ≤ q.length - 1
        have hpos := List.length_pos_of_mem hmem
        rw [AList.keys_erase, List.length_erase_of_mem hmem]
        omega
      · exact h
    · exact h

theorem Exceeds.touched (h : q.Exceeds k) (ht : q.Touched q') : q'.Exceeds k := by
  unfold Exceeds
  rw [ht.len_eq, ht.length]
  exact h

end PayloadQueue

namespace AssociationInternal

open PayloadQueue

variable {a : AssociationInternal} {k : ℕ}

theorem sackKeeps_exceeds (k : ℕ) : SackKeeps (Exceeds k) where
  pop _ t h := h.pop t
  mark q t h := h.touched (Touched.markAsAcked q t)
  miss q t h := h.touched (Touched.getMut q t fun _ => rfl)

theorem exceeds_gatherOutbound (h : a.inflightQueue.Exceeds k) (now : ℕ) :
    (a.gatherOutbound now).1.inflightQueue.Exceeds k := by
  obtain ⟨q, hbefore, hafter⟩ := gather_onlyNotes a now
  exact ((h.touched hbefore.touched).pushes _).touched hafter.touched

/-- No operation makes up for a TSN that was given twice. -/
theorem exceeds_senderStep (h : a.inflightQueue.Exceeds k) (op : SenderOp) :
    (a.senderStep op).inflightQueue.Exceeds k := by
  by_cases hcall : op.isCall = true
  · rw [(called_senderStep (a := a) hcall).frame]
    exact h
  · cases op with
    | gather now => exact exceeds_gatherOutbound h now
    | t3Rtx => exact h.touched a.onT3RtxTimeout_touched
    | sack now d => exact (sackKeeps_exceeds k).handleSack now d h
    | _ => exact absurd rfl hcall

/-- An operation gives each TSN once, and none that is in flight. -/
def GivesTsnsOnce (a : AssociationInternal) (op : SenderOp) : Prop :=
  ((a.assigns op).map (·.tsn)).Nodup ∧ a.GivesFreeTsns op

/-- A TSN that is given twice is noticed. -/
theorem exceeds_of_not_once (h : a.inflightQueue.Exceeds k) {op : SenderOp}
    (hnot : ¬ a.GivesTsnsOnce op) : (a.senderStep op).inflightQueue.Exceeds (k + 1) := by
  cases op with
  | gather now =>
    obtain ⟨q, hbefore, hafter⟩ := gather_onlyNotes a now
    have hq : q.Exceeds k := h.touched hbefore.touched
    suffices hpushed : ((a.assigns (.gather now)).foldl PayloadQueue.pushNoCheck q).Exceeds (k + 1) from
      hpushed.touched hafter.touched
    by_cases hnodup : ((a.assigns (.gather now)).map (·.tsn)).Nodup
    · have hheld : ¬ a.GivesFreeTsns (.gather now) := fun hfree => hnot ⟨hnodup, hfree⟩
      unfold GivesFreeTsns at hheld
      push Not at hheld
      obtain ⟨c, hc, hmem⟩ := hheld
      exact hq.pushes_of_mem hc ((hbefore.touched.mem_iff c.tsn).mpr hmem)
    · exact hq.pushes_of_not_nodup hnodup
  | _ => exact absurd ⟨List.nodup_nil, fun c hc => absurd hc List.not_mem_nil⟩ hnot

/-- **The assertion of `len`.** If it holds at the end of a run, then no TSN was given while it
was in flight. -/
theorem givesTsnsOnce_of_lengthAgrees {ops : List SenderOp} (h : a.inflightQueue.Exceeds 0)
    (hend : (Runs.run senderStep a ops).inflightQueue.LengthAgrees) :
    Runs.Along senderStep GivesTsnsOnce a ops := by
  induction ops generalizing a with
  | nil => trivial
  | cons op ops ih =>
    refine ⟨?_, ih (exceeds_senderStep h op) hend⟩
    by_contra hnot
    have hmore : (Runs.run senderStep (a.senderStep op) ops).inflightQueue.Exceeds (0 + 1) :=
      Runs.run_invariant (I := fun s : AssociationInternal => s.inflightQueue.Exceeds (0 + 1))
        (fun _ op hs => exceeds_senderStep hs op) (exceeds_of_not_once h hnot) ops
    unfold Exceeds at hmore
    have hlen : (Runs.run senderStep (a.senderStep op) ops).inflightQueue.length =
      (Runs.run senderStep (a.senderStep op) ops).inflightQueue.len := hend
    omega

theorem givesFreeTsns_of_lengthAgrees {ops : List SenderOp} (h : a.inflightQueue.Exceeds 0)
    (hend : (Runs.run senderStep a ops).inflightQueue.LengthAgrees) :
    Runs.Along senderStep GivesFreeTsns a ops :=
  Runs.along_mono (fun _ _ honce => honce.2) (givesTsnsOnce_of_lengthAgrees h hend)

end AssociationInternal

end Sctp
