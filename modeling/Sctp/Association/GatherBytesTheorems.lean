import Mathlib.Algebra.BigOperators.Group.List.Basic
import Sctp.Association.NewDataTheorems
import Sctp.Association.SenderNotesTheorems
import Sctp.Association.TransmissionTheorems

/-!
# Gathering moves bytes into flight

The bytes that leave the pending queue are in flight afterwards, under TSNs that were free;
what was in flight is sent again as it was.
-/

namespace Sctp

namespace PendingQueue

variable {q q' : PendingQueue} {out : List ChunkPayloadData} {kind : ChunkPayloadData → Bool}

theorem Gives.filled (h : q.Gives out q') (hq : q.Filled) : q'.Filled := by
  induction h with
  | nil => exact hq
  | snoc h hpeek hpop ih =>
    have hfilled := ih.pop hpeek
    rwa [hpop] at hfilled

theorem Gives.bytesOf (h : q.Gives out q') :
    q.bytesOf kind = q'.bytesOf kind + (out.map (·.bytesIf kind)).sum := by
  induction h with
  | nil => rfl
  | snoc h hpeek hpop ih =>
    rename_i q₁ q₂ out c
    have hone := @bytesOf_pop kind q₁ c.beginningFragment c.unordered
    rw [hpop] at hone
    have hq₁ : q₁.bytesOf kind = q₂.bytesOf kind + c.bytesIf kind := hone
    rw [ih, hq₁, List.map_append, List.sum_append, List.map_singleton, List.sum_singleton]
    omega

theorem Gives.each {Q : ChunkPayloadData → Prop} (h : q.Gives out q') (hq : q.Each Q) :
    q'.Each Q ∧ ∀ c ∈ out, Q c := by
  induction h with
  | nil => exact ⟨hq, fun c hc => absurd hc List.not_mem_nil⟩
  | snoc h hpeek hpop ih =>
    rename_i q₁ q₂ out c
    have hpopped := ih.1.pop c.beginningFragment c.unordered
    rw [hpop] at hpopped
    refine ⟨hpopped.1, ?_⟩
    intro d hd
    rcases List.mem_append.mp hd with hold | hnew
    · exact ih.2 d hold
    · rw [List.mem_singleton.mp hnew]
      exact hpopped.2 c rfl

end PendingQueue

/-- Consecutive TSNs do not come round again. -/
theorem nodup_of_consecutive {chunks : List ChunkPayloadData} {base : U32}
    (htsns : ∀ i c, chunks[i]? = some c → c.tsn = base.after i) (hlen : chunks.length ≤ 2 ^ 32) :
    (chunks.map (·.tsn)).Nodup := by
  have hdist : ∀ i (hi : i < chunks.length), Serial.dist base chunks[i].tsn = i := by
    intro i hi
    rw [htsns i _ (List.getElem?_eq_getElem hi)]
    exact dist_after base (by omega)
  rw [List.Nodup, List.pairwise_map, List.pairwise_iff_getElem]
  intro i j hi hj hlt heq
  have hsame : Serial.dist base chunks[i].tsn = Serial.dist base chunks[j].tsn := by rw [heq]
  rw [hdist i hi, hdist j hj] at hsame
  omega

namespace AssociationInternal

variable {a b : AssociationInternal} {now : ℕ} {out chunks : List ChunkPayloadData} {sis : List U16}

/-- Moving into flight changes none of the bytes, and markers have none. -/
theorem TakesOut.bytes (h : TakesOut a b now out chunks sis) {kind : ChunkPayloadData → Bool}
    (hkind : ∀ (c : ChunkPayloadData) tsn, kind (AssociationInternal.numbered c tsn now) = kind c) :
    (chunks.map (·.bytesIf kind)).sum = (out.map (·.bytesIf kind)).sum := by
  have hone : ∀ (c : ChunkPayloadData) tsn,
      (AssociationInternal.numbered c tsn now).bytesIf kind = c.bytesIf kind := by
    intro c tsn
    show (if kind (AssociationInternal.numbered c tsn now) then _ else _) = if kind c then _ else _
    rw [hkind]
    rfl
  have hnumbered : chunks.map (·.bytesIf kind) =
      (out.filter fun c => !c.userData.isEmpty).map (·.bytesIf kind) := by
    rw [h.numbered]
    apply List.ext_getElem?
    intro i
    rw [List.getElem?_map, List.getElem?_mapIdx, Option.map_map, List.getElem?_map]
    exact Option.map_congr fun c _ => hone c _
  have hmarkers : ∀ l : List ChunkPayloadData,
      ((l.filter fun c => !c.userData.isEmpty).map (·.bytesIf kind)).sum =
        (l.map (·.bytesIf kind)).sum := by
    intro l
    induction l with
    | nil => rfl
    | cons c l ih =>
      rw [List.map_cons, List.sum_cons, ← ih]
      by_cases hdata : c.userData = []
      · rw [List.filter_cons_of_neg (by simp [hdata]), ChunkPayloadData.bytesIf_of_empty hdata,
          Nat.zero_add]
      · rw [List.filter_cons_of_pos (by simpa using hdata), List.map_cons, List.sum_cons]
  rw [hnumbered, hmarkers]

theorem TakesOut.each (h : TakesOut a b now out chunks sis) {Q : ChunkPayloadData → Prop}
    (hQ : ∀ (c : ChunkPayloadData) tsn, Q c → Q (AssociationInternal.numbered c tsn now))
    (hout : ∀ c ∈ out, Q c) : ∀ c ∈ chunks, Q c := by
  intro c hc
  rw [h.numbered, List.mem_mapIdx] at hc
  obtain ⟨i, hi, rfl⟩ := hc
  exact hQ _ _ (hout _ (List.mem_of_mem_filter (List.getElem_mem hi)))

theorem TakesOut.data (h : TakesOut a b now out chunks sis) : ∀ c ∈ chunks, c.userData ≠ [] := by
  intro c hc
  rw [h.numbered, List.mem_mapIdx] at hc
  obtain ⟨i, hi, rfl⟩ := hc
  have hdata := List.of_mem_filter (List.getElem_mem hi)
  show (out.filter fun c => !c.userData.isEmpty)[i].userData ≠ []
  simpa using hdata

/-- The window of the peer bounds how many chunks go out at once. -/
theorem WithinWindows.length_le (h : WithinWindows a b chunks)
    (hdata : ∀ c ∈ chunks, c.userData ≠ []) : chunks.length ≤ 2 ^ 32 := by
  cases h with
  | data _ hfits _ =>
    have hbytes : chunks.length ≤ chunksBytes chunks := by
      unfold chunksBytes
      rw [← List.length_map (f := fun c : ChunkPayloadData => c.userData.length)]
      apply List.length_le_sum_of_one_le
      intro n hn
      obtain ⟨c, hc, rfl⟩ := List.mem_map.mp hn
      exact List.length_pos_iff.mpr (hdata c hc)
    have hrwnd := hfits.rwnd
    have hlt := a.rwnd.isLt
    omega
  | probe _ _ _ _ => exact Nat.one_le_two_pow
  | nothing _ _ _ _ => exact Nat.zero_le _

/-! ## All of gathering -/

/-- What gathering pops goes into flight with the next TSNs, or is a marker. -/
structure Passes (a b : AssociationInternal) (now : ℕ) (chunks : List ChunkPayloadData) : Prop where
  nodup : (chunks.map (·.tsn)).Nodup
  payloads : (chunks.foldl PayloadQueue.pushNoCheck a.inflightQueue).SamePayloads b.inflightQueue
  popped : ∃ out, a.pendingQueue.Gives out b.pendingQueue ∧
    (∀ kind, (∀ (c : ChunkPayloadData) tsn,
        kind (AssociationInternal.numbered c tsn now) = kind c) →
      (chunks.map (·.bytesIf kind)).sum = (out.map (·.bytesIf kind)).sum) ∧
    ∀ Q : ChunkPayloadData → Prop, (∀ (c : ChunkPayloadData) tsn, Q c →
      Q (AssociationInternal.numbered c tsn now)) → (∀ c ∈ out, Q c) → ∀ c ∈ chunks, Q c

/-- What is popped when packets are gathered is taken out of the pending queue. -/
theorem gather_takesOut (hfilled : a.pendingQueue.Filled) (hstate : a.state = .established)
    (now : ℕ) :
    let b := ({ a with controlQueue := [] }.getDataPacketsToRetransmit now).1
    let r := { a with controlQueue := [] }.popped now
    ∃ out, TakesOut b r.1 now out r.2.1 r.2.2 ∧ WithinWindows b r.1 r.2.1 ∧
      b.pendingQueue = a.pendingQueue ∧ b.myNextTsn = a.myNextTsn ∧
      (a.gatherOutbound now).1.pendingQueue = r.1.pendingQueue := by
  intro b r
  have hqueue : b.pendingQueue = a.pendingQueue :=
    getDataPacketsToRetransmit_frame (f := pendingQueue) (fun _ _ _ => rfl) _ now
  have hnext : b.myNextTsn = a.myNextTsn :=
    getDataPacketsToRetransmit_frame (f := myNextTsn) (fun _ _ _ => rfl) _ now
  obtain ⟨out, htakes, hwithin, _⟩ := popPending_withinWindows (hqueue ▸ hfilled) now
  have hspoken := (gatherOutbound_spec (r := r) hstate now rfl).1
  exact ⟨out, htakes, hwithin, hqueue, hnext, (congrArg pendingQueue hspoken :)⟩

/-- **What gathering does to the two queues**: it takes chunks out of the one, and those with data
join the other under the next TSNs. -/
theorem gather_passes (hfilled : a.pendingQueue.Filled) (htsns : a.inflightQueue.Each fun _ => True)
    (now : ℕ) :
    Passes a (a.gatherOutbound now).1 now (a.assigns (.gather now)) := by
  have hpayloads : ((a.assigns (.gather now)).foldl PayloadQueue.pushNoCheck
      a.inflightQueue).SamePayloads (a.gatherOutbound now).1.inflightQueue := by
    obtain ⟨q, hbefore, hafter⟩ := gather_onlyNotes a now
    exact (hbefore.payloads.pushes _).trans hafter.payloads
  by_cases hstate : a.state = .established
  · obtain ⟨out, htakes, hwithin, hqueue, _, hfinal⟩ := gather_takesOut hfilled hstate now
    have hassigns : a.assigns (.gather now) = ({ a with controlQueue := [] }.popped now).2.1 :=
      if_pos hstate
    rw [hassigns] at hpayloads ⊢
    have hnodup := nodup_of_consecutive htakes.tsns (hwithin.length_le htakes.data)
    have hgives := htakes.gives
    rw [hqueue, ← hfinal] at hgives
    exact ⟨hnodup, hpayloads, out, hgives, fun _ hkind => htakes.bytes hkind,
      fun _ hQ hout => htakes.each hQ hout⟩
  · have hnone : a.assigns (.gather now) = [] := if_neg hstate
    rw [hnone] at hpayloads ⊢
    have hquiet := gather_each_of_ne (Q := fun _ => True) (E := fun _ => True)
      ⟨fun _ _ _ => ⟨trivial, trivial⟩, fun _ _ _ => ⟨trivial, trivial⟩⟩ hstate now htsns
    refine ⟨List.nodup_nil, hpayloads, [], ?_, fun _ _ => rfl,
      fun _ _ _ _ hc => absurd hc List.not_mem_nil⟩
    rw [hquiet.2.2.1]
    exact PendingQueue.Gives.nil _

end AssociationInternal

end Sctp
