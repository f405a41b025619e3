import Sctp.Queue.PayloadQueueTheorems
import Sctp.Queue.PendingQueueTheorems

/-!
# What holds of every chunk of a queue

A property of all chunks that wait, or of all that are in flight, and what the operations of
the two queues do to it.
-/

namespace Sctp

variable {Q : ChunkPayloadData → Prop}

namespace PendingQueue

variable {q q' : PendingQueue} {c : ChunkPayloadData}

/-- Every chunk that waits has the property. -/
def Each (Q : ChunkPayloadData → Prop) (q : PendingQueue) : Prop := ∀ u, ∀ c ∈ queueOf q u, Q c

/-- An empty queue. -/
theorem Each.new : Each Q {} := by
  intro u c hc
  cases u <;> exact absurd hc List.not_mem_nil

/-- Pushing a chunk that has the property. -/
theorem Each.push (h : q.Each Q) (hc : Q c) : (q.push c).Each Q := by
  intro u c' hc'
  rcases mem_queueOf_push hc' with hold | rfl
  · exact h u c' hold
  · exact hc

/-- Pushing all chunks of a message. -/
theorem Each.pushes {chunks : List ChunkPayloadData} (h : q.Each Q) (hchunks : ∀ c ∈ chunks, Q c) :
    (chunks.foldl PendingQueue.push q).Each Q := by
  induction chunks generalizing q with
  | nil => exact h
  | cons c chunks ih =>
    exact ih (h.push (hchunks c List.mem_cons_self)) fun c' hc' =>
      hchunks c' (List.mem_cons_of_mem _ hc')

/-- The chunk that is popped has the property, and so have those that stay. -/
theorem Each.popFront (h : q.Each Q) (u : Bool) :
    (q.popFront u).1.Each Q ∧ ∀ c, (q.popFront u).2 = some c → Q c := by
  cases u with
  | true =>
    refine ⟨?_, fun c hc => h true c (List.mem_of_head? hc)⟩
    intro v c hc
    cases v with
    | true => exact h true c (List.mem_of_mem_tail hc)
    | false => exact h false c hc
  | false =>
    refine ⟨?_, fun c hc => h false c (List.mem_of_head? hc)⟩
    intro v c hc
    cases v with
    | true => exact h true c hc
    | false => exact h false c (List.mem_of_mem_tail hc)

/-- The counters do not matter. -/
theorem Each.account (h : q.Each Q) (popped : Option ChunkPayloadData) :
    (q.account popped).Each Q := by
  cases popped with
  | none => exact h
  | some c => exact h

/-- What is popped had it, and what is left has it. -/
theorem Each.pop (h : q.Each Q) (beginning unordered : Bool) :
    (q.pop beginning unordered).1.Each Q ∧
      ∀ c, (q.pop beginning unordered).2 = some c → Q c := by
  unfold PendingQueue.pop
  split
  · obtain ⟨hrest, hpopped⟩ := h.popFront q.unorderedIsSelected
    generalize q.popFront q.unorderedIsSelected = r at hrest hpopped ⊢
    obtain ⟨q₁, popped⟩ := r
    refine ⟨Each.account ?_ _, hpopped⟩
    cases popped with
    | none => exact hrest
    | some c =>
      dsimp only
      split
      · exact hrest
      · exact hrest
  · split
    · exact ⟨h, fun c hc => by cases hc⟩
    · obtain ⟨hrest, hpopped⟩ := h.popFront unordered
      generalize q.popFront unordered = r at hrest hpopped ⊢
      obtain ⟨q₁, popped⟩ := r
      refine ⟨Each.account ?_ _, hpopped⟩
      cases popped with
      | none => exact hrest
      | some c =>
        dsimp only
        split
        · exact hrest
        · exact hrest

end PendingQueue

namespace PayloadQueue

variable {q : PayloadQueue}

/-- Every chunk in flight lies under its TSN and has the property. -/
def Each (Q : ChunkPayloadData → Prop) (q : PayloadQueue) : Prop :=
  ∀ t c, q.get t = some c → c.tsn = t ∧ Q c

/-- An empty queue. -/
theorem Each.new : Each Q {} := by
  intro t c hc
  cases hc

/-- What `get_mut` writes under a TSN is read there. -/
theorem get_getMut_self (q : PayloadQueue) (t : U32) (f : ChunkPayloadData → ChunkPayloadData) :
    (q.getMut t f).get t = (q.get t).map f := AssocMap.lookup_modify_self t f q.chunkMap

/-- An update that keeps the TSN and the property. -/
theorem Each.getMut (h : q.Each Q) {t : U32} {f : ChunkPayloadData → ChunkPayloadData}
    (hf : ∀ c, q.get t = some c → (f c).tsn = c.tsn ∧ Q (f c)) : (q.getMut t f).Each Q := by
  intro t' c' hc'
  by_cases ht : t' = t
  · subst ht
    rw [get_getMut_self] at hc'
    obtain ⟨c, hc, rfl⟩ := Option.map_eq_some_iff.mp hc'
    exact ⟨(hf c hc).1.trans (h t' c hc).1, (hf c hc).2⟩
  · have hsame : (q.getMut t f).get t' = q.get t' := AssocMap.lookup_modify_ne ht f q.chunkMap
    rw [hsame] at hc'
    exact h t' c' hc'

/-- A push of a chunk that has the property. -/
theorem Each.pushNoCheck (h : q.Each Q) {d : ChunkPayloadData} (hd : Q d) :
    (q.pushNoCheck d).Each Q := by
  intro t c hc
  by_cases ht : t = d.tsn
  · subst ht
    have hself : (q.pushNoCheck d).get d.tsn = some d := AList.lookup_insert _
    rw [hself] at hc
    cases hc
    exact ⟨rfl, hd⟩
  · have hother : (q.pushNoCheck d).get t = q.get t := AList.lookup_insert_ne ht
    rw [hother] at hc
    exact h t c hc

/-- All chunks of a gathering are pushed. -/
theorem Each.pushes {chunks : List ChunkPayloadData} (h : q.Each Q) (hchunks : ∀ c ∈ chunks, Q c) :
    (chunks.foldl PayloadQueue.pushNoCheck q).Each Q := by
  induction chunks generalizing q with
  | nil => exact h
  | cons c chunks ih =>
    exact ih (h.pushNoCheck (hchunks c List.mem_cons_self)) fun c' hc' =>
      hchunks c' (List.mem_cons_of_mem _ hc')

/-- Popping leaves the other chunks as they are. -/
theorem Each.pop (h : q.Each Q) (t : U32) : (q.pop t).1.Each Q := by
  unfold PayloadQueue.pop
  split
  · exact h
  · split
    · split
      · intro t' c hc
        by_cases ht : t' = t
        · have hgone : (q.chunkMap.erase t).lookup t' = none := by
            rw [ht]
            exact AList.lookup_erase _ _
          have hc' : (q.chunkMap.erase t).lookup t' = some c := hc
          rw [hgone] at hc'
          cases hc'
        · have hkept : (q.chunkMap.erase t).lookup t' = q.chunkMap.lookup t' :=
            AList.lookup_erase_ne ht
          have hc' : (q.chunkMap.erase t).lookup t' = some c := hc
          rw [hkept] at hc'
          exact h t' c hc'
      · exact h
    · exact h

/-- An acknowledged chunk is empty, so the property has to bear that. -/
theorem Each.markAsAcked (h : q.Each Q) (t : U32)
    (hf : ∀ c, Q c → Q { c with acked := true, retransmit := false, userData := [] }) :
    (q.markAsAcked t).1.Each Q := by
  unfold PayloadQueue.markAsAcked
  split
  · have hmut := h.getMut (t := t) (f := fun c =>
      { c with acked := true, retransmit := false, userData := [] })
      fun c hc => ⟨rfl, hf c (h t c hc).2⟩
    exact hmut
  · exact h

/-- Marking for retransmission touches chunks that are not acknowledged only. -/
theorem Each.markAllToRetransmit (h : q.Each Q) (flags : SharedFlags)
    (hf : ∀ c, Q c → c.acked = false → Q { c with retransmit := true }) :
    (q.markAllToRetransmit flags).Each Q := by
  intro t c' hc'
  have hmap : (q.markAllToRetransmit flags).get t = (q.get t).map fun c =>
      if c.acked || c.isAbandoned flags then c else { c with retransmit := true } :=
    AssocMap.lookup_mapVals _ q.chunkMap t
  rw [hmap] at hc'
  obtain ⟨c, hc, rfl⟩ := Option.map_eq_some_iff.mp hc'
  obtain ⟨htsn, hQ⟩ := h t c hc
  by_cases hskip : (c.acked || c.isAbandoned flags) = true
  · rw [if_pos hskip]
    exact ⟨htsn, hQ⟩
  · rw [if_neg hskip]
    refine ⟨htsn, hf c hQ ?_⟩
    simp only [Bool.or_eq_true, not_or, Bool.not_eq_true] at hskip
    exact hskip.1

end PayloadQueue

end Sctp
