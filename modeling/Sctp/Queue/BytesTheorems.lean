import Sctp.Queue.EachTheorems

/-!
# The bytes of the chunks of one kind

How many user bytes of a kind of chunks are pending or in flight, and what the operations of
the two queues do to the number.
-/

namespace Sctp

/-- The bytes of a chunk, if it is of the kind. -/
def ChunkPayloadData.bytesIf (kind : ChunkPayloadData → Bool) (c : ChunkPayloadData) : ℕ :=
  if kind c then c.userData.length else 0

/-- The chunk without what the sender notes of its transmissions; whether it is acknowledged
stays. -/
def ChunkPayloadData.payload (c : ChunkPayloadData) : ChunkPayloadData :=
  { c with missIndicator := 0, nsent := 0, retransmit := false }

variable {kind kind' : ChunkPayloadData → Bool} {c : ChunkPayloadData}

theorem ChunkPayloadData.bytesIf_congr (h : kind c = kind' c) : c.bytesIf kind = c.bytesIf kind' := by
  show (if kind c then _ else _) = if kind' c then _ else _
  rw [h]

/-- An empty chunk counts nothing. -/
theorem ChunkPayloadData.bytesIf_of_empty (h : c.userData = []) : c.bytesIf kind = 0 := by
  unfold ChunkPayloadData.bytesIf
  rw [h]
  exact ite_self 0

theorem ChunkPayloadData.bytesIf_of_not (h : kind c = false) : c.bytesIf kind = 0 :=
  if_neg (by rw [h]; exact Bool.false_ne_true)

namespace PendingQueue

variable {q q' : PendingQueue}

/-- The bytes of the chunks of a kind in a pending queue. -/
def bytesOf (kind : ChunkPayloadData → Bool) (q : PendingQueue) : ℕ :=
  ((q.unorderedQueue ++ q.orderedQueue).map (·.bytesIf kind)).sum

/-- The bytes are those of the two queues. -/
theorem bytesOf_eq (kind : ChunkPayloadData → Bool) (q : PendingQueue) :
    q.bytesOf kind = (q.unorderedQueue.map (·.bytesIf kind)).sum +
      (q.orderedQueue.map (·.bytesIf kind)).sum := by
  unfold bytesOf
  rw [List.map_append, List.sum_append]

/-- A push adds the bytes of the chunk. -/
theorem bytesOf_push (q : PendingQueue) (c : ChunkPayloadData) :
    (q.push c).bytesOf kind = q.bytesOf kind + c.bytesIf kind := by
  have hone : ∀ l : List ChunkPayloadData, ((l ++ [c]).map (·.bytesIf kind)).sum =
      (l.map (·.bytesIf kind)).sum + c.bytesIf kind := by
    intro l
    rw [List.map_append, List.sum_append, List.map_singleton, List.sum_singleton]
  rw [bytesOf_eq, bytesOf_eq]
  unfold PendingQueue.push
  dsimp only
  by_cases hu : c.unordered = true
  · rw [if_pos hu, hone]
    dsimp only
    omega
  · rw [if_neg hu, hone]
    dsimp only
    omega

/-- The chunks of a message add theirs. -/
theorem bytesOf_pushes (q : PendingQueue) (chunks : List ChunkPayloadData) :
    (chunks.foldl PendingQueue.push q).bytesOf kind =
      q.bytesOf kind + (chunks.map (·.bytesIf kind)).sum := by
  induction chunks generalizing q with
  | nil => rfl
  | cons c chunks ih =>
    rw [List.foldl_cons, ih, bytesOf_push, List.map_cons, List.sum_cons, Nat.add_assoc]

/-- What is popped is taken off. -/
theorem bytesOf_popFront (q : PendingQueue) (u : Bool) :
    q.bytesOf kind = (q.popFront u).1.bytesOf kind +
      ((q.popFront u).2.map (·.bytesIf kind)).getD 0 := by
  have hone : ∀ l : List ChunkPayloadData, (l.map (·.bytesIf kind)).sum =
      (l.tail.map (·.bytesIf kind)).sum + (l.head?.map (·.bytesIf kind)).getD 0 := by
    intro l
    cases l with
    | nil => rfl
    | cons c l =>
      rw [List.map_cons, List.sum_cons, Nat.add_comm]
      rfl
  rw [bytesOf_eq, bytesOf_eq]
  cases u with
  | true =>
    show _ = (q.unorderedQueue.tail.map _).sum + (q.orderedQueue.map _).sum +
      (q.unorderedQueue.head?.map _).getD 0
    rw [hone q.unorderedQueue]
    omega
  | false =>
    show _ = (q.unorderedQueue.map _).sum + (q.orderedQueue.tail.map _).sum +
      (q.orderedQueue.head?.map _).getD 0
    rw [hone q.orderedQueue]
    omega

theorem bytesOf_account (q : PendingQueue) (popped : Option ChunkPayloadData) :
    (q.account popped).bytesOf kind = q.bytesOf kind := by
  cases popped <;> rfl

/-- What is popped is missing afterwards. -/
theorem bytesOf_pop (q : PendingQueue) (beginning unordered : Bool) :
    q.bytesOf kind = (q.pop beginning unordered).1.bytesOf kind +
      ((q.pop beginning unordered).2.map (·.bytesIf kind)).getD 0 := by
  unfold PendingQueue.pop
  split
  · have hfront := @bytesOf_popFront kind q q.unorderedIsSelected
    generalize q.popFront q.unorderedIsSelected = r at hfront ⊢
    obtain ⟨q₁, popped⟩ := r
    rw [hfront]
    dsimp only
    rw [bytesOf_account]
    cases popped with
    | none => rfl
    | some c =>
      dsimp only
      split <;> rfl
  · split
    · rfl
    · have hfront := @bytesOf_popFront kind q unordered
      generalize q.popFront unordered = r at hfront ⊢
      obtain ⟨q₁, popped⟩ := r
      rw [hfront]
      dsimp only
      rw [bytesOf_account]
      cases popped with
      | none => rfl
      | some c =>
        dsimp only
        split <;> rfl

/-- Kinds that agree on what waits. -/
theorem bytesOf_congr (h : q.Each fun c => kind' c = kind c) :
    q.bytesOf kind' = q.bytesOf kind := by
  unfold bytesOf
  congr 1
  refine List.map_congr_left fun c hc => ?_
  have hsame : kind' c = kind c := by
    rcases List.mem_append.mp hc with hc | hc
    · exact h true c hc
    · exact h false c hc
  exact ChunkPayloadData.bytesIf_congr hsame

end PendingQueue

namespace PayloadQueue

variable {q q' : PayloadQueue}

/-- The bytes of the chunks of a kind in a payload queue. -/
def bytesOf (kind : ChunkPayloadData → Bool) (q : PayloadQueue) : ℕ :=
  q.chunkMap.sumOf (·.bytesIf kind)

/-- A new TSN adds the bytes of the chunk. -/
theorem bytesOf_pushNoCheck (h : c.tsn ∉ q.chunkMap) :
    (q.pushNoCheck c).bytesOf kind = c.bytesIf kind + q.bytesOf kind :=
  AssocMap.sumOf_insert_of_notMem h c _

/-- What is popped is taken off. -/
theorem bytesOf_pop (q : PayloadQueue) (t : U32) :
    q.bytesOf kind = (q.pop t).1.bytesOf kind + ((q.pop t).2.map (·.bytesIf kind)).getD 0 := by
  unfold PayloadQueue.pop
  split
  · rfl
  · split
    · split
      · rename_i c hc
        have herase := AssocMap.sumOf_erase hc (·.bytesIf kind)
        exact herase.trans (Nat.add_comm _ _)
      · rfl
    · rfl

/-- A pop changes no chunk that it leaves. -/
theorem get_of_pop {t t' : U32} (h : (q.pop t).1.get t' = some c) : q.get t' = some c := by
  unfold PayloadQueue.pop at h
  split at h
  · exact h
  · split at h
    · split at h
      · by_cases hne : t' = t
        · have hgone : (q.chunkMap.erase t).lookup t' = none := by
            rw [hne]
            exact AList.lookup_erase t q.chunkMap
          have hget : (q.chunkMap.erase t).lookup t' = some c := h
          rw [hgone] at hget
          cases hget
        · have hget : (q.chunkMap.erase t).lookup t' = some c := h
          rwa [AList.lookup_erase_ne hne] at hget
      · exact h
    · exact h

/-- What is popped was there. -/
theorem get_of_pop_eq_some {t : U32} (h : q.pop t = (q', some c)) : q.get t = some c := by
  unfold PayloadQueue.pop at h
  split at h
  · cases h
  · split at h
    · split at h
      · rename_i c' hc'
        cases h
        exact hc'
      · cases h
    · cases h

/-- A chunk that is acknowledged has no bytes any more. -/
theorem bytesOf_markAsAcked {t : U32} (h : q.get t = some c) :
    q.bytesOf kind = (q.markAsAcked t).1.bytesOf kind + c.bytesIf kind := by
  have hmodify := AssocMap.sumOf_modify h
    (fun c => { c with acked := true, retransmit := false, userData := [] }) (·.bytesIf kind)
  have hempty : ChunkPayloadData.bytesIf kind
      { c with acked := true, retransmit := false, userData := [] } = 0 :=
    ChunkPayloadData.bytesIf_of_empty rfl
  have hget : q.chunkMap.lookup t = some c := h
  have hmark : (q.markAsAcked t).1.chunkMap = q.chunkMap.modify t
      fun c => { c with acked := true, retransmit := false, userData := [] } := by
    unfold PayloadQueue.markAsAcked
    rw [hget]
  unfold bytesOf
  rw [hmark, hmodify, hempty, Nat.add_zero]

/-- Where the bytes under every TSN are the same, so is the number. -/
theorem bytesOf_congr (h : ∀ t, ((q'.get t).map (·.bytesIf kind')).getD 0 =
    ((q.get t).map (·.bytesIf kind)).getD 0) : q'.bytesOf kind' = q.bytesOf kind :=
  AssocMap.sumOf_congr_getD h

/-! ## Several chunks that go into flight -/

/-- A TSN that is not pushed is as it was. -/
theorem get_pushes_of_notMem {chunks : List ChunkPayloadData} {t : U32}
    (h : ∀ d ∈ chunks, d.tsn ≠ t) : (chunks.foldl pushNoCheck q).get t = q.get t := by
  induction chunks generalizing q with
  | nil => rfl
  | cons d chunks ih =>
    have hne : t ≠ d.tsn := fun heq => h d List.mem_cons_self heq.symm
    have hone : (q.pushNoCheck d).get t = q.get t := AList.lookup_insert_ne hne
    rw [List.foldl_cons, ih fun d' hd' => h d' (List.mem_cons_of_mem d hd'), hone]

/-- New chunks under TSNs of their own add their bytes. -/
theorem bytesOf_inflight {chunks : List ChunkPayloadData} (hnodup : (chunks.map (·.tsn)).Nodup)
    (hfresh : ∀ d ∈ chunks, d.tsn ∉ q.chunkMap) :
    (chunks.foldl pushNoCheck q).bytesOf kind =
      q.bytesOf kind + (chunks.map (·.bytesIf kind)).sum := by
  induction chunks generalizing q with
  | nil => rfl
  | cons d chunks ih =>
    rw [List.map_cons, List.nodup_cons] at hnodup
    have hfresh' : ∀ d' ∈ chunks, d'.tsn ∉ (q.pushNoCheck d).chunkMap := by
      intro d' hd' hmem
      have hone : d'.tsn = d.tsn ∨ d'.tsn ∈ q.chunkMap := (AList.mem_insert _).mp hmem
      rcases hone with heq | hold
      · exact hnodup.1 (heq ▸ List.mem_map_of_mem hd')
      · exact hfresh d' (List.mem_cons_of_mem d hd') hold
    rw [List.foldl_cons, ih hnodup.2 hfresh', bytesOf_pushNoCheck (hfresh d List.mem_cons_self),
      List.map_cons, List.sum_cons]
    omega

/-! ## What is sent again -/

/-- The chunks are the same but for what the sender notes of its transmissions. -/
def SamePayloads (q q' : PayloadQueue) : Prop :=
  ∀ t, (q'.get t).map (·.payload) = (q.get t).map (·.payload)

namespace SamePayloads

theorem refl (q : PayloadQueue) : SamePayloads q q := fun _ => rfl

theorem trans {q₁ q₂ q₃ : PayloadQueue} (h : SamePayloads q₁ q₂) (h' : SamePayloads q₂ q₃) :
    SamePayloads q₁ q₃ := fun t => (h' t).trans (h t)

/-- Every chunk was there before with the same payload. -/
theorem get_eq_some (h : SamePayloads q q') {t : U32} {c' : ChunkPayloadData}
    (hc' : q'.get t = some c') : ∃ c, q.get t = some c ∧ c.payload = c'.payload := by
  have ht := h t
  rw [hc', Option.map_some] at ht
  obtain ⟨c, hc, hsame⟩ := Option.map_eq_some_iff.mp ht.symm
  exact ⟨c, hc, hsame⟩

/-- An update of all chunks that keeps their payloads. -/
theorem mapVals (q : PayloadQueue) {f : U32 → ChunkPayloadData → ChunkPayloadData}
    (hf : ∀ t c, (f t c).payload = c.payload) :
    SamePayloads q { q with chunkMap := q.chunkMap.mapVals f } := by
  intro t
  show ((q.chunkMap.mapVals f).lookup t).map _ = _
  rw [AssocMap.lookup_mapVals, Option.map_map]
  exact Option.map_congr fun c _ => hf t c

/-- An update of one chunk that keeps its payload. -/
theorem getMut (q : PayloadQueue) (t : U32) {f : ChunkPayloadData → ChunkPayloadData}
    (hf : ∀ c, (f c).payload = c.payload) : SamePayloads q (q.getMut t f) := by
  refine mapVals q fun t' c => ?_
  split
  · exact hf c
  · rfl

/-- Marking for retransmission keeps all payloads. -/
theorem markAllToRetransmit (q : PayloadQueue) (flags : SharedFlags) :
    SamePayloads q (q.markAllToRetransmit flags) := by
  refine mapVals q fun _ c => ?_
  split <;> rfl

/-- A kind that looks at the payload only counts the same. -/
theorem bytesOf (h : SamePayloads q q') (hkind : ∀ c, kind c.payload = kind c) :
    q'.bytesOf kind = q.bytesOf kind := by
  have hbytes : ∀ c : ChunkPayloadData, c.payload.bytesIf kind = c.bytesIf kind := by
    intro c
    show (if kind c.payload then _ else _) = if kind c then _ else _
    rw [hkind]
    rfl
  have hvia : ∀ o : Option ChunkPayloadData,
      (o.map (·.payload)).map (·.bytesIf kind) = o.map (·.bytesIf kind) := by
    intro o
    rw [Option.map_map]
    exact Option.map_congr fun c _ => hbytes c
  refine bytesOf_congr fun t => ?_
  rw [← hvia (q'.get t), h t, hvia]

/-- So with a property of the chunks. -/
theorem each {Q : ChunkPayloadData → Prop} (h : SamePayloads q q')
    (hQ : ∀ c c', c.payload = c'.payload → Q c → Q c') (hq : q.Each Q) : q'.Each Q := by
  intro t c' hc'
  obtain ⟨c, hc, hsame⟩ := h.get_eq_some hc'
  obtain ⟨htsn, hheld⟩ := hq t c hc
  have htsn' : c'.tsn = c.tsn := (congrArg ChunkPayloadData.tsn hsame).symm
  exact ⟨htsn'.trans htsn, hQ c c' hsame hheld⟩

end SamePayloads

end PayloadQueue

end Sctp
