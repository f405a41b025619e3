import Sctp.Association.Overflow
import Sctp.Association.RetentionTheorems
import Sctp.Association.SkipReleaseTheorems
import Sctp.Queue.OverflowTheorems

/-!
# Which operations of the receiver overflow

The loops over TSNs overflow when they pass the last one. Of the streams only the one a chunk
goes to and the ones a FORWARD TSN lists can overflow, as no set that they keep does.
-/

namespace Sctp

namespace Stream

variable {s : Stream}

/-- A chunk overflows in the queue of its stream exactly if it passes the last TSN there. -/
theorem handleDataOverflows_iff (h : s.reassemblyQueue.SetsInRange) (pd : ChunkPayloadData) :
    s.handleDataOverflows pd = true ↔ s.reassemblyQueue.PushPassesLastTsn pd := by
  unfold handleDataOverflows
  rw [Bool.or_eq_true, ReassemblyQueue.pushOverflows_iff]
  refine or_iff_left_of_imp fun hreadable => ?_
  rw [← ReassemblyQueue.pushOverflows_iff]
  by_contra hpush
  have hafter : (s.reassemblyQueue.push pd).1.SetsInRange := h.push (by simpa using hpush)
  revert hreadable hafter
  generalize s.reassemblyQueue.push pd = r
  obtain ⟨q, _ | _⟩ := r
  · exact fun hreadable _ => Bool.false_ne_true hreadable
  · intro hreadable hafter
    exact Bool.false_ne_true (hafter.isReadable.symm.trans hreadable)

/-- A read overflows exactly at the last SSN. -/
theorem readSctpOverflows_iff (h : s.reassemblyQueue.SetsInRange) :
    s.readSctpOverflows = true ↔ s.ReadsLastSsn := by
  unfold readSctpOverflows ReadsLastSsn
  cases s.readShutdown with
  | true => simp
  | false =>
    rw [if_neg Bool.false_ne_true, and_iff_right rfl]
    exact h.readOverflows_iff

/-- A skipped ordered message overflows only with SSN `0xffff`. -/
theorem handleForwardTsnForOrderedOverflows_iff (h : s.reassemblyQueue.SetsInRange) (ssn : U16) :
    s.handleForwardTsnForOrderedOverflows ssn = true ↔ s.unordered = false ∧
      ssn = 0xffff ∧ sna16lte s.reassemblyQueue.nextSsn 0xffff = true := by
  unfold handleForwardTsnForOrderedOverflows
  cases s.unordered with
  | true => simp
  | false =>
    rw [if_neg Bool.false_ne_true, and_iff_right rfl, (h.forwardTsnForOrdered ssn).isReadable,
      Bool.or_false]
    exact h.forwardOverflows_iff ssn

/-- Skipping unordered fragments never overflows. -/
theorem handleForwardTsnForUnorderedOverflows_eq (h : s.reassemblyQueue.SetsInRange)
    (newCumulativeTsn : U32) :
    s.handleForwardTsnForUnorderedOverflows newCumulativeTsn = false := by
  unfold handleForwardTsnForUnorderedOverflows
  split
  · rfl
  · exact (h.forwardTsnForUnordered newCumulativeTsn).isReadable

end Stream

namespace AssociationInternal

variable {a a' : AssociationInternal}

/-! ## The loops over TSNs -/

/-- What lies above `p` begins with `p + 1`. -/
theorem forall_gt_iff {p : U32} (hp : p ≠ 0xffffffff) (P : U32 → Prop) :
    (∀ t, p < t → P t) ↔ P (p + 1) ∧ ∀ t, p + 1 < t → P t := by
  constructor
  · intro h
    exact ⟨h (p + 1) (by bv_omega), fun t ht => h t (by bv_omega)⟩
  · rintro ⟨hnext, hrest⟩ t ht
    by_cases heq : t = p + 1
    · rw [heq]
      exact hnext
    · exact hrest t (by bv_omega)

/-- The loop over the TSNs that are held overflows if it comes to the last one. -/
theorem advancePeerLastTsnOverflows_iff (fuel : ℕ) (a : AssociationInternal)
    (h : a.payloadQueue.Ahead a.peerLastTsn) (hfuel : a.payloadQueue.sorted.length ≤ fuel) :
    advancePeerLastTsnOverflows fuel a = true ↔
      ∀ t, a.peerLastTsn < t → t ∈ a.payloadQueue.chunkMap := by
  induction fuel generalizing a with
  | zero =>
    have hempty : a.payloadQueue.sorted = [] := List.eq_nil_of_length_eq_zero (by omega)
    have hnone : ∀ t, t ∉ a.payloadQueue.chunkMap := by
      intro t
      rw [← h.mem_iff, hempty]
      exact List.not_mem_nil
    unfold advancePeerLastTsnOverflows
    rw [uaddOverflow_tsn]
    constructor
    · intro hlast t ht
      rw [hlast] at ht
      exact absurd ht (by bv_omega)
    · intro hheld
      by_contra hlast
      exact hnone _ ((forall_gt_iff hlast _).mp hheld).1
  | succ fuel ih =>
    unfold advancePeerLastTsnOverflows
    rw [Bool.or_eq_true, uaddOverflow_tsn]
    by_cases hlast : a.peerLastTsn = 0xffffffff
    · refine iff_of_true (Or.inl hlast) fun t ht => ?_
      rw [hlast] at ht
      exact absurd ht (by bv_omega)
    · rw [or_iff_right hlast, forall_gt_iff hlast]
      by_cases hnext : a.peerLastTsn + 1 ∈ a.payloadQueue.chunkMap
      · obtain ⟨c, q, hpop, hahead, hsorted, hmem⟩ := h.pop hnext
        rw [hpop, and_iff_right hnext]
        dsimp only
        have hrecheck := received_of_apartFromStreams (apartFromStreams_recheckReconfigRequests
          { a with payloadQueue := q, peerLastTsn := a.peerLastTsn + 1 })
        revert hrecheck
        generalize recheckReconfigRequests
          { a with payloadQueue := q, peerLastTsn := a.peerLastTsn + 1 } = r
        intro hrecheck
        have hq : r.1.payloadQueue = q := congrArg Prod.fst hrecheck
        have hp : r.1.peerLastTsn = a.peerLastTsn + 1 := congrArg Prod.snd hrecheck
        have hlen : q.sorted.length ≤ fuel := by
          rw [hsorted, List.length_cons] at hfuel
          omega
        rw [ih r.1 (by rw [hq, hp]; exact hahead) (by rw [hq]; exact hlen), hq, hp]
        refine forall_congr' fun t => imp_congr_right fun ht => ?_
        -- what is left is what was held but for the TSN that has been popped
        rw [hmem, and_iff_left]
        intro heq
        rw [heq] at ht
        exact BitVec.lt_irrefl _ ht
      · rw [h.pop_of_notMem hnext]
        exact iff_of_false Bool.false_ne_true fun hheld => hnext hheld.1

/-- The walk to the new cumulative TSN overflows exactly if the last TSN is held on its way. -/
theorem acknowledgementOverflows_iff (h : a.payloadQueue.Ahead a.peerLastTsn) :
    a.handlePeerLastTsnAndAcknowledgementOverflows = true ↔ a.HeldToTheLast a.peerLastTsn [] := by
  unfold handlePeerLastTsnAndAcknowledgementOverflows HeldToTheLast
  rw [advancePeerLastTsnOverflows_iff _ a h (Nat.le_refl _)]
  simp

/-- The loop to a point ahead overflows if the point has wrapped. -/
theorem forwardPeerLastTsnOverflows_iff {newCumulativeTsn : U32} (p : U32)
    (h : sna32lt p newCumulativeTsn = true) :
    forwardPeerLastTsnOverflows newCumulativeTsn p = true ↔ newCumulativeTsn < p := by
  induction p using forwardPeerLastTsnOverflows.induct newCumulativeTsn with
  | case1 p hlt ih =>
    rw [forwardPeerLastTsnOverflows, if_pos hlt, Bool.or_eq_true, uaddOverflow_tsn]
    have hdist := (sna32lt_iff _ _).mp hlt
    have hne : newCumulativeTsn ≠ p := by
      intro heq
      rw [heq, Serial.dist_self] at hdist
      exact absurd hdist.1 (lt_irrefl 0)
    by_cases hlast : p = 0xffffffff
    · refine iff_of_true (Or.inl hlast) ?_
      rw [hlast] at hne ⊢
      bv_omega
    · rw [or_iff_right hlast]
      by_cases hrest : sna32lt (p + 1) newCumulativeTsn = true
      · rw [ih hrest]
        constructor <;> intro h' <;> bv_omega
      · -- the point is the next TSN
        rw [forwardPeerLastTsnOverflows, if_neg hrest]
        have hsucc := dist_succ_of_pos hdist.1
        rw [sna32lt_iff] at hrest
        have hzero : Serial.dist (p + 1) newCumulativeTsn = 0 := by omega
        refine iff_of_false Bool.false_ne_true fun h' => ?_
        rw [Serial.dist_eq_zero.mp hzero] at h'
        bv_omega
  | case2 p hstop => exact absurd h hstop

/-! ## The loops over streams -/

/-- Nothing that is kept for a stream overflows when it is looked through. -/
def StreamsInRange (a : AssociationInternal) : Prop :=
  ∀ si, a.Holding si fun s => s.reassemblyQueue.SetsInRange

/-- The entries overflow exactly if one of them does at the streams the ones before it have left. -/
theorem forwardOrderedOverflows_iff (es : List ChunkForwardTsnStream) :
    a.forwardOrderedOverflows es = true ↔ ∃ before e after, es = before ++ e :: after ∧
      ((before.foldl (fun a e => a.modifyStream e.identifier fun s =>
        (s.handleForwardTsnForOrdered e.sequence).1) a).stream? e.identifier).any
          (·.handleForwardTsnForOrderedOverflows e.sequence) = true := by
  induction es generalizing a with
  | nil =>
    refine iff_of_false Bool.false_ne_true ?_
    rintro ⟨before, e, after, heq, _⟩
    simp at heq
  | cons e es ih =>
    unfold forwardOrderedOverflows
    rw [Bool.or_eq_true, ih]
    constructor
    · rintro (hnow | ⟨before, e', after, rfl, hlater⟩)
      · exact ⟨[], e, es, rfl, hnow⟩
      · exact ⟨e :: before, e', after, rfl, hlater⟩
    · rintro ⟨before, e', after, heq, hover⟩
      cases before with
      | nil =>
        obtain ⟨rfl, rfl⟩ := List.cons.inj heq
        exact Or.inl hover
      | cons b before =>
        obtain ⟨rfl, hrest⟩ := List.cons.inj heq
        exact Or.inr ⟨before, e', after, hrest, hover⟩

theorem StreamsInRange.modify (h : a.StreamsInRange) (hopen : a.StreamsOpen) (si : U16)
    {f : Stream → Stream}
    (hf : ∀ s, s.reassemblyQueue.SetsInRange → (f s).reassemblyQueue.SetsInRange) :
    (a.modifyStream si f).StreamsInRange :=
  fun si' => (h si').modify hopen fun _ s _ hs => hf s hs

theorem inRange_handleForwardTsnForOrdered {s : Stream} (h : s.reassemblyQueue.SetsInRange)
    (ssn : U16) : (s.handleForwardTsnForOrdered ssn).1.reassemblyQueue.SetsInRange := by
  rw [reassemblyQueue_handleForwardTsnForOrdered]
  split
  · exact h
  · exact h.forwardTsnForOrdered ssn

theorem inRange_handleForwardTsnForUnordered {s : Stream} (h : s.reassemblyQueue.SetsInRange)
    (newCumulativeTsn : U32) :
    (s.handleForwardTsnForUnordered newCumulativeTsn).1.reassemblyQueue.SetsInRange := by
  rw [reassemblyQueue_handleForwardTsnForUnordered]
  split
  · exact h.forwardTsnForUnordered newCumulativeTsn
  · exact h

theorem inRange_readSctp {s : Stream} (h : s.reassemblyQueue.SetsInRange) (n : ℕ) :
    (s.readSctp n).1.reassemblyQueue.SetsInRange := by
  rw [reassemblyQueue_readSctp]
  split
  · exact h
  · exact h.read n

/-- The entries leave streams open and sets in their range. -/
theorem forwardOrdered_keeps (es : List ChunkForwardTsnStream) (hopen : a.StreamsOpen)
    (h : a.StreamsInRange) :
    let b := es.foldl (fun a e => a.modifyStream e.identifier fun s =>
      (s.handleForwardTsnForOrdered e.sequence).1) a
    b.StreamsOpen ∧ b.StreamsInRange := by
  induction es generalizing a with
  | nil => exact ⟨hopen, h⟩
  | cons e es ih =>
    refine ih (streamsOpen_modify hopen _ fun s => ?_)
      (h.modify hopen _ fun s hs => inRange_handleForwardTsnForOrdered hs e.sequence)
    unfold Stream.handleForwardTsnForOrdered
    split <;> rfl

theorem forwardUnorderedOverflows_eq (newCumulativeTsn : U32) (ids : List U16)
    (hopen : a.StreamsOpen) (h : a.StreamsInRange) :
    forwardUnorderedOverflows newCumulativeTsn a ids = false := by
  induction ids generalizing a with
  | nil => rfl
  | cons si ids ih =>
    unfold forwardUnorderedOverflows
    have hnow : (a.stream? si).any
        (·.handleForwardTsnForUnorderedOverflows newCumulativeTsn) = false := by
      cases hs : a.stream? si with
      | none => rfl
      | some s => exact Stream.handleForwardTsnForUnorderedOverflows_eq (h si s hs) newCumulativeTsn
    rw [hnow, Bool.false_or]
    refine ih (streamsOpen_modify hopen _ fun s => ?_)
      (h.modify hopen _ fun s hs => inRange_handleForwardTsnForUnordered hs newCumulativeTsn)
    unfold Stream.handleForwardTsnForUnordered
    split <;> rfl

/-- The stream of an entry, when the entries before it have been gone through. -/
theorem stream?_forwardOrdered (hopen : a.StreamsOpen) (c : ChunkForwardTsn) (si : U16)
    (before : List ChunkForwardTsnStream) :
    (before.foldl (fun a e => a.modifyStream e.identifier fun s =>
      (s.handleForwardTsnForOrdered e.sequence).1) a).stream? si =
      (a.streams.lookup si).bind fun r => a.objects[r]?.map fun s =>
        (a.listedSsns { c with streams := before } r).foldl
          (fun s ssn => (s.handleForwardTsnForOrdered ssn).1) s := by
  have hstreams : (before.foldl (fun a e => a.modifyStream e.identifier fun s =>
      (s.handleForwardTsnForOrdered e.sequence).1) a).streams = a.streams :=
    Runs.run_frame (f := streams) (fun a (e : ChunkForwardTsnStream) =>
      streams_modifyStream a e.identifier fun s => (s.handleForwardTsnForOrdered e.sequence).1)
      a before
  cases hlookup : a.streams.lookup si with
  | none => exact stream?_of_none (by rw [hstreams, hlookup])
  | some r =>
    obtain ⟨s, hs, _⟩ := hopen.isOpen si r hlookup
    obtain ⟨_, hobject⟩ := objects_modifyStreams (fun e : ChunkForwardTsnStream => e.identifier)
      (fun e s => (s.handleForwardTsnForOrdered e.sequence).1) before hs
    rw [stream?_eq (by rw [hstreams, hlookup]), hobject, Option.bind_some, hs, Option.map_some]
    unfold listedSsns
    rw [List.foldl_map]

/-- A stream that has been told of some SSNs overflows at the next if that is the last SSN and
`next_ssn` has not gone past it. -/
theorem forwardOverflows_foldl {s : Stream} (h : s.reassemblyQueue.SetsInRange) (ssns : List U16)
    (ssn : U16) :
    (ssns.foldl (fun s ssn => (s.handleForwardTsnForOrdered ssn).1)
        s).handleForwardTsnForOrderedOverflows ssn = true ↔
      s.unordered = false ∧ ssn = 0xffff ∧
        sna16lte (ssns.foldl skipTo s.reassemblyQueue.nextSsn) 0xffff = true := by
  obtain ⟨hordered, hnext, _⟩ := ReassemblyQueue.forwardTsnForOrdered_foldl s.reassemblyQueue ssns
  have hrange : (ssns.foldl ReassemblyQueue.forwardTsnForOrdered s.reassemblyQueue).SetsInRange := by
    refine h.of_subset ?_
    rw [hordered]
    exact List.filter_subset_self _
  rw [Stream.handleForwardTsnForOrdered_foldl]
  cases hu : s.unordered with
  | true =>
    rw [if_pos rfl]
    unfold Stream.handleForwardTsnForOrderedOverflows
    rw [hu]
    simp
  | false =>
    rw [if_neg Bool.false_ne_true, Stream.handleForwardTsnForOrderedOverflows_iff hrange, hnext]

/-- The streams overflow at a FORWARD TSN exactly if it skips to the last SSN of one of them. -/
theorem forwardStreamsOverflows_iff (hopen : a.StreamsOpen) (h : a.StreamsInRange)
    (c : ChunkForwardTsn) : a.forwardStreamsOverflows c = true ↔ a.SkipsToLastSsn c := by
  unfold forwardStreamsOverflows SkipsToLastSsn
  obtain ⟨hopen', h'⟩ := forwardOrdered_keeps c.streams hopen h
  rw [forwardUnorderedOverflows_eq c.newCumulativeTsn _ hopen' h', Bool.or_false,
    forwardOrderedOverflows_iff]
  refine exists_congr fun before => exists_congr fun e => exists_congr fun after => ?_
  rw [stream?_forwardOrdered hopen c]
  have hrange : ∀ r s, a.streams.lookup e.identifier = some r → a.objects[r]? = some s →
      s.reassemblyQueue.SetsInRange :=
    fun r s hr hs => h e.identifier s ((stream?_eq hr).trans hs)
  constructor
  · rintro ⟨heq, hover⟩
    cases hr : a.streams.lookup e.identifier with
    | none =>
      rw [hr] at hover
      cases hover
    | some r =>
      rw [hr, Option.bind_some] at hover
      cases hs : a.objects[r]? with
      | none =>
        rw [hs] at hover
        cases hover
      | some s =>
        rw [hs] at hover
        obtain ⟨hu, hlast, hlte⟩ := (forwardOverflows_foldl (hrange r s hr hs) _ _).mp hover
        exact ⟨r, s, heq, hlast, rfl, hs, hu, hlte⟩
  · rintro ⟨r, s, heq, hlast, hr, hs, hu, hlte⟩
    refine ⟨heq, ?_⟩
    rw [hr, Option.bind_some, hs]
    exact (forwardOverflows_foldl (hrange r s hr hs) _ _).mpr ⟨hu, hlast, hlte⟩

/-! ## Operations -/

theorem heldToTheLast_congr (ha : a'.payloadQueue = a.payloadQueue) (point : U32)
    (comes : List U32) : a'.HeldToTheLast point comes ↔ a.HeldToTheLast point comes := by
  unfold HeldToTheLast
  rw [ha]

/-- A stream that is there or is created is registered. -/
theorem exists_stream?_getOrCreateStream (hopen : a.StreamsOpen) {si : U16} {r : StreamRef}
    (h : a.getOrCreateStream si = (a', some r)) : ∃ s, a'.stream? si = some s := by
  unfold getOrCreateStream at h
  cases hlookup : a.streams.lookup si with
  | some r' =>
    rw [hlookup] at h
    obtain ⟨s, hs, _⟩ := hopen.isOpen si r' hlookup
    rw [← (Prod.mk.inj h).1]
    exact ⟨s, (stream?_eq hlookup).trans hs⟩
  | none =>
    rw [hlookup] at h
    unfold createStream at h
    dsimp only at h
    rw [if_pos rfl] at h
    cases hch : a.acceptCh with
    | none =>
      rw [hch] at h
      cases h
    | some ch =>
      rw [hch] at h
      dsimp only at h
      by_cases hroom : ch.length < acceptChSize
      · rw [if_pos hroom] at h
        refine ⟨Stream.new si a.maxPayloadSize, ?_⟩
        rw [← (Prod.mk.inj h).1, stream?_eq (AList.lookup_insert _)]
        exact List.getElem?_concat_length
      · rw [if_neg hroom] at h
        cases h

/-- A chunk that is taken goes to its stream, and then the point moves on. -/
theorem takenOverflows_iff {d : ChunkPayloadData} {s : Stream} (hreceiving : a.Receiving)
    (hpush : a.payloadQueue.canPush d a.peerLastTsn = true)
    (hs : a.stream? d.streamIdentifier = some s) (hrange : s.reassemblyQueue.SetsInRange) :
    let b := { a with payloadQueue := (a.payloadQueue.push d a.peerLastTsn).1 }
    ((b.stream? d.streamIdentifier).any (·.handleDataOverflows d) ||
        (b.modifyStream d.streamIdentifier fun s =>
          (s.handleData d).1).handlePeerLastTsnAndAcknowledgementOverflows) = true ↔
      s.reassemblyQueue.PushPassesLastTsn d ∨ a.HeldToTheLast a.peerLastTsn [d.tsn] := by
  intro b
  have hb : b.stream? d.streamIdentifier = some s := hs
  have hreceived := received_ignoresStreams.modifyStream b
    d.streamIdentifier fun s => (s.handleData d).1
  revert hreceived
  generalize b.modifyStream d.streamIdentifier (fun s => (s.handleData d).1) = b'
  intro hreceived
  have hq : b'.payloadQueue = a.payloadQueue.pushNoCheck d :=
    (congrArg Prod.fst hreceived).trans (PayloadQueue.Ahead.push_eq hpush)
  have hp : b'.peerLastTsn = a.peerLastTsn := congrArg Prod.snd hreceived
  rw [hb, Option.any_some, Bool.or_eq_true, Stream.handleDataOverflows_iff hrange,
    acknowledgementOverflows_iff (by rw [hq, hp]; exact hreceiving.queue.pushNoCheck hpush), hp]
  refine or_congr_right (forall_congr' fun t => imp_congr_right fun _ => ?_)
  rw [hq, PayloadQueue.Ahead.mem_pushNoCheck, List.mem_singleton, or_iff_left List.not_mem_nil]

/-- A DATA chunk overflows exactly if it passes the last number. -/
theorem handleDataOverflows_iff (hreceiving : a.Receiving) (hopen : a.StreamsOpen)
    (h : a.StreamsInRange) (d : ChunkPayloadData) :
    a.handleDataOverflows d = true ↔ a.PassesLastNumber (.stream (.receive (.data d))) := by
  have hframe := received_ignoresStreams.getOrCreateStream a d.streamIdentifier
  have hqueue := reassemblyQueue_getOrCreateStream hopen d.streamIdentifier
  have hopen₁ := ofStreams_streamsOpen.getOrCreateStream d.streamIdentifier hopen
  have hrange : (a.queueOf d.streamIdentifier).SetsInRange := by
    unfold queueOf
    split
    · rename_i s hs
      exact h _ s hs
    · exact fun s hs => absurd hs List.not_mem_nil
  -- the acknowledgement at the end looks at the queue as it was, with the chunk if it was taken
  have hend : ∀ b : AssociationInternal, b.received = a.received →
      (b.handlePeerLastTsnAndAcknowledgementOverflows = true ↔
        a.HeldToTheLast a.peerLastTsn []) := by
    intro b hb
    have hq : b.payloadQueue = a.payloadQueue := congrArg Prod.fst hb
    have hp : b.peerLastTsn = a.peerLastTsn := congrArg Prod.snd hb
    rw [acknowledgementOverflows_iff (hreceiving.of_received hb).queue, hp]
    exact heldToTheLast_congr hq _ _
  show a.handleDataOverflows d = true ↔
    (a.handsOver d = true ∧ (a.queueOf d.streamIdentifier).PushPassesLastTsn d) ∨
      (a.discardsData d = false ∧
        a.HeldToTheLast a.peerLastTsn (if a.handsOver d then [d.tsn] else []))
  unfold handleDataOverflows handsOver discardsData
  by_cases hpush : a.payloadQueue.canPush d a.peerLastTsn = true
  · rw [if_pos hpush, hpush, Bool.true_and, Bool.true_and]
    revert hframe hqueue hopen₁
    generalize hg : a.getOrCreateStream d.streamIdentifier = g
    obtain ⟨a₁, _ | r⟩ := g
    · intro _ _ _
      simp
    · intro hframe hqueue hopen₁
      dsimp only
      by_cases hacc : a₁.acceptsData d = true
      · obtain ⟨s, hs⟩ := exists_stream?_getOrCreateStream hopen hg
        have hsame : s.reassemblyQueue = a.queueOf d.streamIdentifier := hqueue s hs
        have hq₁ : a₁.payloadQueue = a.payloadQueue := congrArg Prod.fst hframe
        have hp₁ : a₁.peerLastTsn = a.peerLastTsn := congrArg Prod.snd hframe
        have htaken := takenOverflows_iff (hreceiving.of_received hframe)
          (by rw [hq₁, hp₁]; exact hpush) hs (by rw [hsame]; exact hrange)
        rw [if_pos hacc, if_pos hacc, and_iff_right hacc]
        refine htaken.trans ?_
        rw [hsame]
        refine or_congr_right (Iff.trans ?_ (and_iff_right rfl).symm)
        show a₁.HeldToTheLast a₁.peerLastTsn [d.tsn] ↔ _
        rw [hp₁, heldToTheLast_congr hq₁]
      · rw [if_neg hacc, if_neg hacc, or_iff_right fun h => hacc h.1]
        exact (hend a₁ hframe).trans (and_iff_right rfl).symm
  · rw [if_neg hpush]
    have hno : a.payloadQueue.canPush d a.peerLastTsn = false := by simpa using hpush
    rw [hno, Bool.false_and, Bool.false_and, if_neg Bool.false_ne_true,
      or_iff_right fun h => Bool.noConfusion h.1, and_iff_right rfl]
    exact hend a rfl

/-- The point ahead, and what is left from there on, after the loop to it. -/
theorem heldToTheLast_forwardPeerLastTsn {new : U32} (h : a.Receiving)
    (hlt : sna32lt a.peerLastTsn new = true) (hnowrap : ¬ new < a.peerLastTsn) :
    (forwardPeerLastTsn new a.payloadQueue a.peerLastTsn).2 = new ∧
      ∀ t, new < t → (t ∈ (forwardPeerLastTsn new a.payloadQueue a.peerLastTsn).1.chunkMap ↔
        t ∈ a.payloadQueue.chunkMap) := by
  obtain ⟨_, hslides⟩ := forwardPeerLastTsn_slides new a.payloadQueue a.peerLastTsn h.queue
  rw [if_pos hlt] at hslides
  constructor
  · exact hslides.point_eq.trans (Serial.add_dist a.peerLastTsn new)
  · intro t ht
    have hmem := hslides.mem_held t
    have hdist : Serial.dist a.peerLastTsn new < Serial.dist a.peerLastTsn t := by
      unfold Serial.dist
      bv_omega
    exact hmem.trans ⟨fun h => h.1.resolve_right List.not_mem_nil, fun h => ⟨Or.inl h, hdist⟩⟩

/-- The state after the loop that moves the point. -/
def pointMoved (a : AssociationInternal) (new : U32) : AssociationInternal :=
  { a with
    payloadQueue := (forwardPeerLastTsn new a.payloadQueue a.peerLastTsn).1
    peerLastTsn := (forwardPeerLastTsn new a.payloadQueue a.peerLastTsn).2 }

/-- The loop overflows, or what follows it at the end of `handle_forward_tsn`. -/
theorem forwardsOverLastTsn_iff (hreceiving : a.Receiving) (c : ChunkForwardTsn) :
    (forwardPeerLastTsnOverflows c.newCumulativeTsn a.peerLastTsn = true ∨
      (a.pointMoved c.newCumulativeTsn).HeldToTheLast
        (a.pointMoved c.newCumulativeTsn).peerLastTsn []) ↔ a.ForwardsOverLastTsn c := by
  unfold ForwardsOverLastTsn
  by_cases hlt : sna32lt a.peerLastTsn c.newCumulativeTsn = true
  · rw [if_pos hlt, forwardPeerLastTsnOverflows_iff _ hlt]
    by_cases hwrap : c.newCumulativeTsn < a.peerLastTsn
    · exact iff_of_true (Or.inl hwrap) (Or.inl hwrap)
    · obtain ⟨hpoint, hheld⟩ := heldToTheLast_forwardPeerLastTsn hreceiving hlt hwrap
      have hmoved : (a.pointMoved c.newCumulativeTsn).peerLastTsn = c.newCumulativeTsn := hpoint
      rw [or_iff_right hwrap, or_iff_right hwrap, hmoved]
      exact forall_congr' fun t => imp_congr_right fun ht => or_congr_left (hheld t ht)
  · -- the loop does not take a step
    have hloop : forwardPeerLastTsn c.newCumulativeTsn a.payloadQueue a.peerLastTsn =
        (a.payloadQueue, a.peerLastTsn) := by
      rw [forwardPeerLastTsn, if_neg hlt]
    rw [if_neg hlt, forwardPeerLastTsnOverflows, if_neg hlt, or_iff_right Bool.false_ne_true]
    unfold pointMoved
    rw [hloop]

/-- A FORWARD TSN overflows exactly if it passes the last number. -/
theorem handleForwardTsnOverflows_iff (hreceiving : a.Receiving) (hopen : a.StreamsOpen)
    (h : a.StreamsInRange) (c : ChunkForwardTsn) :
    a.handleForwardTsnOverflows c = true ↔ a.PassesLastNumber (.stream (.receive (.forwardTsn c))) := by
  show a.handleForwardTsnOverflows c = true ↔ a.useForwardTsn = true ∧
    sna32lte c.newCumulativeTsn a.peerLastTsn = false ∧
      (a.ForwardsOverLastTsn c ∨ a.SkipsToLastSsn c)
  unfold handleForwardTsnOverflows
  by_cases huse : a.useForwardTsn = true
  · rw [if_neg (by simp [huse]), and_iff_right huse]
    by_cases hbehind : sna32lte c.newCumulativeTsn a.peerLastTsn = true
    · rw [if_pos hbehind, hbehind]
      exact iff_of_false Bool.false_ne_true fun h => Bool.noConfusion h.1
    · rw [if_neg hbehind, and_iff_right (by simpa using hbehind)]
      dsimp only
      obtain ⟨hahead, _⟩ := forwardPeerLastTsn_slides c.newCumulativeTsn a.payloadQueue
        a.peerLastTsn hreceiving.queue
      let b := a.pointMoved c.newCumulativeTsn
      have hstreams : b.forwardStreamsOverflows c = true ↔ a.SkipsToLastSsn c :=
        forwardStreamsOverflows_iff (a := b) (ofStreams_streamsOpen.congr (a := a) rfl hopen) h c
      have hreceived := received_ignoresStreams.forwardStreams b c
      have hq : (b.forwardStreams c).payloadQueue = b.payloadQueue := congrArg Prod.fst hreceived
      have hp : (b.forwardStreams c).peerLastTsn = b.peerLastTsn := congrArg Prod.snd hreceived
      have hack : (b.forwardStreams c).handlePeerLastTsnAndAcknowledgementOverflows = true ↔
          b.HeldToTheLast b.peerLastTsn [] := by
        rw [acknowledgementOverflows_iff (by rw [hq, hp]; exact hahead), hp]
        exact heldToTheLast_congr hq _ _
      rw [Bool.or_eq_true]
      change _ ∨ (b.forwardStreamsOverflows c ||
        (b.forwardStreams c).handlePeerLastTsnAndAcknowledgementOverflows) = true ↔ _
      rw [Bool.or_eq_true, hstreams, hack, ← forwardsOverLastTsn_iff hreceiving c, or_assoc]
      exact or_congr_right or_comm
  · rw [if_pos (by simpa using huse)]
    exact iff_of_false Bool.false_ne_true fun h => huse h.1

/-! ## Runs -/

/-- Between two operations of a run without overflow. -/
structure InRange (a : AssociationInternal) : Prop where
  receiving : a.Receiving
  streamsOpen : a.StreamsOpen
  sets : a.StreamsInRange

/-- **A step overflows exactly if it passes the last number**. -/
theorem InRange.overflows_iff (h : a.InRange) (op : CheckedOp) :
    a.overflows op = true ↔ a.PassesLastNumber op := by
  have hread : ∀ s : Option Stream, (∀ s₀, s = some s₀ → s₀.reassemblyQueue.SetsInRange) →
      (s.any (·.readSctpOverflows) = true ↔ ∃ s₀, s = some s₀ ∧ s₀.ReadsLastSsn) := by
    intro s hs
    cases s with
    | none => simp
    | some s =>
      rw [Option.any_some, Stream.readSctpOverflows_iff (hs s rfl)]
      simp
  cases op with
  | sack => exact PayloadQueue.getGapAckBlocksOverflows_iff h.receiving.queue
  | stream op =>
    cases op with
    | openStream si ppi => exact iff_of_false Bool.false_ne_true not_false
    | readSctp r n =>
      by_cases hregistered : a.Registered r
      · obtain ⟨si, hsi⟩ := hregistered
        exact hread _ fun s hs => h.sets si s ((stream?_eq hsi).trans hs)
      · -- a stream that has been reset is shut
        have hshut := fun s hs => h.streamsOpen.isShut r s hs hregistered
        show a.objects[r]?.any (·.readSctpOverflows) = true ↔
          ∃ s, a.objects[r]? = some s ∧ s.ReadsLastSsn
        cases hs : a.objects[r]? with
        | none => simp
        | some s =>
          refine iff_of_false ?_ ?_
          · rw [Option.any_some]
            unfold Stream.readSctpOverflows
            rw [if_pos (hshut s hs)]
            exact Bool.false_ne_true
          · rintro ⟨s', hs', hlast⟩
            rw [Option.some.injEq] at hs'
            have hopen := hlast.1
            rw [← hs', hshut s hs] at hopen
            cases hopen
    | receive op =>
      cases op with
      | data d => exact handleDataOverflows_iff h.receiving h.streamsOpen h.sets d
      | forwardTsn c => exact handleForwardTsnOverflows_iff h.receiving h.streamsOpen h.sets c
      | reconfig c => exact iff_of_false Bool.false_ne_true not_false
      | accept => exact iff_of_false Bool.false_ne_true not_false
      | read si n => exact hread _ fun s hs => h.sets si s hs

/-- What a look at the requests leaves of a stream keeps its sets. -/
theorem inRange_shut (s : Stream) (h : s.reassemblyQueue.SetsInRange) :
    { s with readShutdown := true, writeShutdown := true }.reassemblyQueue.SetsInRange := h

theorem InRange.sets_getOrCreateStream (h : a.InRange) (si : U16) :
    (a.getOrCreateStream si).1.StreamsInRange := fun si' =>
  (h.sets si').getOrCreateStream h.streamsOpen si fun _ _ _ hs => absurd hs List.not_mem_nil

/-- Without overflow the stream of a chunk that is handed over keeps its sets in range. -/
theorem InRange.sets_handleData (h : a.InRange) (d : ChunkPayloadData)
    (hover : a.handleDataOverflows d = false) : (a.handleData d).1.StreamsInRange := by
  intro si
  have hcreated := h.sets_getOrCreateStream d.streamIdentifier
  by_cases hhands : a.handsOver d = true
  · have hpush : (a.queueOf d.streamIdentifier).pushOverflows d = false := by
      rw [← Bool.not_eq_true, ReassemblyQueue.pushOverflows_iff]
      rw [← Bool.not_eq_true, handleDataOverflows_iff h.receiving h.streamsOpen h.sets] at hover
      exact fun hpasses => hover (Or.inl ⟨hhands, hpasses⟩)
    apply Holding.handleData_of_handsOver inRange_shut h.streamsOpen hhands
    intro s hs
    have hrange : s.reassemblyQueue.SetsInRange := hcreated si s hs
    split
    · rename_i hsame
      rw [← hsame] at hs
      have hqueue := reassemblyQueue_getOrCreateStream h.streamsOpen d.streamIdentifier s hs
      rw [reassemblyQueue_handleData]
      exact hrange.push (by rw [hqueue]; exact hpush)
    · exact hrange
  · obtain ⟨b, _, hb, heq⟩ := handleData_of_not_handsOver (by simpa using hhands)
    have hkept : b.Holding si fun s => s.reassemblyQueue.SetsInRange := by
      rcases hb with rfl | rfl
      · exact h.sets si
      · exact hcreated si
    rcases heq with heq | heq
    · rw [heq]
      exact hkept
    · rw [heq]
      exact hkept.acknowledgement inRange_shut d.immediateSack

theorem InRange.sets_step (h : a.InRange) (op : CheckedOp) (hover : a.overflows op = false) :
    (a.checkedStep op).StreamsInRange := by
  cases op with
  | sack => exact fun si s hs => h.sets si s hs
  | stream op =>
    intro si
    cases op with
    | openStream si' ppi =>
      exact (h.sets si).openStream h.streamsOpen si' ppi fun _ _ _ hs => absurd hs List.not_mem_nil
    | readSctp r n =>
      exact (h.sets si).readSctp h.streamsOpen fun _ s _ hs => inRange_readSctp hs n
    | receive op =>
      cases op with
      | data d => exact h.sets_handleData d hover si
      | forwardTsn c =>
        refine Holding.handleForwardTsn inRange_shut h.streamsOpen ?_ ?_ (h.sets si)
        · exact fun e _ _ s hs => inRange_handleForwardTsnForOrdered hs e.sequence
        · exact fun s hs => inRange_handleForwardTsnForUnordered hs c.newCumulativeTsn
      | reconfig c => exact (h.sets si).handleReconfig inRange_shut c
      | accept => exact (h.sets si).acceptStream
      | read si' n =>
        exact (h.sets si).modify h.streamsOpen fun _ s _ hs => inRange_readSctp hs n

theorem Receiving.checkedStep (h : a.Receiving) (op : CheckedOp) : (a.checkedStep op).Receiving := by
  cases op with
  | sack =>
    refine ⟨⟨⟨?_, ?_, ?_, ?_⟩, ?_, ?_⟩, h.next_missing⟩
    · exact h.queue.nodup
    · exact h.queue.mem_iff
    · exact h.queue.tsn_eq
    · exact h.queue.length_eq
    · exact h.queue.ahead
    · exact h.queue.increasing
  | stream op =>
    cases op with
    | receive op => exact (h.step op).1
    | openStream si ppi =>
      apply h.of_received
      show (a.openStream si ppi).1.received = a.received
      cases hlookup : a.streams.lookup si with
      | none => rw [openStream_of_none hlookup]; rfl
      | some r => rw [openStream_of_some hlookup]
    | readSctp r n =>
      apply h.of_received
      show (a.readSctp r n).1.received = a.received
      unfold readSctp
      split <;> rfl

/-- A step that does not overflow keeps every number in its range. -/
theorem InRange.step (h : a.InRange) (op : CheckedOp) (hover : a.overflows op = false) :
    (a.checkedStep op).InRange where
  receiving := h.receiving.checkedStep op
  streamsOpen := by
    cases op with
    | sack => exact ofStreams_streamsOpen.congr (a := a) rfl h.streamsOpen
    | stream op => exact h.streamsOpen.streamStep op
  sets := h.sets_step op hover

/-- From an empty payload queue and empty reassembly queues on, whatever arrives and is read: the
run overflows nowhere exactly if no step of it goes over a last number. -/
theorem overflowsNowhere_iff (a : AssociationInternal) (hqueue : a.payloadQueue = {})
    (hopen : a.StreamsOpen) (hempty : ∀ s ∈ a.objects, s.reassemblyQueue.ordered = [])
    (ops : List CheckedOp) :
    Runs.Along checkedStep (fun a op => a.overflows op = false) a ops ↔
      Runs.Along checkedStep (fun a op => ¬ a.PassesLastNumber op) a ops := by
  have hstart : a.InRange := by
    refine ⟨Receiving.new hqueue, hopen, fun si s hs => ?_⟩
    have hmem : s ∈ a.objects := by
      unfold stream? at hs
      obtain ⟨r, _, hr⟩ := Option.bind_eq_some_iff.mp hs
      exact List.mem_of_getElem? hr
    intro cset hcset
    rw [hempty s hmem] at hcset
    cases hcset
  refine Runs.along_iff_of_invariant (R := fun _ _ => True) (I := InRange) ?_ ?_ hstart
    (Runs.along_true a ops)
  · exact fun a op _ hover h => h.step op hover
  · intro a op _ h
    rw [← h.overflows_iff op, Bool.not_eq_true]

/-- Chunks short of the last TSN, out of order, with a SACK between them and a read. -/
theorem overflowsNowhere_belowTheLast :
    let a := { justEstablished with peerLastTsn := 0xfffffff0 }
    let chunk (tsn : U32) (beginning ending : Bool) : CheckedOp :=
      .stream (.receive (.data { tsn, beginningFragment := beginning, endingFragment := ending
                                 userData := [1] }))
    let ops := [chunk 0xfffffff2 false true, chunk 0xfffffff5 true true, .sack,
      chunk 0xfffffff1 true false, .stream (.receive (.read 0 8)), .sack]
    Runs.Along checkedStep (fun a op => ¬ a.PassesLastNumber op) a ops := by
  intro a chunk ops
  have hopen : a.StreamsOpen := StreamsOpen.new rfl rfl
  exact (overflowsNowhere_iff a rfl hopen (fun s hs => absurd hs List.not_mem_nil) ops).mp
    (by decide +kernel)

/-- A peer announces the initial TSN 0, so that `peer_last_tsn` is the last TSN; the TSN after it
is computed for the first DATA chunk that arrives. -/
theorem not_overflowsNowhere_initialTsnZero :
    let config : Config := { randomTsn := 7, randomTag := 9, randomCookie := List.replicate 32 0 }
    let init : ChunkInit :=
      { initiateTag := 1, initialTsn := 0, numInboundStreams := 10, numOutboundStreams := 10
        advertisedReceiverWindowCredit := 1500 }
    let packet : Packet := { sourcePort := 5000, destinationPort := 5000, chunks := [.init init] }
    let a := (((server config).handleInit packet init).1.handleCookieEcho config.randomCookie).1
    let d : ChunkPayloadData :=
      { tsn := 0, beginningFragment := true, endingFragment := true, userData := [1] }
    a.state = .established ∧
      ¬ Runs.Along checkedStep (fun a op => a.overflows op = false) a
        [.stream (.receive (.data d))] := by
  decide +kernel

end AssociationInternal

end Sctp
