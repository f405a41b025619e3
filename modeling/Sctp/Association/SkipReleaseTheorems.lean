import Sctp.Association.SkipRelease
import Sctp.Queue.ReassemblyTheorems
import Sctp.Association.StreamTableTheorems
import Sctp.Association.Sender
import Mathlib.Data.List.DropRight

/-!
# When a FORWARD TSN releases what it skips

Each stream looks at one kind of data only, by the reliability parameters the application
has set for what it sends.
-/

namespace Sctp

/-- A list goes on without `p` after its first elements with `p` exactly if all of these come
first. -/
theorem forall_mem_dropWhile_iff {α : Type*} (p : α → Bool) (l : List α) :
    (∀ c ∈ l.dropWhile p, p c = false) ↔ l.filter p <+: l := by
  induction l with
  | nil => simp
  | cons x l ih =>
    by_cases hx : p x = true
    · rw [List.dropWhile_cons_of_pos hx, List.filter_cons_of_pos hx, List.cons_prefix_cons]
      exact ih.trans ⟨fun h => ⟨rfl, h⟩, fun h => h.2⟩
    · rw [List.dropWhile_cons_of_neg hx, List.filter_cons_of_neg hx]
      constructor
      · intro hall
        have hnone : l.filter p = [] := by
          rw [List.filter_eq_nil_iff]
          intro c hc
          simp [hall c (List.mem_cons_of_mem x hc)]
        rw [hnone]
        exact List.nil_prefix
      · intro hinit c hc
        have hnone : l.filter p = [] := by
          rcases hfilter : l.filter p with _ | ⟨y, rest⟩
          · rfl
          · rw [hfilter, List.cons_prefix_cons] at hinit
            have hy : p y = true := (List.mem_filter.mp (hfilter ▸ List.mem_cons_self)).2
            rw [hinit.1] at hy
            exact absurd hy hx
        rcases List.mem_cons.mp hc with rfl | hc
        · simpa using hx
        · rw [List.filter_eq_nil_iff] at hnone
          simpa using hnone c hc

theorem sna32gt_eq_not_sna32lte (a b : U32) : sna32gt a b = !sna32lte a b := by
  rw [Bool.eq_iff_iff, Bool.not_eq_true', ← Bool.not_eq_true, sna32gt_iff, sna32lte_iff]
  omega

namespace ReassemblyQueue

/-! ## The queue of one stream -/

/-- The fields after the SSNs listed for a stream have been skipped. -/
theorem forwardTsnForOrdered_foldl (q : ReassemblyQueue) (ssns : List U16) :
    (ssns.foldl forwardTsnForOrdered q).ordered =
        q.ordered.filter (fun cset => ssns.all fun ssn => !skippedBy ssn cset) ∧
      (ssns.foldl forwardTsnForOrdered q).nextSsn = ssns.foldl skipTo q.nextSsn ∧
      (ssns.foldl forwardTsnForOrdered q).unordered = q.unordered ∧
      (ssns.foldl forwardTsnForOrdered q).unorderedChunks = q.unorderedChunks := by
  induction ssns generalizing q with
  | nil => simp
  | cons ssn ssns ih =>
    have hone : (q.forwardTsnForOrdered ssn).ordered = q.ordered.filter (fun s => !skippedBy ssn s) ∧
        (q.forwardTsnForOrdered ssn).nextSsn = skipTo q.nextSsn ssn ∧
        (q.forwardTsnForOrdered ssn).unordered = q.unordered ∧
        (q.forwardTsnForOrdered ssn).unorderedChunks = q.unorderedChunks := by
      unfold forwardTsnForOrdered skipTo subtractNumBytes
      dsimp only
      split <;> exact ⟨rfl, rfl, rfl, rfl⟩
    obtain ⟨hordered, hnext, hunordered, hchunks⟩ := ih (q.forwardTsnForOrdered ssn)
    rw [List.foldl_cons, List.foldl_cons]
    refine ⟨?_, ?_, hunordered.trans hone.2.2.1, hchunks.trans hone.2.2.2⟩
    · rw [hordered, hone.1, List.filter_filter]
      apply List.filter_congr
      intro cset _
      rw [List.all_cons, Bool.and_comm]
    · rw [hnext, hone.2.1]

theorem forwardTsnForUnordered_fields (q : ReassemblyQueue) (newCumulativeTsn : U32) :
    (q.forwardTsnForUnordered newCumulativeTsn).unorderedChunks =
        q.unorderedChunks.dropWhile (fun c => sna32lte c.tsn newCumulativeTsn) ∧
      (q.forwardTsnForUnordered newCumulativeTsn).ordered = q.ordered ∧
      (q.forwardTsnForUnordered newCumulativeTsn).nextSsn = q.nextSsn ∧
      (q.forwardTsnForUnordered newCumulativeTsn).unordered = q.unordered := by
  refine ⟨?_, rfl, rfl, rfl⟩
  have hsame : (fun c : ChunkPayloadData => !sna32gt c.tsn newCumulativeTsn) =
      fun c => sna32lte c.tsn newCumulativeTsn := by
    funext c
    rw [sna32gt_eq_not_sna32lte, Bool.not_not]
  rw [forwardTsnForUnordered_eq, ← hsame]

end ReassemblyQueue

namespace Stream

/-- The stream after the SSNs listed for it, and then the point some times over, have been
skipped. -/
def skipped (s : Stream) (ssns : List U16) (newCumulativeTsn : U32) (n : ℕ) : Stream :=
  (fun s => (s.handleForwardTsnForUnordered newCumulativeTsn).1)^[n]
    (ssns.foldl (fun s ssn => (s.handleForwardTsnForOrdered ssn).1) s)

theorem handleForwardTsnForOrdered_foldl (s : Stream) (ssns : List U16) :
    ssns.foldl (fun s ssn => (s.handleForwardTsnForOrdered ssn).1) s =
      if s.unordered then s
      else { s with
        reassemblyQueue := ssns.foldl ReassemblyQueue.forwardTsnForOrdered s.reassemblyQueue } := by
  induction ssns generalizing s with
  | nil => split <;> rfl
  | cons ssn ssns ih =>
    rw [List.foldl_cons, ih]
    unfold handleForwardTsnForOrdered
    by_cases hunordered : s.unordered = true
    · rw [if_pos hunordered]
      dsimp only
      rw [if_pos hunordered, if_pos hunordered]
    · rw [if_neg hunordered]
      dsimp only
      rw [if_neg hunordered, if_neg hunordered]
      rfl

/-- An SSN that is skipped lies behind `next_ssn`. -/
theorem sna16gt_skipTo (nextSsn ssn : U16) : sna16gt (skipTo nextSsn ssn) ssn = true := by
  unfold skipTo
  rw [sna16gt_iff]
  split
  · have hone : Serial.dist ssn (ssn + 1) = 1 := Serial.dist_add_ofNat ssn (k := 1) (by decide)
    have hne : ssn ≠ ssn + 1 := by
      intro heq
      rw [← heq, Serial.dist_self] at hone
      omega
    rw [Serial.dist_comm_of_ne hne, hone]
    omega
  · rename_i hbehind
    have hiff : sna16lte nextSsn ssn = true ↔ Serial.dist nextSsn ssn < 2 ^ 15 :=
      Serial.lte_iff (by decide) nextSsn ssn
    rw [hiff] at hbehind
    omega

/-- A stream for ordered data that holds no unordered one releases all, if it is listed once. -/
theorem releasesAll_of_listedOnce {s : Stream} (h : s.unordered = false)
    (hnone : s.reassemblyQueue.unorderedChunks = []) (ssn : U16) (newCumulativeTsn : U32) :
    s.ReleasesAll [ssn] newCumulativeTsn := by
  unfold ReleasesAll
  rw [if_neg (by rw [h]; exact Bool.false_ne_true), hnone]
  refine ⟨?_, fun c hc => absurd hc List.not_mem_nil⟩
  intro ssn' hssn'
  rw [List.mem_singleton.mp hssn']
  exact sna16gt_skipTo _ ssn

/-- A stream that looks at unordered data only. -/
theorem skipped_of_unordered {s : Stream} (h : s.unordered = true) (ssns : List U16)
    (newCumulativeTsn : U32) (n : ℕ) :
    let q := (s.skipped ssns newCumulativeTsn (n + 1)).reassemblyQueue
    q.ordered = s.reassemblyQueue.ordered ∧ q.nextSsn = s.reassemblyQueue.nextSsn ∧
      q.unordered = s.reassemblyQueue.unordered ∧
      q.unorderedChunks = s.reassemblyQueue.unorderedChunks.dropWhile
        (fun c => sna32lte c.tsn newCumulativeTsn) := by
  -- the second pass finds nothing more to drop
  have hall : ∀ n, ∃ q : ReassemblyQueue,
      s.skipped ssns newCumulativeTsn (n + 1) = { s with reassemblyQueue := q } ∧
        q.ordered = s.reassemblyQueue.ordered ∧ q.nextSsn = s.reassemblyQueue.nextSsn ∧
        q.unordered = s.reassemblyQueue.unordered ∧
        q.unorderedChunks = s.reassemblyQueue.unorderedChunks.dropWhile
          (fun c => sna32lte c.tsn newCumulativeTsn) := by
    intro n
    unfold skipped
    rw [handleForwardTsnForOrdered_foldl, if_pos h]
    induction n with
    | zero =>
      obtain ⟨hchunks, hordered, hnext, hunordered⟩ :=
        s.reassemblyQueue.forwardTsnForUnordered_fields newCumulativeTsn
      refine ⟨_, ?_, hordered, hnext, hunordered, hchunks⟩
      show (s.handleForwardTsnForUnordered newCumulativeTsn).1 = _
      unfold handleForwardTsnForUnordered
      rw [if_neg (by rw [h]; simp)]
    | succ n ih =>
      obtain ⟨q, heq, hordered, hnext, hunordered, hchunks⟩ := ih
      obtain ⟨hchunks', hordered', hnext', hunordered'⟩ :=
        q.forwardTsnForUnordered_fields newCumulativeTsn
      refine ⟨_, ?_, hordered'.trans hordered, hnext'.trans hnext, hunordered'.trans hunordered, ?_⟩
      · rw [Function.iterate_succ_apply', heq]
        unfold handleForwardTsnForUnordered
        dsimp only
        rw [if_neg (by rw [h]; simp)]
      · rw [hchunks', hchunks, List.dropWhile_idempotent]
  obtain ⟨q, heq, hfields⟩ := hall n
  rw [heq]
  exact hfields

/-- A stream that looks at ordered data only. -/
theorem skipped_of_ordered {s : Stream} (h : s.unordered = false) (ssns : List U16)
    (newCumulativeTsn : U32) (n : ℕ) :
    s.skipped ssns newCumulativeTsn n =
      { s with reassemblyQueue := ssns.foldl ReassemblyQueue.forwardTsnForOrdered s.reassemblyQueue } := by
  have hnot : ¬ s.unordered = true := by
    rw [h]
    exact Bool.false_ne_true
  unfold skipped
  rw [handleForwardTsnForOrdered_foldl, if_neg hnot]
  induction n with
  | zero => rfl
  | succ n ih =>
    rw [Function.iterate_succ_apply', ih]
    unfold handleForwardTsnForUnordered
    dsimp only
    rw [if_pos (by rw [h]; rfl)]

theorem releases_iff (s : Stream) (ssns : List U16) (newCumulativeTsn : U32) (n : ℕ) :
    Releases ssns newCumulativeTsn s.reassemblyQueue
        (s.skipped ssns newCumulativeTsn (n + 1)).reassemblyQueue ↔
      s.ReleasesAll ssns newCumulativeTsn := by
  -- the filter of the source, in terms of what it leaves
  have hskipped : ∀ ssn cset, ReassemblyQueue.skippedBy ssn cset = false ↔
      ¬ (sna16lte cset.ssn ssn = true ∧ cset.isComplete = false) := by
    intro ssn cset
    unfold ReassemblyQueue.skippedBy
    cases sna16lte cset.ssn ssn <;> cases cset.isComplete <;> simp
  unfold ReleasesAll
  by_cases hunordered : s.unordered = true
  · rw [if_pos hunordered]
    obtain ⟨hordered, hnext, hsets, hchunks⟩ :=
      skipped_of_unordered hunordered ssns newCumulativeTsn n
    constructor
    · rintro ⟨h1, h2, h3, _⟩
      rw [hordered] at h1
      rw [hnext] at h2
      rw [hchunks, forall_mem_dropWhile_iff] at h3
      exact ⟨fun ssn hssn => ⟨fun cset hcset => (hskipped ssn cset).mpr (h1 ssn hssn cset hcset),
        h2 ssn hssn⟩, h3⟩
    · rintro ⟨h1, h2⟩
      refine ⟨?_, ?_, ?_, ?_, hsets⟩
      · rw [hordered]
        exact fun ssn hssn cset hcset => (hskipped ssn cset).mp ((h1 ssn hssn).1 cset hcset)
      · rw [hnext]
        exact fun ssn hssn => (h1 ssn hssn).2
      · rw [hchunks, forall_mem_dropWhile_iff]
        exact h2
      · rw [hordered]
  · rw [if_neg hunordered, skipped_of_ordered (by simpa using hunordered)]
    obtain ⟨hordered, hnext, hsets, hchunks⟩ :=
      s.reassemblyQueue.forwardTsnForOrdered_foldl ssns
    dsimp only
    revert hordered hnext hsets hchunks
    generalize ssns.foldl ReassemblyQueue.forwardTsnForOrdered s.reassemblyQueue = q
    intro hordered hnext hsets hchunks
    constructor
    · rintro ⟨_, h2, h3, _⟩
      rw [hnext] at h2
      rw [hchunks] at h3
      exact ⟨h2, h3⟩
    · rintro ⟨h1, h2⟩
      refine ⟨?_, ?_, ?_, ?_, hsets⟩
      · intro ssn hssn cset hcset
        rw [hordered, List.mem_filter, List.all_eq_true] at hcset
        have hkept := hcset.2 ssn hssn
        rw [Bool.not_eq_true'] at hkept
        exact (hskipped ssn cset).mp hkept
      · rw [hnext]
        exact h1
      · rw [hchunks]
        exact h2
      · rw [hordered, List.filter_filter]
        apply List.filter_congr
        intro cset _
        -- complete sets pass every filter
        cases hcomplete : cset.isComplete with
        | false => rfl
        | true =>
          rw [Bool.true_and, List.all_eq_true]
          intro ssn _
          unfold ReassemblyQueue.skippedBy
          rw [hcomplete, Bool.not_true, Bool.and_false]
          rfl

end Stream

namespace AssociationInternal

variable {a : AssociationInternal}

/-! ## The streams of an association -/

/-- A loop over streams reaches an object as often as it names a stream it is registered as. -/
theorem objects_modifyStreams {β : Type*} (id : β → U16) (f : β → Stream → Stream) (l : List β)
    {r : StreamRef} {s : Stream} (hs : a.objects[r]? = some s) :
    (l.foldl (fun a e => a.modifyStream (id e) (f e)) a).streams = a.streams ∧
      (l.foldl (fun a e => a.modifyStream (id e) (f e)) a).objects[r]? =
        some ((l.filter fun e => a.streams.lookup (id e) = some r).foldl (fun s e => f e s) s) := by
  induction l generalizing a s with
  | nil => exact ⟨rfl, hs⟩
  | cons e l ih =>
    rw [List.foldl_cons]
    have hstreams : (a.modifyStream (id e) (f e)).streams = a.streams := streams_modifyStream ..
    -- each entry names this object or another one
    by_cases hreg : a.streams.lookup (id e) = some r
    · have hs' : (a.modifyStream (id e) (f e)).objects[r]? = some (f e s) := by
        rw [modifyStream_eq hreg]
        show (a.objects.modify r (f e))[r]? = _
        rw [List.getElem?_modify_eq, hs]
        rfl
      obtain ⟨h1, h2⟩ := ih hs'
      rw [hstreams] at h1 h2
      refine ⟨h1, h2.trans ?_⟩
      rw [List.filter_cons_of_pos (by simpa using hreg), List.foldl_cons]
    · have hs' : (a.modifyStream (id e) (f e)).objects[r]? = some s := by
        cases hlookup : a.streams.lookup (id e) with
        | none =>
          rw [modifyStream_of_none hlookup]
          exact hs
        | some r' =>
          rw [modifyStream_eq hlookup]
          show (a.objects.modify r' (f e))[r]? = _
          rw [List.getElem?_modify_ne, hs]
          intro hsame
          rw [hsame] at hlookup
          exact hreg hlookup
      obtain ⟨h1, h2⟩ := ih hs'
      rw [hstreams] at h1 h2
      refine ⟨h1, h2.trans ?_⟩
      rw [List.filter_cons_of_neg (by simpa using hreg)]

theorem foldl_const {α β : Type*} (f : α → α) (l : List β) (x : α) :
    l.foldl (fun x _ => f x) x = f^[l.length] x := by
  induction l generalizing x with
  | nil => rfl
  | cons _ l ih => exact ih (f x)

/-- A stream that is registered is told of each SSN listed for it, and of the point. -/
theorem objects_forwardStreams {c : ChunkForwardTsn} {r : StreamRef} {s : Stream}
    (hr : a.Registered r) (hs : a.objects[r]? = some s) :
    ∃ n, (a.forwardStreams c).objects[r]? =
      some (s.skipped (a.listedSsns c r) c.newCumulativeTsn (n + 1)) := by
  obtain ⟨hstreams, hordered⟩ := objects_modifyStreams (fun e : ChunkForwardTsnStream => e.identifier)
    (fun e s => (s.handleForwardTsnForOrdered e.sequence).1) c.streams hs
  obtain ⟨_, hunordered⟩ := objects_modifyStreams (fun si : U16 => si)
    (fun _ s => (s.handleForwardTsnForUnordered c.newCumulativeTsn).1) a.streams.keys hordered
  rw [hstreams, foldl_const] at hunordered
  obtain ⟨si, hsi⟩ := hr
  have hpos : 0 < (a.streams.keys.filter fun si => a.streams.lookup si = some r).length := by
    apply List.length_pos_of_mem (a := si)
    rw [List.mem_filter]
    refine ⟨?_, by simpa using hsi⟩
    rw [← AList.mem_keys, ← AList.lookup_isSome, hsi]
    rfl
  refine ⟨(a.streams.keys.filter fun si => a.streams.lookup si = some r).length - 1, ?_⟩
  rw [Nat.sub_add_cancel hpos]
  unfold Stream.skipped listedSsns
  rw [List.foldl_map]
  unfold forwardStreams
  dsimp only
  rw [hstreams]
  exact hunordered

/-- A FORWARD TSN releases what it skips of a stream exactly if the stream looks at all of it. -/
theorem releasesSkipped_iff (c : ChunkForwardTsn) (huse : a.useForwardTsn = true)
    (hahead : sna32lt a.peerLastTsn c.newCumulativeTsn = true) (r : StreamRef) (s : Stream)
    (hr : a.Registered r) (hs : a.objects[r]? = some s) :
    a.ReleasesSkipped c r ↔ s.ReleasesAll (a.listedSsns c r) c.newCumulativeTsn := by
  have hnot : sna32lte c.newCumulativeTsn a.peerLastTsn = false := by
    rw [← Bool.not_eq_true, sna32lte_iff]
    rw [sna32lt_iff] at hahead
    have hne : a.peerLastTsn ≠ c.newCumulativeTsn := by
      intro heq
      rw [heq, Serial.dist_self] at hahead
      exact absurd hahead.1 (lt_irrefl 0)
    rw [Serial.dist_comm_of_ne hne]
    omega
  -- first the cumulative TSN moves, then the streams are told
  let b : AssociationInternal := { a with
    payloadQueue := (forwardPeerLastTsn c.newCumulativeTsn a.payloadQueue a.peerLastTsn).1
    peerLastTsn := (forwardPeerLastTsn c.newCumulativeTsn a.payloadQueue a.peerLastTsn).2 }
  obtain ⟨n, hn⟩ := objects_forwardStreams (a := b) (c := c) hr hs
  -- what comes after the streams leaves their queues
  have hend : ∀ b' : AssociationInternal,
      (b'.handlePeerLastTsnAndAcknowledgement false).1.objects[r]?.map (·.reassemblyQueue) =
        b'.objects[r]?.map (·.reassemblyQueue) := by
    intro b'
    have hshedding := shedding_reassemblyQueue b' r
    exact acknowledgement_invariant (fun htable _ h => hshedding.congr htable h)
      (fun _ h => hshedding.recheck h) false rfl
  rw [← Stream.releases_iff s _ _ n]
  unfold ReleasesSkipped
  rw [handleForwardTsn_of_ahead huse hnot]
  have hqueue := hend (b.forwardStreams c)
  rw [hn, Option.map_some] at hqueue
  obtain ⟨s', hs', heq⟩ := Option.map_eq_some_iff.mp hqueue
  constructor
  · rintro ⟨s₀, s₁, hs₀, hs₁, hreleases⟩
    rw [hs, Option.some.injEq] at hs₀
    rw [show (b.forwardStreams c |>.handlePeerLastTsnAndAcknowledgement false).1.objects[r]? = _ from hs',
      Option.some.injEq] at hs₁
    subst hs₀ hs₁
    rw [heq] at hreleases
    exact hreleases
  · intro hreleases
    refine ⟨s, s', hs, hs', ?_⟩
    rw [heq]
    exact hreleases

/-- The first half of an ordered message of stream 3 has arrived. -/
def halfMessage : AssociationInternal :=
  (justEstablished.handleData
    { tsn := 1, streamIdentifier := 3, beginningFragment := true, userData := [1] }).1

/-- The peer skips the rest of it. -/
def skipHalf : ChunkForwardTsn :=
  { newCumulativeTsn := 2, streams := [{ identifier := 3, sequence := 0 }] }

/-- The application sends ordered data. -/
theorem releasesSkipped_halfMessage : halfMessage.ReleasesSkipped skipHalf 0 := by
  have hlisted : halfMessage.listedSsns skipHalf 0 = [0] := by decide +kernel
  have hstream : halfMessage.objects[0]?.map (fun s => (s.unordered, s.reassemblyQueue.nextSsn,
      s.reassemblyQueue.unorderedChunks)) = some (false, 0, []) := by decide +kernel
  obtain ⟨s, hs, hfields⟩ := Option.map_eq_some_iff.mp hstream
  simp only [Prod.mk.injEq] at hfields
  obtain ⟨hordered, hnext, hnone⟩ := hfields
  apply (releasesSkipped_iff skipHalf (by decide +kernel) (by decide +kernel) 0 s
    ⟨3, by decide +kernel⟩ hs).mpr
  rw [hlisted]
  unfold Stream.ReleasesAll
  rw [if_neg (by rw [hordered]; exact Bool.false_ne_true), hnext, hnone]
  refine ⟨?_, fun c hc => absurd hc List.not_mem_nil⟩
  intro ssn hssn
  rw [List.mem_singleton.mp hssn]
  decide

/-- The application sends unordered data. -/
theorem not_releasesSkipped_unordered :
    ¬ ∀ (a : AssociationInternal) (c : ChunkForwardTsn), a.useForwardTsn = true →
      sna32lt a.peerLastTsn c.newCumulativeTsn = true →
        ∀ (r : StreamRef), a.Registered r → a.ReleasesSkipped c r := by
  intro h
  let a := halfMessage.modifyStream 3 (·.setReliabilityParams true .reliable 0)
  obtain ⟨s, s', hs, hs', hreleases⟩ := h a skipHalf (by decide +kernel) (by decide +kernel) 0
    ⟨3, by decide +kernel⟩
  have hnext := hreleases.nextSsn 0 (by decide +kernel)
  have hstuck : ((a.handleForwardTsn skipHalf).1.objects[0]?.map (·.reassemblyQueue.nextSsn)) =
      some 0 := by decide +kernel
  rw [hs', Option.map_some, Option.some.injEq] at hstuck
  rw [hstuck] at hnext
  exact absurd hnext (by decide)

end AssociationInternal

end Sctp
