import Sctp.Association.FreeTsnTheorems
import Sctp.Association.FastRecoveryTheorems
import Sctp.Association.ReleaseTheorems
import Sctp.Association.TransmissionTheorems

/-!
# A SACK releases each byte once

A chunk is acknowledged by a gap block, which takes its data away, or by the cumulative TSN, which
takes it out of the queue; what it has then is added to its stream. The second time there is
nothing left to add.
-/

namespace Sctp

namespace PayloadQueue

variable {q q' q'' : PayloadQueue} {kind : ChunkPayloadData → Bool}

/-- The counters agree with the chunks, and what is acknowledged has no data left. -/
structure Balanced (q : PayloadQueue) : Prop extends q.Coherent where
  emptied : q.Each fun c => c.acked = true → c.userData = []

theorem Balanced.onlyNotes {q q' : PayloadQueue} (h : q.Balanced) (hnotes : q.OnlyNotes q') :
    q'.Balanced := by
  refine ⟨hnotes.coherent h.toCoherent, hnotes.payloads.each ?_ h.emptied⟩
  intro c c' hpayload hempty hacked
  have hacked' : c.acked = c'.acked := (congrArg ChunkPayloadData.acked hpayload :)
  have hdata : c.userData = c'.userData := (congrArg ChunkPayloadData.userData hpayload :)
  rw [← hdata]
  exact hempty (hacked'.trans hacked)

/-- The chunks that are acknowledged in `q'` and not yet in `q`: they are marked there, or gone. -/
def newlyAcked (q q' : PayloadQueue) : List ChunkPayloadData :=
  q.chunkMap.values.filter fun c => !c.acked && (q'.get c.tsn).all (·.acked)

/-- What is left is as it was, or has been marked and has lost its data. -/
def Acks (q q' : PayloadQueue) : Prop :=
  ∀ t c', q'.get t = some c' → ∃ c, q.get t = some c ∧
    (c' = c ∨ (c.acked = false ∧ c'.acked = true ∧ c'.userData = []))

theorem Acks.refl (q : PayloadQueue) : Acks q q := fun _ c hc => ⟨c, hc, Or.inl rfl⟩

theorem Acks.trans (h : Acks q q') (h' : Acks q' q'') : Acks q q'' := by
  intro t c'' hc''
  obtain ⟨c', hc', hlast⟩ := h' t c'' hc''
  obtain ⟨c, hc, hfirst⟩ := h t c' hc'
  refine ⟨c, hc, ?_⟩
  rcases hlast with heq | ⟨hacked, hmarked⟩
  · rw [heq]
    exact hfirst
  · rcases hfirst with heq | ⟨_, hearlier, _⟩
    · rw [heq] at hacked
      exact Or.inr ⟨hacked, hmarked⟩
    · rw [hacked] at hearlier
      cases hearlier

theorem Acks.pop {t : U32} {c : ChunkPayloadData} (hpop : q.pop t = (q', some c)) : Acks q q' := by
  intro t' c' hc'
  have hkept := @get_of_pop c' q t t'
  rw [hpop] at hkept
  exact ⟨c', hkept hc', Or.inl rfl⟩

theorem Acks.markAsAcked {t : U32} {c : ChunkPayloadData} (hget : q.get t = some c)
    (hacked : c.acked = false) : Acks q (q.markAsAcked t).1 := by
  intro t' c' hc'
  have hlookup : q.chunkMap.lookup t = some c := hget
  unfold PayloadQueue.markAsAcked at hc'
  rw [hlookup] at hc'
  have hmod : (AssocMap.modify t (fun c =>
      { c with acked := true, retransmit := false, userData := [] }) q.chunkMap).lookup t' =
        some c' := hc'
  by_cases hne : t' = t
  · rw [hne, AssocMap.lookup_modify_self, hlookup] at hmod
    cases hmod
    rw [hne]
    exact ⟨c, hget, Or.inr ⟨hacked, rfl, rfl⟩⟩
  · rw [AssocMap.lookup_modify_ne hne] at hmod
    exact ⟨c', hmod, Or.inl rfl⟩

theorem sum_filter_add (kind p : ChunkPayloadData → Bool) (l : List ChunkPayloadData) :
    (l.map (·.bytesIf kind)).sum = (l.map (·.bytesIf fun c => kind c && !p c)).sum +
      ((l.filter p).map (·.bytesIf kind)).sum := by
  induction l with
  | nil => rfl
  | cons c l ih =>
    rw [List.map_cons, List.map_cons, List.sum_cons, List.sum_cons, ih]
    by_cases hp : p c = true
    · have hout : c.bytesIf (fun c => kind c && !p c) = 0 := by
        apply ChunkPayloadData.bytesIf_of_not
        rw [hp, Bool.not_true, Bool.and_false]
      rw [List.filter_cons_of_pos hp, List.map_cons, List.sum_cons]
      omega
    · have hin : c.bytesIf (fun c => kind c && !p c) = c.bytesIf kind := by
        apply ChunkPayloadData.bytesIf_congr
        rw [Bool.not_eq_true] at hp
        rw [hp, Bool.not_false, Bool.and_true]
      rw [List.filter_cons_of_neg hp]
      omega

/-- The bytes of a kind that are gone are those of its chunks that are newly acknowledged. -/
theorem Acks.bytesOf (h : Acks q q') (hq : q.Each fun c => c.acked = true → c.userData = []) :
    q.bytesOf kind = q'.bytesOf kind + ((newlyAcked q q').map (·.bytesIf kind)).sum := by
  have hsplit := sum_filter_add kind (fun c => !c.acked && (q'.get c.tsn).all (·.acked))
    q.chunkMap.values
  -- what is not newly acknowledged has the same bytes under its TSN in both queues
  have hrest : q'.bytesOf kind =
      q.bytesOf fun c => kind c && !(!c.acked && (q'.get c.tsn).all (·.acked)) := by
    apply bytesOf_congr
    intro t
    cases hc : q.get t with
    | none =>
      cases hc' : q'.get t with
      | none => rfl
      | some c' =>
        obtain ⟨c, hget, _⟩ := h t c' hc'
        rw [hc] at hget
        cases hget
    | some c =>
      obtain ⟨htsn, hempty⟩ := hq t c hc
      rw [Option.map_some, Option.getD_some]
      by_cases hacked : c.acked = true
      · -- an acknowledged chunk has no bytes, wherever it is
        rw [ChunkPayloadData.bytesIf_of_empty (hempty hacked)]
        cases hc' : q'.get t with
        | none => rfl
        | some c' =>
          obtain ⟨d, hget, hcases⟩ := h t c' hc'
          rw [hc] at hget
          cases hget
          have hdata : c'.userData = [] := by
            rcases hcases with heq | ⟨_, _, hdata⟩
            · rw [heq]
              exact hempty hacked
            · exact hdata
          exact ChunkPayloadData.bytesIf_of_empty hdata
      · rw [Bool.not_eq_true] at hacked
        cases hc' : q'.get t with
        | none =>
          symm
          apply ChunkPayloadData.bytesIf_of_not
          rw [htsn, hc', hacked]
          simp
        | some c' =>
          obtain ⟨d, hget, hcases⟩ := h t c' hc'
          rw [hc] at hget
          cases hget
          rw [Option.map_some, Option.getD_some]
          rcases hcases with heq | ⟨_, hmarked, hdata⟩
          · rw [heq]
            apply ChunkPayloadData.bytesIf_congr
            rw [htsn, hc', heq, Option.all_some, hacked]
            simp
          · rw [ChunkPayloadData.bytesIf_of_empty hdata]
            symm
            apply ChunkPayloadData.bytesIf_of_not
            rw [htsn, hc', Option.all_some, hmarked, hacked]
            simp
  rw [hrest]
  exact hsplit

end PayloadQueue

namespace AssociationInternal

open PayloadQueue

variable {a a' : AssociationInternal} {now : ℕ}

/-! ## One SACK -/

theorem BytesAcked.total_add (b : BytesAcked) (si : U16) (n : ℕ) :
    (b.add si n).total = b.total + n := by
  have htotal : ∀ m : BytesAcked, m.total = AssocMap.sumOf id m := by
    intro m
    unfold BytesAcked.total AssocMap.sumOf
    rw [List.map_id]
  rw [htotal, htotal]
  unfold BytesAcked.add
  have hlookup := AList.lookup_insert (a := si) (b := (b.lookup si).getD 0 + n) b
  rw [AssocMap.sumOf_erase hlookup id, AssocMap.erase_insert]
  cases hsi : b.lookup si with
  | none =>
    have hnot : si ∉ b := AList.lookup_eq_none.mp hsi
    have herase : AssocMap.sumOf id (b.erase si) = AssocMap.sumOf id b := by
      apply AssocMap.sumOf_congr
      intro k
      by_cases hk : k = si
      · rw [hk, AList.lookup_erase, hsi]
      · exact AList.lookup_erase_ne hk
    rw [herase]
    show 0 + n + _ = _
    omega
  | some v =>
    have hsplit := AssocMap.sumOf_erase hsi id
    rw [hsplit]
    show v + n + _ = v + _ + n
    omega

/-- What the loops have taken out of the queue `q₀` is what they have added up. -/
structure Releases (q₀ q : PayloadQueue) (b : BytesAcked) : Prop where
  balanced : q.Balanced
  acks : Acks q₀ q
  total : q.nBytes + b.total = q₀.nBytes
  streams : ∀ si : U16, q₀.bytesOf (fun c => c.streamIdentifier = si) =
    q.bytesOf (fun c => c.streamIdentifier = si) + (b.lookup si).getD 0

namespace Releases

variable {q₀ q q' : PayloadQueue} {b : BytesAcked} {c : ChunkPayloadData} {t : U32}

theorem start (h : q₀.Balanced) : Releases q₀ q₀ ∅ where
  balanced := h
  acks := Acks.refl q₀
  total := rfl
  streams _ := rfl

/-- The bytes of the chunk count for its own stream. -/
theorem lookup_add (b : BytesAcked) (c : ChunkPayloadData) (si : U16) :
    ((b.add c.streamIdentifier c.userData.length).lookup si).getD 0 =
      (b.lookup si).getD 0 + c.bytesIf fun c => c.streamIdentifier = si := by
  rw [BytesAcked.lookup_add]
  by_cases hsi : c.streamIdentifier = si
  · rw [if_pos hsi, ChunkPayloadData.bytesIf, if_pos (by simpa using hsi)]
  · rw [if_neg hsi, ChunkPayloadData.bytesIf, if_neg (by simpa using hsi)]

/-- The chunk is popped. If it was acknowledged before, it has nothing to add. -/
theorem pop (h : Releases q₀ q b) (hpop : q.pop t = (q', some c)) :
    Releases q₀ q' (if c.acked then b else b.add c.streamIdentifier c.userData.length) := by
  have hget := get_of_pop_eq_some hpop
  have hq' : (q.pop t).1 = q' := congrArg Prod.fst hpop
  have hbytes : ∀ kind, q.bytesOf kind = q'.bytesOf kind + c.bytesIf kind := by
    intro kind
    have hpopped := @bytesOf_pop kind q t
    rw [hpop] at hpopped
    exact hpopped
  have hle := h.balanced.toCoherent.length_le hget
  have hn := nBytes_pop hpop
  have htotal := h.total
  refine ⟨⟨hq' ▸ h.balanced.toCoherent.pop t, hq' ▸ h.balanced.emptied.pop t⟩,
    h.acks.trans (Acks.pop hpop), ?_, ?_⟩
  · cases hacked : c.acked with
    | true =>
      -- its data was let go when a gap block acknowledged it
      have hempty := (h.balanced.emptied t c hget).2 hacked
      rw [hempty, List.length_nil] at hn
      rw [if_pos rfl]
      omega
    | false =>
      rw [if_neg Bool.false_ne_true, BytesAcked.total_add]
      omega
  · intro si
    have hstream := h.streams si
    rw [hbytes] at hstream
    cases hacked : c.acked with
    | true =>
      rw [ChunkPayloadData.bytesIf_of_empty ((h.balanced.emptied t c hget).2 hacked)] at hstream
      rw [if_pos rfl]
      omega
    | false =>
      rw [if_neg Bool.false_ne_true, lookup_add]
      omega

/-- The chunk is marked, and its data goes. -/
theorem markAsAcked (h : Releases q₀ q b) (hget : q.get t = some c) (hacked : c.acked = false) :
    Releases q₀ (q.markAsAcked t).1 (b.add c.streamIdentifier c.userData.length) := by
  have hle := h.balanced.toCoherent.length_le hget
  have hn : (q.markAsAcked t).1.nBytes = q.nBytes - c.userData.length := by
    have hlookup : q.chunkMap.lookup t = some c := hget
    unfold PayloadQueue.markAsAcked
    rw [hlookup]
  have htotal := h.total
  refine ⟨⟨h.balanced.toCoherent.markAsAcked t, h.balanced.emptied.markAsAcked t fun _ _ _ => rfl⟩,
    h.acks.trans (Acks.markAsAcked hget hacked), ?_, ?_⟩
  · rw [BytesAcked.total_add]
    omega
  · intro si
    have hstream := h.streams si
    rw [bytesOf_markAsAcked hget] at hstream
    rw [lookup_add]
    omega

end Releases

/-- What `process_selective_ack` takes out of the queue is what it returns. -/
theorem processSelectiveAck_releases {d : ChunkSelectiveAck} {b : BytesAcked} {htna : U32}
    (h : a.inflightQueue.Balanced) (hok : a.processSelectiveAck now d = (a', .ok (b, htna))) :
    Releases a.inflightQueue a'.inflightQueue b := by
  unfold processSelectiveAck at hok
  split at hok
  · cases hok
  · rename_i a₁ b₁ hpop
    have hpopped := popAcked_rule (R := Releases a.inflightQueue) (I := fun _ => True)
      (fun _ _ _ => trivial) (fun t q q' c b _ _ hq hsofar => hsofar.pop hq) hpop trivial
      (Releases.start h)
    have hmarked := ackGaps_rule (R := Releases a.inflightQueue)
      (fun t _ q c b hget hacked hsofar => hsofar.markAsAcked hget hacked) hok hpopped.1
    exact hmarked.1

/-- What a SACK returns: the bytes that leave the queue, and for each stream those of the chunks that
the SACK is the first to acknowledge, each of which counts once. -/
structure ReleasesOnce (a a' : AssociationInternal) (b : BytesAcked) : Prop where
  total : b.total + a'.inflightQueue.nBytes = a.inflightQueue.nBytes
  streams : ∀ si : U16, (b.lookup si).getD 0 =
    chunksBytes ((newlyAcked a.inflightQueue a'.inflightQueue).filter (·.streamIdentifier = si))
  once : ((newlyAcked a.inflightQueue a'.inflightQueue).map (·.tsn)).Nodup

theorem chunksBytes_filter (kind : ChunkPayloadData → Bool) (l : List ChunkPayloadData) :
    chunksBytes (l.filter kind) = (l.map (·.bytesIf kind)).sum := by
  unfold chunksBytes
  induction l with
  | nil => rfl
  | cons c l ih =>
    rw [List.map_cons, List.sum_cons, ← ih]
    by_cases hc : kind c = true
    · rw [List.filter_cons_of_pos hc, ChunkPayloadData.bytesIf, if_pos hc]
      rfl
    · rw [List.filter_cons_of_neg hc, ChunkPayloadData.bytesIf, if_neg hc, Nat.zero_add]

/-- Under each TSN there is one chunk. -/
theorem nodup_newlyAcked {q : PayloadQueue} (h : q.Each fun _ => True) (q' : PayloadQueue) :
    ((newlyAcked q q').map (·.tsn)).Nodup := by
  have hkeys : q.chunkMap.values.map (·.tsn) = q.chunkMap.keys := by
    unfold AssocMap.values
    rw [List.map_map]
    apply List.map_congr_left
    intro e he
    exact (h e.1 e.2 (AList.mem_lookup_iff.mpr he)).1
  have hsub : (newlyAcked q q').Sublist q.chunkMap.values := List.filter_sublist
  have hnodup : (q.chunkMap.values.map (·.tsn)).Nodup := hkeys ▸ q.chunkMap.keys_nodup
  exact hnodup.sublist (hsub.map _)

theorem Releases.releasesOnce {b : BytesAcked} (h : a.inflightQueue.Balanced)
    (hreleases : Releases a.inflightQueue a'.inflightQueue b) : a.ReleasesOnce a' b where
  total := by
    have htotal := hreleases.total
    omega
  streams si := by
    have hstream := hreleases.streams si
    rw [hreleases.acks.bytesOf h.emptied] at hstream
    rw [chunksBytes_filter]
    omega
  once := nodup_newlyAcked (fun t c hc => ⟨(h.emptied t c hc).1, trivial⟩) _

/-! ## A run -/

/-- The chunks that an operation is the first to acknowledge. -/
def acknowledgedBy (a : AssociationInternal) : SenderOp → List ChunkPayloadData
  | .sack now d =>
    if a.readsSack d then
      newlyAcked a.inflightQueue (a.processSelectiveAck now d).1.inflightQueue
    else
      []
  | _ => []

theorem sackKeeps_balanced : SackKeeps Balanced where
  pop _ t h := ⟨h.toCoherent.pop t, h.emptied.pop t⟩
  mark _ t h := ⟨h.toCoherent.markAsAcked t, h.emptied.markAsAcked t fun _ _ _ => rfl⟩
  miss q t h := h.onlyNotes (OnlyNotes.miss q t)

/-- The bytes under a TSN do not depend on the notes. -/
theorem bytesOf_tsn {q q' : PayloadQueue} (h : q.OnlyNotes q') (t : U32) :
    q'.bytesOf (fun c => c.tsn = t) = q.bytesOf fun c => c.tsn = t :=
  h.payloads.bytesOf fun _ => rfl

/-- The chunks that go into flight are counted under TSNs of their own. -/
theorem gather_accounts (h : a.inflightQueue.Balanced) (now : ℕ)
    (honce : a.GivesTsnsOnce (.gather now)) (hunacked : ∀ c ∈ a.assigns (.gather now), c.acked = false) :
    (a.gatherOutbound now).1.inflightQueue.Balanced ∧ ∀ t : U32,
      (a.gatherOutbound now).1.inflightQueue.bytesOf (fun c => c.tsn = t) =
        a.inflightQueue.bytesOf (fun c => c.tsn = t) +
          ((a.assigns (.gather now)).map (·.bytesIf fun c => c.tsn = t)).sum := by
  obtain ⟨q, hbefore, hafter⟩ := gather_onlyNotes a now
  have hq := h.onlyNotes hbefore
  have hfree : ∀ c ∈ a.assigns (.gather now), c.tsn ∉ q.chunkMap := by
    intro c hc hmem
    exact honce.2 c hc ((hbefore.touched.mem_iff c.tsn).mp hmem)
  refine ⟨Balanced.onlyNotes ⟨hq.toCoherent.pushes honce.1 hfree, ?_⟩ hafter, ?_⟩
  · apply hq.emptied.pushes
    -- what is pushed has its data
    intro c hc hacked
    rw [hunacked c hc] at hacked
    cases hacked
  · intro t
    rw [bytesOf_tsn hafter, bytesOf_inflight honce.1 hfree, bytesOf_tsn hbefore]

/-- A SACK takes out what it is the first to acknowledge. -/
theorem sack_accounts (h : a.inflightQueue.Balanced) {d : ChunkSelectiveAck}
    (hok : (a.handleSack now d).2.isOk = true) (t : U32) :
    (a.handleSack now d).1.inflightQueue.bytesOf (fun c => c.tsn = t) +
        ((a.acknowledgedBy (.sack now d)).map (·.bytesIf fun c => c.tsn = t)).sum =
      a.inflightQueue.bytesOf fun c => c.tsn = t := by
  by_cases hreads : a.readsSack d = true
  · obtain ⟨b, bytesAcked, htna, hprocess, hnotes⟩ := handleSack_of_reads hreads hok
    have hacks := @PayloadQueue.Acks.bytesOf _ _ (fun c => c.tsn = t)
      (processSelectiveAck_releases h hprocess).acks h.emptied
    have happly := (applySack_of_processSelectiveAck (dist_lt_of_reads hreads) hprocess).2
    have hafter := @PayloadQueue.SamePayloads.bytesOf (fun c => c.tsn = t) _ _ hnotes.payloads
      fun _ => rfl
    rw [happly] at hafter
    have hlist : a.acknowledgedBy (.sack now d) = newlyAcked a.inflightQueue b.inflightQueue := by
      show (if a.readsSack d then _ else _) = _
      rw [if_pos hreads, hprocess]
    rw [hlist, hafter, hacks]
  · -- an old SACK, or one in a state that reads none
    have hlist : a.acknowledgedBy (.sack now d) = [] := if_neg hreads
    rw [hlist, handleSack_of_not_reads (by simpa using hreads)]
    rfl

theorem pending_gatherOutbound {Q : ChunkPayloadData → Prop} (h : a.pendingQueue.Each Q) (now : ℕ) :
    (a.gatherOutbound now).1.pendingQueue.Each Q := by
  refine gatherOutbound_invariant (P := fun b => b.pendingQueue.Each Q) ?_ ?_ ?_ ?_ ?_ h
  · intro b b' hcore hb
    have hpending : b'.pendingQueue = b.pendingQueue := (congrArg pendingQueue hcore :)
    rwa [hpending]
  · intro b b' hresends hb
    have hpending : b'.pendingQueue = b.pendingQueue := (congrArg pendingQueue hresends.frame :)
    rwa [hpending]
  · exact fun b c _ _ hb => (hb.pop _ _).1
  · intro b c rwnd _ hb
    have hpopped := (hb.pop c.beginningFragment c.unordered).1
    rcases hpop : b.pendingQueue.pop c.beginningFragment c.unordered with ⟨q, _ | c'⟩
    · rw [hpop] at hpopped
      rw [movePending_of_none (a := { b with rwnd }) hpop]
      exact hpopped
    · rw [hpop] at hpopped
      obtain ⟨flags, _, heq⟩ := movePending_of_some (a := { b with rwnd }) now hpop
      rw [heq]
      exact hpopped
  · intro b hb
    obtain ⟨_, _, _, _, heq⟩ := b.gatherOutboundShutdownPackets_eq
    rwa [heq]

/-- What waits has not been acknowledged, and so has not what goes into flight. -/
theorem unacked_senderStep (h : a.pendingQueue.Each (·.acked = false)) {op : SenderOp}
    (hop : PushesUnsent op) :
    (a.senderStep op).pendingQueue.Each (·.acked = false) ∧ ∀ c ∈ a.assigns op, c.acked = false := by
  cases op with
  | openStream si ppi =>
    obtain ⟨objects, streams, heq⟩ := a.openStream_eq si ppi
    refine ⟨?_, fun c hc => absurd hc List.not_mem_nil⟩
    show (a.openStream si ppi).1.pendingQueue.Each _
    rw [heq]
    exact h
  | setReliabilityParams r unordered relType relVal =>
    exact ⟨h, fun c hc => absurd hc List.not_mem_nil⟩
  | write r p ppi => exact ⟨unacked_writeSctp h r p ppi, fun c hc => absurd hc List.not_mem_nil⟩
  | shutdownStream r how =>
    exact ⟨unacked_shutdownStream h r how, fun c hc => absurd hc List.not_mem_nil⟩
  | push c => exact ⟨h.push hop, fun c hc => absurd hc List.not_mem_nil⟩
  | gather now =>
    -- what goes into flight comes from the pending queue
    refine ⟨pending_gatherOutbound h now, ?_⟩
    by_cases hstate : a.state = .established
    · have hassigns : a.assigns (.gather now) = ({ a with controlQueue := [] }.popped now).2.1 :=
        if_pos hstate
      rw [hassigns]
      exact (@popped_each (·.acked = false) { a with controlQueue := [] } now
        (fun _ _ hc => hc) h).2
    · have hassigns : a.assigns (.gather now) = [] := if_neg hstate
      rw [hassigns]
      exact fun c hc => absurd hc List.not_mem_nil
  | t3Rtx =>
    have hpending : a.onT3RtxTimeout.pendingQueue = a.pendingQueue :=
      (congrArg pendingQueue a.onT3RtxTimeout_frame :)
    exact ⟨hpending ▸ h, fun c hc => absurd hc List.not_mem_nil⟩
  | sack now d =>
    have hpending : (a.handleSack now d).1.pendingQueue = a.pendingQueue :=
      handleSack_kept (fun _ _ _ _ _ _ => rfl) a now d
    exact ⟨hpending ▸ h, fun c hc => absurd hc List.not_mem_nil⟩
  | shutdownChunk =>
    obtain ⟨state, willSendShutdownAck, heq⟩ := a.handleShutdown_eq
    refine ⟨?_, fun c hc => absurd hc List.not_mem_nil⟩
    show a.handleShutdown.pendingQueue.Each _
    rw [heq]
    exact h
  | shutdown =>
    obtain ⟨state, willSendShutdown, heq⟩ := a.shutdown_eq
    refine ⟨?_, fun c hc => absurd hc List.not_mem_nil⟩
    show a.shutdown.1.pendingQueue.Each _
    rw [heq]
    exact h

/-- The queue is balanced and nothing that waits is marked as acknowledged. -/
structure Accountable (a : AssociationInternal) : Prop where
  inflight : a.inflightQueue.Balanced
  pending : a.pendingQueue.Each (·.acked = false)

/-- **One operation**: under each TSN, what is acknowledged and what is left is what there was and
what is new. -/
theorem Accountable.step (h : a.Accountable) {op : SenderOp} (hok : a.SackOk op)
    (hunsent : PushesUnsent op) (honce : a.GivesTsnsOnce op) :
    (a.senderStep op).Accountable ∧ ∀ t : U32,
      (a.senderStep op).inflightQueue.bytesOf (fun c => c.tsn = t) +
          ((a.acknowledgedBy op).map (·.bytesIf fun c => c.tsn = t)).sum =
        a.inflightQueue.bytesOf (fun c => c.tsn = t) +
          ((a.assigns op).map (·.bytesIf fun c => c.tsn = t)).sum := by
  obtain ⟨hpending, hunacked⟩ := unacked_senderStep h.pending hunsent
  by_cases hcall : op.isCall = true
  · -- a call of the application does not touch the queue in flight
    have hflight : (a.senderStep op).inflightQueue = a.inflightQueue :=
      (congrArg inflightQueue (called_senderStep hcall).frame :)
    refine ⟨⟨hflight ▸ h.inflight, hpending⟩, ?_⟩
    intro t
    rw [hflight]
    cases op with
    | gather | t3Rtx | sack => cases hcall
    | _ => rfl
  · cases op with
    | gather now =>
      obtain ⟨hbalanced, hbytes⟩ := gather_accounts h.inflight now honce hunacked
      exact ⟨⟨hbalanced, hpending⟩, hbytes⟩
    | t3Rtx =>
      have hnotes := a.onlyNotes_onT3RtxTimeout
      exact ⟨⟨h.inflight.onlyNotes hnotes, hpending⟩, fun t => bytesOf_tsn hnotes t⟩
    | sack now d =>
      exact ⟨⟨sackKeeps_balanced.handleSack now d h.inflight, hpending⟩, sack_accounts h.inflight hok⟩
    | _ => exact absurd rfl hcall

/-- The same over a run. -/
theorem Accountable.run (h : a.Accountable) {ops : List SenderOp}
    (hops : Runs.Along senderStep (fun a op => (a.SackOk op ∧ PushesUnsent op) ∧ a.GivesTsnsOnce op)
      a ops) :
    (Runs.run senderStep a ops).Accountable ∧ ∀ t : U32,
      (Runs.run senderStep a ops).inflightQueue.bytesOf (fun c => c.tsn = t) +
          ((Runs.outputs senderStep acknowledgedBy a ops).flatten.map
            (·.bytesIf fun c => c.tsn = t)).sum =
        a.inflightQueue.bytesOf (fun c => c.tsn = t) +
          ((Runs.outputs senderStep assigns a ops).flatten.map (·.bytesIf fun c => c.tsn = t)).sum := by
  induction ops generalizing a with
  | nil => exact ⟨h, fun t => rfl⟩
  | cons op ops ih =>
    obtain ⟨hstep, hbytes⟩ := h.step hops.1.1.1 hops.1.1.2 hops.1.2
    obtain ⟨hrun, hrest⟩ := ih hstep hops.2
    refine ⟨hrun, ?_⟩
    intro t
    have hone := hbytes t
    have hmore := hrest t
    show (Runs.run senderStep (a.senderStep op) ops).inflightQueue.bytesOf _ +
        ((a.acknowledgedBy op ++ (Runs.outputs senderStep acknowledgedBy (a.senderStep op)
          ops).flatten).map _).sum = _ +
        ((a.assigns op ++ (Runs.outputs senderStep assigns (a.senderStep op) ops).flatten).map _).sum
    rw [List.map_append, List.sum_append, List.map_append, List.sum_append]
    omega

theorem Fresh.accountable (h : a.Fresh) : a.Accountable where
  inflight := by
    rw [h.inflightQueue]
    exact ⟨Coherent.new, Each.new⟩
  pending := by
    rw [h.pendingQueue]
    exact PendingQueue.Each.new

/-- What is in flight under a TSN, counted through the chunk that lies there. -/
theorem bytesOf_tsn_eq {q : PayloadQueue} (h : q.Each fun _ => True) (t : U32) :
    q.bytesOf (fun c => c.tsn = t) = ((q.get t).map (·.userData.length)).getD 0 := by
  cases hc : q.get t with
  | some c =>
    -- the other chunks lie under other TSNs
    have hrest : AssocMap.sumOf (·.bytesIf fun c => c.tsn = t) (q.chunkMap.erase t) = 0 := by
      apply AssocMap.sumOf_eq_zero
      intro k d hd
      apply ChunkPayloadData.bytesIf_of_not
      rw [decide_eq_false_iff_not]
      intro htsn
      have hk : k ∈ q.chunkMap.erase t := by
        rw [← AList.lookup_isSome, hd]
        rfl
      have hne := (AList.mem_erase.mp hk).1
      rw [AList.lookup_erase_ne hne] at hd
      exact hne ((h k d hd).1.symm.trans htsn)
    unfold bytesOf
    rw [AssocMap.sumOf_erase hc, hrest]
    exact if_pos (decide_eq_true (h t c hc).1)
  | none =>
    apply AssocMap.sumOf_eq_zero
    intro k d hd
    apply ChunkPayloadData.bytesIf_of_not
    rw [decide_eq_false_iff_not]
    intro htsn
    have hk : k = t := (h k d hd).1.symm.trans htsn
    rw [hk] at hd
    have hnone : q.chunkMap.lookup t = none := hc
    rw [hnone] at hd
    cases hd

/-- **A SACK releases each byte once.** In a state whose queue is balanced a SACK returns what leaves
the queue, each chunk that it is the first to acknowledge once and for its own stream. Over a run,
what was released for a TSN and what is in flight under it is what was sent under it; so a chunk that
is acknowledged has been released in full. -/
theorem releases_once (a : AssociationInternal) :
    (a.inflightQueue.Balanced → ∀ now d a' b htna,
      a.processSelectiveAck now d = (a', .ok (b, htna)) →
        a.ReleasesOnce a' b ∧ a'.inflightQueue.Balanced) ∧
    (a.Fresh → ∀ ops : List SenderOp,
      Runs.Along senderStep (fun a op => a.SackOk op ∧ PushesUnsent op) a ops →
      (Runs.run senderStep a ops).inflightQueue.LengthAgrees →
        let s := Runs.run senderStep a ops
        let released := (Runs.outputs senderStep acknowledgedBy a ops).flatten
        let sent := (Runs.outputs senderStep assigns a ops).flatten
        s.inflightQueue.Balanced ∧
          (∀ t : U32, chunksBytes (released.filter (·.tsn = t)) +
              ((s.inflightQueue.get t).map (·.userData.length)).getD 0 =
            chunksBytes (sent.filter (·.tsn = t))) ∧
          ∀ c, sent.filter (·.tsn = c.tsn) = [c] →
            (s.inflightQueue.get c.tsn).all (·.acked) = true →
              chunksBytes (released.filter (·.tsn = c.tsn)) = c.userData.length) := by
  refine ⟨?_, ?_⟩
  · intro h now d a' b htna hok
    have hreleases := processSelectiveAck_releases h hok
    exact ⟨hreleases.releasesOnce h, hreleases.balanced⟩
  · intro ha ops hops hend s released sent
    have hempty : a.inflightQueue.Exceeds 0 := by
      rw [ha.inflightQueue]
      exact Nat.le_refl 0
    obtain ⟨hs, hbytes⟩ := ha.accountable.run
      (Runs.along_and hops (givesTsnsOnce_of_lengthAgrees hempty hend))
    have hstart : ∀ t : U32, a.inflightQueue.bytesOf (fun c => c.tsn = t) = 0 := by
      intro t
      rw [ha.inflightQueue]
      rfl
    have heach : s.inflightQueue.Each fun _ => True :=
      fun t c hc => ⟨(hs.inflight.emptied t c hc).1, trivial⟩
    have htsns : ∀ t : U32, chunksBytes (released.filter (·.tsn = t)) +
        ((s.inflightQueue.get t).map (·.userData.length)).getD 0 =
          chunksBytes (sent.filter (·.tsn = t)) := by
      intro t
      have ht := hbytes t
      rw [hstart, bytesOf_tsn_eq heach, Nat.zero_add, Nat.add_comm] at ht
      rw [chunksBytes_filter, chunksBytes_filter]
      exact ht
    refine ⟨hs.inflight, htsns, ?_⟩
    intro c honly hacked
    have ht := htsns c.tsn
    rw [honly] at ht
    -- what is acknowledged has no data left
    have hleft : ((s.inflightQueue.get c.tsn).map (·.userData.length)).getD 0 = 0 := by
      cases hc : s.inflightQueue.get c.tsn with
      | none => rfl
      | some c' =>
        rw [hc] at hacked
        have hdata := (hs.inflight.emptied _ c' hc).2 hacked
        rw [Option.map_some, Option.getD_some, hdata]
        rfl
    have hone : chunksBytes [c] = c.userData.length := Nat.add_zero _
    omega

/-- Three chunks that gap blocks have acknowledged, and then the cumulative TSN passes. -/
theorem releases_once_lossRun :
    let s := Runs.run senderStep justEstablished lossRun
    (∀ t : U32, chunksBytes
        ((Runs.outputs senderStep acknowledgedBy justEstablished lossRun).flatten.filter (·.tsn = t)) +
          ((s.inflightQueue.get t).map (·.userData.length)).getD 0 =
        chunksBytes ((Runs.outputs senderStep assigns justEstablished lossRun).flatten.filter
          (·.tsn = t))) ∧
      ∀ a' b htna, s.processSelectiveAck 10 ⟨2, 4096, [⟨3, 2⟩], []⟩ = (a', .ok (b, htna)) →
        s.ReleasesOnce a' b :=
  have hrun := (releases_once justEstablished).2 justEstablished_fresh lossRun (by decide +kernel)
    (by decide +kernel)
  ⟨hrun.2.1, fun a' b htna hok =>
    ((releases_once (Runs.run senderStep justEstablished lossRun)).1 hrun.1 10 _ a' b htna hok).1⟩

end AssociationInternal

end Sctp
