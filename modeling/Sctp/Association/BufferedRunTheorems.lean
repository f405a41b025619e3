import Sctp.Association.BufferedAmountTheorems
import Sctp.Association.GatherBytesTheorems

/-!
# The buffered amount along a run

Gathering and SACKs keep the accounts in order, the latter as long as they acknowledge of a
registered stream only what was written through its object.
-/

namespace Sctp

namespace AssociationInternal

variable {a b : AssociationInternal} {w : Authors} {s : AssociationInternal × Authors}

/-! ## Gathering -/

theorem objects_gatherOutbound (a : AssociationInternal) (now : ℕ) :
    (a.gatherOutbound now).1.objects = a.objects :=
  gatherOutbound_frame (f := objects) (fun _ => rfl) (fun _ _ _ => rfl) (fun _ _ _ _ _ _ => rfl)
    (fun _ _ _ _ _ _ => rfl) (fun _ => rfl) (fun _ _ _ => rfl) (fun _ => rfl) (fun _ _ _ _ _ => rfl)
    a now

/-- Flags are set, but no cell is new. -/
theorem length_flags_gatherOutbound (a : AssociationInternal) (now : ℕ) :
    (a.gatherOutbound now).1.flags.length = a.flags.length := by
  refine gatherOutbound_invariant (P := fun b => b.flags.length = a.flags.length)
    ?_ ?_ ?_ ?_ ?_ rfl
  · intro b b' hcore h
    have hflags : b'.flags = b.flags := (congrArg flags hcore :)
    rw [hflags]
    exact h
  · intro b b' hresend h
    exact hresend.abandons.1.trans h
  · intro b c _ _ h
    exact h
  · intro b c rwnd _ h
    rcases hpop : b.pendingQueue.pop c.beginningFragment c.unordered with ⟨q, _ | c'⟩
    · rw [movePending_of_none (a := { b with rwnd }) hpop]
      exact h
    · obtain ⟨flags, hflags, heq⟩ := movePending_of_some (a := { b with rwnd }) now hpop
      rw [heq]
      show flags.length = a.flags.length
      rw [← h]
      rcases hflags with rfl | rfl
      · exact ChunkPayloadData.length_setAllInflight b.flags c'
      · rw [ChunkPayloadData.length_setAbandoned, ChunkPayloadData.length_setAllInflight]
  · intro b h
    obtain ⟨_, _, _, _, heq⟩ := b.gatherOutboundShutdownPackets_eq
    rw [heq]
    exact h

theorem Accounted.gather (h : Accounted (a, w)) {now : ℕ}
    (hfree : ∀ c ∈ a.assigns (.gather now), c.tsn ∉ a.inflightQueue.chunkMap) :
    Accounted ((a.gatherOutbound now).1, w) := by
  have htsns : a.inflightQueue.Each fun _ => True :=
    fun t c hc => ⟨(h.inflight t c hc).1, trivial⟩
  obtain ⟨hnodup, hpayloads, out, hgives, hbytes, hkinds⟩ := gather_passes h.filled htsns now
  have hkept := (a.ungathered_gatherOutbound now).1
  have hobjects := a.objects_gatherOutbound now
  have hflags := a.length_flags_gatherOutbound now
  have hsize : (a.gatherOutbound now).1.maxPayloadSize = a.maxPayloadSize :=
    (congrArg maxPayloadSize hkept :)
  have hstreams : (a.gatherOutbound now).1.streams = a.streams := (congrArg streams hkept :)
  generalize (a.gatherOutbound now).1 = b at hpayloads hgives hobjects hflags hsize hstreams ⊢
  have hids : b.identifiers = a.identifiers := by
    unfold identifiers
    rw [hobjects]
  have hpending := hgives.each h.pending
  have hunacked := hgives.each h.unacked
  have hchunks := hkinds _ (fun _ _ hc => hc) hpending.2
  refine ⟨hgives.filled h.filled, ?_, ?_, ?_, ?_, hunacked.1, ?_, ?_, ?_⟩
  · show 0 < b.maxPayloadSize.toNat
    rw [hsize]
    exact h.payloadSize
  · show ∀ (r : StreamRef) obj, b.objects[r]? = some obj → _
    rw [hobjects]
    exact h.objectSizes
  · show ∀ x r, w x = some r → x < b.flags.length ∧ r < b.objects.length
    rw [hflags, hobjects]
    exact h.authors
  · show b.pendingQueue.Each (Attributed b.flags.length b.identifiers w)
    rw [hflags, hids]
    exact hpending.1
  · show b.inflightQueue.Each (Attributed b.flags.length b.identifiers w)
    rw [hflags, hids]
    exact hpayloads.each (fun _ _ hpayload hc => hc.congr hpayload) (h.inflight.pushes hchunks)
  · intro si r hsi
    show b.identifiers[r]? = some si
    rw [hids]
    exact h.registered si r (hstreams ▸ hsi)
  · intro si r obj hsi hobj
    have hamount := h.buffers si r obj (hstreams ▸ hsi) (hobjects ▸ hobj)
    rw [hamount]
    generalize hchunks' : a.assigns (.gather now) = chunks at hnodup hpayloads hbytes hkinds hfree
    -- what leaves the one queue joins the other
    have hleft : a.pendingQueue.bytesOf (w.wrote r) =
        b.pendingQueue.bytesOf (w.wrote r) + (out.map (·.bytesIf (w.wrote r))).sum := hgives.bytesOf
    have hjoined : b.inflightQueue.bytesOf (fun c => w.wrote r c && !c.acked) =
        a.inflightQueue.bytesOf (fun c => w.wrote r c && !c.acked) +
          (chunks.map (·.bytesIf fun c => w.wrote r c && !c.acked)).sum :=
      (hpayloads.bytesOf fun _ => rfl).trans (PayloadQueue.bytesOf_inflight hnodup hfree)
    have hfresh : ∀ c ∈ chunks, c.acked = false :=
      hkinds (·.acked = false) (fun _ _ hc => hc) hunacked.2
    have hmoved : chunks.map (·.bytesIf fun c => w.wrote r c && !c.acked) =
        chunks.map (·.bytesIf (w.wrote r)) := by
      apply List.map_congr_left
      intro c hc
      apply ChunkPayloadData.bytesIf_congr
      rw [hfresh c hc, Bool.not_false, Bool.and_true]
    have hnumbered := hbytes (w.wrote r) fun _ _ => rfl
    rw [hmoved, hnumbered] at hjoined
    show a.pendingQueue.bytesOf (w.wrote r) +
        a.inflightQueue.bytesOf (fun c => w.wrote r c && !c.acked) =
      b.pendingQueue.bytesOf (w.wrote r) + b.inflightQueue.bytesOf fun c => w.wrote r c && !c.acked
    rw [hleft, hjoined]
    omega

/-! ## SACKs -/

/-- No more is released than is buffered. -/
theorem onBufferReleased_of_le {obj : Stream} {n : ℕ} (h : n ≤ obj.bufferedAmount) :
    (obj.onBufferReleased n).1.bufferedAmount = obj.bufferedAmount - n ∧
      ((obj.onBufferReleased n).2 = true ↔
        obj.bufferedAmountLow < obj.bufferedAmount ∧
          obj.bufferedAmount - n ≤ obj.bufferedAmountLow) := by
  unfold Stream.onBufferReleased
  split
  · rename_i hn
    subst hn
    refine ⟨rfl, ?_⟩
    simp
  · dsimp only
    rw [if_neg (Nat.not_lt.mpr h)]
    simp

/-- Of the chunks that are acknowledged, those of a registered identifier are the ones written
through its object. -/
theorem Accounted.countsFor (h : Accounted (a, w)) {si : U16} {r : StreamRef}
    (hsi : a.streams.lookup si = some r) {t : U32} {c : ChunkPayloadData}
    (hc : a.inflightQueue.get t = some c)
    (hapart : c.userData ≠ [] → (a.streams.lookup c.streamIdentifier).all (w.wrote · c) = true) :
    c.CountsFor (w.wrote r) si := by
  unfold ChunkPayloadData.CountsFor
  by_cases hdata : c.userData = []
  · rw [ChunkPayloadData.bytesIf_of_empty hdata, hdata]
    exact (ite_self 0).symm
  · have hall := hapart hdata
    by_cases hsame : c.streamIdentifier = si
    · rw [hsame, hsi] at hall
      rw [if_pos hsame]
      exact if_pos hall
    · rw [if_neg hsame]
      apply ChunkPayloadData.bytesIf_of_not
      apply decide_eq_false
      intro hauthor
      have hid := (h.inflight t c hc).2.2 r hauthor hdata
      have hid' := h.registered si r hsi
      rw [hid] at hid'
      exact hsame (Option.some.inj hid')

/-- **What a SACK releases** of a registered stream is what is no longer outstanding. -/
theorem Accounted.sack_releases (h : Accounted (a, w)) {now : ℕ} {d : ChunkSelectiveAck}
    (hok : (a.handleSack now d).2.isOk = true) (hapart : KeepsStreamsApart (a, w) (.sender (.sack now d)))
    {si : U16} {r : StreamRef} {obj : Stream} (hsi : a.streams.lookup si = some r)
    (hobj : a.objects[r]? = some obj) :
    outstanding (a, w) r = outstanding ((a.handleSack now d).1, w) r +
        ((a.releases now d).lookup si).getD 0 ∧
      (a.handleSack now d).1.objects[r]? =
        some (obj.onBufferReleased (((a.releases now d).lookup si).getD 0)).1 := by
  cases hreads : a.readsSack d with
  | false =>
    -- an old SACK releases nothing
    have hnone : a.releases now d = ∅ := by
      unfold releases
      rw [hreads]
      rfl
    rw [handleSack_of_not_reads hreads, hnone]
    exact ⟨rfl, hobj⟩
  | true =>
    obtain ⟨b, bytesAcked, htna, hprocess, hnotes⟩ := handleSack_of_reads hreads hok
    have hreleases : a.releases now d = bytesAcked := by
      unfold releases
      rw [hreads, if_pos rfl, hprocess]
    have hd := dist_lt_of_reads hreads
    -- what is newly acknowledged counts for the stream that wrote it
    have hcounts : ∀ t c, a.covers d t → a.inflightQueue.get t = some c → c.acked = false →
        c.CountsFor (w.wrote r) si := by
      intro t c hcovers hc hacked
      have hentry : (⟨t, c⟩ : Sigma fun _ : U32 => ChunkPayloadData) ∈
          a.inflightQueue.chunkMap.entries := AList.mem_lookup_iff.mp hc
      exact h.countsFor hsi hc (hapart hreads _ hentry hcovers hacked)
    obtain ⟨hcredits, hobjects⟩ := processSelectiveAck_credits hd hprocess hcounts
    have hframe := (processSelectiveAck_frame a now d).1
    rw [hprocess] at hframe
    have hstreams : b.streams = a.streams := (congrArg streams hframe :)
    have hflight := (applySack_of_processSelectiveAck hd hprocess).2
    refine ⟨?_, ?_⟩
    · have hpending : (a.handleSack now d).1.pendingQueue = a.pendingQueue :=
        handleSack_kept (fun _ _ _ _ _ _ => rfl) a now d
      -- the later stages leave the payloads in flight
      have hpayloads := hnotes.payloads
      rw [hflight] at hpayloads
      have hsame : (a.handleSack now d).1.inflightQueue.bytesOf
          (fun c => w.wrote r c && !c.acked) =
          b.inflightQueue.bytesOf fun c => w.wrote r c && !c.acked :=
        hpayloads.bytesOf fun _ => rfl
      have hbytes : a.inflightQueue.bytesOf (fun c => w.wrote r c && !c.acked) + 0 =
          b.inflightQueue.bytesOf (fun c => w.wrote r c && !c.acked) +
            (bytesAcked.lookup si).getD 0 := hcredits.bytes
      show a.pendingQueue.bytesOf (w.wrote r) +
          a.inflightQueue.bytesOf (fun c => w.wrote r c && !c.acked) =
        (a.handleSack now d).1.pendingQueue.bytesOf (w.wrote r) +
          (a.handleSack now d).1.inflightQueue.bytesOf (fun c => w.wrote r c && !c.acked) +
            ((a.releases now d).lookup si).getD 0
      rw [hpending, hsame, hreleases]
      omega
    · rw [hnotes.objects, hreleases]
      apply objects_applySack d bytesAcked
      · rw [hstreams]
        exact hsi
      · intro si' hsi'
        rw [hstreams] at hsi'
        exact h.only hsi hsi'
      · rw [hobjects]
        exact hobj

theorem sackKeeps_attributed (n : ℕ) (ids : List U16) (w : Authors) :
    SackKeeps (PayloadQueue.Each (Attributed n ids w)) where
  pop _ t h := h.pop t
  mark _ t h := h.markAsAcked t fun _ hc => ⟨hc.1, fun _ _ hdata => absurd rfl hdata⟩
  miss _ t h := h.getMut fun c hc => ⟨rfl, (h t c hc).2⟩

theorem Accounted.sack (h : Accounted (a, w)) {now : ℕ} {d : ChunkSelectiveAck}
    (hok : (a.handleSack now d).2.isOk = true)
    (hapart : KeepsStreamsApart (a, w) (.sender (.sack now d))) :
    Accounted ((a.handleSack now d).1, w) := by
  have hpending : (a.handleSack now d).1.pendingQueue = a.pendingQueue :=
    handleSack_kept (fun _ _ _ _ _ _ => rfl) a now d
  have hflags : (a.handleSack now d).1.flags = a.flags :=
    handleSack_kept (fun _ _ _ _ _ _ => rfl) a now d
  have hsize : (a.handleSack now d).1.maxPayloadSize = a.maxPayloadSize :=
    handleSack_kept (fun _ _ _ _ _ _ => rfl) a now d
  have hstreams : (a.handleSack now d).1.streams = a.streams :=
    handleSack_kept (fun _ _ _ _ _ _ => rfl) a now d
  -- of the objects only the buffered amounts change
  have hframe : (a.handleSack now d).1.objects.map Stream.frame = a.objects.map Stream.frame := by
    refine handleSack_kept (f := fun b => b.objects.map Stream.frame) (fun b _ _ _ _ _ => ?_) a now d
    show (b.objects.map Stream.frame).map Stream.frame = b.objects.map Stream.frame
    rw [List.map_map]
    rfl
  have hids : (a.handleSack now d).1.identifiers = a.identifiers := by
    have hmap := congrArg (List.map Stream.streamIdentifier) hframe
    rw [List.map_map, List.map_map] at hmap
    exact hmap
  have hlen : (a.handleSack now d).1.objects.length = a.objects.length := by
    have hmap := congrArg List.length hframe
    rwa [List.length_map, List.length_map] at hmap
  refine ⟨?_, ?_, ?_, ?_, ?_, ?_, ?_, ?_, ?_⟩
  · show (a.handleSack now d).1.pendingQueue.Filled
    rw [hpending]
    exact h.filled
  · show 0 < (a.handleSack now d).1.maxPayloadSize.toNat
    rw [hsize]
    exact h.payloadSize
  · intro r obj' hobj'
    have hr := congrArg (·[r]?) hframe
    rw [List.getElem?_map, List.getElem?_map, hobj'] at hr
    obtain ⟨obj, hobj, hsame⟩ := Option.map_eq_some_iff.mp hr.symm
    have hmax : obj.maxPayloadSize = obj'.maxPayloadSize := (congrArg Stream.maxPayloadSize hsame :)
    rw [← hmax]
    exact h.objectSizes r obj hobj
  · intro x r hx
    show x < (a.handleSack now d).1.flags.length ∧ r < (a.handleSack now d).1.objects.length
    rw [hflags, hlen]
    exact h.authors x r hx
  · show (a.handleSack now d).1.pendingQueue.Each (Attributed _ (a.handleSack now d).1.identifiers w)
    rw [hpending, hflags, hids]
    exact h.pending
  · show (a.handleSack now d).1.pendingQueue.Each _
    rw [hpending]
    exact h.unacked
  · show (a.handleSack now d).1.inflightQueue.Each
      (Attributed _ (a.handleSack now d).1.identifiers w)
    rw [hflags, hids]
    exact (sackKeeps_attributed _ _ w).handleSack now d h.inflight
  · intro si r hsi
    show (a.handleSack now d).1.identifiers[r]? = some si
    rw [hids]
    exact h.registered si r (hstreams ▸ hsi)
  · intro si r obj' hsi hobj'
    -- what is released is never more than what is buffered
    have hsi' : a.streams.lookup si = some r := hstreams ▸ hsi
    obtain ⟨obj, hobj, _⟩ := h.object hsi'
    obtain ⟨hbytes, hreleased⟩ := h.sack_releases hok hapart hsi' hobj
    have hamount := h.buffers si r obj hsi' hobj
    have heq : obj' = (obj.onBufferReleased (((a.releases now d).lookup si).getD 0)).1 :=
      Option.some.inj (hobj'.symm.trans hreleased)
    have hle : ((a.releases now d).lookup si).getD 0 ≤ obj.bufferedAmount := by omega
    have hsubtracted := onBufferReleased_of_le hle
    rw [heq, hsubtracted.1]
    omega

/-! ## Runs -/

theorem Accounted.step (h : Accounted s) {op : BufferOp} (hok : Succeeds s op)
    (hapart : KeepsStreamsApart s op) : Accounted (bufferStep s op) := by
  cases op with
  | reconfig c => exact h.reconfig c
  | recheck => exact h.recheck
  | sender op =>
    cases op with
    | openStream si ppi => exact h.openStream si ppi
    | setReliabilityParams r unordered relType relVal =>
      exact h.setReliabilityParams r unordered relType relVal
    | write r p ppi => exact h.write hok
    | shutdownStream r how => exact h.shutdownStream r how
    | push c => exact absurd hok id
    | gather now => exact h.gather hapart
    | t3Rtx => exact h.t3Rtx
    | sack now d => exact h.sack hok hapart
    | shutdownChunk => exact h.shutdownChunk
    | shutdown => exact h.shutdown

theorem Accounted.releasesExactly (h : Accounted s) {op : BufferOp} (hok : Succeeds s op)
    (hapart : KeepsStreamsApart s op) : ReleasesExactly s op := by
  cases op with
  | reconfig c => trivial
  | recheck => trivial
  | sender op =>
    cases op with
    | sack now d =>
      intro si r obj hsi hobj
      obtain ⟨hbytes, _⟩ := h.sack_releases hok hapart hsi hobj
      have hamount := h.buffers si r obj hsi hobj
      have hle : ((s.1.releases now d).lookup si).getD 0 ≤ obj.bufferedAmount := by
        rw [hamount]
        exact Nat.le_of_add_left_le (Nat.le_of_eq hbytes.symm)
      refine ⟨hle, ?_⟩
      have hleft : outstanding (bufferStep s (.sender (.sack now d))) r =
          obj.bufferedAmount - ((s.1.releases now d).lookup si).getD 0 := by
        rw [hamount]
        exact Nat.eq_sub_of_add_eq hbytes.symm
      rw [(onBufferReleased_of_le hle).2, hleft, ← hamount]
    | openStream si ppi => trivial
    | setReliabilityParams r unordered relType relVal => trivial
    | write r p ppi => trivial
    | shutdownStream r how => trivial
    | push c => trivial
    | gather now => trivial
    | t3Rtx => trivial
    | shutdownChunk => trivial
    | shutdown => trivial

theorem Fresh.accounted (ha : a.Fresh)
    (hregistered : ∀ si r, a.streams.lookup si = some r →
      a.objects[r]?.map (·.streamIdentifier) = some si)
    (hbuffers : ∀ obj ∈ a.objects, obj.bufferedAmount = 0) : Accounted (a, fun _ => none) where
  filled := by
    rw [ha.pendingQueue]
    exact PendingQueue.Filled.empty
  payloadSize := ha.maxPayloadSize
  objectSizes r obj hobj := ha.objects obj (List.mem_of_getElem? hobj)
  authors x r hx := nomatch hx
  pending := by
    rw [ha.pendingQueue]
    exact PendingQueue.Each.new
  unacked := by
    rw [ha.pendingQueue]
    exact PendingQueue.Each.new
  inflight := by
    rw [ha.inflightQueue]
    exact PayloadQueue.Each.new
  registered si r hsi := by
    rw [getElem?_identifiers]
    exact hregistered si r hsi
  buffers si r obj _ hobj := by
    rw [hbuffers obj (List.mem_of_getElem? hobj)]
    unfold outstanding
    rw [ha.pendingQueue, ha.inflightQueue]
    rfl

/-- **The buffered amount is exact** in every run in which what is acknowledged of a stream was
written through its object. -/
theorem buffersExactly_of_run (ha : a.Fresh)
    (hregistered : ∀ si r, a.streams.lookup si = some r →
      a.objects[r]?.map (·.streamIdentifier) = some si)
    (hbuffers : ∀ obj ∈ a.objects, obj.bufferedAmount = 0) (ops : List BufferOp)
    (hops : Runs.Along bufferStep (fun s op => Succeeds s op ∧ KeepsStreamsApart s op)
      (a, fun _ => none) ops) :
    BuffersExactly (Runs.run bufferStep (a, fun _ => none) ops) ∧
      Runs.Along bufferStep ReleasesExactly (a, fun _ => none) ops := by
  have h := ha.accounted hregistered hbuffers
  refine ⟨?_, ?_⟩
  · have hrun : Accounted (Runs.run bufferStep (a, fun _ => none) ops) :=
      Runs.run_invariant_along (fun _ _ hop hs => hs.step hop.1 hop.2) h hops
    exact hrun.buffers
  · have hstep : ∀ s op, Succeeds s op ∧ KeepsStreamsApart s op → Accounted s →
        Accounted (bufferStep s op) := fun _ _ hop hs => hs.step hop.1 hop.2
    exact Runs.along_of_invariant hstep (fun _ _ hop hs => hs.releasesExactly hop.1 hop.2) h hops

/-- The peer resets its stream 1. -/
def resetOfStream1 : ChunkReconfig :=
  { paramA := some (.outgoingResetRequest
      { reconfigRequestSequenceNumber := 1, senderLastTsn := 0, streamIdentifiers := [1] }) }

/-- The identifier is used again when all that was written under it is acknowledged. -/
def acknowledgedRun : List BufferOp :=
  [.sender (.openStream 1 .binary), .sender (.write 0 [1] .binary), .sender (.gather 5),
    .sender (.sack 9 ⟨0xffffffff, 4096, [], []⟩), .reconfig resetOfStream1,
    .sender (.openStream 1 .binary), .sender (.write 1 [2, 3] .binary), .sender (.gather 12),
    .sender (.sack 15 ⟨0, 4096, [], []⟩)]

theorem buffersExactly_acknowledgedRun :
    BuffersExactly (Runs.run bufferStep (justEstablished, fun _ => none) acknowledgedRun) ∧
      Runs.Along bufferStep ReleasesExactly (justEstablished, fun _ => none) acknowledgedRun :=
  buffersExactly_of_run justEstablished_fresh (fun _ _ hr => nomatch hr)
    (fun _ hobj => absurd hobj List.not_mem_nil) acknowledgedRun (by decide +kernel)

/-- The identifier is used again while a byte of its first stream is in flight. -/
def reopenedRun : List BufferOp :=
  [.sender (.openStream 1 .binary), .sender (.write 0 [1] .binary), .sender (.gather 5),
    .reconfig resetOfStream1, .sender (.openStream 1 .binary), .sender (.write 1 [2, 3] .binary),
    .sender (.sack 9 ⟨0xffffffff, 4096, [], []⟩)]

/-- The SACK of the first stream's byte is taken off the second stream. -/
theorem not_buffersExactly_reopened :
    ¬ ∀ a : AssociationInternal, a.Fresh →
      (∀ si r, a.streams.lookup si = some r → a.objects[r]?.map (·.streamIdentifier) = some si) →
      (∀ obj ∈ a.objects, obj.bufferedAmount = 0) →
      ∀ ops, Runs.Along bufferStep Succeeds (a, fun _ => none) ops →
        BuffersExactly (Runs.run bufferStep (a, fun _ => none) ops) ∧
          Runs.Along bufferStep ReleasesExactly (a, fun _ => none) ops := by
  intro hall
  have hrun := (hall justEstablished justEstablished_fresh (fun _ _ hr => nomatch hr)
    (fun _ hobj => absurd hobj List.not_mem_nil) reopenedRun (by decide +kernel)).1
  generalize hs : Runs.run bufferStep (justEstablished, fun _ => none) reopenedRun = s at hrun
  have hamount : s.1.objects[1]?.map (·.bufferedAmount) = some 1 := by
    rw [← hs]
    decide +kernel
  obtain ⟨obj, hobj, hone⟩ := Option.map_eq_some_iff.mp hamount
  have hsi : s.1.streams.lookup 1 = some 1 := by
    rw [← hs]
    decide +kernel
  have htwo : outstanding s 1 = 2 := by
    rw [← hs]
    decide +kernel
  have hexact := hrun 1 1 obj hsi hobj
  omega

end AssociationInternal

end Sctp
