import Sctp.Association.NewDataTheorems
import Sctp.Association.ReleaseTheorems
import Sctp.Association.TransmissionTheorems
import Sctp.StreamTheorems

/-!
# What is buffered is what is outstanding

Writing adds to both, gathering moves bytes from one queue to the other, and a SACK takes from
both, if it acknowledges of a registered stream only what was written through its object.
-/

namespace Sctp

/-- What the account of a stream rests on. -/
def Stream.account (s : Stream) : U16 × U32 × ℕ :=
  (s.streamIdentifier, s.maxPayloadSize, s.bufferedAmount)

namespace AssociationInternal

variable {a b : AssociationInternal} {w : Authors} {s : AssociationInternal × Authors}

/-- The identifiers of the objects. -/
def identifiers (a : AssociationInternal) : List U16 := a.objects.map (·.streamIdentifier)

/-- The cell of the chunk is known, and the object through which it was written has its
identifier. -/
def Attributed (n : ℕ) (ids : List U16) (w : Authors) (c : ChunkPayloadData) : Prop :=
  c.abandoned < n ∧
    ∀ r, w c.abandoned = some r → c.userData ≠ [] → ids[r]? = some c.streamIdentifier

/-- The accounts of the streams are in order. -/
structure Accounted (s : AssociationInternal × Authors) : Prop where
  filled : s.1.pendingQueue.Filled
  payloadSize : 0 < s.1.maxPayloadSize.toNat
  objectSizes : ∀ (r : StreamRef) obj, s.1.objects[r]? = some obj → 0 < obj.maxPayloadSize.toNat
  authors : ∀ x r, s.2 x = some r → x < s.1.flags.length ∧ r < s.1.objects.length
  pending : s.1.pendingQueue.Each (Attributed s.1.flags.length s.1.identifiers s.2)
  unacked : s.1.pendingQueue.Each (·.acked = false)
  inflight : s.1.inflightQueue.Each (Attributed s.1.flags.length s.1.identifiers s.2)
  registered : ∀ si r, s.1.streams.lookup si = some r → s.1.identifiers[r]? = some si
  buffers : BuffersExactly s

theorem getElem?_identifiers (a : AssociationInternal) (r : StreamRef) :
    a.identifiers[r]? = a.objects[r]?.map (·.streamIdentifier) := List.getElem?_map

/-- An identifier names one object. -/
theorem Accounted.only (h : Accounted s) {si si' : U16} {r : StreamRef}
    (hsi : s.1.streams.lookup si = some r) (hsi' : s.1.streams.lookup si' = some r) : si' = si := by
  have hr := h.registered si r hsi
  rw [h.registered si' r hsi'] at hr
  exact Option.some.inj hr

theorem Accounted.object (h : Accounted s) {si : U16} {r : StreamRef}
    (hsi : s.1.streams.lookup si = some r) :
    ∃ obj, s.1.objects[r]? = some obj ∧ obj.streamIdentifier = si := by
  have hr := h.registered si r hsi
  rw [getElem?_identifiers] at hr
  exact Option.map_eq_some_iff.mp hr

/-- More cells and more objects do no harm. -/
theorem Attributed.mono {n n' : ℕ} {ids ids' : List U16} {w w' : Authors} {c : ChunkPayloadData}
    (h : Attributed n ids w c) (hn : n ≤ n') (hids : ∀ (r : StreamRef) si, ids[r]? = some si →
      ids'[r]? = some si) (hw : w' c.abandoned = w c.abandoned) : Attributed n' ids' w' c := by
  refine ⟨Nat.lt_of_lt_of_le h.1 hn, ?_⟩
  intro r hr hdata
  rw [hw] at hr
  exact hids r _ (h.2 r hr hdata)

theorem Attributed.congr {n : ℕ} {ids : List U16} {c c' : ChunkPayloadData}
    (h : Attributed n ids w c) (hpayload : c.payload = c'.payload) : Attributed n ids w c' := by
  have hcell : c'.abandoned = c.abandoned := (congrArg (·.abandoned) hpayload).symm
  have hdata : c'.userData = c.userData := (congrArg (·.userData) hpayload).symm
  have hsi : c'.streamIdentifier = c.streamIdentifier :=
    (congrArg (·.streamIdentifier) hpayload).symm
  unfold Attributed
  rw [hcell, hdata, hsi]
  exact h

/-- What is outstanding depends on the chunks, not on the sender's notes of them. -/
theorem outstanding_congr (hpending : b.pendingQueue = a.pendingQueue)
    (hflight : a.inflightQueue.SamePayloads b.inflightQueue) (w : Authors) (r : StreamRef) :
    outstanding (b, w) r = outstanding (a, w) r := by
  have hbytes := @PayloadQueue.SamePayloads.bytesOf (fun c => w.wrote r c && !c.acked) _ _ hflight
    fun _ => rfl
  show b.pendingQueue.bytesOf (w.wrote r) + b.inflightQueue.bytesOf _ =
    a.pendingQueue.bytesOf (w.wrote r) + a.inflightQueue.bytesOf _
  rw [hpending, hbytes]

/-! ## Operations that leave the accounts alone -/

theorem account_eq {l l' : List Stream} (h : l'.map Stream.account = l.map Stream.account)
    (r : StreamRef) : (l'[r]?).map Stream.account = (l[r]?).map Stream.account := by
  rw [← List.getElem?_map, ← List.getElem?_map, h]

theorem Accounted.congr (h : Accounted (a, w)) (hpending : b.pendingQueue = a.pendingQueue)
    (hflight : a.inflightQueue.SamePayloads b.inflightQueue)
    (hflags : b.flags.length = a.flags.length) (hsize : b.maxPayloadSize = a.maxPayloadSize)
    (hobjects : b.objects.map Stream.account = a.objects.map Stream.account)
    (hstreams : ∀ si r, b.streams.lookup si = some r → a.streams.lookup si = some r) :
    Accounted (b, w) := by
  have hids : b.identifiers = a.identifiers := by
    have hmap := congrArg (List.map Prod.fst) hobjects
    rw [List.map_map, List.map_map] at hmap
    exact hmap
  have hobject : ∀ (r : StreamRef) obj, b.objects[r]? = some obj →
      ∃ obj', a.objects[r]? = some obj' ∧ obj'.account = obj.account := by
    intro r obj hobj
    have haccount := account_eq hobjects r
    rw [hobj, Option.map_some] at haccount
    exact Option.map_eq_some_iff.mp haccount.symm
  have hlen : b.objects.length = a.objects.length := by
    have hmap := congrArg List.length hobjects
    rwa [List.length_map, List.length_map] at hmap
  refine ⟨?_, ?_, ?_, ?_, ?_, ?_, ?_, ?_, ?_⟩
  · show b.pendingQueue.Filled
    rw [hpending]
    exact h.filled
  · show 0 < b.maxPayloadSize.toNat
    rw [hsize]
    exact h.payloadSize
  · intro r obj hobj
    obtain ⟨obj', hobj', hsame⟩ := hobject r obj hobj
    have hmax : obj'.maxPayloadSize = obj.maxPayloadSize := congrArg (·.2.1) hsame
    rw [← hmax]
    exact h.objectSizes r obj' hobj'
  · intro x r hx
    show x < b.flags.length ∧ r < b.objects.length
    rw [hflags, hlen]
    exact h.authors x r hx
  · show b.pendingQueue.Each (Attributed b.flags.length b.identifiers w)
    rw [hpending, hflags, hids]
    exact h.pending
  · show b.pendingQueue.Each _
    rw [hpending]
    exact h.unacked
  · show b.inflightQueue.Each (Attributed b.flags.length b.identifiers w)
    rw [hflags, hids]
    exact hflight.each (fun _ _ hpayload hc => hc.congr hpayload) h.inflight
  · intro si r hsi
    show b.identifiers[r]? = some si
    rw [hids]
    exact h.registered si r (hstreams si r hsi)
  · intro si r obj hsi hobj
    obtain ⟨obj', hobj', hsame⟩ := hobject r obj hobj
    have hamount : obj'.bufferedAmount = obj.bufferedAmount := congrArg (·.2.2) hsame
    rw [outstanding_congr hpending hflight, ← hamount]
    exact h.buffers si r obj' (hstreams si r hsi) hobj'

theorem account_modify (l : List Stream) (r : StreamRef) {f : Stream → Stream}
    (hf : ∀ s, (f s).account = s.account) :
    (l.modify r f).map Stream.account = l.map Stream.account := by
  apply List.ext_getElem?
  intro i
  rw [List.getElem?_map, List.getElem?_map, List.getElem?_modify]
  cases l[i]? with
  | none => rfl
  | some s =>
    show some (Stream.account (if r = i then f s else s)) = some s.account
    split
    · rw [hf]
    · rfl

/-- A reset takes streams out of the table and shuts them. -/
theorem shedding_accounts (a : AssociationInternal) : Shedding fun b =>
    b.objects.map Stream.account = a.objects.map Stream.account ∧
      ∀ si r, b.streams.lookup si = some r → a.streams.lookup si = some r where
  congr {b c} hsame h := by
    have hstreams : c.streams = b.streams := congrArg Prod.fst hsame
    have hobjects : c.objects = b.objects := congrArg Prod.snd hsame
    rw [hstreams, hobjects]
    exact h
  unregister b si h := by
    refine ⟨?_, ?_⟩
    · cases hsi : b.streams.lookup si with
      | none =>
        rw [unregisterStream_of_none hsi]
        exact h.1
      | some r =>
        rw [unregisterStream_eq hsi]
        have hmodify := account_modify b.objects r
          (f := fun s => { s with readShutdown := true, writeShutdown := true }) fun _ => rfl
        exact hmodify.trans h.1
    · intro si' r hr
      rw [lookup_unregisterStream] at hr
      split at hr
      · cases hr
      · exact h.2 si' r hr

theorem Accounted.of_shedding (h : Accounted (a, w))
    (hapart : b.apartFromStreams = a.apartFromStreams)
    (hshed : b.objects.map Stream.account = a.objects.map Stream.account ∧
      ∀ si r, b.streams.lookup si = some r → a.streams.lookup si = some r) : Accounted (b, w) := by
  have hflight : b.inflightQueue = a.inflightQueue := (congrArg inflightQueue hapart :)
  have hflags : b.flags = a.flags := (congrArg flags hapart :)
  refine h.congr (congrArg pendingQueue hapart :) ?_ ?_ (congrArg maxPayloadSize hapart :) hshed.1
    hshed.2
  · rw [hflight]
    exact PayloadQueue.SamePayloads.refl _
  · rw [hflags]

theorem Accounted.reconfig (h : Accounted (a, w)) (c : ChunkReconfig) :
    Accounted ((a.handleReconfig c).1, w) := by
  refine h.of_shedding (apartFromStreams_handleReconfig a c) ?_
  exact handleReconfig_invariant (I := fun b => b.objects.map Stream.account =
      a.objects.map Stream.account ∧
        ∀ si r, b.streams.lookup si = some r → a.streams.lookup si = some r)
    (fun b raw _ hb => (shedding_accounts a).handleReconfigParam raw hb) ⟨rfl, fun _ _ hr => hr⟩

theorem Accounted.recheck (h : Accounted (a, w)) : Accounted (a.recheckReconfigRequests.1, w) :=
  h.of_shedding (apartFromStreams_recheckReconfigRequests a)
    ((shedding_accounts a).recheck ⟨rfl, fun _ _ hr => hr⟩)

theorem Accounted.setReliabilityParams (h : Accounted (a, w)) (r : StreamRef) (unordered : Bool)
    (relType : ReliabilityType) (relVal : U32) :
    Accounted (a.modifyObject r (·.setReliabilityParams unordered relType relVal), w) :=
  h.congr rfl (PayloadQueue.SamePayloads.refl _) rfl rfl (account_modify a.objects r fun _ => rfl)
    fun _ _ hr => hr

theorem Accounted.t3Rtx (h : Accounted (a, w)) : Accounted (a.onT3RtxTimeout, w) := by
  have hframe := a.onT3RtxTimeout_frame
  have hobjects := onT3RtxTimeout_kept (f := objects) (fun _ _ _ _ _ _ => rfl) a
  have hflight : a.inflightQueue.SamePayloads a.onT3RtxTimeout.inflightQueue := by
    obtain ⟨flags, heq⟩ := a.inflightQueue_onT3RtxTimeout
    rw [heq]
    exact PayloadQueue.SamePayloads.markAllToRetransmit _ _
  have hflags : a.onT3RtxTimeout.flags = a.flags := (congrArg flags hframe :)
  have hstreams : a.onT3RtxTimeout.streams = a.streams := (congrArg streams hframe :)
  refine h.congr (congrArg pendingQueue hframe :) hflight ?_ (congrArg maxPayloadSize hframe :) ?_ ?_
  · rw [hflags]
  · rw [hobjects]
  · intro si r hr
    rwa [hstreams] at hr

theorem Accounted.shutdown (h : Accounted (a, w)) : Accounted (a.shutdown.1, w) := by
  obtain ⟨state, willSendShutdown, heq⟩ := a.shutdown_eq
  rw [heq]
  exact h.congr rfl (PayloadQueue.SamePayloads.refl _) rfl rfl rfl fun _ _ hr => hr

theorem Accounted.shutdownChunk (h : Accounted (a, w)) : Accounted (a.handleShutdown, w) := by
  obtain ⟨state, willSendShutdownAck, heq⟩ := a.handleShutdown_eq
  rw [heq]
  exact h.congr rfl (PayloadQueue.SamePayloads.refl _) rfl rfl rfl fun _ _ hr => hr

/-! ## Writing -/

/-- A cell that is new is nobody's. -/
theorem Accounted.author_of_fresh (h : Accounted s) : s.2 s.1.flags.length = none := by
  cases hauthor : s.2 s.1.flags.length with
  | none => rfl
  | some r => exact absurd (h.authors _ r hauthor).1 (Nat.lt_irrefl _)

/-- Objects of the same streams. -/
theorem identifiers_eq_of_each {objects : List Stream} (hlen : objects.length = a.objects.length)
    (hobjects : ∀ (r : StreamRef) obj', objects[r]? = some obj' →
      ∃ obj, a.objects[r]? = some obj ∧ obj'.streamIdentifier = obj.streamIdentifier) :
    objects.map (·.streamIdentifier) = a.identifiers := by
  apply List.ext_getElem?
  intro r
  rw [List.getElem?_map, getElem?_identifiers]
  cases hobj' : objects[r]? with
  | some obj' =>
    obtain ⟨obj, hobj, hsi⟩ := hobjects r obj' hobj'
    rw [hobj, Option.map_some, Option.map_some, hsi]
  | none =>
    rw [List.getElem?_eq_none_iff, hlen] at hobj'
    rw [List.getElem?_eq_none_iff.mpr hobj']

/-- The author of an old chunk stays who it is when the next cell gets one. -/
theorem author_update {c : ChunkPayloadData} (hc : Attributed a.flags.length a.identifiers w c)
    (author : Option StreamRef) :
    Function.update w a.flags.length author c.abandoned = w c.abandoned :=
  Function.update_of_ne (Nat.ne_of_lt hc.1) ..

/-- What the author has outstanding grows by the message. -/
theorem Accounted.outstanding_pushes (h : Accounted (a, w)) {chunks : List ChunkPayloadData}
    (author : Option StreamRef) (hcell : ∀ c ∈ chunks, c.abandoned = a.flags.length)
    (r : StreamRef) :
    (chunks.foldl PendingQueue.push a.pendingQueue).bytesOf
        (Authors.wrote (Function.update w a.flags.length author) r) +
      a.inflightQueue.bytesOf (fun c =>
        Authors.wrote (Function.update w a.flags.length author) r c && !c.acked) =
    outstanding (a, w) r + if author = some r then chunksBytes chunks else 0 := by
  have hpending : a.pendingQueue.bytesOf (Authors.wrote (Function.update w a.flags.length author) r)
      = a.pendingQueue.bytesOf (w.wrote r) := by
    apply PendingQueue.bytesOf_congr
    intro u c hc
    unfold Authors.wrote
    rw [author_update (h.pending u c hc)]
  have hflight : a.inflightQueue.bytesOf (fun c =>
      Authors.wrote (Function.update w a.flags.length author) r c && !c.acked) =
      a.inflightQueue.bytesOf fun c => w.wrote r c && !c.acked := by
    apply PayloadQueue.bytesOf_congr
    intro t
    congr 1
    apply Option.map_congr
    intro c hc
    apply ChunkPayloadData.bytesIf_congr
    show (decide (_ = some r) && !c.acked) = (decide (w c.abandoned = some r) && !c.acked)
    rw [author_update (h.inflight t c hc).2]
  -- all chunks of the message have its cell
  have hnew : (chunks.map (·.bytesIf
      (Authors.wrote (Function.update w a.flags.length author) r))).sum =
      if author = some r then chunksBytes chunks else 0 := by
    have hone : ∀ c ∈ chunks, c.bytesIf (Authors.wrote (Function.update w a.flags.length author) r)
        = if author = some r then c.userData.length else 0 := by
      intro c hc
      unfold ChunkPayloadData.bytesIf Authors.wrote
      rw [hcell c hc, Function.update_self]
      simp
    rw [List.map_congr_left hone]
    split
    · rfl
    · simp
  rw [PendingQueue.bytesOf_pushes, hpending, hflight, hnew]
  unfold outstanding
  dsimp only
  omega

/-- The chunks of one message join the pending queue, on account of its author if it has one. -/
theorem Accounted.enqueue (h : Accounted (a, w)) {chunks : List ChunkPayloadData}
    (hfilled : (chunks.foldl PendingQueue.push a.pendingQueue).Filled) (author : Option StreamRef)
    (hcell : ∀ c ∈ chunks, c.abandoned = a.flags.length) (hacked : ∀ c ∈ chunks, c.acked = false)
    (hauthor : ∀ r, author = some r → r < a.objects.length ∧
      ∀ c ∈ chunks, c.userData ≠ [] → a.identifiers[r]? = some c.streamIdentifier)
    {objects : List Stream} (hlen : objects.length = a.objects.length)
    (hobjects : ∀ (r : StreamRef) obj', objects[r]? = some obj' →
      ∃ obj, a.objects[r]? = some obj ∧ obj'.streamIdentifier = obj.streamIdentifier ∧
        obj'.maxPayloadSize = obj.maxPayloadSize ∧ obj'.bufferedAmount =
          obj.bufferedAmount + if author = some r then chunksBytes chunks else 0) :
    Accounted ({ a with
      flags := a.flags ++ [false, false]
      pendingQueue := chunks.foldl PendingQueue.push a.pendingQueue
      objects }, Function.update w a.flags.length author) := by
  have hnone : w a.flags.length = none := h.author_of_fresh
  have hflags : (a.flags ++ [false, false]).length = a.flags.length + 2 := List.length_append
  have hids : objects.map (·.streamIdentifier) = a.identifiers :=
    identifiers_eq_of_each hlen fun r obj' hobj' => by
      obtain ⟨obj, hobj, hsi, _⟩ := hobjects r obj' hobj'
      exact ⟨obj, hobj, hsi⟩
  have hkept : ∀ {c : ChunkPayloadData}, Attributed a.flags.length a.identifiers w c →
      Attributed (a.flags ++ [false, false]).length (objects.map (·.streamIdentifier))
        (Function.update w a.flags.length author) c := by
    intro c hc
    rw [hids]
    exact hc.mono (by omega) (fun _ _ hr => hr) (author_update hc author)
  refine ⟨hfilled, h.payloadSize, ?_, ?_, ?_, h.unacked.pushes hacked, ?_, ?_, ?_⟩
  · intro r obj' hobj'
    obtain ⟨obj, hobj, _, hmax, _⟩ := hobjects r obj' hobj'
    rw [hmax]
    exact h.objectSizes r obj hobj
  · intro x r hx
    show x < (a.flags ++ [false, false]).length ∧ r < objects.length
    rw [hflags, hlen]
    -- the cell of the message, or an old one
    by_cases hxn : x = a.flags.length
    · subst hxn
      have hr : Function.update w a.flags.length author a.flags.length = some r := hx
      rw [Function.update_self] at hr
      exact ⟨Nat.lt_add_of_pos_right (by decide), (hauthor r hr).1⟩
    · have hr : Function.update w a.flags.length author x = some r := hx
      rw [Function.update_of_ne hxn] at hr
      have hbefore := h.authors x r hr
      exact ⟨Nat.lt_add_right 2 hbefore.1, hbefore.2⟩
  · apply PendingQueue.Each.pushes
    · exact fun u c hc => hkept (h.pending u c hc)
    · intro c hc
      show Attributed _ (objects.map (·.streamIdentifier)) _ c
      rw [hids]
      refine ⟨?_, ?_⟩
      · rw [hcell c hc]
        show _ < (a.flags ++ [false, false]).length
        omega
      · intro r hr hdata
        have hr' : Function.update w a.flags.length author c.abandoned = some r := hr
        rw [hcell c hc, Function.update_self] at hr'
        exact (hauthor r hr').2 c hc hdata
  · exact fun t c hc => ⟨(h.inflight t c hc).1, hkept (h.inflight t c hc).2⟩
  · intro si r hsi
    show (objects.map (·.streamIdentifier))[r]? = some si
    rw [hids]
    exact h.registered si r hsi
  · intro si r obj' hsi hobj'
    -- the amount and what is outstanding grow alike
    obtain ⟨obj, hobj, _, _, hamount⟩ := hobjects r obj' hobj'
    have hbuffer := h.buffers si r obj hsi hobj
    show obj'.bufferedAmount = (chunks.foldl PendingQueue.push a.pendingQueue).bytesOf _ +
      a.inflightQueue.bytesOf _
    rw [hamount, hbuffer]
    exact (h.outstanding_pushes author hcell r).symm

theorem chunksBytes_eq_length (chunks : List ChunkPayloadData) :
    chunksBytes chunks = (chunksData chunks).length := by
  unfold chunksBytes chunksData
  rw [List.length_flatMap]

/-- One object gets a new value. -/
theorem set_object {l : List Stream} {r : StreamRef} {obj new : Stream} (hobj : l[r]? = some obj)
    {P : StreamRef → Stream → Stream → Prop} (hnew : P r obj new)
    (hother : ∀ r' obj', r' ≠ r → P r' obj' obj') (r' : StreamRef) (obj' : Stream)
    (h : (l.set r new)[r']? = some obj') : ∃ old, l[r']? = some old ∧ P r' old obj' := by
  by_cases hr : r' = r
  · subst hr
    rw [List.getElem?_set_self', hobj] at h
    cases h
    exact ⟨obj, hobj, hnew⟩
  · rw [List.getElem?_set_ne fun heq => hr heq.symm] at h
    exact ⟨obj', h, hother r' obj' hr⟩

/-- What is pushed when a message is written. An empty message has no chunk at all. -/
theorem packetize_pushes {s : Stream} (hmax : 0 < s.maxPayloadSize.toNat) {q : PendingQueue}
    (hq : q.Filled) (flags : SharedFlags) (p : Bytes) (ppi : PayloadProtocolIdentifier) :
    ((s.packetize flags p ppi).2.2.foldl PendingQueue.push q).Filled ∧
      chunksBytes (s.packetize flags p ppi).2.2 = p.length ∧
      ∀ c ∈ (s.packetize flags p ppi).2.2, c.userData ≠ [] ∧ c.header =
        s.messageHeader (ppi ≠ .dcep && s.unordered) ppi flags.length (flags.length + 1) := by
  cases p with
  | nil => exact ⟨hq, rfl, fun c hc => absurd hc List.not_mem_nil⟩
  | cons x p =>
    -- the fragments of one message, none of them empty
    have hfragments := Stream.packetize_fragmentsOf hmax flags (List.cons_ne_nil x p) ppi
    let m : Message := ⟨_, _, hfragments.isMessage⟩
    refine ⟨hq.push m (Or.inl hfragments.data_ne), ?_, ?_⟩
    · rw [chunksBytes_eq_length, hfragments.data_eq]
    · exact fun c hc => ⟨hfragments.data_ne c hc, hfragments.header_eq c hc⟩

theorem Accounted.write (h : Accounted (a, w)) {r : StreamRef} {p : Bytes}
    {ppi : PayloadProtocolIdentifier} (hok : (a.writeSctp r p ppi).2.isOk = true) :
    Accounted ((a.writeSctp r p ppi).1, Function.update w a.flags.length (some r)) := by
  unfold writeSctp at hok ⊢
  cases hobj : a.objects[r]? with
  | none =>
    rw [hobj] at hok
    cases hok
  | some obj =>
    rw [hobj] at hok
    dsimp only at hok ⊢
    rcases obj.writeSctp_cases a.maxMessageSize a.state a.flags a.pendingQueue p ppi with
      ⟨e, heq⟩ | ⟨e, heq⟩ | ⟨_, heq⟩
    · rw [heq] at hok
      cases hok
    · rw [heq] at hok
      cases hok
    · have hmax := h.objectSizes r obj hobj
      have hsi : a.identifiers[r]? = some obj.streamIdentifier := by
        rw [getElem?_identifiers, hobj, Option.map_some]
      obtain ⟨hfilled, hbytes, hcells⟩ := packetize_pushes hmax h.filled a.flags p ppi
      rw [heq, Stream.packetize_flags]
      refine h.enqueue hfilled (some r) (fun c hc => (congrArg (·.abandoned) (hcells c hc).2 :))
        (fun c hc => (congrArg (·.acked) (hcells c hc).2 :)) ?_ List.length_set ?_
      · intro r' hr'
        cases hr'
        refine ⟨(List.getElem?_eq_some_iff.mp hobj).1, ?_⟩
        intro c hc _
        have hstream : c.streamIdentifier = obj.streamIdentifier :=
          (congrArg (·.streamIdentifier) (hcells c hc).2 :)
        rw [hsi, hstream]
      · refine set_object hobj ?_ ?_
        · rw [if_pos rfl, hbytes]
          unfold Stream.packetize
          dsimp only
          split <;> exact ⟨rfl, rfl, rfl⟩
        · intro r' obj' hr'
          have hne : ¬ some r = some r' := fun heq => hr' (Option.some.inj heq).symm
          rw [if_neg hne]
          exact ⟨rfl, rfl, rfl⟩

/-- The marker of the end of a stream counts for nobody. -/
theorem Accounted.shutdownStream (h : Accounted (a, w)) (r : StreamRef) (how : Shutdown) :
    Accounted ((a.shutdownStream r how).1, w) := by
  unfold AssociationInternal.shutdownStream
  cases hobj : a.objects[r]? with
  | none => exact h
  | some obj =>
    dsimp only
    obtain ⟨obj', hobj', hcases⟩ := obj.shutdown_cases a.state a.flags a.pendingQueue how
    have hsame : obj'.account = obj.account := by
      rw [hobj']
      rfl
    rcases hcases with ⟨res, heq⟩ | heq
    · rw [heq]
      refine h.congr rfl (PayloadQueue.SamePayloads.refl _) rfl rfl ?_ fun _ _ hr => hr
      show (a.objects.set r obj').map Stream.account = _
      rw [List.map_set, hsame]
      apply List.ext_getElem?
      intro i
      by_cases hi : i = r
      · subst hi
        rw [List.getElem?_set_self', List.getElem?_map, hobj]
        rfl
      · rw [List.getElem?_set_ne fun heq => hi heq.symm]
    · let marker := Stream.eosMarker obj.streamIdentifier a.flags.length (a.flags.length + 1)
      let m : Message :=
        ⟨_, _, Stream.eosMarker_isMessage obj.streamIdentifier a.flags.length (a.flags.length + 1)⟩
      have hfilled : ([marker].foldl PendingQueue.push a.pendingQueue).Filled :=
        h.filled.push m (Or.inr ⟨rfl, rfl⟩)
      have hauthor : Function.update w a.flags.length none = w := by
        have hnone : w a.flags.length = none := h.author_of_fresh
        rw [← hnone, Function.update_eq_self]
      rw [heq]
      have henqueue : Accounted ({ a with
          flags := a.flags ++ [false, false]
          pendingQueue := [marker].foldl PendingQueue.push a.pendingQueue
          objects := a.objects.set r obj' }, Function.update w a.flags.length none) := by
        refine h.enqueue hfilled none ?_ ?_ nofun List.length_set ?_
        · intro c hc
          rw [List.mem_singleton.mp hc]
          rfl
        · intro c hc
          rw [List.mem_singleton.mp hc]
          rfl
        · refine set_object hobj ?_ fun _ _ _ => ⟨rfl, rfl, rfl⟩
          exact ⟨congrArg (·.1) hsame, congrArg (·.2.1) hsame, congrArg (·.2.2) hsame⟩
      rw [hauthor] at henqueue
      exact henqueue

/-! ## Opening a stream -/

theorem getElem?_append_singleton {α : Type*} (l : List α) (x : α) (i : ℕ) :
    (l ++ [x])[i]? = if i = l.length then some x else l[i]? := by
  by_cases hi : i = l.length
  · rw [if_pos hi, hi, List.getElem?_concat_length]
  · rw [if_neg hi]
    rcases Nat.lt_or_gt_of_ne hi with hlt | hgt
    · rw [List.getElem?_append_left hlt]
    · rw [List.getElem?_eq_none_iff.mpr (by rw [List.length_append, List.length_singleton]; omega),
        List.getElem?_eq_none_iff.mpr (Nat.le_of_lt hgt)]

/-- Nothing is outstanding of an object that does not exist yet. -/
theorem Accounted.outstanding_new (h : Accounted (a, w)) :
    outstanding (a, w) a.objects.length = 0 := by
  have hnobody : ∀ c : ChunkPayloadData, w.wrote a.objects.length c = false := by
    intro c
    apply decide_eq_false
    intro hc
    exact absurd (h.authors _ _ hc).2 (Nat.lt_irrefl _)
  have hpending : a.pendingQueue.bytesOf (w.wrote a.objects.length) = 0 := by
    unfold PendingQueue.bytesOf
    rw [List.map_congr_left fun c _ => ChunkPayloadData.bytesIf_of_not (hnobody c)]
    simp
  have hflight : a.inflightQueue.bytesOf (fun c => w.wrote a.objects.length c && !c.acked) = 0 := by
    apply AssocMap.sumOf_eq_zero
    intro _ c _
    apply ChunkPayloadData.bytesIf_of_not
    rw [hnobody, Bool.false_and]
  unfold outstanding
  rw [hpending, hflight]

/-- An object that is new has neither written nor buffered anything. -/
theorem Accounted.openStream (h : Accounted (a, w)) (si : U16) (ppi : PayloadProtocolIdentifier) :
    Accounted ((a.openStream si ppi).1, w) := by
  cases hsi : a.streams.lookup si with
  | some r =>
    rw [openStream_of_some hsi]
    exact h
  | none =>
    rw [openStream_of_none hsi]
    let obj := (Stream.new si a.maxPayloadSize).setDefaultPayloadType ppi
    have hids : (a.objects ++ [obj]).map (·.streamIdentifier) = a.identifiers ++ [si] := by
      rw [List.map_append]
      rfl
    have hlen : a.identifiers.length = a.objects.length := List.length_map _
    have hkept : ∀ (r : StreamRef) si', a.identifiers[r]? = some si' →
        (a.identifiers ++ [si])[r]? = some si' := by
      intro r si' hr
      rw [List.getElem?_append_left (List.getElem?_eq_some_iff.mp hr).1]
      exact hr
    have hattributed : ∀ {c : ChunkPayloadData}, Attributed a.flags.length a.identifiers w c →
        Attributed a.flags.length ((a.objects ++ [obj]).map (·.streamIdentifier)) w c := by
      intro c hc
      rw [hids]
      exact hc.mono (Nat.le_refl _) hkept rfl
    -- what is looked up is an old object, or the new one under the new identifier
    have hobject : ∀ (r : StreamRef) obj', (a.objects ++ [obj])[r]? = some obj' →
        a.objects[r]? = some obj' ∨ r = a.objects.length ∧ obj' = obj := by
      intro r obj' hobj'
      rw [getElem?_append_singleton] at hobj'
      split at hobj'
      · rename_i hr
        exact Or.inr ⟨hr, (Option.some.inj hobj').symm⟩
      · exact Or.inl hobj'
    have hlookup : ∀ si' r, (a.streams.insert si a.objects.length).lookup si' = some r →
        a.streams.lookup si' = some r ∨ si' = si ∧ r = a.objects.length := by
      intro si' r hr
      by_cases hsame : si' = si
      · rw [hsame, AList.lookup_insert] at hr
        exact Or.inr ⟨hsame, (Option.some.inj hr).symm⟩
      · rw [AList.lookup_insert_ne hsame] at hr
        exact Or.inl hr
    refine ⟨h.filled, h.payloadSize, ?_, ?_, ?_, h.unacked, ?_, ?_, ?_⟩
    · intro r obj' hobj'
      rcases hobject r obj' hobj' with hold | ⟨_, rfl⟩
      · exact h.objectSizes r obj' hold
      · exact h.payloadSize
    · intro x r hx
      have hbefore := h.authors x r hx
      refine ⟨hbefore.1, ?_⟩
      show r < (a.objects ++ [obj]).length
      rw [List.length_append]
      exact Nat.lt_add_right _ hbefore.2
    · exact fun u c hc => hattributed (h.pending u c hc)
    · exact fun t c hc => ⟨(h.inflight t c hc).1, hattributed (h.inflight t c hc).2⟩
    · intro si' r hr
      show ((a.objects ++ [obj]).map (·.streamIdentifier))[r]? = some si'
      rw [hids]
      rcases hlookup si' r hr with hold | ⟨rfl, rfl⟩
      · exact hkept r si' (h.registered si' r hold)
      · rw [← hlen, List.getElem?_concat_length]
    · intro si' r obj' hr hobj'
      show obj'.bufferedAmount = outstanding (a, w) r
      rcases hlookup si' r hr with hold | ⟨_, rfl⟩
      · rcases hobject r obj' hobj' with hobj | ⟨rfl, _⟩
        · exact h.buffers si' r obj' hold hobj
        · obtain ⟨obj₀, hobj₀, _⟩ := h.object hold
          have hlt := (List.getElem?_eq_some_iff.mp hobj₀).1
          exact absurd hlt (Nat.lt_irrefl _)
      · rcases hobject _ obj' hobj' with hobj | ⟨_, rfl⟩
        · have hlt := (List.getElem?_eq_some_iff.mp hobj).1
          exact absurd hlt (Nat.lt_irrefl _)
        · exact h.outstanding_new.symm

end AssociationInternal

end Sctp
