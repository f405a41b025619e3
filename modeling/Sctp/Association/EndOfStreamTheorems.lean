import Sctp.Association.BufferedRunTheorems
import Sctp.Association.EndOfStream

/-!
# A reset request names a stream when all of it has been sent

The marker of a stream is the last of its chunks to be pushed, and is popped when no unordered
chunk is left. The request is built when the marker has been popped, so it names a stream of which
nothing is pending, and carries the TSN sent last.
-/

namespace Sctp

open PendingQueue (queueOf)

namespace PendingQueue

variable {q q' : PendingQueue} {c : ChunkPayloadData} {out chunks : List ChunkPayloadData} {si : U16}

/-! ## A stream in the pending queue -/

theorem Filled.pops (h : q.Filled) (hpeek : q.peek = some c)
    (hpop : q.pop c.beginningFragment c.unordered = (q', some c)) : ∃ u, Pops q q' u c := by
  obtain ⟨u, q'', hpop', _, hpops⟩ := h.orderly.pop hpeek
  rw [hpop] at hpop'
  have hsame : q' = q'' := congrArg Prod.fst hpop'
  rw [hsame]
  exact ⟨u, hpops⟩

/-- What is taken out one by one keeps what each pop keeps. -/
theorem Gives.keeps {P : PendingQueue → Prop} (hpop : ∀ q q' u c, Pops q q' u c → P q → P q')
    (h : q.Gives out q') (hq : q.Filled) (hP : P q) : P q' := by
  induction h with
  | nil => exact hP
  | snoc h hpeek hnext ih =>
    obtain ⟨u, hpops⟩ := (h.filled hq).pops hpeek hnext
    exact hpop _ _ u _ hpops ih

theorem Gives.sealed (h : q.Gives out q') (hq : q.Filled) (hs : q.Sealed si) : q'.Sealed si :=
  h.keeps (fun _ _ _ _ hpops hs => hs.pop hpops) hq hs

theorem Gives.marked (h : q.Gives out q') (hq : q.Filled) (hm : q'.Marked si) : q.Marked si := by
  have hkeep := h.keeps (P := fun q' => q'.Marked si → q.Marked si)
    (fun _ _ _ _ hpops hback hm => hback (hm.of_pop hpops)) hq id
  exact hkeep hm

/-- **Once a stream's marker has been taken out, nothing of the stream is left.** -/
theorem Gives.drained (h : q.Gives out q') (hq : q.Filled) (hs : q.Sealed si) (hc : c ∈ out)
    (hsi : c.streamIdentifier = si) (hempty : c.userData = []) : q'.Drained si := by
  induction h with
  | nil => exact absurd hc List.not_mem_nil
  | snoc h hpeek hnext ih =>
    obtain ⟨u, hpops⟩ := (h.filled hq).pops hpeek hnext
    rcases List.mem_append.mp hc with hold | hnew
    · exact (ih hold).pop hpops
    · rw [List.mem_singleton] at hnew
      subst hnew
      exact (h.sealed hq hs).drained hpops hsi hempty

/-! ## Pushes -/

/-- Chunks with data make no stream marked. -/
theorem Marked.of_pushes (hdata : ∀ c ∈ chunks, c.userData ≠ [])
    (h : (chunks.foldl PendingQueue.push q).Marked si) : q.Marked si := by
  induction chunks generalizing q with
  | nil => exact h
  | cons c chunks ih =>
    have hrest := ih (fun c' hc' => hdata c' (List.mem_cons_of_mem c hc')) h
    exact hrest.of_push fun _ => hdata c List.mem_cons_self

/-- They go behind no marker of their stream. -/
theorem Sealed.pushes (h : q.Sealed si) (hdata : ∀ c ∈ chunks, c.userData ≠ [])
    (hopen : q.Marked si → ∀ c ∈ chunks, c.streamIdentifier ≠ si) :
    (chunks.foldl PendingQueue.push q).Sealed si := by
  induction chunks generalizing q with
  | nil => exact h
  | cons c chunks ih =>
    have hc := hdata c List.mem_cons_self
    refine ih (h.push fun hm => hopen hm c List.mem_cons_self)
      (fun c' hc' => hdata c' (List.mem_cons_of_mem c hc')) ?_
    intro hm c' hc'
    exact hopen (hm.of_push fun _ => hc) c' (List.mem_cons_of_mem c hc')

theorem Sealed.new : Sealed si {} := by
  intro before marker behind hq
  cases before with
  | nil => cases hq
  | cons c before => cases hq

theorem not_marked_new : ¬ Marked si {} := by
  rintro ⟨c, hc, _⟩
  exact absurd hc List.not_mem_nil

end PendingQueue

/-! ## The stream objects -/

/-- The object may have had halves shut and bytes counted. -/
structure Stream.Continues (s s' : Stream) : Prop where
  identifier : s'.streamIdentifier = s.streamIdentifier
  size : s'.maxPayloadSize = s.maxPayloadSize
  read : s.readShutdown = true → s'.readShutdown = true
  write : s.writeShutdown = true → s'.writeShutdown = true

theorem Stream.Continues.refl (s : Stream) : s.Continues s := ⟨rfl, rfl, id, id⟩

theorem Stream.continues_packetize (s : Stream) (flags : SharedFlags) (p : Bytes)
    (ppi : PayloadProtocolIdentifier) : s.Continues (s.packetize flags p ppi).1 := by
  unfold Stream.packetize
  dsimp only
  split
  · exact ⟨rfl, rfl, id, id⟩
  · exact ⟨rfl, rfl, id, id⟩

namespace AssociationInternal

variable {a b : AssociationInternal}

/-- The objects of the one list are those of the other, in what has happened since. -/
structure ObjectsContinue (a b : AssociationInternal) : Prop where
  length : b.objects.length = a.objects.length
  each : ∀ (r : StreamRef) s s', a.objects[r]? = some s → b.objects[r]? = some s' → s.Continues s'

theorem ObjectsContinue.of_eq (h : b.objects = a.objects) : ObjectsContinue a b where
  length := by rw [h]
  each r s s' hs hs' := by
    rw [h, hs] at hs'
    cases hs'
    exact Stream.Continues.refl s

theorem ObjectsContinue.set {r : StreamRef} {s s' : Stream} (hobj : a.objects[r]? = some s)
    (h : s.Continues s') (hset : b.objects = a.objects.set r s') : ObjectsContinue a b where
  length := by rw [hset, List.length_set]
  each r' t t' ht ht' := by
    rw [hset] at ht'
    by_cases hr : r' = r
    · subst hr
      rw [hobj] at ht
      rw [List.getElem?_set_self', hobj] at ht'
      cases ht
      cases ht'
      exact h
    · rw [List.getElem?_set_ne fun heq => hr heq.symm, ht] at ht'
      cases ht'
      exact Stream.Continues.refl t

theorem ObjectsContinue.before (h : ObjectsContinue a b) {r : StreamRef} {s' : Stream}
    (hs' : b.objects[r]? = some s') : ∃ s, a.objects[r]? = some s ∧ s.Continues s' := by
  have hlt : r < a.objects.length := by
    rw [← h.length]
    exact (List.getElem?_eq_some_iff.mp hs').1
  exact ⟨_, List.getElem?_eq_getElem hlt, h.each r _ s' (List.getElem?_eq_getElem hlt) hs'⟩

theorem ObjectsContinue.later (h : ObjectsContinue a b) {r : StreamRef} {s : Stream}
    (hs : a.objects[r]? = some s) : ∃ s', b.objects[r]? = some s' ∧ s.Continues s' := by
  have hlt : r < b.objects.length := by
    rw [h.length]
    exact (List.getElem?_eq_some_iff.mp hs).1
  exact ⟨_, List.getElem?_eq_getElem hlt, h.each r s _ hs (List.getElem?_eq_getElem hlt)⟩

/-- Every stream has one object, a marker is the last chunk of its stream, and both halves of a
stream that is marked are shut. -/
structure EndsInOrder (a : AssociationInternal) : Prop where
  filled : a.pendingQueue.Filled
  payloadSize : 0 < a.maxPayloadSize.toNat
  sizes : ∀ (r : StreamRef) s, a.objects[r]? = some s → 0 < s.maxPayloadSize.toNat
  registered : a.AllRegistered
  sealed : ∀ si, a.pendingQueue.Sealed si
  shut : ∀ si, a.pendingQueue.Marked si → ∃ (r : StreamRef) (s : Stream), a.objects[r]? = some s ∧
    s.streamIdentifier = si ∧ s.readShutdown = true ∧ s.writeShutdown = true

theorem Fresh.endsInOrder (h : a.Fresh) (hregistered : a.AllRegistered) : a.EndsInOrder where
  filled := by
    rw [h.pendingQueue]
    exact PendingQueue.Filled.empty
  payloadSize := h.maxPayloadSize
  sizes r s hs := h.objects s (List.mem_of_getElem? hs)
  registered := hregistered
  sealed si := by
    rw [h.pendingQueue]
    exact PendingQueue.Sealed.new
  shut si hm := by
    rw [h.pendingQueue] at hm
    exact absurd hm PendingQueue.not_marked_new

/-- The one object of a stream that is marked is shut. -/
theorem EndsInOrder.shut_object (h : a.EndsInOrder) {r : StreamRef} {s : Stream}
    (hs : a.objects[r]? = some s) (hm : a.pendingQueue.Marked s.streamIdentifier) :
    s.readShutdown = true ∧ s.writeShutdown = true := by
  obtain ⟨r', s', hs', hsi, hread, hwrite⟩ := h.shut _ hm
  have hsame := h.registered r' s' hs'
  rw [hsi, h.registered r s hs] at hsame
  cases hsame
  rw [hs] at hs'
  cases hs'
  exact ⟨hread, hwrite⟩

/-- Where the objects only continue, the queue decides. -/
theorem EndsInOrder.congr (h : a.EndsInOrder) (hsize : b.maxPayloadSize = a.maxPayloadSize)
    (hstreams : b.streams = a.streams) (hobjects : ObjectsContinue a b)
    (hfilled : b.pendingQueue.Filled) (hsealed : ∀ si, b.pendingQueue.Sealed si)
    (hmarked : ∀ si, b.pendingQueue.Marked si → a.pendingQueue.Marked si ∨
      ∃ (r : StreamRef) (s : Stream), b.objects[r]? = some s ∧ s.streamIdentifier = si ∧
        s.readShutdown = true ∧ s.writeShutdown = true) : b.EndsInOrder where
  filled := hfilled
  payloadSize := by
    rw [hsize]
    exact h.payloadSize
  sizes r s' hs' := by
    obtain ⟨s, hs, hcontinues⟩ := hobjects.before hs'
    rw [hcontinues.size]
    exact h.sizes r s hs
  registered r s' hs' := by
    obtain ⟨s, hs, hcontinues⟩ := hobjects.before hs'
    rw [hstreams, hcontinues.identifier]
    exact h.registered r s hs
  sealed := hsealed
  shut si hm := by
    rcases hmarked si hm with hold | hnew
    · obtain ⟨r, s, hs, hsi, hread, hwrite⟩ := h.shut si hold
      obtain ⟨s', hs', hcontinues⟩ := hobjects.later hs
      exact ⟨r, s', hs', hcontinues.identifier.trans hsi, hcontinues.read hread,
        hcontinues.write hwrite⟩
    · exact hnew

/-- The queue has not changed. -/
theorem EndsInOrder.same (h : a.EndsInOrder) (hsize : b.maxPayloadSize = a.maxPayloadSize)
    (hstreams : b.streams = a.streams) (hobjects : ObjectsContinue a b)
    (hqueue : b.pendingQueue = a.pendingQueue) : b.EndsInOrder := by
  refine h.congr hsize hstreams hobjects ?_ ?_ ?_
  · rw [hqueue]
    exact h.filled
  · rw [hqueue]
    exact h.sealed
  · rw [hqueue]
    exact fun _ hm => Or.inl hm

theorem EndsInOrder.openStream (h : a.EndsInOrder) (si : U16) (ppi : PayloadProtocolIdentifier) :
    (a.openStream si ppi).1.EndsInOrder := by
  cases hlookup : a.streams.lookup si with
  | some r =>
    -- the stream is there already
    rw [openStream_of_some hlookup]
    exact h
  | none =>
    rw [openStream_of_none hlookup]
    have hobjects : ∀ (r : StreamRef) s, (a.objects ++ [(Stream.new si a.maxPayloadSize
        ).setDefaultPayloadType ppi])[r]? = some s → a.objects[r]? = some s ∨
          r = a.objects.length ∧ s = (Stream.new si a.maxPayloadSize).setDefaultPayloadType ppi := by
      intro r s hs
      rw [getElem?_append_singleton] at hs
      split at hs
      · rename_i hr
        exact Or.inr ⟨hr, (Option.some.inj hs).symm⟩
      · exact Or.inl hs
    refine ⟨h.filled, h.payloadSize, ?_, ?_, h.sealed, ?_⟩
    · intro r s hs
      rcases hobjects r s hs with hold | ⟨_, rfl⟩
      · exact h.sizes r s hold
      · exact h.payloadSize
    · intro r s hs
      rcases hobjects r s hs with hold | ⟨hr, rfl⟩
      · -- no object had the identifier that is new
        have hne : s.streamIdentifier ≠ si := by
          intro heq
          have hregistered := h.registered r s hold
          rw [heq, hlookup] at hregistered
          cases hregistered
        show (a.streams.insert si a.objects.length).lookup s.streamIdentifier = some r
        rw [AList.lookup_insert_ne hne]
        exact h.registered r s hold
      · rw [hr]
        exact AList.lookup_insert _
    · intro si' hm
      obtain ⟨r, s, hs, hrest⟩ := h.shut si' hm
      refine ⟨r, s, ?_, hrest⟩
      show (a.objects ++ [_])[r]? = some s
      rw [List.getElem?_append_left (List.getElem?_eq_some_iff.mp hs).1]
      exact hs

theorem EndsInOrder.setReliabilityParams (h : a.EndsInOrder) (r : StreamRef) (unordered : Bool)
    (relType : ReliabilityType) (relVal : U32) :
    (a.modifyObject r (·.setReliabilityParams unordered relType relVal)).EndsInOrder := by
  refine h.same rfl rfl ⟨List.length_modify .., ?_⟩ rfl
  intro r' s s' hs hs'
  have hmodify : (a.objects.modify r (·.setReliabilityParams unordered relType relVal))[r']? =
      some s' := hs'
  rw [List.getElem?_modify, hs] at hmodify
  split at hmodify
  · cases hmodify
    exact ⟨rfl, rfl, id, id⟩
  · cases hmodify
    exact Stream.Continues.refl s

theorem EndsInOrder.write (h : a.EndsInOrder) (r : StreamRef) (p : Bytes)
    (ppi : PayloadProtocolIdentifier) : (a.writeSctp r p ppi).1.EndsInOrder := by
  unfold writeSctp
  cases hobj : a.objects[r]? with
  | none => exact h
  | some s =>
    dsimp only
    have hpacketize := s.continues_packetize a.flags p ppi
    rcases s.writeSctp_cases a.maxMessageSize a.state a.flags a.pendingQueue p ppi with
      ⟨e, heq⟩ | ⟨e, heq⟩ | ⟨_, heq⟩
    · rw [heq]
      exact h.same rfl rfl (ObjectsContinue.set hobj (Stream.Continues.refl s) rfl) rfl
    · rw [heq]
      exact h.same rfl rfl (ObjectsContinue.set hobj hpacketize rfl) rfl
    · -- the stream is open, so none of its markers is pending
      have hopen : ¬ a.pendingQueue.Marked s.streamIdentifier := by
        intro hm
        have hclosed := (h.shut_object hobj hm).2
        unfold Stream.writeSctp at heq
        rw [if_pos hclosed] at heq
        have hres := congrArg (fun r => r.2.2.2) heq
        cases hres
      obtain ⟨hfilled, _, hchunks⟩ := packetize_pushes (h.sizes r s hobj) h.filled a.flags p ppi
      have hdata : ∀ c ∈ (s.packetize a.flags p ppi).2.2, c.userData ≠ [] :=
        fun c hc => (hchunks c hc).1
      rw [heq]
      refine h.congr rfl rfl (ObjectsContinue.set hobj hpacketize rfl) hfilled ?_ ?_
      · intro si
        refine (h.sealed si).pushes hdata ?_
        intro hm c hc hsi
        have hstream : c.streamIdentifier = s.streamIdentifier :=
          (congrArg (·.streamIdentifier) (hchunks c hc).2 :)
        rw [hsi] at hstream
        rw [hstream] at hm
        exact hopen hm
      · exact fun si hm => Or.inl (PendingQueue.Marked.of_pushes hdata hm)

theorem EndsInOrder.shutdownStream (h : a.EndsInOrder) (r : StreamRef) (how : Shutdown) :
    (a.shutdownStream r how).1.EndsInOrder := by
  unfold AssociationInternal.shutdownStream
  cases hobj : a.objects[r]? with
  | none => exact h
  | some s =>
    dsimp only
    obtain ⟨hread, hwrite, hpush⟩ := s.shutdown_shuts a.state a.flags a.pendingQueue how
    obtain ⟨s', hs', hcases⟩ := s.shutdown_cases a.state a.flags a.pendingQueue how
    rcases hcases with ⟨res, heq⟩ | heq
    · rw [heq] at hread hwrite ⊢
      have hcontinues : s.Continues s' := ⟨by rw [hs'], by rw [hs'], hread, hwrite⟩
      -- no request is made, so nothing is pushed
      exact h.same rfl rfl (ObjectsContinue.set hobj hcontinues rfl) rfl
    · rw [heq] at hread hwrite hpush ⊢
      have hcontinues : s.Continues s' := ⟨by rw [hs'], by rw [hs'], hread, hwrite⟩
      obtain ⟨marker, hmarker⟩ : ∃ marker, marker =
        Stream.eosMarker s.streamIdentifier a.flags.length (a.flags.length + 1) := ⟨_, rfl⟩
      rw [← hmarker] at hpush ⊢
      have hsi : marker.streamIdentifier = s.streamIdentifier := by rw [hmarker]; rfl
      rcases hpush with hsame | ⟨hopen, hread', hwrite'⟩
      · exact h.same rfl rfl (ObjectsContinue.set hobj hcontinues rfl) hsame
      · -- the marker is the first one of the stream
        have hnone : ¬ a.pendingQueue.Marked s.streamIdentifier := by
          intro hm
          obtain ⟨hr, hw⟩ := h.shut_object hobj hm
          rw [hr, hw] at hopen
          cases hopen
        have hfilled : (a.pendingQueue.push marker).Filled := by
          rw [hmarker]
          exact h.filled.push ⟨_, _, Stream.eosMarker_isMessage s.streamIdentifier a.flags.length
            (a.flags.length + 1)⟩ (Or.inr ⟨rfl, rfl⟩)
        refine h.congr rfl rfl (ObjectsContinue.set hobj hcontinues rfl) hfilled ?_ ?_
        · intro si
          refine (h.sealed si).push ?_
          intro hm heq
          rw [hsi] at heq
          exact hnone (heq ▸ hm)
        · intro si hm
          by_cases hown : s.streamIdentifier = si
          · refine Or.inr ⟨r, s', ?_, ?_, hread', hwrite'⟩
            · show (a.objects.set r s')[r]? = some s'
              rw [List.getElem?_set_self', hobj]
              rfl
            · rw [hcontinues.identifier, hown]
          · refine Or.inl (PendingQueue.Marked.of_push ?_ hm)
            intro heq
            rw [hsi] at heq
            exact absurd heq hown

/-! ## Gathering -/

/-- Out of Established nothing is popped and no request is created. -/
theorem gather_quiet_of_ne (hstate : a.state ≠ .established) (now : ℕ) :
    (a.gatherOutbound now).1.pendingQueue = a.pendingQueue ∧
      (a.gatherOutbound now).1.myNextTsn = a.myNextTsn ∧
      (a.gatherOutbound now).1.myNextRsn = a.myNextRsn := by
  have hgather := gatherOutbound_frame_of_ne
    (f := fun b => (b.pendingQueue, b.myNextTsn, b.myNextRsn)) (fun _ => rfl) (fun _ _ _ => rfl)
    (fun _ => rfl) (fun _ _ _ => rfl) (fun _ _ _ _ _ => rfl) hstate now
  exact ⟨congrArg (·.1) hgather, congrArg (·.2.1) hgather, congrArg (·.2.2) hgather⟩

/-- **What gathering takes out**: the chunks with data are sent under the next TSNs, and a request
names the streams of the others. -/
theorem gather_gives (hfilled : a.pendingQueue.Filled) (now : ℕ) :
    ∃ out, a.pendingQueue.Gives out (a.gatherOutbound now).1.pendingQueue ∧
      a.assigns (.gather now) = (out.filter fun c => !c.userData.isEmpty).mapIdx (fun i c =>
        numbered c (a.myNextTsn.after i) now) ∧
      (a.gatherOutbound now).1.myNextTsn = a.myNextTsn.after (a.assigns (.gather now)).length ∧
      ∀ p ∈ a.issued (.gather now),
        p.streamIdentifiers = (out.filter fun c => c.userData.isEmpty).map (·.streamIdentifier) ∧
        p.senderLastTsn = (a.gatherOutbound now).1.myNextTsn - 1 := by
  by_cases hstate : a.state = .established
  · obtain ⟨out, htakes, _, hqueue, hnext, hfinal⟩ := gather_takesOut hfilled hstate now
    have hassigns : a.assigns (.gather now) = ({ a with controlQueue := [] }.popped now).2.1 :=
      if_pos hstate
    have hgives := htakes.gives
    rw [hqueue, ← hfinal] at hgives
    have hnumbered := htakes.numbered
    rw [hnext] at hnumbered
    have hspoken := (gatherOutbound_spec hstate now rfl).1
    refine ⟨out, hgives, hassigns.trans hnumbered, ?_, ?_⟩
    · rw [hassigns]
      exact (congrArg myNextTsn hspoken :)
    · intro p hp
      rcases issued_gather hstate now rfl with ⟨_, hnone⟩ | ⟨p', hone, hids, hlast, _⟩
      · rw [hnone] at hp
        cases hp
      · rw [hone, List.mem_singleton] at hp
        rw [hp, hids, hlast]
        exact ⟨htakes.reported, rfl⟩
  · -- out of Established nothing is taken out
    obtain ⟨hqueue, hnext, hrsn⟩ := gather_quiet_of_ne hstate now
    have hassigns : a.assigns (.gather now) = [] := if_neg hstate
    have hissued : a.issued (.gather now) = [] := if_pos hrsn
    refine ⟨[], ?_, hassigns, ?_, ?_⟩
    · rw [hqueue]
      exact PendingQueue.Gives.nil _
    · rw [hassigns, hnext]
      exact (after_zero _).symm
    · rw [hissued]
      exact fun p hp => absurd hp List.not_mem_nil

theorem EndsInOrder.gather (h : a.EndsInOrder) (now : ℕ) : (a.gatherOutbound now).1.EndsInOrder := by
  obtain ⟨out, hgives, _⟩ := gather_gives h.filled now
  refine h.congr ?_ ?_ ?_ (hgives.filled h.filled) (fun si => hgives.sealed h.filled (h.sealed si))
    (fun si hm => Or.inl (hgives.marked h.filled hm))
  · exact (congrArg maxPayloadSize (a.ungathered_gatherOutbound now).1 :)
  · exact (congrArg streams (a.ungathered_gatherOutbound now).1 :)
  · exact ObjectsContinue.of_eq (objects_gatherOutbound a now)

theorem EndsInOrder.step (h : a.EndsInOrder) (call : StreamCall) : (a.callStep call).EndsInOrder := by
  cases call with
  | openStream si ppi => exact h.openStream si ppi
  | setReliabilityParams r unordered relType relVal =>
    exact h.setReliabilityParams r unordered relType relVal
  | write r p ppi => exact h.write r p ppi
  | shutdownStream r how => exact h.shutdownStream r how
  | gather now cwnd rwnd =>
    have hwindows : { a with cwnd, rwnd }.EndsInOrder :=
      h.same rfl rfl (ObjectsContinue.of_eq rfl) rfl
    exact hwindows.gather now

end AssociationInternal

namespace Outgoing

open AssociationInternal

variable {si : U16} {u : Bool}

/-! ## The ledger -/

theorem ofStream_append (si : U16) (u : Bool) (l l' : List ChunkPayloadData) :
    ofStream si u (l ++ l') = ofStream si u l ++ ofStream si u l' := by
  unfold ofStream
  rw [List.map_append, List.filter_append]

/-- The other kind does not count. -/
theorem ofStream_filter_unordered (si : U16) (u : Bool) (l : List ChunkPayloadData) :
    ofStream si u (l.filter (·.unordered = u)) = ofStream si u l := by
  have hmap : (l.filter (·.unordered = u)).map (·.unsent) =
      (l.map (·.unsent)).filter (·.unordered = u) := by
    rw [List.filter_map]
    rfl
  unfold ofStream
  rw [hmap, List.filter_filter]
  apply List.filter_congr
  intro c _
  rw [Bool.and_assoc, Bool.and_self]

/-- Nor does what is entered when a chunk is sent. -/
theorem ofStream_numbered (si : U16) (u : Bool) (now : ℕ) (tsn : ℕ → U32)
    (l : List ChunkPayloadData) :
    ofStream si u (l.mapIdx fun i c => numbered c (tsn i) now) = ofStream si u l := by
  have hmap : (l.mapIdx fun i c => numbered c (tsn i) now).map (·.unsent) = l.map (·.unsent) := by
    induction l generalizing tsn with
    | nil => rfl
    | cons c l ih =>
      rw [List.mapIdx_cons, List.map_cons, List.map_cons, ih fun i => tsn (i + 1)]
      rfl
  unfold ofStream
  rw [hmap]

/-- What has been written of each stream and kind has been sent, or waits, in this order. -/
structure Ledger (firstTsn : U32) (s : Outgoing) : Prop where
  ends : s.association.EndsInOrder
  next : s.association.myNextTsn = firstTsn.after s.sent.length
  tsns : ∀ i c, s.sent[i]? = some c → c.tsn = firstTsn.after i
  flow : ∀ si u, ofStream si u s.written = ofStream si u s.sent ++
    ofStream si u ((queueOf s.association.pendingQueue u).filter fun c => !c.userData.isEmpty)

variable {s : Outgoing} {firstTsn : U32}

/-- A call that sends nothing. -/
theorem Ledger.call (h : Ledger firstTsn s) {call : StreamCall}
    (hsends : s.association.sends call = [])
    (hnext : (s.association.callStep call).myNextTsn = s.association.myNextTsn)
    (hqueue : ∀ u, (queueOf (s.association.callStep call).pendingQueue u).filter
        (fun c => !c.userData.isEmpty) =
      (queueOf s.association.pendingQueue u).filter (fun c => !c.userData.isEmpty) ++
        (s.association.writes call).filter (·.unordered = u)) : Ledger firstTsn (s.step call) := by
  have hsent : (s.step call).sent = s.sent := by
    show s.sent ++ s.association.sends call = s.sent
    rw [hsends, List.append_nil]
  refine ⟨h.ends.step call, ?_, ?_, ?_⟩
  · rw [hsent]
    exact hnext.trans h.next
  · rw [hsent]
    exact h.tsns
  · intro si u
    rw [hsent]
    show ofStream si u (s.written ++ s.association.writes call) = _ ++
      ofStream si u ((queueOf (s.association.callStep call).pendingQueue u).filter _)
    rw [hqueue, ofStream_append, ofStream_append, ofStream_filter_unordered, h.flow si u,
      List.append_assoc]

/-- A call that leaves the queue, too. -/
theorem Ledger.quiet (h : Ledger firstTsn s) {call : StreamCall}
    (hsends : s.association.sends call = []) (hwrites : s.association.writes call = [])
    (hnext : (s.association.callStep call).myNextTsn = s.association.myNextTsn)
    (hqueue : (s.association.callStep call).pendingQueue = s.association.pendingQueue) :
    Ledger firstTsn (s.step call) := by
  refine h.call hsends hnext ?_
  intro u
  rw [hqueue, hwrites, List.filter_nil, List.append_nil]

theorem queueOf_pushes (q : PendingQueue) (u : Bool) (chunks : List ChunkPayloadData) :
    queueOf (chunks.foldl PendingQueue.push q) u = queueOf q u ++ chunks.filter (·.unordered = u) := by
  induction chunks generalizing q with
  | nil => exact (List.append_nil _).symm
  | cons c chunks ih =>
    rw [List.foldl_cons, ih, PendingQueue.queueOf_push, List.filter_cons]
    by_cases hc : c.unordered = u
    · simp [hc]
    · simp [hc]

theorem Ledger.write (h : Ledger firstTsn s) (r : StreamRef) (p : Bytes)
    (ppi : PayloadProtocolIdentifier) : Ledger firstTsn (s.step (.write r p ppi)) := by
  cases hobj : s.association.objects[r]? with
  | none =>
    have hstep : s.association.writeSctp r p ppi = (s.association, .error .errStreamClosed) := by
      unfold writeSctp
      rw [hobj]
    have hwrites : s.association.writes (.write r p ppi) = [] := by
      unfold writes
      dsimp only
      rw [hobj]
    refine h.quiet rfl hwrites ?_ ?_
    · exact congrArg (·.1.myNextTsn) hstep
    · exact congrArg (·.1.pendingQueue) hstep
  | some obj =>
    have hwrites : s.association.writes (.write r p ppi) =
        if (s.association.writeSctp r p ppi).2.isOk then
          (obj.packetize s.association.flags p ppi).2.2 else [] := by
      unfold writes
      dsimp only
      rw [hobj]
    obtain ⟨res, hres⟩ : ∃ res, res = obj.writeSctp s.association.maxMessageSize s.association.state
      s.association.flags s.association.pendingQueue p ppi := ⟨_, rfl⟩
    have hstep : s.association.writeSctp r p ppi = ({ s.association with
        flags := res.2.1
        pendingQueue := res.2.2.1
        objects := s.association.objects.set r res.1 }, res.2.2.2) := by
      unfold writeSctp
      rw [hobj, hres]
    have hnext : (s.association.callStep (.write r p ppi)).myNextTsn = s.association.myNextTsn :=
      congrArg (·.1.myNextTsn) hstep
    have hqueue : (s.association.callStep (.write r p ppi)).pendingQueue = res.2.2.1 :=
      congrArg (·.1.pendingQueue) hstep
    rw [hstep] at hwrites
    rcases obj.writeSctp_cases s.association.maxMessageSize s.association.state s.association.flags
      s.association.pendingQueue p ppi with ⟨e, heq⟩ | ⟨e, heq⟩ | ⟨_, heq⟩
    · rw [hres, heq] at hqueue hwrites
      exact h.quiet rfl hwrites hnext hqueue
    · rw [hres, heq] at hqueue hwrites
      exact h.quiet rfl hwrites hnext hqueue
    · rw [hres, heq] at hqueue hwrites
      -- the fragments are pushed, and all of them have data
      obtain ⟨_, _, hchunks⟩ := packetize_pushes (h.ends.sizes r obj hobj) h.ends.filled
        s.association.flags p ppi
      have hwritten : s.association.writes (.write r p ppi) =
          (obj.packetize s.association.flags p ppi).2.2 := hwrites
      refine h.call rfl hnext ?_
      intro u
      rw [hqueue, hwritten, queueOf_pushes, List.filter_append]
      congr 1
      rw [List.filter_eq_self]
      intro c hc
      have hdata := (hchunks c (List.mem_of_mem_filter hc)).1
      simpa using hdata

theorem Ledger.shutdownStream (h : Ledger firstTsn s) (r : StreamRef) (how : Shutdown) :
    Ledger firstTsn (s.step (.shutdownStream r how)) := by
  have hnext : (s.association.shutdownStream r how).1.myNextTsn = s.association.myNextTsn := by
    obtain ⟨flags, pendingQueue, objects, heq⟩ := s.association.shutdownStream_eq r how
    rw [heq]
  refine h.call rfl hnext ?_
  intro u
  rw [show s.association.writes (.shutdownStream r how) = [] from rfl, List.filter_nil,
    List.append_nil]
  show (queueOf (s.association.shutdownStream r how).1.pendingQueue u).filter _ = _
  unfold AssociationInternal.shutdownStream
  cases hobj : s.association.objects[r]? with
  | none => rfl
  | some obj =>
    dsimp only
    obtain ⟨obj', _, ⟨res, heq⟩ | heq⟩ := obj.shutdown_cases s.association.state s.association.flags
      s.association.pendingQueue how
    · rw [heq]
    · rw [heq]
      dsimp only
      -- the marker has no data
      rw [PendingQueue.queueOf_push]
      split
      · rw [List.filter_append]
        exact List.append_nil _
      · rfl

theorem Ledger.gather (h : Ledger firstTsn s) (now : ℕ) (cwnd rwnd : U32) :
    Ledger firstTsn (s.step (.gather now cwnd rwnd)) := by
  obtain ⟨a, ha⟩ : ∃ a, a = { s.association with cwnd, rwnd } := ⟨_, rfl⟩
  have hpending : a.pendingQueue = s.association.pendingQueue := by rw [ha]
  have hfirst : a.myNextTsn = firstTsn.after s.sent.length := by
    rw [ha]
    exact h.next
  have hfilled : a.pendingQueue.Filled := by
    rw [hpending]
    exact h.ends.filled
  obtain ⟨out, hgives, hassigns, hnext, _⟩ := gather_gives hfilled now
  have hstep : s.association.callStep (.gather now cwnd rwnd) = (a.gatherOutbound now).1 := by
    rw [ha]
    rfl
  have hsent : (s.step (.gather now cwnd rwnd)).sent = s.sent ++ a.assigns (.gather now) := by
    rw [ha]
    rfl
  have hwritten : (s.step (.gather now cwnd rwnd)).written = s.written := List.append_nil _
  refine ⟨h.ends.step (.gather now cwnd rwnd), ?_, ?_, ?_⟩
  · rw [hsent, List.length_append, ← after_add, ← hfirst, ← hnext, ← hstep]
    rfl
  · intro i c hc
    rw [hsent] at hc
    -- a chunk sent before, or one of this round
    by_cases hi : i < s.sent.length
    · rw [List.getElem?_append_left hi] at hc
      exact h.tsns i c hc
    · rw [List.getElem?_append_right (Nat.le_of_not_lt hi), hassigns, List.getElem?_mapIdx] at hc
      obtain ⟨d, _, rfl⟩ := Option.map_eq_some_iff.mp hc
      show a.myNextTsn.after (i - s.sent.length) = _
      rw [hfirst, after_add, Nat.add_sub_cancel' (Nat.le_of_not_lt hi)]
  · intro si u
    -- what was pending is what is taken out, and then what is left
    have horder := (hgives.inOrder hfilled.counted).2 u
    have hflow := h.flow si u
    rw [← hpending, horder, List.filter_append, List.filter_comm, ofStream_append,
      ofStream_filter_unordered] at hflow
    rw [hwritten, hflow, hsent, hassigns, ofStream_append, ofStream_numbered, List.append_assoc]
    show _ = _ ++ (_ ++ ofStream si u ((queueOf (s.association.callStep _).pendingQueue u).filter _))
    rw [hstep]

theorem Ledger.step (h : Ledger firstTsn s) (call : StreamCall) : Ledger firstTsn (s.step call) := by
  cases call with
  | openStream si ppi =>
    obtain ⟨objects, streams, heq⟩ := s.association.openStream_eq si ppi
    refine h.quiet rfl rfl ?_ ?_
    · exact congrArg (·.myNextTsn) heq
    · exact congrArg (·.pendingQueue) heq
  | setReliabilityParams r unordered relType relVal => exact h.quiet rfl rfl rfl rfl
  | write r p ppi => exact h.write r p ppi
  | shutdownStream r how => exact h.shutdownStream r how
  | gather now cwnd rwnd => exact h.gather now cwnd rwnd

/-! ## When a request is created -/

/-- What is not of the stream does not count for it. -/
theorem ofStream_of_ne {l : List ChunkPayloadData} (h : ∀ c ∈ l, c.streamIdentifier ≠ si) (u : Bool) :
    ofStream si u l = [] := by
  unfold ofStream
  rw [List.filter_eq_nil_iff]
  intro c' hc'
  obtain ⟨c, hc, rfl⟩ := List.mem_map.mp hc'
  have hne : ¬ c.unsent.streamIdentifier = si := h c hc
  simp [hne]

/-- A request names streams whose markers have been taken out, with the TSN given last. -/
theorem Ledger.requested (h : Ledger firstTsn s) {call : StreamCall} {p : ParamOutgoingResetRequest}
    (hp : p ∈ s.association.requests call) :
    (∀ si ∈ p.streamIdentifiers, (s.step call).association.pendingQueue.Drained si) ∧
      p.senderLastTsn = (s.step call).association.myNextTsn - 1 := by
  cases call with
  | gather now cwnd rwnd =>
    obtain ⟨out, hgives, _, _, hrequest⟩ := gather_gives
      (a := { s.association with cwnd, rwnd }) h.ends.filled now
    obtain ⟨hids, hlast⟩ := hrequest p hp
    refine ⟨?_, hlast⟩
    intro si hsi
    rw [hids, List.mem_map] at hsi
    obtain ⟨c, hc, hstream⟩ := hsi
    obtain ⟨hout, hempty⟩ := List.mem_filter.mp hc
    -- the marker of the stream has been taken out
    exact hgives.drained h.ends.filled (h.ends.sealed si) hout hstream (List.isEmpty_iff.mp hempty)
  | _ => exact absurd hp List.not_mem_nil

theorem Ledger.leavesNothingBehind (h : Ledger firstTsn s) (call : StreamCall) :
    s.LeavesNothingBehind call := by
  intro p hp si hsi
  have hdrained := (h.requested hp).1 si hsi
  constructor
  · intro c hc
    rcases List.mem_append.mp hc with hunordered | hordered
    · exact hdrained true c hunordered
    · exact hdrained false c hordered
  · intro u
    have hflow := (h.step call).flow si u
    rw [ofStream_of_ne (fun c hc => hdrained u c (List.mem_of_mem_filter hc)) u,
      List.append_nil] at hflow
    exact hflow.symm

/-- How far two TSNs are apart when the one is given after the other. -/
theorem dist_after_mod (base : U32) (k : ℕ) : Serial.dist base (base.after k) = k % 2 ^ 32 := by
  have hmod : base.after k = base.after (k % 2 ^ 32) := by
    show base + BitVec.ofNat 32 k = base + BitVec.ofNat 32 (k % 2 ^ 32)
    congr 1
    apply BitVec.eq_of_toNat_eq
    rw [BitVec.toNat_ofNat, BitVec.toNat_ofNat, Nat.mod_mod]
  rw [hmod, dist_after base (Nat.mod_lt k (by omega))]

theorem Ledger.endsInReach (h : Ledger firstTsn s) (call : StreamCall) : s.EndsInReach call := by
  intro p hp si hsi i c hc _
  obtain ⟨_, hlast⟩ := h.requested hp
  have hnext := (h.step call).next
  have htsn := (h.step call).tsns i c hc
  have hi := (List.getElem?_eq_some_iff.mp hc).1
  generalize (s.step call).sent.length = n at hnext hi ⊢
  -- the last TSN is as far behind as there are chunks sent after this one
  have hprev : p.senderLastTsn = c.tsn.after (n - 1 - i) := by
    have hback : (firstTsn.after (n - 1)).after 1 = firstTsn.after n := by
      rw [after_add, Nat.sub_add_cancel (by omega)]
    have hone : ∀ t : U32, t.after 1 - 1 = t := fun t => BitVec.add_sub_cancel t 1
    rw [hlast, hnext, ← hback, hone, htsn, after_add, Nat.add_sub_cancel' (by omega)]
  rw [sna32lte_iff, hprev, dist_after_mod]

end Outgoing

/-! ## Runs -/

namespace Outgoing

open AssociationInternal

variable {a : AssociationInternal}

theorem ledger_of_fresh (h : a.Fresh) (hregistered : a.AllRegistered) :
    Ledger a.myNextTsn { association := a } where
  ends := h.endsInOrder hregistered
  next := (after_zero _).symm
  tsns i c hc := by cases hc
  flow si u := by
    have hnone : queueOf a.pendingQueue u = [] := by
      rw [h.pendingQueue]
      cases u with
      | true => rfl
      | false => rfl
    show [] = [] ++ ofStream si u ((queueOf a.pendingQueue u).filter _)
    rw [hnone]
    rfl

/-- **A reset request overtakes no data.** -/
theorem leavesNothingBehind_of_run (h : a.Fresh) (hregistered : a.AllRegistered)
    (calls : List StreamCall) :
    Runs.Along step (fun s call => s.LeavesNothingBehind call ∧ s.EndsInReach call)
      { association := a } calls :=
  Runs.along_of_invariant (fun _ call _ hs => hs.step call)
    (fun _ call _ hs => ⟨hs.leavesNothingBehind call, hs.endsInReach call⟩)
    (ledger_of_fresh h hregistered) (Runs.along_true _ _)

theorem allRegistered_justEstablished : justEstablished.AllRegistered := by
  intro r s hs
  cases hs

/-- Two streams share the queue; one ends with an unordered message while the window is closed. -/
def twoStreamsRun : List StreamCall :=
  [.openStream 1 .binary, .openStream 2 .binary, .setReliabilityParams 1 true .reliable 0,
    .write 0 [1, 2] .binary, .write 1 [3] .binary, .shutdownStream 1 .both, .write 0 [4] .binary,
    .gather 5 1 4096]

theorem leavesNothingBehind_twoStreamsRun :
    Runs.Along step (fun s call => s.LeavesNothingBehind call ∧ s.EndsInReach call)
      { association := justEstablished } (twoStreamsRun ++ [.gather 6 4096 4096]) ∧
    ((Runs.run step { association := justEstablished } twoStreamsRun).association.requests
      (.gather 6 4096 4096)).map (·.streamIdentifiers) = [[2]] :=
  ⟨leavesNothingBehind_of_run justEstablished_fresh allRegistered_justEstablished _,
    by decide +kernel⟩

end Outgoing

/-! ## As many chunks as the serial order can bear -/

namespace AssociationInternal

variable {a : AssociationInternal}

/-- A marker that is all there is goes out by itself. -/
theorem popPending_marker {si : U16} {x y : SharedFlag}
    (hordered : a.pendingQueue.orderedQueue = [Stream.eosMarker si x y])
    (hunordered : a.pendingQueue.unorderedQueue = []) (hselected : a.pendingQueue.selected = false)
    (hlen : a.pendingQueue.queueLen ≠ 0) (now : ℕ) :
    (a.popPendingDataChunksToSend now).2 = ([], [si]) := by
  have hpeek : a.pendingQueue.peek = some (Stream.eosMarker si x y) := by
    unfold PendingQueue.peek
    rw [hselected, hunordered, hordered]
    rfl
  have hpop : (a.pendingQueue.pop true false).1.peek = none := by
    unfold PendingQueue.pop PendingQueue.popFront PendingQueue.account PendingQueue.peek
    simp [hselected, hunordered, hordered, Stream.eosMarker]
  obtain ⟨b, hb⟩ : ∃ b, b = { a with pendingQueue := (a.pendingQueue.pop true false).1 } := ⟨_, rfl⟩
  have hnone : b.pendingQueue.peek = none := by
    rw [hb]
    exact hpop
  have hrest : ∀ fuel, popPendingLoop now fuel b [] [si] = (b, [], [si]) := by
    intro fuel
    cases fuel with
    | zero => rfl
    | succ fuel => rw [popPendingLoop, hnone]
  have hloop : popPendingLoop now a.popPendingRounds a [] [] = (b, [], [si]) := by
    have hrounds : a.popPendingRounds = a.rwnd.toNat + 1 := by
      unfold popPendingRounds
      rw [hordered, hunordered, List.length_singleton, List.length_nil]
      omega
    rw [hrounds, popPendingLoop, hpeek]
    dsimp only
    rw [if_pos (show (Stream.eosMarker si x y).userData.length = 0 from rfl), ← hrest a.rwnd.toNat, hb]
    rfl
  -- nothing is left that a probe could send
  have hprobe : b.zeroWindowProbe now [] = (b, []) := by
    unfold zeroWindowProbe
    rw [hnone]
    split <;> rfl
  unfold popPendingDataChunksToSend
  rw [if_neg (show ¬ a.pendingQueue.len = 0 from hlen), hloop]
  dsimp only
  rw [hprobe]

/-- Shutting the stream down when nothing is pending leaves its marker alone. -/
theorem Traffic.shutdownStream {n w r : ℕ} (h : a.Traffic n 0 w r) :
    let b := (a.shutdownStream 0 .both).1
    b.state = .established ∧ b.myNextTsn = a.myNextTsn ∧
      (∃ x y, b.pendingQueue.orderedQueue = [Stream.eosMarker 1 x y]) ∧
      b.pendingQueue.unorderedQueue = [] ∧ b.pendingQueue.selected = false ∧
      b.pendingQueue.queueLen ≠ 0 := by
  obtain ⟨s, hs, hgives⟩ := h.object
  have hopen : (s.readShutdown && s.writeShutdown) = false := by
    rw [hgives.isOpen, Bool.and_false]
  obtain ⟨marker, hmarker⟩ : ∃ marker,
    marker = Stream.eosMarker 1 a.flags.length (a.flags ++ [false]).length := ⟨_, rfl⟩
  have hshutdown : s.shutdown a.state a.flags a.pendingQueue .both =
      ({ s with writeShutdown := true, readShutdown := true }, a.flags ++ [false] ++ [false],
        a.pendingQueue.push marker, .ok ()) := by
    unfold Stream.shutdown Stream.sendResetRequest
    rw [hopen, h.state, hmarker, ← hgives.identifier]
    rfl
  have heq : (a.shutdownStream 0 .both).1 = { a with
      flags := a.flags ++ [false] ++ [false]
      pendingQueue := a.pendingQueue.push marker
      objects := a.objects.set 0 { s with writeShutdown := true, readShutdown := true } } := by
    unfold AssociationInternal.shutdownStream
    rw [hs]
    dsimp only
    rw [hshutdown]
  have hpush : a.pendingQueue.push marker = { a.pendingQueue with
      orderedQueue := [marker]
      queueLen := a.pendingQueue.queueLen + 1
      nBytes := a.pendingQueue.nBytes + 0 } := by
    unfold PendingQueue.push
    rw [hmarker, List.length_eq_zero_iff.mp h.pending]
    rfl
  intro b
  have hb : b = _ := heq
  rw [hb, hpush]
  exact ⟨h.state, rfl, ⟨_, _, by rw [hmarker]⟩, h.ordered, h.unselected, Nat.succ_ne_zero _⟩

/-- It is all that the next round of the write loop takes. -/
theorem gather_marker {si : U16} {x y : SharedFlag} (hstate : a.state = .established)
    (hordered : a.pendingQueue.orderedQueue = [Stream.eosMarker si x y])
    (hunordered : a.pendingQueue.unorderedQueue = []) (hselected : a.pendingQueue.selected = false)
    (hlen : a.pendingQueue.queueLen ≠ 0) (now : ℕ) :
    a.assigns (.gather now) = [] ∧
      ∃ p, a.issued (.gather now) = [p] ∧ p.streamIdentifiers = [si] := by
  obtain ⟨b, hb⟩ : ∃ b, b = ({ a with controlQueue := [] }.getDataPacketsToRetransmit now).1 :=
    ⟨_, rfl⟩
  have hqueue : b.pendingQueue = a.pendingQueue := by
    rw [hb]
    exact getDataPacketsToRetransmit_frame (f := pendingQueue) (fun _ _ _ => rfl) _ now
  have hpopped : ({ a with controlQueue := [] }.popped now).2 = ([], [si]) := by
    rw [← hqueue] at hordered hunordered hselected hlen
    unfold popped
    rw [← hb]
    exact popPending_marker hordered hunordered hselected hlen now
  have hassigns : a.assigns (.gather now) = ({ a with controlQueue := [] }.popped now).2.1 :=
    if_pos hstate
  refine ⟨by rw [hassigns, hpopped], ?_⟩
  rcases issued_gather hstate now rfl with ⟨hnone, _⟩ | ⟨p, hone, hids, _⟩
  · rw [hpopped] at hnone
    cases hnone
  · exact ⟨p, hone, by rw [hids, hpopped]⟩

end AssociationInternal

namespace Outgoing

open AssociationInternal

variable {s : Outgoing} {n m w r : ℕ}

/-- The messages all belong to stream 1. -/
theorem Traffic.writes (h : s.association.Traffic n m w r)
    (hone : ∀ c ∈ s.written, c.streamIdentifier = 1) (k : ℕ) :
    let s' := Runs.run step s (List.replicate k (.write 0 [0] .binary))
    s'.association.Traffic n (m + k) w r ∧ s'.association.myNextTsn = s.association.myNextTsn ∧
      ∀ c ∈ s'.written, c.streamIdentifier = 1 := by
  induction k generalizing s m with
  | zero => exact ⟨h, rfl, hone⟩
  | succ k ih =>
    have hwritten : ∀ c ∈ (s.step (.write 0 [0] .binary)).written, c.streamIdentifier = 1 := by
      intro c hc
      rcases List.mem_append.mp hc with hold | hnew
      · exact hone c hold
      · obtain ⟨obj, hobj, hgives⟩ := h.object
        obtain ⟨d, hd, hchunk, _⟩ := packetize_one hgives s.association.flags 0
        have hwrites : c ∈ (obj.packetize s.association.flags [0] .binary).2.2 := by
          unfold AssociationInternal.writes at hnew
          dsimp only at hnew
          rw [hobj] at hnew
          dsimp only at hnew
          split at hnew
          · exact hnew
          · exact absurd hnew List.not_mem_nil
        rw [hd, List.mem_singleton] at hwrites
        rw [hwrites]
        exact hchunk.stream
    have hrest := ih (h.write 0) hwritten
    rw [List.replicate_succ, Runs.run_cons, show m + (k + 1) = m + 1 + k by omega]
    refine ⟨hrest.1, ?_, hrest.2.2⟩
    obtain ⟨flags, pendingQueue, objects, heq⟩ := s.association.writeSctp_eq 0 [0] .binary
    exact hrest.2.1.trans (congrArg (·.myNextTsn) heq)

/-- One stream is written to `k` times, and one round of the write loop sends it all. -/
def messagesRun (k : ℕ) : List StreamCall :=
  [.openStream 1 .binary, .setReliabilityParams 0 false .rexmit 0] ++
    (List.replicate k (.write 0 [0] .binary) ++ [.gather 0 0xffffffff 0xffffffff])

/-- The messages have the first `k` TSNs. -/
theorem messagesRun_sent {k : ℕ} (hk : 0 < k) (hlt : k < 2 ^ 32) :
    let s := Runs.run step { association := wideOpen } (messagesRun k)
    s.association.Traffic k 0 (2 ^ 32 - 1) (2 ^ 32 - 1 - k) ∧
      s.association.myNextTsn = wideOpen.myNextTsn.after k ∧
      ∀ c ∈ s.written, c.streamIdentifier = 1 := by
  obtain ⟨s₀, hs₀⟩ : ∃ s₀ : Outgoing, s₀ = { association := Runs.run senderStep wideOpen setUp } :=
    ⟨_, rfl⟩
  have h₀ : s₀.association.Traffic 0 0 4380 (2 ^ 32 - 1) := by
    rw [hs₀]
    exact traffic_setUp
  have hnone : ∀ c ∈ s₀.written, c.streamIdentifier = 1 := by
    intro c hc
    rw [hs₀] at hc
    cases hc
  -- the writes leave all of it pending
  obtain ⟨h₁, hnext, hone⟩ := Traffic.writes h₀ hnone k
  obtain ⟨s₁, hs₁⟩ : ∃ s₁, s₁ = Runs.run step s₀ (List.replicate k (.write 0 [0] .binary)) := ⟨_, rfl⟩
  rw [← hs₁, Nat.zero_add] at h₁
  rw [← hs₁] at hone hnext
  have hrun : Runs.run step { association := wideOpen } (messagesRun k) =
      s₁.step (.gather 0 0xffffffff 0xffffffff) := by
    unfold messagesRun
    rw [Runs.run_append, Runs.run_append, hs₁, hs₀]
    rfl
  -- the windows of the round are as wide as they can be
  obtain ⟨a, ha⟩ : ∃ a : AssociationInternal,
    a = { s₁.association with cwnd := 0xffffffff, rwnd := 0xffffffff } := ⟨_, rfl⟩
  have hwide : a.Traffic 0 k (2 ^ 32 - 1) (2 ^ 32 - 1) := by
    have hopen : (0xffffffff : U32).toNat = 2 ^ 32 - 1 := by decide
    rw [ha]
    exact { h₁ with cwnd := hopen, rwnd := hopen }
  have hsent := hwide.gather hk (by omega) (by omega) hlt
  have hfirst : a.cumulativeTsnAckPoint.after 1 = wideOpen.myNextTsn := by
    have hstart : s₀.association.myNextTsn = wideOpen.myNextTsn := by
      rw [hs₀]
      rfl
    rw [← hstart, ← hnext, ← hwide.next, ha]
  have htsn : (a.gatherOutbound 0).1.myNextTsn = wideOpen.myNextTsn.after k := by
    rw [hsent.next, a.cumulativeTsnAckPoint_gatherOutbound 0, ← hfirst, after_add, Nat.add_comm 1 k]
  have hassociation : (s₁.step (.gather 0 0xffffffff 0xffffffff)).association =
      (a.gatherOutbound 0).1 := by
    rw [ha]
    rfl
  have hwritten : (s₁.step (.gather 0 0xffffffff 0xffffffff)).written = s₁.written :=
    List.append_nil _
  intro s
  have hs : s = _ := hrun
  rw [hs, hassociation, hwritten]
  exact ⟨hsent, htsn, hone⟩

/-- When all of it has been sent, the stream is shut down. -/
def longStreamRun (k : ℕ) : List StreamCall := messagesRun k ++ [.shutdownStream 0 .both]

/-- The marker is all that is left for the next round of the write loop. -/
theorem longStreamRun_marker {k : ℕ} (hk : 0 < k) (hlt : k < 2 ^ 32) :
    let s := Runs.run step { association := wideOpen } (longStreamRun k)
    s.association.myNextTsn = wideOpen.myNextTsn.after k ∧
      (∀ c ∈ s.written, c.streamIdentifier = 1) ∧
      s.association.sends (.gather 0 0xffffffff 0xffffffff) = [] ∧
      ∃ p, s.association.requests (.gather 0 0xffffffff 0xffffffff) = [p] ∧
        p.streamIdentifiers = [1] := by
  obtain ⟨hsent, htsn, hone⟩ := messagesRun_sent hk hlt
  obtain ⟨s₂, hs₂⟩ : ∃ s₂, s₂ = Runs.run step { association := wideOpen } (messagesRun k) := ⟨_, rfl⟩
  rw [← hs₂] at hsent htsn hone
  have hrun : Runs.run step { association := wideOpen } (longStreamRun k) =
      s₂.step (.shutdownStream 0 .both) := by
    unfold longStreamRun
    rw [Runs.run_append, hs₂]
    rfl
  obtain ⟨hstate, hkept, ⟨x, y, hordered⟩, hunordered, hselected, hlen⟩ := hsent.shutdownStream
  obtain ⟨hsends, p, hp, hids⟩ := gather_marker
    (a := { (s₂.association.shutdownStream 0 .both).1 with cwnd := 0xffffffff, rwnd := 0xffffffff })
    hstate hordered hunordered hselected hlen 0
  intro s
  have hs : s = _ := hrun
  rw [hs]
  refine ⟨hkept.trans htsn, ?_, hsends, p, hp, hids⟩
  show ∀ c ∈ s₂.written ++ [], c.streamIdentifier = 1
  rw [List.append_nil]
  exact hone

/-- **The first of 2^31 + 1 chunks is behind the last TSN of the request in the serial order.** -/
theorem not_endsAtOrBehind_longStreamRun :
    ¬ ∀ a : AssociationInternal, a.Fresh → a.AllRegistered → ∀ calls : List StreamCall,
      Runs.Along step (fun s call => s.LeavesNothingBehind call ∧ s.EndsAtOrBehind call)
        { association := a } calls := by
  intro hall
  obtain ⟨k, hk⟩ : ∃ k, k = 2 ^ 31 + 1 := ⟨_, rfl⟩
  have hregistered : wideOpen.AllRegistered := by
    intro r s hs
    cases hs
  obtain ⟨call, hcall⟩ : ∃ call, call = StreamCall.gather 0 0xffffffff 0xffffffff := ⟨_, rfl⟩
  have halong := hall wideOpen wideOpen_fresh hregistered (longStreamRun k ++ [call])
  obtain ⟨hnext, hwritten, hsends, p, hp, hids⟩ := @longStreamRun_marker k (by omega) (by omega)
  obtain ⟨s, hs⟩ : ∃ s, s = Runs.run step { association := wideOpen } (longStreamRun k) := ⟨_, rfl⟩
  rw [Runs.along_append, ← hs] at halong
  rw [← hs] at hnext hwritten
  rw [← hs, ← hcall] at hsends hp
  have hledger : Ledger wideOpen.myNextTsn s := by
    rw [hs]
    exact Runs.run_invariant (fun s call h => h.step call)
      (ledger_of_fresh wideOpen_fresh hregistered) _
  have hsent : (s.step call).sent = s.sent := by
    show s.sent ++ s.association.sends call = s.sent
    rw [hsends, List.append_nil]
  -- the counter shows how many have been sent, up to whole turns
  have hlen : s.sent.length % 2 ^ 32 = k := by
    have hsame := hledger.next
    rw [hnext] at hsame
    have hdist := congrArg (Serial.dist wideOpen.myNextTsn) hsame
    rw [dist_after_mod, dist_after_mod, Nat.mod_eq_of_lt (by omega)] at hdist
    exact hdist.symm
  cases hfirst : s.sent with
  | nil =>
    rw [hfirst, List.length_nil] at hlen
    omega
  | cons c rest =>
    -- what has been sent was written
    have hstream : c.streamIdentifier = 1 := by
      have hmem : c.unsent ∈ ofStream c.streamIdentifier c.unordered s.written := by
        rw [hledger.flow, hfirst]
        refine List.mem_append_left _ (List.mem_filter.mpr ⟨List.mem_map_of_mem List.mem_cons_self, ?_⟩)
        simp [ChunkPayloadData.unsent]
      obtain ⟨d, hd, hunsent⟩ := List.mem_map.mp (List.mem_of_mem_filter hmem)
      have hsame : d.streamIdentifier = c.streamIdentifier :=
        (congrArg ChunkPayloadData.streamIdentifier hunsent :)
      rw [← hsame]
      exact hwritten d hd
    have hmem : p ∈ s.association.requests call := by
      rw [hp]
      exact List.mem_singleton_self p
    have hsi : (1 : U16) ∈ p.streamIdentifiers := by
      rw [hids]
      exact List.mem_singleton_self 1
    have hget : (s.step call).sent[0]? = some c := by
      rw [hsent, hfirst]
      rfl
    -- 2^31 chunks were sent after the first one
    have hbehind := halong.2.1.2 p hmem 1 hsi c (List.mem_of_getElem? hget) hstream
    have hreach := (hledger.endsInReach call p hmem 1 hsi 0 c hget hstream).mp hbehind
    rw [hsent] at hreach
    omega

end Outgoing

end Sctp
