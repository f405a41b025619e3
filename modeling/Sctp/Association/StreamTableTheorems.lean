import Sctp.Association.ReceiverTheorems
import Sctp.Association.StreamReset

/-!
# Streams that come and go

What the operations on streams and on the requests that are kept do, and which properties of
the two last through whatever arrives.
-/

namespace Sctp

namespace AssociationInternal

variable {a a' : AssociationInternal}

/-! ## The requests that are kept -/

/-- The requests that are kept are not streams. -/
theorem reconfigRequests_ignoresStreams : IgnoresStreams reconfigRequests := fun _ _ _ _ => rfl

theorem reconfigRequests_ignoresTriggers : IgnoresTriggers reconfigRequests := fun _ _ _ => rfl

/-- A request whose TSN is reached: its streams are unregistered, and it is not kept. -/
theorem resetStreamsIfAny_of_due {p : ParamOutgoingResetRequest}
    (h : sna32lte p.senderLastTsn a.peerLastTsn = true) :
    (a.resetStreamsIfAny p).1 =
      { p.streamIdentifiers.foldl unregisterStream a with
        reconfigRequests := a.reconfigRequests.erase p.reconfigRequestSequenceNumber } := by
  have hframe := reconfigRequests_ignoresStreams.unregisterStreams a p.streamIdentifiers
  unfold resetStreamsIfAny
  rw [if_pos h]
  dsimp only
  rw [hframe]

/-- A request whose TSN is not reached changes nothing. -/
theorem resetStreamsIfAny_of_not_due {p : ParamOutgoingResetRequest}
    (h : sna32lte p.senderLastTsn a.peerLastTsn = false) : (a.resetStreamsIfAny p).1 = a := by
  unfold resetStreamsIfAny
  rw [if_neg (by rw [h]; exact Bool.false_ne_true)]

/-- Requests do not move the point. -/
theorem peerLastTsn_resetStreamsIfAny (a : AssociationInternal) (p : ParamOutgoingResetRequest) :
    (a.resetStreamsIfAny p).1.peerLastTsn = a.peerLastTsn :=
  IgnoresStreams.resetStreamsIfAny (f := peerLastTsn) (fun _ _ _ _ => rfl) (fun _ _ => rfl) a p

/-- Every request is kept under its own number. -/
def KeptByNumber (a : AssociationInternal) : Prop :=
  ∀ k p, a.reconfigRequests.lookup k = some p → p.reconfigRequestSequenceNumber = k

/-- A round over the requests that are kept takes those out whose TSN is reached. -/
theorem reconfigRequests_recheck (h : a.KeptByNumber) (k : U32) (p : ParamOutgoingResetRequest) :
    a.recheckReconfigRequests.1.reconfigRequests.lookup k = some p ↔
      a.reconfigRequests.lookup k = some p ∧ sna32lte p.senderLastTsn a.peerLastTsn = false := by
  have hround : ∀ (l : List ParamOutgoingResetRequest) (s : AssociationInternal × List Packet),
      (l.foldl (fun (s : AssociationInternal × List Packet) rstReq =>
        ((s.1.resetStreamsIfAny rstReq).1, s.2 ++ [(s.1.resetStreamsIfAny rstReq).2]))
          s).1.reconfigRequests =
        l.foldl (fun m q => if sna32lte q.senderLastTsn s.1.peerLastTsn then
          m.erase q.reconfigRequestSequenceNumber else m) s.1.reconfigRequests := by
    intro l
    induction l with
    | nil => exact fun _ => rfl
    | cons q l ih =>
      intro s
      rw [List.foldl_cons, List.foldl_cons, ih]
      dsimp only
      rw [peerLastTsn_resetStreamsIfAny]
      by_cases hdue : sna32lte q.senderLastTsn s.1.peerLastTsn = true
      · rw [resetStreamsIfAny_of_due hdue, if_pos hdue]
      · rw [resetStreamsIfAny_of_not_due (by simpa using hdue), if_neg hdue]
  have hall := hround a.reconfigRequests.values (a, [])
  show (a.reconfigRequests.values.foldl (fun (s : AssociationInternal × List Packet) rstReq =>
        ((s.1.resetStreamsIfAny rstReq).1, s.2 ++ [(s.1.resetStreamsIfAny rstReq).2]))
          (a, [])).1.reconfigRequests.lookup k = some p ↔ _
  rw [hall, AssocMap.lookup_foldl_erase]
  constructor
  · rintro ⟨hkept, hnone⟩
    exact ⟨hkept, hnone p (AssocMap.mem_values_of_lookup hkept) (h k p hkept)⟩
  · rintro ⟨hkept, hnot⟩
    refine ⟨hkept, fun q hq hnumber => ?_⟩
    obtain ⟨k', hk'⟩ := AssocMap.mem_values.mp hq
    have hsame : k' = k := (h k' q hk').symm.trans hnumber
    rw [hsame, hkept, Option.some.injEq] at hk'
    rw [← hk']
    exact hnot

/-- Only the requests matter. -/
theorem KeptByNumber.congr (h : a.KeptByNumber) (ha : a'.reconfigRequests = a.reconfigRequests) :
    a'.KeptByNumber := by
  intro k p hp
  rw [ha] at hp
  exact h k p hp

/-- Looking at the requests again takes some out. -/
theorem KeptByNumber.recheck (h : a.KeptByNumber) : a.recheckReconfigRequests.1.KeptByNumber :=
  fun k p hp => h k p ((reconfigRequests_recheck h k p).mp hp).1

/-- Nor does looking at all of them move it. -/
theorem peerLastTsn_recheck (a : AssociationInternal) :
    a.recheckReconfigRequests.1.peerLastTsn = a.peerLastTsn :=
  IgnoresStreams.recheckReconfigRequests (f := peerLastTsn) (fun _ _ _ _ => rfl) (fun _ _ => rfl) a

/-- Streams are unregistered whatever requests are kept. -/
theorem unregisterStreams_with (a : AssociationInternal) (ids : List U16)
    (m : AssocMap U32 ParamOutgoingResetRequest) :
    ids.foldl unregisterStream { a with reconfigRequests := m } =
      { ids.foldl unregisterStream a with reconfigRequests := m } := by
  induction ids generalizing a with
  | nil => rfl
  | cons si ids ih =>
    have hone : unregisterStream { a with reconfigRequests := m } si =
        { a.unregisterStream si with reconfigRequests := m } := by
      unfold unregisterStream
      dsimp only
      split <;> rfl
    rw [List.foldl_cons, List.foldl_cons, hone, ih]

/-- A request that arrives is performed, or kept if it is not due. -/
theorem handleReconfigParam_request (a : AssociationInternal) (p : ParamOutgoingResetRequest) :
    (sna32lte p.senderLastTsn a.peerLastTsn = true ∧
      (a.handleReconfigParam (.outgoingResetRequest p)).1 =
        { p.streamIdentifiers.foldl unregisterStream a with
          reconfigRequests := a.reconfigRequests.erase p.reconfigRequestSequenceNumber }) ∨
    (sna32lte p.senderLastTsn a.peerLastTsn = false ∧
      (a.handleReconfigParam (.outgoingResetRequest p)).1 =
        { a with
          reconfigRequests := a.reconfigRequests.insert p.reconfigRequestSequenceNumber p }) := by
  let b : AssociationInternal :=
    { a with reconfigRequests := a.reconfigRequests.insert p.reconfigRequestSequenceNumber p }
  have hhandle : (a.handleReconfigParam (.outgoingResetRequest p)).1 = (b.resetStreamsIfAny p).1 :=
    rfl
  by_cases hdue : sna32lte p.senderLastTsn a.peerLastTsn = true
  · refine Or.inl ⟨hdue, ?_⟩
    have herase : b.reconfigRequests.erase p.reconfigRequestSequenceNumber =
        a.reconfigRequests.erase p.reconfigRequestSequenceNumber := AssocMap.erase_insert _ _ _
    rw [hhandle, resetStreamsIfAny_of_due (a := b) hdue, herase, unregisterStreams_with]
  · have hnot : sna32lte p.senderLastTsn a.peerLastTsn = false := by simpa using hdue
    exact Or.inr ⟨hnot, hhandle.trans (resetStreamsIfAny_of_not_due (a := b) hnot)⟩

/-- Any other parameter leaves the requests and the streams alone. -/
theorem handleReconfigParam_other {raw : Param} (h : ∀ p, raw ≠ .outgoingResetRequest p) :
    (a.handleReconfigParam raw).1.reconfigRequests = a.reconfigRequests ∧
      (a.handleReconfigParam raw).1.streams = a.streams ∧
      (a.handleReconfigParam raw).1.objects = a.objects := by
  unfold handleReconfigParam
  split
  · rename_i p
    exact absurd rfl (h p)
  · dsimp only
    split <;> exact ⟨rfl, rfl, rfl⟩
  · exact ⟨rfl, rfl, rfl⟩

/-- What is kept after a parameter was kept before, or has come with it and is not due. -/
theorem reconfigRequests_handleReconfigParam {raw : Param} {k : U32} {q : ParamOutgoingResetRequest}
    (h : (a.handleReconfigParam raw).1.reconfigRequests.lookup k = some q) :
    a.reconfigRequests.lookup k = some q ∨
      q.reconfigRequestSequenceNumber = k ∧ raw = .outgoingResetRequest q ∧
        sna32lte q.senderLastTsn a.peerLastTsn = false := by
  by_cases hrequest : ∃ p, raw = .outgoingResetRequest p
  · obtain ⟨p, rfl⟩ := hrequest
    rcases handleReconfigParam_request a p with ⟨_, heq⟩ | ⟨hnot, heq⟩
    · left
      rw [heq] at h
      by_cases hk : k = p.reconfigRequestSequenceNumber
      · rw [hk, AList.lookup_erase] at h
        cases h
      · rw [AList.lookup_erase_ne hk] at h
        exact h
    · rw [heq] at h
      by_cases hk : k = p.reconfigRequestSequenceNumber
      · rw [hk, AList.lookup_insert, Option.some.injEq] at h
        subst h
        exact Or.inr ⟨hk.symm, rfl, hnot⟩
      · rw [AList.lookup_insert_ne hk] at h
        exact Or.inl h
  · rw [(handleReconfigParam_other (not_exists.mp hrequest)).1] at h
    exact Or.inl h

/-- A request that arrives is kept under its own number. -/
theorem KeptByNumber.handleReconfigParam (h : a.KeptByNumber) (raw : Param) :
    (a.handleReconfigParam raw).1.KeptByNumber := by
  intro k q hq
  rcases reconfigRequests_handleReconfigParam hq with hbefore | ⟨hnumber, _⟩
  · exact h k q hbefore
  · exact hnumber

/-- The application's calls leave the requests alone. -/
theorem reconfigRequests_openStream (a : AssociationInternal) (si : U16)
    (ppi : PayloadProtocolIdentifier) : (a.openStream si ppi).1.reconfigRequests = a.reconfigRequests := by
  unfold openStream createStream
  dsimp only
  split
  · rfl
  · rfl

/-- Reading has nothing to do with requests. -/
theorem reconfigRequests_readSctp (a : AssociationInternal) (r : StreamRef) (n : ℕ) :
    (a.readSctp r n).1.reconfigRequests = a.reconfigRequests := by
  unfold readSctp
  split <;> rfl

/-- What `handle_data` does before it looks at `peer_last_tsn` leaves that and the requests. -/
structure TakesIn (a b : AssociationInternal) : Prop where
  queue : a.Receiving → b.payloadQueue.Ahead b.peerLastTsn
  peerLastTsn : b.peerLastTsn = a.peerLastTsn
  reconfigRequests : b.reconfigRequests = a.reconfigRequests

/-- DATA is dropped, or the queue takes it in and the point moves on. -/
theorem handleData_takesIn (a : AssociationInternal) (d : ChunkPayloadData) :
    ∃ b, TakesIn a b ∧ ((a.handleData d).1 = b ∨
      a.handleData d = b.handlePeerLastTsnAndAcknowledgement d.immediateSack) := by
  have hframe := received_ignoresStreams.getOrCreateStream a d.streamIdentifier
  have hcreate := reconfigRequests_ignoresStreams.getOrCreateStream a d.streamIdentifier
  by_cases hover : a.handsOver d = true
  · obtain ⟨r, _, heq⟩ := handleData_of_handsOver hover
    have hpush : a.payloadQueue.canPush d a.peerLastTsn = true := by
      unfold handsOver at hover
      rw [Bool.and_eq_true] at hover
      exact hover.1
    have hahead : ∀ b : AssociationInternal, b.payloadQueue = (a.payloadQueue.push d a.peerLastTsn).1 →
        b.peerLastTsn = a.peerLastTsn → a.Receiving → b.payloadQueue.Ahead b.peerLastTsn := by
      intro b hq hp h
      rw [hq, hp, PayloadQueue.Ahead.push_eq hpush]
      exact h.queue.pushNoCheck hpush
    have hstream := received_ignoresStreams.modifyStream
      { (a.getOrCreateStream d.streamIdentifier).1 with
        payloadQueue := (a.payloadQueue.push d a.peerLastTsn).1 } d.streamIdentifier
      (fun s => (s.handleData d).1)
    have hpoint : (a.getOrCreateStream d.streamIdentifier).1.peerLastTsn = a.peerLastTsn :=
      congrArg Prod.snd hframe
    have hqueue := congrArg Prod.fst hstream
    have hp := (congrArg Prod.snd hstream).trans hpoint
    have hmodify := reconfigRequests_ignoresStreams.modifyStream
    exact ⟨_, ⟨hahead _ hqueue hp, hp, (hmodify _ _ _).trans hcreate⟩, Or.inr heq⟩
  · obtain ⟨b, hb, hstreams, heq⟩ := handleData_of_not_handsOver (by simpa using hover)
    have hrequests : b.reconfigRequests = a.reconfigRequests := by
      rcases hstreams with rfl | rfl
      · rfl
      · exact hcreate
    exact ⟨b, ⟨fun h => (h.of_received hb).queue, congrArg Prod.snd hb, hrequests⟩, heq⟩

/-! ## What is registered -/

/-- What is done with one stream leaves the table. -/
@[simp] theorem streams_modifyStream (a : AssociationInternal) (si : U16) (f : Stream → Stream) :
    (a.modifyStream si f).streams = a.streams := by
  unfold modifyStream
  split <;> rfl

/-- And no object comes or goes. -/
@[simp] theorem length_objects_modifyStream (a : AssociationInternal) (si : U16)
    (f : Stream → Stream) : (a.modifyStream si f).objects.length = a.objects.length := by
  unfold modifyStream
  split
  · exact List.length_modify ..
  · rfl

/-- The entry goes, the others stay. -/
theorem lookup_unregisterStream (a : AssociationInternal) (si si' : U16) :
    (a.unregisterStream si).streams.lookup si' =
      if si' = si then none else a.streams.lookup si' := by
  unfold unregisterStream
  split
  · by_cases hsi : si' = si
    · rw [if_pos hsi, hsi]
      exact AList.lookup_erase _ _
    · rw [if_neg hsi]
      exact AList.lookup_erase_ne hsi
  · rename_i hnone
    by_cases hsi : si' = si
    · rw [if_pos hsi, hsi, hnone]
    · rw [if_neg hsi]

/-- Objects are never removed. -/
theorem length_objects_unregisterStream (a : AssociationInternal) (si : U16) :
    (a.unregisterStream si).objects.length = a.objects.length := by
  unfold unregisterStream
  split
  · exact List.length_modify ..
  · rfl

/-- The streams named are unregistered, and no other. -/
theorem lookup_unregisterStreams (ids : List U16) (a : AssociationInternal) (si : U16) :
    (ids.foldl unregisterStream a).streams.lookup si =
      if si ∈ ids then none else a.streams.lookup si := by
  induction ids generalizing a with
  | nil => simp
  | cons id ids ih =>
    rw [List.foldl_cons, ih, lookup_unregisterStream]
    by_cases hmem : si ∈ ids
    · simp [hmem]
    · simp [hmem]

/-- A registered stream is modified through its object. -/
theorem modifyStream_eq {si : U16} {r : StreamRef} (h : a.streams.lookup si = some r)
    (f : Stream → Stream) : a.modifyStream si f = { a with objects := a.objects.modify r f } := by
  unfold modifyStream
  rw [h]
  rfl

/-- One that is not registered is not there to be modified. -/
theorem modifyStream_of_none {si : U16} (h : a.streams.lookup si = none) (f : Stream → Stream) :
    a.modifyStream si f = a := by
  unfold modifyStream
  rw [h]

/-- The entry goes, and both directions of the object are shut down. -/
theorem unregisterStream_eq {si : U16} {r : StreamRef} (h : a.streams.lookup si = some r) :
    a.unregisterStream si =
      { a with
        streams := a.streams.erase si
        objects := a.objects.modify r fun s =>
          { s with readShutdown := true, writeShutdown := true } } := by
  unfold unregisterStream
  rw [h]
  rfl

/-- Nothing is registered under the identifier. -/
theorem unregisterStream_of_none {si : U16} (h : a.streams.lookup si = none) :
    a.unregisterStream si = a := by
  unfold unregisterStream
  rw [h]

/-- A stream that is opened gets a new object. -/
theorem openStream_of_none {si : U16} (h : a.streams.lookup si = none)
    (ppi : PayloadProtocolIdentifier) :
    a.openStream si ppi =
      ({ a with
          objects := a.objects ++ [(Stream.new si a.maxPayloadSize).setDefaultPayloadType ppi]
          streams := a.streams.insert si a.objects.length }, .ok a.objects.length) := by
  have hlast : (a.objects ++ [Stream.new si a.maxPayloadSize]).modify a.objects.length
      (·.setDefaultPayloadType ppi) =
        a.objects ++ [(Stream.new si a.maxPayloadSize).setDefaultPayloadType ppi] := by
    rw [List.modify_eq_take_cons_drop (by simp)]
    simp
  unfold openStream
  rw [h, ← hlast]
  rfl

/-- A stream that exists is not opened again. -/
theorem openStream_of_some {si : U16} {r : StreamRef} (h : a.streams.lookup si = some r)
    (ppi : PayloadProtocolIdentifier) :
    a.openStream si ppi = (a, .error .errStreamAlreadyExist) := by
  unfold openStream
  rw [h]

/-- The streams that are registered, and their objects. -/
def streamTable (a : AssociationInternal) : AssocMap U16 StreamRef × List Stream :=
  (a.streams, a.objects)

/-- What a look at the requests keeps, moving `peer_last_tsn` on keeps. -/
theorem advance_invariant {I : AssociationInternal → Prop}
    (hcongr : ∀ {a b : AssociationInternal}, b.streamTable = a.streamTable →
      b.reconfigRequests = a.reconfigRequests → I a → I b)
    (hrecheck : ∀ a : AssociationInternal, I a → I a.recheckReconfigRequests.1)
    (fuel : ℕ) (a : AssociationInternal) (reply : List Packet) (h : I a) :
    I (advancePeerLastTsn fuel a reply).1 := by
  induction fuel generalizing a reply with
  | zero => exact h
  | succ fuel ih =>
    unfold advancePeerLastTsn
    split
    · exact hcongr (a := a) rfl rfl h
    · exact ih _ _ (hrecheck _ (hcongr (a := a) rfl rfl h))

/-- What looking at the requests keeps, and what depends on streams and requests only, the end of
DATA and FORWARD TSN chunks keeps. -/
theorem acknowledgement_invariant {I : AssociationInternal → Prop}
    (hcongr : ∀ {a b : AssociationInternal}, b.streamTable = a.streamTable →
      b.reconfigRequests = a.reconfigRequests → I a → I b)
    (hrecheck : ∀ a : AssociationInternal, I a → I a.recheckReconfigRequests.1)
    (sackImmediately : Bool) (h : I a) :
    I (a.handlePeerLastTsnAndAcknowledgement sackImmediately).1 := by
  have hloop := advance_invariant hcongr hrecheck a.payloadQueue.sorted.length a [] h
  have htable : IgnoresTriggers streamTable := fun _ _ _ => rfl
  exact hcongr (htable.triggerAck _ _) (reconfigRequests_ignoresTriggers.triggerAck _ _) hloop

/-- A property of the streams and of the requests that are kept, which neither the data of a
stream nor a look at the requests changes. -/
structure Lasting (I : AssociationInternal → Prop) : Prop where
  congr : ∀ {a b : AssociationInternal}, b.streamTable = a.streamTable →
    b.reconfigRequests = a.reconfigRequests → I a → I b
  modify : ∀ (a : AssociationInternal) (si : U16) (f : Stream → Stream),
    (∀ s, (f s).readShutdown = s.readShutdown) → I a → I (a.modifyStream si f)
  recheck : ∀ a : AssociationInternal, I a → I a.recheckReconfigRequests.1

namespace Lasting

variable {I : AssociationInternal → Prop}

theorem acknowledgement (hI : Lasting I) (sackImmediately : Bool) (h : I a) :
    I (a.handlePeerLastTsnAndAcknowledgement sackImmediately).1 :=
  acknowledgement_invariant hI.congr hI.recheck sackImmediately h

/-- A FORWARD TSN touches the data of streams and looks at the requests. -/
theorem handleForwardTsn (hI : Lasting I) (c : ChunkForwardTsn) (h : I a) :
    I (a.handleForwardTsn c).1 := by
  rcases forwardTsn_cases a c with hbehind | ⟨huse, hahead⟩
  · rcases handleForwardTsn_of_behind hbehind with heq | heq
    · rw [heq]
      exact h
    · rw [heq]
      exact hI.congr (a := a) rfl rfl h
  · rw [handleForwardTsn_of_ahead huse hahead]
    apply hI.acknowledgement
    apply forwardStreams_invariant c
    · intro b e _ hb
      apply hI.modify _ _ _ _ hb
      intro s
      unfold Stream.handleForwardTsnForOrdered
      split <;> rfl
    · intro b si hb
      apply hI.modify _ _ _ _ hb
      intro s
      unfold Stream.handleForwardTsnForUnordered
      split <;> rfl
    · exact hI.congr (a := a) rfl rfl h

/-- DATA may create a stream, touches its data and looks at the requests. -/
theorem handleData (hI : Lasting I) (hcreate : ∀ a si, I a → I (a.getOrCreateStream si).1)
    (d : ChunkPayloadData) (h : I a) : I (a.handleData d).1 := by
  have hdata : ∀ s : Stream, (s.handleData d).1.readShutdown = s.readShutdown := by
    intro s
    unfold Stream.handleData
    split <;> rfl
  by_cases hover : a.handsOver d = true
  · obtain ⟨r, _, heq⟩ := handleData_of_handsOver hover
    rw [heq]
    apply hI.acknowledgement
    apply hI.modify _ _ _ hdata
    exact hI.congr (a := (a.getOrCreateStream d.streamIdentifier).1) rfl rfl
      (hcreate a d.streamIdentifier h)
  · obtain ⟨b, _, hb, heq⟩ := handleData_of_not_handsOver (by simpa using hover)
    have hkept : I b := by
      rcases hb with rfl | rfl
      · exact h
      · exact hcreate a d.streamIdentifier h
    rcases heq with heq | heq
    · rw [heq]
      exact hkept
    · rw [heq]
      exact hI.acknowledgement d.immediateSack hkept

/-- So every operation of the receiving side keeps it, if RECONFIG chunks do. -/
theorem receiverStep (hI : Lasting I) (hcreate : ∀ a si, I a → I (a.getOrCreateStream si).1)
    (op : ReceiverOp)
    (hparam : ∀ c, op = .reconfig c → I (a.handleReconfig c).1) (h : I a) :
    I (a.receiverStep op) := by
  cases op with
  | data d => exact hI.handleData hcreate d h
  | forwardTsn c => exact hI.handleForwardTsn c h
  | reconfig c => exact hparam c rfl
  | accept =>
    apply hI.congr _ (reconfigRequests_ignoresStreams.acceptStream a) h
    show a.acceptStream.1.streamTable = _
    unfold acceptStream
    split <;> rfl
  | read si n =>
    apply hI.modify _ _ _ _ h
    intro s
    unfold Stream.readSctp
    split
    · rfl
    · split <;> rfl

end Lasting

/-- A property of the streams alone that unregistering streams keeps. -/
structure Shedding (I : AssociationInternal → Prop) : Prop where
  congr : ∀ {a b : AssociationInternal}, b.streamTable = a.streamTable → I a → I b
  unregister : ∀ (a : AssociationInternal) (si : U16), I a → I (a.unregisterStream si)

namespace Shedding

variable {I : AssociationInternal → Prop}

/-- A request sheds streams, one by one, and then itself. -/
theorem resetStreamsIfAny (hI : Shedding I) (p : ParamOutgoingResetRequest) (h : I a) :
    I (a.resetStreamsIfAny p).1 := by
  by_cases hdue : sna32lte p.senderLastTsn a.peerLastTsn = true
  · rw [resetStreamsIfAny_of_due hdue]
    have hall : I (p.streamIdentifiers.foldl unregisterStream a) :=
      Runs.run_invariant hI.unregister h p.streamIdentifiers
    exact hI.congr (a := p.streamIdentifiers.foldl unregisterStream a) rfl hall
  · rw [resetStreamsIfAny_of_not_due (by simpa using hdue)]
    exact h

/-- So with all the requests that are kept. -/
theorem recheck (hI : Shedding I) (h : I a) : I a.recheckReconfigRequests.1 := by
  have hround : ∀ (l : List ParamOutgoingResetRequest) (s : AssociationInternal × List Packet),
      I s.1 → I (Runs.run (fun (s : AssociationInternal × List Packet) rstReq =>
        ((s.1.resetStreamsIfAny rstReq).1, s.2 ++ [(s.1.resetStreamsIfAny rstReq).2])) s l).1 :=
    fun l s hs => Runs.run_invariant (I := fun s : AssociationInternal × List Packet => I s.1)
      (fun s p hs => hI.resetStreamsIfAny p hs) hs l
  exact hround a.reconfigRequests.values (a, []) h

/-- A parameter of a RECONFIG chunk keeps a request and sheds what is due. -/
theorem handleReconfigParam (hI : Shedding I) (raw : Param) (h : I a) :
    I (a.handleReconfigParam raw).1 := by
  by_cases hrequest : ∃ p, raw = .outgoingResetRequest p
  · obtain ⟨p, rfl⟩ := hrequest
    let b : AssociationInternal :=
      { a with reconfigRequests := a.reconfigRequests.insert p.reconfigRequestSequenceNumber p }
    have hb : I b := hI.congr (a := a) rfl h
    exact hI.resetStreamsIfAny p hb
  · obtain ⟨_, hstreams, hobjects⟩ := handleReconfigParam_other (not_exists.mp hrequest) (a := a)
    exact hI.congr (Prod.ext hstreams hobjects) h

end Shedding

/-- Unregistering streams leaves what is queued for reading. -/
theorem shedding_reassemblyQueue (a : AssociationInternal) (r : StreamRef) :
    Shedding fun b =>
      b.objects[r]?.map (·.reassemblyQueue) = a.objects[r]?.map (·.reassemblyQueue) where
  congr htable hb := by
    have hobjects := congrArg Prod.snd htable
    dsimp only [streamTable] at hobjects
    rw [hobjects]
    exact hb
  unregister b si hb := by
    cases hlookup : b.streams.lookup si with
    | none =>
      rw [unregisterStream_of_none hlookup]
      exact hb
    | some r' =>
      rw [unregisterStream_eq hlookup]
      refine Eq.trans ?_ hb
      show ((b.objects.modify r' _)[r]?).map _ = _
      rw [List.getElem?_modify]
      cases b.objects[r]? with
      | none => rfl
      | some s =>
        show some _ = some _
        split <;> rfl

/-- A property of the streams alone. -/
structure OfStreams (I : AssociationInternal → Prop) : Prop extends Shedding I where
  modify : ∀ (a : AssociationInternal) (si : U16) (f : Stream → Stream),
    (∀ s, (f s).readShutdown = s.readShutdown) → I a → I (a.modifyStream si f)
  register : ∀ (a : AssociationInternal) (si : U16) (s : Stream), a.streams.lookup si = none →
    s.readShutdown = false → I a →
    I { a with streams := a.streams.insert si a.objects.length, objects := a.objects ++ [s] }

namespace OfStreams

variable {I : AssociationInternal → Prop}

theorem lasting (hI : OfStreams I) : Lasting I where
  congr htable _ h := hI.congr htable h
  modify := hI.modify
  recheck _ h := hI.recheck h

/-- A stream that is created begins open. -/
theorem getOrCreateStream (hI : OfStreams I) (si : U16) (h : I a) :
    I (a.getOrCreateStream si).1 := by
  unfold AssociationInternal.getOrCreateStream
  split
  · exact h
  · rename_i hnone
    unfold createStream
    dsimp only
    rw [if_pos rfl]
    split
    · split
      · exact hI.congr (a := { a with
          streams := a.streams.insert si a.objects.length
          objects := a.objects ++ [Stream.new si a.maxPayloadSize] }) rfl
          (hI.register a si _ hnone rfl h)
      · exact h
    · exact h

/-- So does one that is opened. -/
theorem openStream (hI : OfStreams I) (si : U16) (ppi : PayloadProtocolIdentifier) (h : I a) :
    I (a.openStream si ppi).1 := by
  cases hlookup : a.streams.lookup si with
  | some r =>
    rw [openStream_of_some hlookup]
    exact h
  | none =>
    rw [openStream_of_none hlookup]
    exact hI.register a si _ hlookup rfl h

/-- What the parts of an operation keep, the operation keeps. -/
theorem streamStep (hI : OfStreams I) (hread : ∀ a r n, I a → I (a.readSctp r n).1)
    (op : StreamOp) (h : I a) : I (a.streamStep op) := by
  cases op with
  | receive op =>
    apply hI.lasting.receiverStep (fun b si hb => hI.getOrCreateStream si hb) op _ h
    intro c _
    exact handleReconfig_invariant (fun b raw _ hb => hI.handleReconfigParam raw hb) h
  | openStream si ppi => exact hI.openStream si ppi h
  | readSctp r n => exact hread a r n h

end OfStreams

/-- The parameters that are handled meet the state and the one after the first parameter. -/
theorem mem_handledParams {c : ChunkReconfig} {e : AssociationInternal × Param}
    (h : e ∈ a.handledParams c) :
    (e.1 = a ∧ c.paramA = some e.2) ∨
    ∃ packets, a.handleReconfigParam? c.paramA = (e.1, .ok packets) ∧ c.paramB = some e.2 := by
  unfold handledParams at h
  rw [List.mem_append, List.mem_map] at h
  rcases h with ⟨raw, hraw, rfl⟩ | h
  · exact Or.inl ⟨rfl, Option.mem_toList.mp hraw⟩
  · right
    split at h
    · rename_i a' packets heq
      obtain ⟨raw, hraw, rfl⟩ := List.mem_map.mp h
      exact ⟨packets, heq, Option.mem_toList.mp hraw⟩
    · exact absurd h List.not_mem_nil

/-- What holds of the state holds when a parameter is handled. -/
theorem Shedding.handled {I : AssociationInternal → Prop} (hI : Shedding I) {c : ChunkReconfig}
    {e : AssociationInternal × Param} (he : e ∈ a.handledParams c) (h : I a) : I e.1 := by
  rcases mem_handledParams he with ⟨hsame, _⟩ | ⟨packets, heq, _⟩
  · rw [hsame]
    exact h
  · have hfst := handleReconfigParam?_fst a c.paramA
    rw [heq] at hfst
    rw [show e.1 = _ from hfst]
    cases c.paramA with
    | none => exact h
    | some raw => exact hI.handleReconfigParam raw h

/-- What holds after a parameter holds after the chunk. -/
theorem Shedding.handleReconfig {I : AssociationInternal → Prop} (hI : Shedding I)
    {c : ChunkReconfig} {e : AssociationInternal × Param} (he : e ∈ a.handledParams c)
    (h : I (e.1.handleReconfigParam e.2).1) : I (a.handleReconfig c).1 := by
  rw [handleReconfig_fst]
  rcases mem_handledParams he with ⟨hsame, hA⟩ | ⟨packets, heq, hB⟩
  · rw [hsame] at h
    have hfst := handleReconfigParam?_fst a c.paramA
    rw [hA] at hfst
    dsimp only at hfst
    rw [← hfst, ← hA] at h
    revert h
    generalize a.handleReconfigParam? c.paramA = r
    obtain ⟨a', error | packets⟩ := r
    · exact id
    · intro h
      dsimp only at h ⊢
      rw [handleReconfigParam?_fst]
      cases c.paramB with
      | none => exact h
      | some raw => exact hI.handleReconfigParam raw h
  · rw [heq]
    dsimp only
    rw [handleReconfigParam?_fst, hB]
    exact h

theorem lasting_keptByNumber : Lasting KeptByNumber where
  congr _ hrequests h := h.congr hrequests
  modify a si f _ h := h.congr (reconfigRequests_ignoresStreams.modifyStream a si f)
  recheck _ h := h.recheck

/-- **Requests are kept under their numbers** by everything that happens to streams. -/
theorem KeptByNumber.streamStep (h : a.KeptByNumber) (op : StreamOp) :
    (a.streamStep op).KeptByNumber := by
  cases op with
  | receive op =>
    apply lasting_keptByNumber.receiverStep
      (fun b si hb => hb.congr (reconfigRequests_ignoresStreams.getOrCreateStream b si)) op _ h
    intro c _
    exact handleReconfig_invariant (I := KeptByNumber) (fun b raw _ hb => hb.handleReconfigParam raw) h
  | openStream si ppi => exact h.congr (reconfigRequests_openStream a si ppi)
  | readSctp r n => exact h.congr (reconfigRequests_readSctp a r n)

end AssociationInternal

end Sctp
