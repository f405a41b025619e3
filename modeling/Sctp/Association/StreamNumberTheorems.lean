import Sctp.Association.Delivery
import Sctp.Association.EndOfStreamTheorems

/-!
# The numbers of a stream's messages in the sending side

A stream has one object, and the object's number counts the messages that have been written to it,
as long as the writes to the stream are ordered and the association is in use.
-/

namespace Sctp

namespace AssociationInternal

variable {a b : AssociationInternal} {si : U16} {maxLen k : ℕ} {op : SenderOp}

/-! ## The objects -/

theorem ObjectsContinue.of_frame (h : b.objects.map Stream.frame = a.objects.map Stream.frame) :
    ObjectsContinue a b where
  length := by
    have hlen := congrArg List.length h
    rwa [List.length_map, List.length_map] at hlen
  each r s s' hs hs' := by
    have hget : (b.objects.map Stream.frame)[r]? = (a.objects.map Stream.frame)[r]? := by rw [h]
    rw [List.getElem?_map, List.getElem?_map, hs, hs'] at hget
    have hframe : s'.frame = s.frame := Option.some.inj hget
    have hread : s'.readShutdown = s.readShutdown := (congrArg Stream.readShutdown hframe :)
    have hwrite : s'.writeShutdown = s.writeShutdown := (congrArg Stream.writeShutdown hframe :)
    refine ⟨(congrArg Stream.streamIdentifier hframe :), (congrArg Stream.maxPayloadSize hframe :),
      ?_, ?_⟩
    · rw [hread]
      exact id
    · rw [hwrite]
      exact id

/-- Whole operations keep the streams and the queue in order. -/
theorem EndsInOrder.senderStep (h : a.EndsInOrder) (hop : WholeOps op) :
    (a.senderStep op).EndsInOrder := by
  cases op with
  | openStream si ppi => exact h.openStream si ppi
  | setReliabilityParams r unordered relType relVal =>
    exact h.setReliabilityParams r unordered relType relVal
  | write r p ppi => exact h.write r p ppi
  | shutdownStream r how => exact h.shutdownStream r how
  | push c => exact absurd hop id
  | gather now => exact h.gather now
  | t3Rtx =>
    refine h.same ?_ ?_ (ObjectsContinue.of_eq ?_) ?_
    · exact onT3RtxTimeout_kept (fun _ _ _ _ _ _ => rfl) a
    · exact onT3RtxTimeout_kept (fun _ _ _ _ _ _ => rfl) a
    · exact onT3RtxTimeout_kept (fun _ _ _ _ _ _ => rfl) a
    · exact onT3RtxTimeout_kept (fun _ _ _ _ _ _ => rfl) a
  | sack now d =>
    refine h.same ?_ ?_ (ObjectsContinue.of_frame ?_) ?_
    · exact handleSack_kept (fun _ _ _ _ _ _ => rfl) a now d
    · exact handleSack_kept (fun _ _ _ _ _ _ => rfl) a now d
    · refine handleSack_kept (f := fun b => b.objects.map Stream.frame) (fun b _ _ _ _ _ => ?_) a now d
      show (b.objects.map Stream.frame).map Stream.frame = _
      rw [List.map_map]
      rfl
    · exact handleSack_kept (fun _ _ _ _ _ _ => rfl) a now d
  | shutdownChunk =>
    obtain ⟨state, willSendShutdownAck, heq⟩ := a.handleShutdown_eq
    show a.handleShutdown.EndsInOrder
    rw [heq]
    exact h.same rfl rfl (ObjectsContinue.of_eq rfl) rfl
  | shutdown =>
    obtain ⟨state, willSendShutdown, heq⟩ := a.shutdown_eq
    show a.shutdown.1.EndsInOrder
    rw [heq]
    exact h.same rfl rfl (ObjectsContinue.of_eq rfl) rfl

/-! ## The state -/

/-- The handshake is over, and the association has not been closed. -/
def inUse (a : AssociationInternal) : Bool :=
  match a.state with
  | .closed | .cookieWait | .cookieEchoed => false
  | _ => true

theorem inUse_congr (hstate : b.state = a.state) : b.inUse = a.inUse := by
  unfold inUse
  rw [hstate]

theorem inUse_handleSack (h : a.inUse = true) (now : ℕ) (d : ChunkSelectiveAck) :
    (a.handleSack now d).1.inUse = true := by
  rcases handleSack_cases a now d with heq | ⟨_, a', cum, adv, hframe, _, heq⟩
  · rw [heq]
    exact h
  · have hstate : a'.state = a.state := (congrArg state hframe :)
    have hkept : a'.inUse = true := (inUse_congr hstate).trans h
    rcases heq with heq | heq
    · rw [heq]
      exact hkept
    · rw [heq]
      unfold postprocessSack setState
      split_ifs
      · exact hkept
      · rfl
      · rfl
      · exact hkept

theorem inUse_senderStep (h : a.inUse = true) (op : SenderOp) : (a.senderStep op).inUse = true := by
  cases op with
  | openStream si ppi =>
    obtain ⟨objects, streams, heq⟩ := a.openStream_eq si ppi
    exact (inUse_congr (congrArg state heq)).trans h
  | setReliabilityParams r unordered relType relVal => exact h
  | write r p ppi =>
    obtain ⟨flags, pendingQueue, objects, heq⟩ := a.writeSctp_eq r p ppi
    exact (inUse_congr (congrArg state heq)).trans h
  | shutdownStream r how =>
    obtain ⟨flags, pendingQueue, objects, heq⟩ := a.shutdownStream_eq r how
    exact (inUse_congr (congrArg state heq)).trans h
  | push c => exact h
  | gather now => exact (inUse_congr (congrArg state (a.ungathered_gatherOutbound now).1 :)).trans h
  | t3Rtx =>
    have hstate : a.onT3RtxTimeout.state = a.state :=
      onT3RtxTimeout_kept (f := state) (fun _ _ _ _ _ _ => rfl) a
    exact (inUse_congr hstate).trans h
  | sack now d => exact inUse_handleSack h now d
  | shutdownChunk =>
    show a.handleShutdown.inUse = true
    unfold handleShutdown setState
    split_ifs
    · rfl
    · rfl
    · rfl
    · exact h
  | shutdown =>
    show a.shutdown.1.inUse = true
    unfold AssociationInternal.shutdown setState
    dsimp only
    split_ifs
    · exact h
    · rfl
    · rfl


/-! ## The numbers -/

/-- The next message of the stream gets the number `k`, and is the first one if there is no stream
yet. -/
structure NumbersNext (a : AssociationInternal) (si : U16) (k : ℕ) : Prop where
  each : ∀ s ∈ a.objects, s.streamIdentifier = si → s.sequenceNumber = BitVec.ofNat 16 k
  first : a.streams.lookup si = none → k = 0

/-- The identifier of an object, and the number it has come to. -/
def numbering (a : AssociationInternal) : List (U16 × U16) :=
  a.objects.map fun s => (s.streamIdentifier, s.sequenceNumber)

theorem NumbersNext.congr (h : a.NumbersNext si k) (hstreams : b.streams = a.streams)
    (hnumbering : b.numbering = a.numbering) : b.NumbersNext si k where
  each s hs hsi := by
    have hmem : (s.streamIdentifier, s.sequenceNumber) ∈ a.numbering := by
      rw [← hnumbering]
      exact List.mem_map_of_mem hs
    obtain ⟨s₀, hs₀, heq⟩ := List.mem_map.mp hmem
    obtain ⟨hid, hnumber⟩ := Prod.mk.inj heq
    rw [← hnumber]
    exact h.each s₀ hs₀ (hid.trans hsi)
  first hnone := h.first (hstreams ▸ hnone)

theorem numbering_set {r : StreamRef} {s s' : Stream} {objects : List Stream}
    (hs : a.objects[r]? = some s) (hid : s'.streamIdentifier = s.streamIdentifier)
    (hnumber : s'.sequenceNumber = s.sequenceNumber) (hobjects : objects = a.objects.set r s') :
    { a with objects }.numbering = a.numbering := by
  unfold numbering
  dsimp only
  rw [hobjects, List.map_set, hid, hnumber]
  apply List.ext_getElem?
  intro i
  by_cases hi : r = i
  · subst hi
    rw [List.getElem?_set_self', List.getElem?_map, hs]
    rfl
  · rw [List.getElem?_set_ne hi]

theorem NumbersNext.openStream (h : a.NumbersNext si k) (si' : U16) (ppi : PayloadProtocolIdentifier) :
    (a.openStream si' ppi).1.NumbersNext si k := by
  cases hlookup : a.streams.lookup si' with
  | some r =>
    rw [openStream_of_some hlookup]
    exact h
  | none =>
    rw [openStream_of_none hlookup]
    constructor
    · intro s hs hsi
      rcases List.mem_append.mp hs with hold | hnew
      · exact h.each s hold hsi
      · rw [List.mem_singleton] at hnew
        rw [hnew] at hsi ⊢
        -- a stream that is new has got no message yet
        have hsame : si' = si := hsi
        rw [hsame] at hlookup
        rw [h.first hlookup]
        rfl
    · intro hnone
      by_cases hsame : si = si'
      · rw [hsame, AList.lookup_insert] at hnone
        cases hnone
      · rw [AList.lookup_insert_ne hsame] at hnone
        exact h.first hnone

/-- In an association that is in use a write takes the message, or does nothing. -/
theorem writeSctp_of_inUse (h : a.inUse = true) (s : Stream) (p : Bytes)
    (ppi : PayloadProtocolIdentifier) :
    (∃ e, s.writeSctp a.maxMessageSize a.state a.flags a.pendingQueue p ppi =
      (s, a.flags, a.pendingQueue, .error e)) ∨
    s.writeSctp a.maxMessageSize a.state a.flags a.pendingQueue p ppi =
      ((s.packetize a.flags p ppi).1, (s.packetize a.flags p ppi).2.1,
        (s.packetize a.flags p ppi).2.2.foldl PendingQueue.push a.pendingQueue, .ok p.length) := by
  unfold inUse at h
  unfold Stream.writeSctp
  split_ifs
  · exact Or.inl ⟨_, rfl⟩
  · exact Or.inl ⟨_, rfl⟩
  · cases hstate : a.state with
    | closed => rw [hstate] at h; cases h
    | cookieWait => rw [hstate] at h; cases h
    | cookieEchoed => rw [hstate] at h; cases h
    | established => exact Or.inr rfl
    | shutdownAckSent => exact Or.inl ⟨_, rfl⟩
    | shutdownPending => exact Or.inl ⟨_, rfl⟩
    | shutdownReceived => exact Or.inl ⟨_, rfl⟩
    | shutdownSent => exact Or.inl ⟨_, rfl⟩

/-- What a write does to an association in use: nothing, or the message is pushed. -/
theorem write_cases (h : a.inUse = true) (si : U16) (r : StreamRef) (p : Bytes)
    (ppi : PayloadProtocolIdentifier) :
    ((a.writeSctp r p ppi).1 = a ∧ a.messageWritten si (.write r p ppi) = []) ∨
    ∃ s, a.objects[r]? = some s ∧
      (a.writeSctp r p ppi).1 = { a with
        flags := (s.packetize a.flags p ppi).2.1
        pendingQueue := (s.packetize a.flags p ppi).2.2.foldl PendingQueue.push a.pendingQueue
        objects := a.objects.set r (s.packetize a.flags p ppi).1 } ∧
      a.messageWritten si (.write r p ppi) = if s.streamIdentifier = si then
        [{ data := p, payloadType := ppi, chunks := (s.packetize a.flags p ppi).2.2 }] else [] := by
  unfold messageWritten
  dsimp only
  cases hobj : a.objects[r]? with
  | none =>
    left
    refine ⟨?_, rfl⟩
    unfold writeSctp
    rw [hobj]
  | some s =>
    dsimp only
    have hwrite : a.writeSctp r p ppi =
        let w := s.writeSctp a.maxMessageSize a.state a.flags a.pendingQueue p ppi
        ({ a with flags := w.2.1, pendingQueue := w.2.2.1, objects := a.objects.set r w.1 },
          w.2.2.2) := by
      unfold writeSctp
      rw [hobj]
    rw [hwrite]
    rcases writeSctp_of_inUse h s p ppi with ⟨e, heq⟩ | heq
    · left
      rw [heq]
      refine ⟨?_, if_neg fun hboth => absurd hboth.2 Bool.false_ne_true⟩
      obtain ⟨hr, rfl⟩ := List.getElem?_eq_some_iff.mp hobj
      show { a with objects := a.objects.set r a.objects[r] } = a
      rw [List.set_getElem_self]
    · right
      rw [heq]
      refine ⟨s, rfl, rfl, ?_⟩
      rw [show (Except.ok p.length : Except Error ℕ).isOk = true from rfl]
      simp only [and_true]

theorem sequenceNumber_packetize {s : Stream} (flags : SharedFlags) (p : Bytes)
    {ppi : PayloadProtocolIdentifier} (h : s.isOrdered ppi = true) :
    (s.packetize flags p ppi).1.sequenceNumber = s.sequenceNumber + 1 := by
  have hordered : (ppi ≠ .dcep && s.unordered) = false := by
    unfold Stream.isOrdered at h
    cases hu : s.unordered with
    | false => exact Bool.and_false _
    | true =>
      rw [hu] at h
      simpa using h
  unfold Stream.packetize
  dsimp only
  rw [if_pos (by rw [hordered]; rfl)]

theorem NumbersNext.write (h : a.NumbersNext si k) (hregistered : a.AllRegistered)
    (hin : a.inUse = true) {r : StreamRef} {p : Bytes} {ppi : PayloadProtocolIdentifier}
    (hop : a.WritesInOrder si maxLen (.write r p ppi)) :
    (a.writeSctp r p ppi).1.NumbersNext si (k + (a.messageWritten si (.write r p ppi)).length) := by
  rcases write_cases hin si r p ppi with ⟨heq, hnone⟩ | ⟨s, hobj, heq, hwritten⟩
  · rw [heq, hnone]
    exact h
  · have hcontinues := s.continues_packetize a.flags p ppi
    rw [heq, hwritten]
    constructor
    · intro s' hs' hsi
      obtain ⟨r', hr'⟩ := List.mem_iff_getElem?.mp hs'
      by_cases hsame : r = r'
      · -- the object that has been written to
        subst hsame
        have hs : s' = (s.packetize a.flags p ppi).1 := by
          rw [List.getElem?_set_self', hobj] at hr'
          exact (Option.some.inj hr').symm
        have hid : s.streamIdentifier = si := by
          rw [← hcontinues.identifier, ← hs]
          exact hsi
        obtain ⟨_, _, hordered⟩ := hop s hobj hid
        rw [hs, if_pos hid, sequenceNumber_packetize a.flags p hordered,
          h.each s (List.mem_of_getElem? hobj) hid, List.length_singleton, BitVec.ofNat_add]
        rfl
      · rw [List.getElem?_set_ne hsame] at hr'
        have hother : s.streamIdentifier ≠ si := by
          -- no two objects are registered under one identifier
          intro hid
          have hboth := (hregistered r s hobj).symm.trans
            ((hid.trans hsi.symm) ▸ hregistered r' s' hr')
          exact hsame (Option.some.inj hboth)
        rw [if_neg hother]
        exact h.each s' (List.mem_of_getElem? hr') hsi
    · intro hnone
      have hother : s.streamIdentifier ≠ si := by
        intro hid
        have hlookup := hregistered r s hobj
        rw [hid, hnone] at hlookup
        cases hlookup
      rw [if_neg hother]
      exact h.first hnone

/-- **The numbers go on with the messages that are written.** -/
theorem NumbersNext.senderStep (h : a.NumbersNext si k) (hregistered : a.AllRegistered)
    (hin : a.inUse = true) (hop : a.WritesInOrder si maxLen op) :
    (a.senderStep op).NumbersNext si (k + (a.messageWritten si op).length) := by
  cases op with
  | openStream si' ppi => exact h.openStream si' ppi
  | setReliabilityParams r unordered relType relVal =>
    refine h.congr rfl ?_
    apply List.ext_getElem?
    intro i
    show ((a.objects.modify r _).map _)[i]? = (a.objects.map _)[i]?
    rw [List.getElem?_map, List.getElem?_modify, List.getElem?_map]
    cases a.objects[i]? with
    | none => rfl
    | some s => split <;> rfl
  | write r p ppi => exact h.write hregistered hin hop
  | shutdownStream r how =>
    show (a.shutdownStream r how).1.NumbersNext si k
    unfold AssociationInternal.shutdownStream
    cases hobj : a.objects[r]? with
    | none => exact h
    | some s =>
      dsimp only
      obtain ⟨s', hs', ⟨res, heq⟩ | heq⟩ := s.shutdown_cases a.state a.flags a.pendingQueue how
      · rw [heq]
        exact h.congr rfl (numbering_set hobj (by rw [hs']) (by rw [hs']) rfl)
      · rw [heq]
        exact h.congr rfl (numbering_set hobj (by rw [hs']) (by rw [hs']) rfl)
  | push c => exact absurd hop id
  | gather now =>
    refine h.congr (congrArg streams (a.ungathered_gatherOutbound now).1 :) ?_
    exact congrArg (List.map _) (objects_gatherOutbound a now)
  | t3Rtx =>
    refine h.congr ?_ ?_
    · exact onT3RtxTimeout_kept (fun _ _ _ _ _ _ => rfl) a
    · exact onT3RtxTimeout_kept (fun _ _ _ _ _ _ => rfl) a
  | sack now d =>
    refine h.congr ?_ ?_
    · exact handleSack_kept (fun _ _ _ _ _ _ => rfl) a now d
    · refine handleSack_kept (f := numbering) (fun b _ _ _ _ _ => ?_) a now d
      show (b.objects.map Stream.frame).map _ = b.objects.map _
      rw [List.map_map]
      rfl
  | shutdownChunk =>
    obtain ⟨state, willSendShutdownAck, heq⟩ := a.handleShutdown_eq
    exact h.congr (congrArg streams heq :) (congrArg numbering heq :)
  | shutdown =>
    obtain ⟨state, willSendShutdown, heq⟩ := a.shutdown_eq
    exact h.congr (congrArg streams heq :) (congrArg numbering heq :)

end AssociationInternal

end Sctp
