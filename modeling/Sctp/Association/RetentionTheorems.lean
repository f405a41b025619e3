import Sctp.Association.ReadResetTheorems
import Sctp.Association.Retention
import Sctp.Queue.ReassemblyTheorems

/-!
# No acknowledgement without retention

A reassembly queue keeps an ordered chunk exactly if its SSN lies in reach. What it holds it
holds through everything that does not settle the chunk's message or reset its stream.
-/

namespace Sctp

namespace ReassemblyQueue

variable {q : ReassemblyQueue} {c d : ChunkPayloadData}

/-! ## Pushing -/

/-- The chunk is added to the first set that has its SSN, unless its TSN is there. -/
theorem holds_pushOrdered {sets sets' : List ChunkSet} {ok : Bool}
    (h : pushOrdered c sets = some (sets', ok)) :
    (∃ cset ∈ sets', d ∈ cset.chunks) ↔ (∃ cset ∈ sets, d ∈ cset.chunks) ∨
      d = c ∧ (sets.find? (·.ssn = c.streamSequenceNumber)).all (fun cset =>
        !cset.chunks.any (·.tsn = c.tsn)) = true := by
  induction sets generalizing sets' ok with
  | nil => cases h
  | cons s sets ih =>
    unfold pushOrdered at h
    by_cases hssn : s.ssn = c.streamSequenceNumber
    · rw [if_pos hssn] at h
      have heq : ((s.push c).1 :: sets, (s.push c).2) = (sets', ok) := Option.some.inj h
      rw [← (Prod.mk.inj heq).1]
      rw [List.find?_cons_of_pos (by simpa using hssn), List.exists_mem_cons_iff,
        List.exists_mem_cons_iff, ChunkSet.mem_push, Option.all_some, Bool.not_eq_true']
      exact or_right_comm
    · rw [if_neg hssn] at h
      obtain ⟨⟨rest, ok'⟩, hrest, heq⟩ := Option.map_eq_some_iff.mp h
      obtain ⟨rfl, rfl⟩ := Prod.mk.inj heq
      rw [List.find?_cons_of_neg (by simpa using hssn), List.exists_mem_cons_iff,
        List.exists_mem_cons_iff, ih hrest, or_assoc]

/-- What a queue holds after an ordered chunk. -/
theorem holds_push (hsi : c.streamIdentifier = q.si) (hordered : c.unordered = false) :
    (q.push c).1.Holds d ↔ q.Holds d ∨ d = c ∧ q.inReach c = true := by
  unfold push
  rw [if_neg (not_not.mpr hsi), if_neg (by rw [hordered]; exact Bool.false_ne_true)]
  unfold inReach
  by_cases hbehind : sna16lt c.streamSequenceNumber q.nextSsn = true
  · rw [if_pos hbehind, hbehind]
    simp
  · rw [if_neg hbehind, show sna16lt c.streamSequenceNumber q.nextSsn = false by simpa using hbehind]
    dsimp only
    unfold Holds
    cases hpush : pushOrdered c q.ordered with
    | none =>
      rw [pushOrdered_eq_none hpush]
      simp only [sortChunksBySsn, StableSort.mem_sortBy, List.mem_append, List.mem_singleton,
        or_and_right, exists_or, exists_eq_left, ChunkSet.mem_push]
      simp [ChunkSet.new]
    | some r =>
      obtain ⟨sets, ok⟩ := r
      rw [Bool.not_false, Bool.true_and]
      exact holds_pushOrdered hpush

/-- No chunk that arrives drives another one out. -/
theorem Holds.push (h : q.Holds d) (c : ChunkPayloadData) : (q.push c).1.Holds d := by
  rcases q.push_cases c with ⟨_, heq⟩ | ⟨_, _, ⟨_, _, heq⟩, _⟩ | ⟨hacc, hordered, _, _⟩
  · rw [heq]
    exact h
  · rw [heq]
    exact h
  · have hsi : c.streamIdentifier = q.si := by
      unfold accepts at hacc
      exact of_decide_eq_true (Bool.and_eq_true_iff.mp hacc).1
    exact (holds_push hsi hordered).mpr (Or.inl h)

/-! ## Reading and skipping -/

/-- A read leaves what does not belong to the message it takes. -/
theorem Holds.read (h : q.Holds d) (bufLen : ℕ)
    (hkept : q.takeReadable.2.any (d ∈ ·.chunks) = false) : (q.read bufLen).1.Holds d := by
  rw [read_fst]
  rcases q.takeReadable_cases with heq | ⟨_, _, _, heq⟩ | ⟨cset, rest, _, ho, _, _, heq⟩
  · rw [heq]
    exact h
  · rw [heq]
    exact h
  · rw [heq] at hkept ⊢
    obtain ⟨held, hheld, hd⟩ := h
    rw [ho, List.mem_cons] at hheld
    rcases hheld with rfl | hrest
    · have hnot : d ∉ held.chunks := by simpa using hkept
      exact absurd hd hnot
    · exact ⟨held, hrest, hd⟩

/-- A forward leaves the sets it does not skip. -/
theorem mem_forwardTsnForOrdered {lastSsn : U16} {cset : ChunkSet} :
    cset ∈ (q.forwardTsnForOrdered lastSsn).ordered ↔
      cset ∈ q.ordered ∧ skippedBy lastSsn cset = false := by
  rw [forwardTsnForOrdered_eq, List.mem_filter, Bool.not_eq_true']

end ReassemblyQueue

namespace AssociationInternal

variable {a a' : AssociationInternal} {si : U16} {P : Stream → Prop}

/-! ## The stream of an identifier -/

/-- The streams are found by the table alone. -/
theorem stream?_congr (h : a'.streamTable = a.streamTable) : a'.stream? si = a.stream? si := by
  have hstreams : a'.streams = a.streams := congrArg Prod.fst h
  have hobjects : a'.objects = a.objects := congrArg Prod.snd h
  unfold stream?
  rw [hstreams, hobjects]

theorem stream?_eq {r : StreamRef} (h : a.streams.lookup si = some r) :
    a.stream? si = a.objects[r]? := by
  unfold stream?
  rw [h]
  rfl

theorem stream?_of_none (h : a.streams.lookup si = none) : a.stream? si = none := by
  unfold stream?
  rw [h]
  rfl

/-- What `modifyStream` leaves at each identifier. -/
theorem stream?_modifyStream (hopen : a.StreamsOpen) (si' : U16) (f : Stream → Stream) :
    (a.modifyStream si' f).stream? si = if si' = si then (a.stream? si).map f else a.stream? si := by
  cases hlookup' : a.streams.lookup si' with
  | none =>
    rw [modifyStream_of_none hlookup']
    split
    · rename_i hsame
      rw [stream?_of_none (hsame ▸ hlookup')]
      rfl
    · rfl
  | some r' =>
    rw [modifyStream_eq hlookup']
    cases hlookup : a.streams.lookup si with
    | none =>
      rw [stream?_of_none hlookup,
        stream?_of_none (a := { a with objects := a.objects.modify r' f }) hlookup]
      simp
    | some r =>
      rw [stream?_eq hlookup, stream?_eq (a := { a with objects := a.objects.modify r' f }) hlookup,
        List.getElem?_modify]
      by_cases hsame : si' = si
      · rw [hsame, hlookup, Option.some.injEq] at hlookup'
        rw [if_pos hsame, ← hlookup']
        simp
      · have hother : r' ≠ r := fun heq => hsame (hopen.injective si' si r (heq ▸ hlookup') hlookup)
        rw [if_neg hsame]
        simp [hother]

/-! ## Streams that hold on -/

/-- `P` holds of the stream registered under the identifier, if there is one. -/
def Holding (a : AssociationInternal) (si : U16) (P : Stream → Prop) : Prop :=
  ∀ s, a.stream? si = some s → P s

/-- A reset may take the stream away, but leaves it what it holds. -/
theorem shedding_holding (hshut : ∀ s, P s → P { s with readShutdown := true, writeShutdown := true }) :
    Shedding fun a => a.Holding si P where
  congr htable h s hs := h s ((stream?_congr htable).symm.trans hs)
  unregister a si' h s hs := by
    cases hlookup : a.streams.lookup si' with
    | none =>
      rw [unregisterStream_of_none hlookup] at hs
      exact h s hs
    | some r' =>
      by_cases hsame : si = si'
      · rw [stream?_of_none (by rw [lookup_unregisterStream, if_pos hsame])] at hs
        cases hs
      · have hrest := lookup_unregisterStream a si' si
        rw [if_neg hsame] at hrest
        cases hr : a.streams.lookup si with
        | none =>
          rw [stream?_of_none (hrest.trans hr)] at hs
          cases hs
        | some r =>
          rw [stream?_eq (hrest.trans hr), unregisterStream_eq hlookup] at hs
          dsimp only at hs
          rw [List.getElem?_modify] at hs
          obtain ⟨s₀, hs₀, rfl⟩ := Option.map_eq_some_iff.mp hs
          have hbefore := h s₀ ((stream?_eq hr).trans hs₀)
          split
          · exact hshut s₀ hbefore
          · exact hbefore

namespace Holding

/-- A modification that keeps `P` at its stream keeps it. -/
theorem modify (h : a.Holding si P) (hopen : a.StreamsOpen) {si' : U16} {f : Stream → Stream}
    (hf : si' = si → ∀ s, a.stream? si = some s → P s → P (f s)) :
    (a.modifyStream si' f).Holding si P := by
  intro s hs
  rw [stream?_modifyStream hopen] at hs
  split at hs
  · rename_i hsame
    obtain ⟨s₀, hs₀, rfl⟩ := Option.map_eq_some_iff.mp hs
    exact hf hsame s₀ hs₀ (h s₀ hs₀)
  · exact h s hs

theorem acknowledgement (hshut : ∀ s, P s → P { s with readShutdown := true, writeShutdown := true })
    (h : a.Holding si P) (sackImmediately : Bool) :
    (a.handlePeerLastTsnAndAcknowledgement sackImmediately).1.Holding si P :=
  acknowledgement_invariant (I := fun a => a.Holding si P)
    (fun htable _ hb => (shedding_holding hshut).congr htable hb)
    (fun _ hb => (shedding_holding hshut).recheck hb) sackImmediately h

/-- A chunk that is handed over reaches its stream, which may be a new one. -/
theorem handleData_of_handsOver {d : ChunkPayloadData}
    (hshut : ∀ s, P s → P { s with readShutdown := true, writeShutdown := true })
    (hopen : a.StreamsOpen) (hover : a.handsOver d = true)
    (h : ∀ s, (a.getOrCreateStream d.streamIdentifier).1.stream? si = some s →
      P (if d.streamIdentifier = si then (s.handleData d).1 else s)) :
    (a.handleData d).1.Holding si P := by
  obtain ⟨r, _, heq⟩ := AssociationInternal.handleData_of_handsOver hover
  rw [heq]
  apply acknowledgement hshut
  intro s hs
  have hopen' : StreamsOpen { (a.getOrCreateStream d.streamIdentifier).1 with
      payloadQueue := (a.payloadQueue.push d a.peerLastTsn).1 } :=
    ofStreams_streamsOpen.congr (a := (a.getOrCreateStream d.streamIdentifier).1) rfl
      (ofStreams_streamsOpen.getOrCreateStream d.streamIdentifier hopen)
  rw [stream?_modifyStream hopen'] at hs
  split at hs
  · rename_i hsame
    obtain ⟨s₀, hs₀, rfl⟩ := Option.map_eq_some_iff.mp hs
    have hafter := h s₀ hs₀
    rw [if_pos hsame] at hafter
    exact hafter
  · rename_i hother
    have hafter := h s hs
    rw [if_neg hother] at hafter
    exact hafter

theorem handleData {d : ChunkPayloadData}
    (hshut : ∀ s, P s → P { s with readShutdown := true, writeShutdown := true })
    (hopen : a.StreamsOpen) (hcreated : (a.getOrCreateStream d.streamIdentifier).1.Holding si P)
    (hdata : ∀ s, P s → P (s.handleData d).1) (h : a.Holding si P) :
    (a.handleData d).1.Holding si P := by
  by_cases hover : a.handsOver d = true
  · apply handleData_of_handsOver hshut hopen hover
    intro s hs
    split
    · exact hdata s (hcreated s hs)
    · exact hcreated s hs
  · obtain ⟨b, _, hb, heq⟩ := handleData_of_not_handsOver (by simpa using hover)
    have hkept : b.Holding si P := by
      rcases hb with rfl | rfl
      · exact h
      · exact hcreated
    rcases heq with heq | heq
    · rw [heq]
      exact hkept
    · rw [heq]
      exact hkept.acknowledgement hshut d.immediateSack

/-- A FORWARD TSN that is in time tells the stream every SSN that is listed for it. -/
theorem handleForwardTsn {c : ChunkForwardTsn}
    (hshut : ∀ s, P s → P { s with readShutdown := true, writeShutdown := true })
    (hopen : a.StreamsOpen)
    (hordered : ∀ e ∈ c.streams, e.identifier = si → ∀ s, P s →
      P (s.handleForwardTsnForOrdered e.sequence).1)
    (hunordered : ∀ s, P s → P (s.handleForwardTsnForUnordered c.newCumulativeTsn).1)
    (h : a.Holding si P) : (a.handleForwardTsn c).1.Holding si P := by
  rcases forwardTsn_cases a c with hbehind | ⟨huse, hahead⟩
  · rcases handleForwardTsn_of_behind hbehind with heq | heq
    · rw [heq]
      exact h
    · rw [heq]
      exact h
  · rw [handleForwardTsn_of_ahead huse hahead]
    apply acknowledgement hshut
    have hloops : ∀ b : AssociationInternal, b.StreamsOpen ∧ b.Holding si P →
        (b.forwardStreams c).StreamsOpen ∧ (b.forwardStreams c).Holding si P := by
      intro b hb
      apply forwardStreams_invariant (I := fun b => b.StreamsOpen ∧ b.Holding si P) c _ _ hb
      · intro b e he hb
        refine ⟨streamsOpen_modify hb.1 _ fun s => ?_, hb.2.modify hb.1 ?_⟩
        · unfold Stream.handleForwardTsnForOrdered
          split <;> rfl
        · exact fun hsame s _ hs => hordered e he hsame s hs
      · intro b si' hb
        refine ⟨streamsOpen_modify hb.1 _ fun s => ?_, hb.2.modify hb.1 ?_⟩
        · unfold Stream.handleForwardTsnForUnordered
          split <;> rfl
        · exact fun _ s _ hs => hunordered s hs
    apply And.right
    apply hloops
    exact ⟨ofStreams_streamsOpen.congr (a := a) rfl hopen, h⟩

theorem readSctp (h : a.Holding si P) (hopen : a.StreamsOpen) {r : StreamRef} {n : ℕ}
    (hread : a.streams.lookup si = some r → ∀ s, a.objects[r]? = some s → P s →
      P (s.readSctp n).1) : (a.readSctp r n).1.Holding si P := by
  rcases readSctp_cases hopen r n with heq | ⟨si', hsi', heq⟩
  · rw [heq]
    exact h
  · rw [heq]
    apply h.modify hopen
    intro hsame s hs
    rw [hsame] at hsi'
    exact hread hsi' s ((stream?_eq hsi').symm.trans hs)

theorem handleReconfig
    (hshut : ∀ s, P s → P { s with readShutdown := true, writeShutdown := true })
    (h : a.Holding si P) (c : ChunkReconfig) : (a.handleReconfig c).1.Holding si P :=
  handleReconfig_invariant (I := fun b => b.Holding si P)
    (fun _ raw _ hb => (shedding_holding hshut).handleReconfigParam raw hb) h

/-- Accepting a stream does not change it. -/
theorem acceptStream (h : a.Holding si P) : a.acceptStream.1.Holding si P := by
  have htable : a.acceptStream.1.streamTable = a.streamTable := by
    unfold AssociationInternal.acceptStream
    split <;> rfl
  intro s hs
  exact h s ((stream?_congr htable).symm.trans hs)

/-- A stream is registered without a change of the others. -/
theorem register (h : a.Holding si P) (hopen : a.StreamsOpen) {si' : U16} {s₀ : Stream}
    (hnew : si' = si → P s₀) :
    Holding { a with
      streams := a.streams.insert si' a.objects.length
      objects := a.objects ++ [s₀] } si P := by
  intro s hs
  by_cases hsame : si' = si
  · subst hsame
    rw [stream?_eq (AList.lookup_insert _)] at hs
    rw [← Option.some.inj (List.getElem?_concat_length.symm.trans hs)]
    exact hnew rfl
  · have hlookup : (a.streams.insert si' a.objects.length).lookup si = a.streams.lookup si :=
      AList.lookup_insert_ne (Ne.symm hsame)
    cases hr : a.streams.lookup si with
    | none =>
      rw [stream?_of_none (hlookup.trans hr)] at hs
      cases hs
    | some r =>
      rw [stream?_eq (hlookup.trans hr)] at hs
      apply h
      rw [stream?_eq hr, ← hs]
      exact (List.getElem?_append_left (hopen.lt_length hr)).symm

/-- A stream that is created is a new one. -/
theorem getOrCreateStream (h : a.Holding si P) (hopen : a.StreamsOpen) (si' : U16)
    (hnew : a.streams.lookup si = none → si' = si → P (Stream.new si a.maxPayloadSize)) :
    (a.getOrCreateStream si').1.Holding si P := by
  unfold AssociationInternal.getOrCreateStream
  split
  · exact h
  · rename_i hnone
    unfold createStream
    dsimp only
    rw [if_pos rfl]
    split
    · split
      · refine h.register hopen fun hsame => ?_
        subst hsame
        exact hnew hnone rfl
      · exact h
    · exact h

theorem openStream (h : a.Holding si P) (hopen : a.StreamsOpen) (si' : U16)
    (ppi : PayloadProtocolIdentifier)
    (hnew : a.streams.lookup si = none → si' = si →
      P ((Stream.new si a.maxPayloadSize).setDefaultPayloadType ppi)) :
    (a.openStream si' ppi).1.Holding si P := by
  cases hlookup : a.streams.lookup si' with
  | some r =>
    rw [openStream_of_some hlookup]
    exact h
  | none =>
    have hfirst : si' = si → P ((Stream.new si' a.maxPayloadSize).setDefaultPayloadType ppi) := by
      intro hsame
      subst hsame
      exact hnew hlookup rfl
    rw [openStream_of_none hlookup]
    exact h.register hopen hfirst

end Holding

/-! ## Every queue is that of its stream -/

/-- The reassembly queue of a registered stream takes the chunks of its identifier. -/
def QueuesAddressed (a : AssociationInternal) : Prop :=
  ∀ si, a.Holding si fun s => s.reassemblyQueue.si = si

/-- Data goes to the queue of the stream. -/
theorem reassemblyQueue_handleData (s : Stream) (d : ChunkPayloadData) :
    (s.handleData d).1.reassemblyQueue = (s.reassemblyQueue.push d).1 := by
  unfold Stream.handleData
  generalize s.reassemblyQueue.push d = r
  obtain ⟨q, _ | _⟩ := r <;> rfl

/-- A read reads from the queue, unless reading is shut down. -/
theorem reassemblyQueue_readSctp (s : Stream) (n : ℕ) :
    (s.readSctp n).1.reassemblyQueue =
      if s.readShutdown then s.reassemblyQueue else (s.reassemblyQueue.read n).1 := by
  unfold Stream.readSctp
  split
  · rfl
  · generalize s.reassemblyQueue.read n = r
    obtain ⟨q, e | message⟩ := r
    · cases e <;> rfl
    · rfl

/-- Ordered messages are skipped where the stream is ordered. -/
theorem reassemblyQueue_handleForwardTsnForOrdered (s : Stream) (ssn : U16) :
    (s.handleForwardTsnForOrdered ssn).1.reassemblyQueue =
      if s.unordered then s.reassemblyQueue else s.reassemblyQueue.forwardTsnForOrdered ssn := by
  unfold Stream.handleForwardTsnForOrdered
  split <;> rfl

/-- Unordered fragments are skipped where the stream is unordered. -/
theorem reassemblyQueue_handleForwardTsnForUnordered (s : Stream) (newCumulativeTsn : U32) :
    (s.handleForwardTsnForUnordered newCumulativeTsn).1.reassemblyQueue =
      if s.unordered then s.reassemblyQueue.forwardTsnForUnordered newCumulativeTsn
      else s.reassemblyQueue := by
  unfold Stream.handleForwardTsnForUnordered
  cases s.unordered <;> rfl

/-- No step changes the identifier of a queue. -/
theorem QueuesAddressed.streamStep (hopen : a.StreamsOpen) (h : a.QueuesAddressed) (op : StreamOp) :
    (a.streamStep op).QueuesAddressed := by
  intro si
  have hread : ∀ n (s : Stream), s.reassemblyQueue.si = si → (s.readSctp n).1.reassemblyQueue.si = si := by
    intro n s hs
    rw [reassemblyQueue_readSctp]
    split
    · exact hs
    · exact (ReassemblyQueue.si_read _ n).trans hs
  have hshut : ∀ s : Stream, s.reassemblyQueue.si = si →
      ({ s with readShutdown := true, writeShutdown := true } : Stream).reassemblyQueue.si = si :=
    fun _ hs => hs
  cases op with
  | receive op =>
    cases op with
    | data d =>
      refine Holding.handleData hshut hopen ((h si).getOrCreateStream hopen _ fun _ _ => rfl) ?_ (h si)
      intro s hs
      rw [reassemblyQueue_handleData, ReassemblyQueue.si_push]
      exact hs
    | forwardTsn c =>
      apply Holding.handleForwardTsn hshut hopen _ _ (h si)
      · intro e _ _ s hs
        rw [reassemblyQueue_handleForwardTsnForOrdered]
        split
        · exact hs
        · exact (ReassemblyQueue.si_forwardTsnForOrdered _ _).trans hs
      · intro s hs
        rw [reassemblyQueue_handleForwardTsnForUnordered]
        split <;> exact hs
    | reconfig c => exact (h si).handleReconfig hshut c
    | accept => exact (h si).acceptStream
    | read si' n => exact (h si).modify hopen fun _ s _ hs => hread n s hs
  | openStream si' ppi => exact (h si).openStream hopen si' ppi fun _ _ => rfl
  | readSctp r n => exact (h si).readSctp hopen fun _ s _ hs => hread n s hs

/-! ## What is owed -/

/-- A chunk goes to the queue of its stream, which is empty if the stream is new. -/
theorem reassemblyQueue_getOrCreateStream (hopen : a.StreamsOpen) (si : U16) :
    (a.getOrCreateStream si).1.Holding si fun s => s.reassemblyQueue = a.queueOf si := by
  apply Holding.getOrCreateStream
  · intro s hs
    unfold queueOf
    rw [hs]
  · exact hopen
  · intro hnone _
    unfold queueOf
    rw [stream?_of_none hnone]
    rfl

/-- A message that fits into the buffer is given to the application. -/
theorem takes_of_fits {s : Stream} {d : ChunkPayloadData} {n : ℕ} (hreturns : s.returns n d = false)
    (hfits : s.cutsOff n d = false) : s.takes d = false := by
  by_contra htakes
  rw [Bool.not_eq_false] at htakes
  unfold Stream.returns at hreturns
  unfold Stream.cutsOff at hfits
  rw [htakes, Bool.true_and] at hreturns hfits
  unfold Stream.takes at htakes
  rw [Bool.and_eq_true, Bool.not_eq_true'] at htakes
  obtain ⟨hopen, hreads⟩ := htakes
  rcases htake : s.reassemblyQueue.takeReadable with ⟨q, _ | cset⟩
  · rw [htake] at hreads
    cases hreads
  · rw [htake] at hfits
    have hlen : ([] : Bytes).length + chunksBytes cset.chunks ≤ n := by
      have hle : ¬ n < chunksBytes cset.chunks := by simpa using hfits
      rw [List.length_nil, Nat.zero_add]
      omega
    have hread : (s.reassemblyQueue.read n).2.isOk = true := by
      unfold ReassemblyQueue.read
      rw [htake]
      dsimp only
      rw [ReassemblyQueue.copyChunks_eq (Nat.zero_le n), if_pos hlen]
      rfl
    unfold Stream.readSctp at hreturns
    rw [hopen, if_neg Bool.false_ne_true] at hreturns
    generalize s.reassemblyQueue.read n = res at hread hreturns
    obtain ⟨q', e | r⟩ := res
    · cases hread
    · cases hreturns

/-- A read of another message. -/
theorem holds_readSctp {s : Stream} {d : ChunkPayloadData} (h : s.reassemblyQueue.Holds d)
    (htakes : s.takes d = false) (n : ℕ) : (s.readSctp n).1.reassemblyQueue.Holds d := by
  rw [reassemblyQueue_readSctp]
  unfold Stream.takes at htakes
  by_cases hclosed : s.readShutdown = true
  · rw [if_pos hclosed]
    exact h
  · have hclosed' : s.readShutdown = false := by simpa using hclosed
    rw [hclosed', Bool.not_false, Bool.true_and] at htakes
    rw [if_neg hclosed]
    exact h.read n htakes

/-- A FORWARD TSN that does not skip the chunk's message. -/
theorem Holding.forwardTsn {d : ChunkPayloadData} {c : ChunkForwardTsn} (hopen : a.StreamsOpen)
    (hnot : a.settles d (.receive (.forwardTsn c)) = false)
    (h : a.Holding d.streamIdentifier fun s => s.reassemblyQueue.Holds d) :
    (a.handleForwardTsn c).1.Holding d.streamIdentifier fun s => s.reassemblyQueue.Holds d := by
  rcases forwardTsn_cases a c with hbehind | ⟨huse, hahead⟩
  · rcases handleForwardTsn_of_behind hbehind with heq | heq
    · rw [heq]
      exact h
    · rw [heq]
      exact h
  · unfold settles at hnot
    dsimp only at hnot
    rw [huse, hahead, Bool.not_false, Bool.true_and, Bool.true_and, List.any_eq_false] at hnot
    -- the set that holds the chunk is passed over by every SSN that is listed
    let spared (s : Stream) : Prop := ∃ cset ∈ s.reassemblyQueue.ordered, d ∈ cset.chunks ∧
      ∀ e ∈ c.streams, e.identifier = d.streamIdentifier → s.unordered = false →
        ReassemblyQueue.skippedBy e.sequence cset = false
    have hspared : a.Holding d.streamIdentifier spared := by
      intro s hs
      obtain ⟨cset, hcset, hd⟩ := h s hs
      refine ⟨cset, hcset, hd, fun e he hsame hkind => ?_⟩
      have hskips := hnot e he
      rw [hsame, hs, Option.any_some] at hskips
      unfold Stream.skips at hskips
      rw [hkind] at hskips
      by_contra hskipped
      apply hskips
      simp only [decide_true, Bool.not_false, Bool.true_and, List.any_eq_true,
        Bool.and_eq_true, decide_eq_true_eq]
      exact ⟨cset, hcset, by simpa using hskipped, hd⟩
    have hafter : (a.handleForwardTsn c).1.Holding d.streamIdentifier spared := by
      apply Holding.handleForwardTsn _ hopen _ _ hspared
      · exact fun _ hs => hs
      · rintro e he hsame s ⟨cset, hcset, hd, hpass⟩
        unfold Stream.handleForwardTsnForOrdered
        split
        · exact ⟨cset, hcset, hd, hpass⟩
        · rename_i hkind
          refine ⟨cset, ?_, hd, hpass⟩
          exact ReassemblyQueue.mem_forwardTsnForOrdered.mpr
            ⟨hcset, hpass e he hsame (by simpa using hkind)⟩
      · rintro s ⟨cset, hcset, hd, hpass⟩
        unfold Stream.handleForwardTsnForUnordered
        split <;> exact ⟨cset, hcset, hd, hpass⟩
    intro s hs
    obtain ⟨cset, hcset, hd, _⟩ := hafter s hs
    exact ⟨cset, hcset, hd⟩

/-- What a stream holds it holds until the chunk's message is given to the reader or skipped, if no
read cuts it off. -/
theorem Holding.streamStep {d : ChunkPayloadData} {owed : List ChunkPayloadData}
    (hopen : a.StreamsOpen) (hsome : (a.streams.lookup d.streamIdentifier).isSome = true)
    {op : StreamOp} (hd : d ∈ owed) (hfits : ReadsFit (a, owed) op) (hnot : a.settles d op = false)
    (h : a.Holding d.streamIdentifier fun s => s.reassemblyQueue.Holds d) :
    (a.streamStep op).Holding d.streamIdentifier fun s => s.reassemblyQueue.Holds d := by
  have hshut : ∀ s : Stream, s.reassemblyQueue.Holds d →
      ({ s with readShutdown := true, writeShutdown := true } : Stream).reassemblyQueue.Holds d :=
    fun _ hs => hs
  have hold : ∀ {si'}, a.streams.lookup d.streamIdentifier = none → si' = d.streamIdentifier →
      ∀ s : Stream, s.reassemblyQueue.Holds d := by
    intro si' hnone
    rw [hnone] at hsome
    cases hsome
  cases op with
  | receive op =>
    cases op with
    | data d' =>
      have hcreated := h.getOrCreateStream hopen d'.streamIdentifier
        fun hnone hsame => hold hnone hsame _
      refine Holding.handleData hshut hopen hcreated ?_ h
      intro s hs
      rw [reassemblyQueue_handleData]
      exact hs.push d'
    | forwardTsn c => exact h.forwardTsn hopen hnot
    | reconfig c => exact h.handleReconfig hshut c
    | accept => exact h.acceptStream
    | read si' n =>
      refine h.modify hopen fun hsame s hs hholds => holds_readSctp hholds ?_ n
      unfold settles at hnot
      dsimp only at hnot
      rw [hsame, hs] at hnot
      refine takes_of_fits (n := n) (by simpa using hnot) (hfits d hd hsame.symm s ?_)
      rw [hsame]
      exact hs
  | openStream si' ppi => exact h.openStream hopen si' ppi fun hnone hsame => hold hnone hsame _
  | readSctp r n =>
    refine h.readSctp hopen fun hr s hs hholds => holds_readSctp hholds ?_ n
    unfold settles at hnot
    dsimp only at hnot
    rw [hr, hs] at hnot
    exact takes_of_fits (n := n) (by simpa using hnot) (hfits d hd hr s hs)

/-- An ordered chunk that is handed over in reach is held. -/
theorem holding_handleData {d : ChunkPayloadData} (hopen : a.StreamsOpen)
    (haddressed : a.QueuesAddressed) (hover : a.handsOver d = true) (hordered : d.unordered = false)
    (hreach : (a.queueOf d.streamIdentifier).inReach d = true) :
    (a.handleData d).1.Holding d.streamIdentifier fun s => s.reassemblyQueue.Holds d := by
  apply Holding.handleData_of_handsOver (P := fun s => s.reassemblyQueue.Holds d) (fun _ hs => hs)
    hopen hover
  intro s hs
  have hqueue := reassemblyQueue_getOrCreateStream hopen d.streamIdentifier s hs
  have hsi := (haddressed d.streamIdentifier).getOrCreateStream hopen d.streamIdentifier
    (fun _ _ => rfl) s hs
  rw [if_pos rfl, reassemblyQueue_handleData]
  refine (ReassemblyQueue.holds_push hsi.symm hordered).mpr (Or.inr ⟨rfl, ?_⟩)
  rw [hqueue]
  exact hreach

/-- **A step that keeps what is owed**. -/
theorem HoldsOwed.step {s : AssociationInternal × List ChunkPayloadData} (h : HoldsOwed s)
    (hopen : s.1.StreamsOpen) (haddressed : s.1.QueuesAddressed) {op : StreamOp}
    (hop : KeepsOwed s op) : HoldsOwed (owedStep s op) := by
  obtain ⟨a, owed⟩ := s
  obtain ⟨hreach, hfits⟩ := hop
  intro d hd
  unfold owedStep at hd
  rw [List.mem_filter, List.mem_append, Bool.and_eq_true, Bool.not_eq_true', Bool.not_eq_true'] at hd
  obtain ⟨hd, hnot, hkept⟩ := hd
  have hsome : ((a.streamStep op).streams.lookup d.streamIdentifier).isSome = true := by
    unfold isReset at hkept
    simpa using hkept
  obtain ⟨r, hr⟩ := Option.isSome_iff_exists.mp hsome
  obtain ⟨stream, hstream, _⟩ := (hopen.streamStep op).isOpen _ r hr
  have hstream' : (a.streamStep op).stream? d.streamIdentifier = some stream :=
    (stream?_eq hr).trans hstream
  refine ⟨stream, hstream', ?_⟩
  suffices hholding : (a.streamStep op).Holding d.streamIdentifier fun s => s.reassemblyQueue.Holds d
    from hholding stream hstream'
  rcases hd with hbefore | hnew
  · obtain ⟨s₀, hs₀, hholds⟩ := h d hbefore
    apply Holding.streamStep hopen _ hbefore hfits hnot
    · intro s hs
      rw [hs₀, Option.some.injEq] at hs
      rw [← hs]
      exact hholds
    · by_contra hnone
      rw [stream?_of_none (by simpa using hnone)] at hs₀
      cases hs₀
  · unfold acknowledges at hnew
    split at hnew
    · rename_i d'
      split at hnew
      · rename_i hover
        rw [Bool.and_eq_true, Bool.not_eq_true'] at hover
        rw [List.mem_singleton] at hnew
        subst hnew
        exact holding_handleData hopen haddressed hover.1 hover.2 (hreach hover.1 hover.2)
      · exact absurd hnew List.not_mem_nil
    · exact absurd hnew List.not_mem_nil

/-- In every run in which the ordered chunks that are handed over lie in reach of the reassembly
queue of their stream and no read cuts a message off: what has been put into `payload_queue` is held
by its stream, until its message is given to the reader or skipped or the stream is reset. -/
theorem holdsOwed_of_keepsOwed (a : AssociationInternal) (hstreams : a.streams = ∅)
    (hobjects : a.objects = []) (ops : List StreamOp)
    (hops : Runs.Along owedStep KeepsOwed (a, []) ops) :
    HoldsOwed (Runs.run owedStep (a, []) ops) := by
  have hstart : a.StreamsOpen ∧ a.QueuesAddressed ∧ HoldsOwed (a, []) := by
    refine ⟨StreamsOpen.new hstreams hobjects, ?_, fun d hd => absurd hd List.not_mem_nil⟩
    intro si s hs
    rw [stream?_of_none (by rw [hstreams]; exact AList.lookup_empty si)] at hs
    cases hs
  have hrun := Runs.run_invariant_along
    (I := fun s => s.1.StreamsOpen ∧ s.1.QueuesAddressed ∧ HoldsOwed s)
    (fun s op hop hs => ⟨hs.1.streamStep op, hs.2.1.streamStep hs.1 op, hs.2.2.step hs.1 hs.2.1 hop⟩)
    hstart hops
  exact hrun.2.2

/-- Two messages arrive in the wrong order, are read into buffers that they just fill, and the
stream is reset. -/
theorem holdsOwed_swapped :
    let second : ChunkPayloadData :=
      { tsn := 2, streamIdentifier := 3, streamSequenceNumber := 1, beginningFragment := true
        endingFragment := true, userData := [2, 3] }
    HoldsOwed (Runs.run owedStep (justEstablished, [])
      [.receive (.data second), .readSctp 0 0, firstOfThree, .readSctp 0 1, .readSctp 0 2,
        resetArrives]) := by
  intro second
  exact holdsOwed_of_keepsOwed justEstablished rfl rfl
    [.receive (.data second), .readSctp 0 0, firstOfThree, .readSctp 0 1, .readSctp 0 2, resetArrives]
    (by decide +kernel)

/-- A read that fails with `ErrShortBuffer` has taken the message away. -/
example : ¬ HoldsOwed (Runs.run owedStep (justEstablished, []) [firstOfThree, .readSctp 0 0]) := by
  decide +kernel

end AssociationInternal

namespace Stream

/-- A message of one byte is one chunk; each has the SSN after that of the one before it. -/
theorem written_oneByte {s : Stream} (hordered : s.unordered = false)
    (hsize : 0 < s.maxPayloadSize.toNat) (flags : SharedFlags) (ppi : PayloadProtocolIdentifier)
    (x : Byte) {n i : ℕ} (h : i < n) (tsn : U32) :
    (s.written flags ppi (List.replicate n [x]))[i]?.map
        (fun c => (Chunk.payloadData { c with tsn := tsn }).wire) =
      some (.payloadData
        { beginningFragment := true
          endingFragment := true
          tsn
          streamIdentifier := s.streamIdentifier
          streamSequenceNumber := s.sequenceNumber + BitVec.ofNat 16 i
          payloadType := ppi
          userData := [x] }) := by
  have hmin : min s.maxPayloadSize.toNat 1 = 1 := Nat.min_eq_right hsize
  induction n generalizing s flags i with
  | zero => omega
  | succ n ih =>
    have hchunks : (s.packetize flags [x] ppi).2.2 =
        [{ streamIdentifier := s.streamIdentifier
           userData := [x]
           beginningFragment := true
           endingFragment := true
           payloadType := ppi
           streamSequenceNumber := s.sequenceNumber
           abandoned := flags.length
           allInflight := flags.length + 1 }] := by
      unfold packetize fragments
      simp [SharedFlags.alloc, hmin, hordered, fragments]
    have hstream : (s.packetize flags [x] ppi).1 =
        { s with sequenceNumber := s.sequenceNumber + 1, bufferedAmount := s.bufferedAmount + 1 } := by
      unfold packetize
      simp [hordered]
    rw [List.replicate_succ]
    unfold written
    dsimp only
    rw [hchunks]
    cases i with
    | zero =>
      rw [BitVec.add_zero]
      rfl
    | succ i =>
      have hrest := ih (s := (s.packetize flags [x] ppi).1) (by rw [hstream]; exact hordered)
        (by rw [hstream]; exact hsize) (s.packetize flags [x] ppi).2.1 (Nat.lt_of_succ_lt_succ h)
        (by rw [hstream]; exact hmin)
      rw [List.singleton_append, List.getElem?_cons_succ, hrest, hstream]
      have hssn : s.sequenceNumber + 1 + BitVec.ofNat 16 i = s.sequenceNumber + BitVec.ofNat 16 (i + 1) := by
        rw [BitVec.add_assoc, Nat.add_comm, BitVec.ofNat_add]
        rfl
      rw [hssn]

end Stream

namespace AssociationInternal

/-- The message 2 ^ 15 + 1 ahead of the one that is read next. -/
def farAhead : ChunkPayloadData :=
  { beginningFragment := true
    endingFragment := true
    tsn := 32770
    streamIdentifier := 3
    streamSequenceNumber := 0x8001
    payloadType := .binary
    userData := [7] }

/-- It is acknowledged, and dropped. -/
theorem not_holdsOwed_farAhead :
    ¬ ∀ (a : AssociationInternal), a.streams = ∅ → a.objects = [] →
      ∀ (s : Stream) (flags : SharedFlags) (ppi : PayloadProtocolIdentifier) (messages : List Bytes),
        s.unordered = false → s.sequenceNumber = 0 → 0 < s.maxPayloadSize.toNat →
          ∀ ops : List StreamOp,
            (∀ op ∈ ops, ∀ d, op = .receive (.data d) →
              .payloadData d ∈ transmitted (a.peerLastTsn + 1) (s.written flags ppi messages)) →
            HoldsOwed (Runs.run owedStep (a, []) ops) := by
  intro h
  have hsent : Chunk.payloadData farAhead ∈ transmitted (justEstablished.peerLastTsn + 1)
      ((Stream.new 3 1200).written [] .binary (List.replicate 32770 [7])) := by
    apply List.mem_of_getElem? (i := 32769)
    unfold transmitted
    rw [List.getElem?_mapIdx]
    exact Stream.written_oneByte rfl (by decide) [] .binary 7 (by decide) _
  have hrun := h justEstablished rfl rfl (Stream.new 3 1200) [] .binary (List.replicate 32770 [7])
    rfl rfl (by decide) [.receive (.data farAhead)] (by
      intro op hop d hd
      rw [List.mem_singleton] at hop
      rw [hop] at hd
      cases hd
      exact hsent)
  obtain ⟨stream, hstream, hholds⟩ := hrun farAhead (by decide +kernel)
  have hqueue : (Runs.run owedStep (justEstablished, []) [.receive (.data farAhead)]).1.stream? 3 =
      some (Stream.new 3 justEstablished.maxPayloadSize) := by decide +kernel
  rw [show farAhead.streamIdentifier = 3 from rfl, hqueue, Option.some.injEq] at hstream
  rw [← hstream] at hholds
  exact absurd hholds (by decide)

end AssociationInternal

end Sctp
