import Sctp.Association.StreamNumberTheorems
import Sctp.Association.TransmissionTheorems
import Sctp.Lib.Blocks
import Sctp.Lib.ConsecutiveRun
import Sctp.Queue.PoppedMessagesTheorems

/-!
# What a sender makes of the messages of a stream

The chunks of a stream that have been given TSNs are those of its messages, one message after the
other and each under consecutive TSNs, up to a message that has not been sent as a whole.
-/

namespace Sctp

/-! ## Messages of a stream -/

/-- The message has data for the stream. -/
def Message.isOf (m : Message) (si : U16) : Bool :=
  m.chunks.any fun c => c.streamIdentifier = si && !c.userData.isEmpty

/-- The message is as a writer pushes it. -/
structure Message.Pushed (m : Message) : Prop where
  proper : m.Proper
  unsent : ∀ c ∈ m.chunks, c.unsent = c
  stream : ∀ c ∈ m.chunks, ∀ c' ∈ m.chunks, c.streamIdentifier = c'.streamIdentifier

/-- The message has the number `j` in its stream, and has been cut into its chunks. -/
structure WrittenMessage.HasNumber (w : WrittenMessage) (si : U16) (maxLen j : ℕ) : Prop where
  fragments : ∃ header : ChunkPayloadData, FragmentsOf header true w.data w.chunks ∧
    header.streamIdentifier = si ∧ header.streamSequenceNumber = BitVec.ofNat 16 j ∧
    header.unordered = false ∧ header.payloadType = w.payloadType
  length : w.data.length ≤ maxLen

theorem ChunkPayloadData.unsent_of_header {c : ChunkPayloadData} {s : Stream} {unordered : Bool}
    {ppi : PayloadProtocolIdentifier} {x y : SharedFlag}
    (h : c.header = s.messageHeader unordered ppi x y) : c.unsent = c := by
  have htsn : c.tsn = 0 := (congrArg ChunkPayloadData.tsn h :)
  have hsince : c.since = 0 := (congrArg ChunkPayloadData.since h :)
  have hnsent : c.nsent = 0 := (congrArg ChunkPayloadData.nsent h :)
  cases c
  dsimp only at htsn hsince hnsent
  subst htsn hsince hnsent
  rfl

/-! ## What is noted of the sender -/

namespace SendLog

open AssociationInternal

variable {si : U16} {maxLen : ℕ} {first : U32} {s : SendLog} {all : Bool → List Message}

/-- The messages that have been pushed are those that have been written. -/
structure Pushes (si : U16) (messages : List WrittenMessage) (all : Bool → List Message) : Prop where
  pushed : ∀ u, ∀ m ∈ all u, m.Pushed
  ordered : ((all false).filter (·.isOf si)).map (·.chunks) = messages.map (·.chunks)
  unordered : ∀ m ∈ all true, m.isOf si = false

/-- What has been popped of the messages has been given TSNs. -/
structure Pops (si : U16) (s : SendLog) : Prop where
  history : ∃ all popped done current, s.association.pendingQueue.Tells all popped done current ∧
    Pushes si s.messages all ∧
    s.assigned.map (·.unsent) = popped.filter fun c => !c.userData.isEmpty

/-- What a log of a stream comes to: the messages written have the numbers `0, 1, ..`, and every TSN
that was assigned follows the one before. -/
structure Records (si : U16) (maxLen : ℕ) (first : U32) (s : SendLog) : Prop where
  ends : s.association.EndsInOrder
  inUse : s.association.inUse = true
  transmitting : Transmitting (s.association, s.assigned.reverse)
  next : s.association.NumbersNext si s.messages.length
  messages : ∀ j (w : WrittenMessage), s.messages[j]? = some w → w.HasNumber si maxLen j
  tsns : ∀ i c, s.assigned[i]? = some c → c.tsn = first.after i
  nextTsn : s.association.myNextTsn = first.after s.assigned.length
  pops : Pops si s
  packets : ∀ p ∈ s.packets, ∀ c, .payloadData c ∈ p.chunks → ∃ d ∈ s.assigned,
    d.contents = c.contents

/-! ### Pushes -/

theorem Pushes.other {messages : List WrittenMessage} (h : Pushes si messages all) {m : Message}
    (hm : m.Pushed) (hother : m.isOf si = false) :
    Pushes si messages (Function.update all m.unordered (all m.unordered ++ [m])) := by
  have hcases : ∀ u, Function.update all m.unordered (all m.unordered ++ [m]) u = all u ∨
      Function.update all m.unordered (all m.unordered ++ [m]) u = all u ++ [m] := by
    intro u
    by_cases hu : u = m.unordered
    · rw [hu, Function.update_self]
      exact Or.inr rfl
    · rw [Function.update_of_ne hu]
      exact Or.inl rfl
  refine ⟨?_, ?_, ?_⟩
  · intro u m' hm'
    rcases hcases u with heq | heq
    · rw [heq] at hm'
      exact h.pushed u m' hm'
    · rw [heq, List.mem_append, List.mem_singleton] at hm'
      rcases hm' with hold | rfl
      · exact h.pushed u m' hold
      · exact hm
  · rcases hcases false with heq | heq
    · rw [heq]
      exact h.ordered
    · rw [heq, List.filter_append, List.filter_cons_of_neg (by rw [hother]; decide), List.filter_nil,
        List.append_nil]
      exact h.ordered
  · intro m' hm'
    rcases hcases true with heq | heq
    · rw [heq] at hm'
      exact h.unordered m' hm'
    · rw [heq, List.mem_append, List.mem_singleton] at hm'
      rcases hm' with hold | rfl
      · exact h.unordered m' hold
      · exact hother

theorem Pushes.own {messages : List WrittenMessage} (h : Pushes si messages all) {m : Message}
    (hm : m.Pushed) (hown : m.isOf si = true) (hordered : m.unordered = false) {w : WrittenMessage}
    (hw : w.chunks = m.chunks) :
    Pushes si (messages ++ [w]) (Function.update all m.unordered (all m.unordered ++ [m])) := by
  rw [hordered]
  refine ⟨?_, ?_, ?_⟩
  · intro u m' hm'
    cases u with
    | true =>
      rw [Function.update_of_ne (by decide)] at hm'
      exact h.pushed true m' hm'
    | false =>
      rw [Function.update_self, List.mem_append, List.mem_singleton] at hm'
      rcases hm' with hold | rfl
      · exact h.pushed false m' hold
      · exact hm
  · rw [Function.update_self, List.filter_append, List.filter_singleton, hown, cond_true,
      List.map_append, h.ordered, List.map_append, List.map_singleton, List.map_singleton, hw]
  · intro m' hm'
    rw [Function.update_of_ne (by decide)] at hm'
    exact h.unordered m' hm'

/-- A queue that takes a message in. -/
theorem Pops.push (h : Pops si s) {s' : SendLog} {m : Message}
    (hqueue : s'.association.pendingQueue =
      m.chunks.foldl PendingQueue.push s.association.pendingQueue)
    (hassigned : s'.assigned = s.assigned)
    (hpushes : ∀ all, Pushes si s.messages all →
      Pushes si s'.messages (Function.update all m.unordered (all m.unordered ++ [m]))) :
    Pops si s' := by
  obtain ⟨all, popped, done, current, htells, hall, hpopped⟩ := h.history
  refine ⟨⟨_, popped, done, current, ?_, hpushes all hall, ?_⟩⟩
  · rw [hqueue]
    exact htells.push m
  · rw [hassigned]
    exact hpopped

theorem Pops.same (h : Pops si s) {s' : SendLog}
    (hqueue : s'.association.pendingQueue = s.association.pendingQueue)
    (hassigned : s'.assigned = s.assigned) (hmessages : s'.messages = s.messages) : Pops si s' := by
  obtain ⟨all, popped, done, current, htells, hall, hpopped⟩ := h.history
  refine ⟨⟨all, popped, done, current, ?_, ?_, ?_⟩⟩
  · rw [hqueue]
    exact htells
  · rw [hmessages]
    exact hall
  · rw [hassigned]
    exact hpopped

theorem isOf_of_fragments {m : Message} {header : ChunkPayloadData} {data : Bytes}
    (h : FragmentsOf header true data m.chunks) : m.isOf si = decide (header.streamIdentifier = si) := by
  have hid : ∀ c ∈ m.chunks, c.streamIdentifier = header.streamIdentifier :=
    fun c hc => (congrArg ChunkPayloadData.streamIdentifier (h.header_eq c hc) :)
  unfold Message.isOf
  by_cases hsi : header.streamIdentifier = si
  · obtain ⟨c, hc⟩ := List.exists_mem_of_ne_nil _ h.ne_nil
    rw [decide_eq_true hsi, List.any_eq_true]
    have hdata := h.data_ne c hc
    exact ⟨c, hc, by simp [hid c hc, hsi, hdata]⟩
  · rw [decide_eq_false hsi, List.any_eq_false]
    intro c hc
    simp [hid c hc, hsi]

/-! ### Steps -/

variable {op : SenderOp}

theorem wholeOps_of_writesInOrder {a : AssociationInternal} (h : a.WritesInOrder si maxLen op) :
    WholeOps op := by
  cases op with
  | push c => exact h
  | _ => trivial

theorem mem_assigned_of_lastAssigned {ledger : List ChunkPayloadData} {t : U32} {c : ChunkPayloadData}
    (h : lastAssigned ledger t = some c) : ∃ d ∈ ledger, d.contents = c := by
  obtain ⟨d, hd, rfl⟩ := Option.map_eq_some_iff.mp h
  exact ⟨d, List.mem_of_find?_eq_some hd, rfl⟩

/-- What every operation keeps, apart from the messages and the TSNs. -/
theorem Records.of_step (h : Records si maxLen first s) (hop : s.Writes si maxLen op)
    (hmessages : ∀ j (w : WrittenMessage), (s.step si op).messages[j]? = some w →
      w.HasNumber si maxLen j)
    (htsns : ∀ i c, (s.step si op).assigned[i]? = some c → c.tsn = first.after i)
    (hnextTsn : (s.step si op).association.myNextTsn = first.after (s.step si op).assigned.length)
    (hpops : Pops si (s.step si op)) : Records si maxLen first (s.step si op) := by
  have hledger : transmitStep (s.association, s.assigned.reverse) op =
      ((s.step si op).association, (s.step si op).assigned.reverse) := by
    show (_, _) = (s.association.senderStep op, (s.assigned ++ s.association.assigns op).reverse)
    rw [List.reverse_append]
  refine ⟨h.ends.senderStep (wholeOps_of_writesInOrder hop.2), inUse_senderStep h.inUse op, ?_, ?_,
    hmessages, htsns, hnextTsn, hpops, ?_⟩
  · rw [← hledger]
    exact h.transmitting.step hop.1
  · have hnext := h.next.senderStep h.ends.registered h.inUse hop.2
    rw [← List.length_append] at hnext
    exact hnext
  · intro p hp c hc
    rcases List.mem_append.mp hp with hold | hnew
    · obtain ⟨d, hd, heq⟩ := h.packets p hold c hc
      exact ⟨d, List.mem_append_left _ hd, heq⟩
    · -- what is sent now has been given its TSN now or before
      obtain ⟨_, hlast⟩ := h.transmitting.sendsAssigned hop.1 c (mem_sendsData.mpr ⟨p, hnew, hc⟩)
      rw [hledger] at hlast
      obtain ⟨d, hd, heq⟩ := mem_assigned_of_lastAssigned hlast
      exact ⟨d, List.mem_reverse.mp hd, heq⟩

/-- An operation that gives no TSNs. -/
theorem Records.call (h : Records si maxLen first s) (hop : s.Writes si maxLen op)
    (hassigns : s.association.assigns op = [])
    (hnext : (s.association.senderStep op).myNextTsn = s.association.myNextTsn)
    (hmessages : ∀ j (w : WrittenMessage), (s.step si op).messages[j]? = some w →
      w.HasNumber si maxLen j)
    (hpops : Pops si (s.step si op)) : Records si maxLen first (s.step si op) := by
  have hassigned : (s.step si op).assigned = s.assigned := by
    show s.assigned ++ s.association.assigns op = s.assigned
    rw [hassigns, List.append_nil]
  refine h.of_step hop hmessages ?_ ?_ hpops
  · rw [hassigned]
    exact h.tsns
  · rw [hassigned]
    exact hnext.trans h.nextTsn

/-- An operation that leaves the pending queue, too. -/
theorem Records.quiet (h : Records si maxLen first s) (hop : s.Writes si maxLen op)
    (hassigns : s.association.assigns op = []) (hwritten : s.association.messageWritten si op = [])
    (hnext : (s.association.senderStep op).myNextTsn = s.association.myNextTsn)
    (hqueue : (s.association.senderStep op).pendingQueue = s.association.pendingQueue) :
    Records si maxLen first (s.step si op) := by
  have hmessages : (s.step si op).messages = s.messages := by
    show s.messages ++ s.association.messageWritten si op = s.messages
    rw [hwritten, List.append_nil]
  have hassigned : (s.step si op).assigned = s.assigned := by
    show s.assigned ++ s.association.assigns op = s.assigned
    rw [hassigns, List.append_nil]
  refine h.call hop hassigns hnext ?_ (h.pops.same hqueue hassigned hmessages)
  rw [hmessages]
  exact h.messages

/-- The message that a write pushes. -/
theorem exists_pushed {obj : Stream} (hmax : 0 < obj.maxPayloadSize.toNat) (flags : SharedFlags)
    {p : Bytes} (hp : p ≠ []) (ppi : PayloadProtocolIdentifier) :
    ∃ m : Message, m.chunks = (obj.packetize flags p ppi).2.2 ∧
      m.unordered = (ppi ≠ .dcep && obj.unordered) ∧ m.Pushed ∧
      ∀ si, m.isOf si = decide (obj.streamIdentifier = si) := by
  have hfragments := Stream.packetize_fragmentsOf hmax flags hp ppi
  refine ⟨⟨_, _, hfragments.isMessage⟩, rfl, rfl, ⟨Or.inl hfragments.data_ne, ?_, ?_⟩, ?_⟩
  · intro c hc
    exact ChunkPayloadData.unsent_of_header (hfragments.header_eq c hc)
  · intro c hc c' hc'
    have hheader := (hfragments.header_eq c hc).trans (hfragments.header_eq c' hc').symm
    exact (congrArg ChunkPayloadData.streamIdentifier hheader :)
  · intro si
    exact isOf_of_fragments (m := ⟨_, _, hfragments.isMessage⟩) hfragments

theorem Records.write (h : Records si maxLen first s) {r : StreamRef} {p : Bytes}
    {ppi : PayloadProtocolIdentifier} (hop : s.Writes si maxLen (.write r p ppi)) :
    Records si maxLen first (s.step si (.write r p ppi)) := by
  have hnext : (s.association.writeSctp r p ppi).1.myNextTsn = s.association.myNextTsn := by
    obtain ⟨flags, pendingQueue, objects, heq⟩ := s.association.writeSctp_eq r p ppi
    rw [heq]
  rcases write_cases h.inUse si r p ppi with ⟨heq, hnone⟩ | ⟨obj, hobj, heq, hwritten⟩
  · exact h.quiet hop rfl hnone hnext (congrArg pendingQueue heq)
  · have hqueue : (s.step si (.write r p ppi)).association.pendingQueue = _ :=
      congrArg pendingQueue heq
    have hmessages : (s.step si (.write r p ppi)).messages = _ := congrArg (s.messages ++ ·) hwritten
    by_cases hp : p = []
    · -- a write of no bytes goes to another stream, and pushes nothing
      have hother : obj.streamIdentifier ≠ si := fun hid => (hop.2 obj hobj hid).1 hp
      rw [if_neg hother] at hwritten
      refine h.quiet hop rfl hwritten hnext (hqueue.trans ?_)
      rw [hp]
      rfl
    · have hmax := h.ends.sizes r obj hobj
      obtain ⟨m, hchunks, hkind, hpushed, hisOf⟩ := exists_pushed hmax s.association.flags hp ppi
      have hpush : (s.step si (.write r p ppi)).association.pendingQueue =
          m.chunks.foldl PendingQueue.push s.association.pendingQueue := by
        rw [hchunks]
        exact hqueue
      have hassigned : (s.step si (.write r p ppi)).assigned = s.assigned := List.append_nil _
      by_cases hown : obj.streamIdentifier = si
      · rw [if_pos hown] at hmessages
        obtain ⟨_, hlen, hordered⟩ := hop.2 obj hobj hown
        have hunordered : (ppi ≠ .dcep && obj.unordered) = false := by
          unfold Stream.isOrdered at hordered
          cases hu : obj.unordered with
          | false => exact Bool.and_false _
          | true =>
            rw [hu] at hordered
            simpa using hordered
        refine h.call hop rfl hnext ?_ (h.pops.push hpush hassigned fun all hall => ?_)
        · intro j w hw
          rw [hmessages] at hw
          by_cases hj : j < s.messages.length
          · rw [List.getElem?_append_left hj] at hw
            exact h.messages j w hw
          · rw [List.getElem?_append_right (Nat.le_of_not_lt hj), List.getElem?_singleton] at hw
            split at hw
            · rename_i hlast
              cases hw
              have hfragments := Stream.packetize_fragmentsOf hmax s.association.flags hp ppi
              refine ⟨⟨_, hfragments, hown, ?_, hunordered, rfl⟩, hlen⟩
              show obj.sequenceNumber = _
              rw [h.next.each obj (List.mem_of_getElem? hobj) hown, show j = s.messages.length by omega]
            · cases hw
        · rw [hmessages]
          refine hall.own hpushed ?_ (hkind.trans hunordered) hchunks.symm
          rw [hisOf, decide_eq_true hown]
      · rw [if_neg hown, List.append_nil] at hmessages
        refine h.call hop rfl hnext ?_ (h.pops.push hpush hassigned fun all hall => ?_)
        · rw [hmessages]
          exact h.messages
        · rw [hmessages]
          refine hall.other hpushed ?_
          rw [hisOf, decide_eq_false hown]

theorem Records.shutdownStream (h : Records si maxLen first s) {r : StreamRef} {how : Shutdown}
    (hop : s.Writes si maxLen (.shutdownStream r how)) :
    Records si maxLen first (s.step si (.shutdownStream r how)) := by
  have hnext : (s.association.shutdownStream r how).1.myNextTsn = s.association.myNextTsn := by
    obtain ⟨flags, pendingQueue, objects, heq⟩ := s.association.shutdownStream_eq r how
    rw [heq]
  have hsteps : (s.association.shutdownStream r how).1.pendingQueue = s.association.pendingQueue ∨
      ∃ id x y, (s.association.shutdownStream r how).1.pendingQueue =
        s.association.pendingQueue.push (Stream.eosMarker id x y) := by
    unfold AssociationInternal.shutdownStream
    cases hobj : s.association.objects[r]? with
    | none => exact Or.inl rfl
    | some obj =>
      dsimp only
      obtain ⟨obj', _, ⟨res, heq⟩ | heq⟩ := obj.shutdown_cases s.association.state
        s.association.flags s.association.pendingQueue how
      · rw [heq]
        exact Or.inl rfl
      · rw [heq]
        exact Or.inr ⟨_, _, _, rfl⟩
  rcases hsteps with hqueue | ⟨id, x, y, hqueue⟩
  · exact h.quiet hop rfl rfl hnext hqueue
  · have hmessages : (s.step si (.shutdownStream r how)).messages = s.messages := List.append_nil _
    have hassigned : (s.step si (.shutdownStream r how)).assigned = s.assigned := List.append_nil _
    -- a marker has no data for any stream
    let m : Message := ⟨_, _, Stream.eosMarker_isMessage id x y⟩
    have hpushed : m.Pushed := by
      refine ⟨Or.inr ⟨rfl, rfl⟩, ?_, ?_⟩
      · intro c hc
        rw [List.mem_singleton.mp hc]
        rfl
      · intro c hc c' hc'
        rw [List.mem_singleton.mp hc, List.mem_singleton.mp hc']
    refine h.call hop rfl hnext ?_ (h.pops.push (m := m) hqueue hassigned fun all hall => ?_)
    · rw [hmessages]
      exact h.messages
    · rw [hmessages]
      refine hall.other hpushed ?_
      unfold Message.isOf
      rw [List.any_eq_false]
      intro c hc
      rw [List.mem_singleton.mp hc]
      show ¬ (_ && false) = true
      rw [Bool.and_false]
      decide

theorem map_unsent_mapIdx {l : List ChunkPayloadData} (h : ∀ c ∈ l, c.unsent = c) (tsn : ℕ → U32)
    (now : ℕ) : (l.mapIdx fun i c => numbered c (tsn i) now).map (·.unsent) = l := by
  induction l generalizing tsn with
  | nil => rfl
  | cons c l ih =>
    rw [List.mapIdx_cons, List.map_cons, ih (fun d hd => h d (List.mem_cons_of_mem _ hd))
      fun i => tsn (i + 1)]
    congr 1
    exact h c List.mem_cons_self

theorem Records.gather (h : Records si maxLen first s) {now : ℕ}
    (hop : s.Writes si maxLen (.gather now)) : Records si maxLen first (s.step si (.gather now)) := by
  obtain ⟨out, hgives, hassigns, hnext, _⟩ := gather_gives h.ends.filled now
  have hmessages : (s.step si (.gather now)).messages = s.messages := List.append_nil _
  have hassigned : (s.step si (.gather now)).assigned =
      s.assigned ++ s.association.assigns (.gather now) := rfl
  refine h.of_step hop ?_ ?_ ?_ ?_
  · rw [hmessages]
    exact h.messages
  · intro i c hc
    rw [hassigned] at hc
    by_cases hi : i < s.assigned.length
    · rw [List.getElem?_append_left hi] at hc
      exact h.tsns i c hc
    · rw [List.getElem?_append_right (Nat.le_of_not_lt hi), hassigns, List.getElem?_mapIdx] at hc
      obtain ⟨d, _, rfl⟩ := Option.map_eq_some_iff.mp hc
      show s.association.myNextTsn.after (i - s.assigned.length) = _
      rw [h.nextTsn, after_add, Nat.add_sub_cancel' (Nat.le_of_not_lt hi)]
  · rw [hassigned, List.length_append, ← after_add, ← h.nextTsn]
    exact hnext
  · obtain ⟨all, popped, done, current, htells, hall, hpopped⟩ := h.pops.history
    obtain ⟨done', current', htells'⟩ := htells.gives hgives
    refine ⟨⟨all, popped ++ out, done', current', htells', ?_, ?_⟩⟩
    · rw [hmessages]
      exact hall
    · -- what is popped now is as it was pushed
      have hunsent : ∀ c ∈ out.filter fun c => !c.userData.isEmpty, c.unsent = c := by
        intro c hc
        obtain ⟨m, hm, hmem⟩ := htells'.mem_popped
          (List.mem_append_right popped (List.mem_of_mem_filter hc))
        exact (hall.pushed _ m (htells'.mem_all hm)).unsent c hmem
      rw [hassigned, List.map_append, hpopped, hassigns, map_unsent_mapIdx hunsent,
        List.filter_append]

/-- **What one operation of the sender keeps.** -/
theorem Records.step (h : Records si maxLen first s) (hop : s.Writes si maxLen op) :
    Records si maxLen first (s.step si op) := by
  cases op with
  | openStream si' ppi =>
    obtain ⟨objects, streams, heq⟩ := s.association.openStream_eq si' ppi
    exact h.quiet hop rfl rfl (congrArg myNextTsn heq :) (congrArg pendingQueue heq :)
  | setReliabilityParams r unordered relType relVal => exact h.quiet hop rfl rfl rfl rfl
  | write r p ppi => exact h.write hop
  | shutdownStream r how => exact h.shutdownStream hop
  | push c => exact absurd hop.2 id
  | gather now => exact h.gather hop
  | t3Rtx =>
    refine h.quiet hop rfl rfl ?_ ?_
    · exact onT3RtxTimeout_kept (fun _ _ _ _ _ _ => rfl) s.association
    · exact onT3RtxTimeout_kept (fun _ _ _ _ _ _ => rfl) s.association
  | sack now d =>
    refine h.quiet hop rfl rfl ?_ ?_
    · exact handleSack_kept (fun _ _ _ _ _ _ => rfl) s.association now d
    · exact handleSack_kept (fun _ _ _ _ _ _ => rfl) s.association now d
  | shutdownChunk =>
    obtain ⟨state, willSendShutdownAck, heq⟩ := s.association.handleShutdown_eq
    exact h.quiet hop rfl rfl (congrArg myNextTsn heq :) (congrArg pendingQueue heq :)
  | shutdown =>
    obtain ⟨state, willSendShutdown, heq⟩ := s.association.shutdown_eq
    exact h.quiet hop rfl rfl (congrArg myNextTsn heq :) (congrArg pendingQueue heq :)

theorem records_of_meetsFresh {a b : AssociationInternal} (h : a.MeetsFresh b si) :
    Records si maxLen a.myNextTsn { association := a } where
  ends := h.fresh.endsInOrder h.registered
  inUse := by
    unfold inUse
    rw [h.established]
  transmitting := h.fresh.transmitting h.controlQueue
  next := ⟨fun s hs hsi => h.unnumbered s hs hsi, fun _ => rfl⟩
  messages j w hw := by cases hw
  tsns i c hc := by cases hc
  nextTsn := (after_zero _).symm
  pops := by
    refine ⟨⟨fun _ => [], [], [], none, ?_, ⟨fun _ m hm => absurd hm List.not_mem_nil, rfl,
      fun m hm => absurd hm List.not_mem_nil⟩, rfl⟩⟩
    rw [h.fresh.pendingQueue]
    exact PendingQueue.Tells.new
  packets p hp := absurd hp List.not_mem_nil

end SendLog

end Sctp
