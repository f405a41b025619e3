import Sctp.Association.OverflowTheorems
import Sctp.Association.ReceiptTheorems
import Sctp.Association.SentBlocksTheorems

/-!
# Ordered reliable delivery, end to end

Whatever the network does to the packets of a sender, the reader of a stream gets the messages that
were written to it, in order, each as soon as all of it has been accepted.
-/

namespace Sctp

namespace AssociationInternal

variable {a b : AssociationInternal} {si si' : U16}

/-! ## The queue of a stream -/

theorem queueOf_congr (h : b.streamTable = a.streamTable) : b.queueOf si = a.queueOf si := by
  unfold queueOf
  rw [stream?_congr h]

theorem queueOf_of_stream {s : Stream} (h : a.stream? si = some s) :
    a.queueOf si = s.reassemblyQueue := by
  unfold queueOf
  rw [h]

theorem queueOf_modifyStream_of_ne (hopen : a.StreamsOpen) (hne : si' ≠ si) (f : Stream → Stream) :
    (a.modifyStream si' f).queueOf si = a.queueOf si := by
  unfold queueOf
  rw [stream?_modifyStream hopen, if_neg hne]

theorem queueOf_modifyStream (hopen : a.StreamsOpen) {s : Stream} (h : a.stream? si = some s)
    (f : Stream → Stream) : (a.modifyStream si f).queueOf si = (f s).reassemblyQueue := by
  unfold queueOf
  rw [stream?_modifyStream hopen, if_pos rfl, h]
  rfl

/-- A stream that is created has the queue its first chunk would have gone to. -/
theorem queueOf_getOrCreateStream (hopen : a.StreamsOpen) (si' : U16) :
    (a.getOrCreateStream si').1.queueOf si = a.queueOf si := by
  unfold getOrCreateStream
  split
  · rfl
  · rename_i hnone
    unfold createStream
    dsimp only
    rw [if_pos rfl]
    split
    · split
      · by_cases hsame : si = si'
        · subst hsame
          unfold queueOf
          rw [stream?_of_none hnone, stream?_eq (AList.lookup_insert _)]
          dsimp only
          rw [List.getElem?_concat_length]
          rfl
        · have hlookup : (a.streams.insert si' a.objects.length).lookup si = a.streams.lookup si :=
            AList.lookup_insert_ne hsame
          unfold queueOf
          cases hr : a.streams.lookup si with
          | none => rw [stream?_of_none hr, stream?_of_none (hlookup.trans hr)]
          | some r =>
            rw [stream?_eq hr, stream?_eq (hlookup.trans hr)]
            dsimp only
            rw [List.getElem?_append_left (hopen.lt_length hr)]
      · rfl
    · rfl

/-- Where no request is deferred, acknowledging leaves the streams alone. -/
theorem streamTable_acknowledgement (h : a.reconfigRequests = ∅) (sackImmediately : Bool) :
    (a.handlePeerLastTsnAndAcknowledgement sackImmediately).1.streamTable = a.streamTable ∧
      (a.handlePeerLastTsnAndAcknowledgement sackImmediately).1.reconfigRequests = ∅ := by
  apply acknowledgement_invariant
    (I := fun b => b.streamTable = a.streamTable ∧ b.reconfigRequests = ∅)
  · rintro b c htable hrequests ⟨hb, hnone⟩
    exact ⟨htable.trans hb, hrequests.trans hnone⟩
  · rintro b ⟨hb, hnone⟩
    unfold recheckReconfigRequests
    rw [hnone]
    exact ⟨hb, hnone⟩
  · exact ⟨rfl, h⟩

/-- **A chunk that is handed over goes to the queue of its stream**, and any other changes none. -/
theorem queueOf_handleData (si : U16) (hopen : a.StreamsOpen) (hnone : a.reconfigRequests = ∅)
    (d : ChunkPayloadData) :
    (a.handleData d).1.reconfigRequests = ∅ ∧ (a.handleData d).1.queueOf si =
      if a.handsOver d = true ∧ d.streamIdentifier = si then ((a.queueOf si).push d).1
      else a.queueOf si := by
  have hopen' := ofStreams_streamsOpen.getOrCreateStream d.streamIdentifier hopen
  have hcreate := (reconfigRequests_ignoresStreams.getOrCreateStream a d.streamIdentifier).trans hnone
  by_cases hover : a.handsOver d = true
  · obtain ⟨r, hr, heq⟩ := handleData_of_handsOver hover
    obtain ⟨c, hc⟩ : ∃ c : AssociationInternal, c = { (a.getOrCreateStream d.streamIdentifier).1 with
      payloadQueue := (a.payloadQueue.push d a.peerLastTsn).1 } := ⟨_, rfl⟩
    have htable : c.streamTable = (a.getOrCreateStream d.streamIdentifier).1.streamTable := by rw [hc]; rfl
    have hopenc : c.StreamsOpen := ofStreams_streamsOpen.congr htable hopen'
    have hnonec : c.reconfigRequests = ∅ := by rw [hc]; exact hcreate
    rw [← hc] at heq
    obtain ⟨hack, hrequests⟩ := streamTable_acknowledgement
      ((reconfigRequests_ignoresStreams.modifyStream c d.streamIdentifier
        fun s => (s.handleData d).1).trans hnonec)
      d.immediateSack
    have hqueue : ∀ si, c.queueOf si = a.queueOf si :=
      fun si => (queueOf_congr htable).trans (queueOf_getOrCreateStream hopen _)
    rw [heq, queueOf_congr hack]
    refine ⟨hrequests, ?_⟩
    by_cases hsi : d.streamIdentifier = si
    · rw [if_pos ⟨hover, hsi⟩, hsi]
      -- the stream is there by now
      obtain ⟨s, hs⟩ : ∃ s, c.stream? si = some s := by
        rw [stream?_congr htable, ← hsi]
        exact exists_stream?_getOrCreateStream hopen (Prod.ext rfl hr)
      rw [queueOf_modifyStream hopenc hs, reassemblyQueue_handleData, ← queueOf_of_stream hs, hqueue]
    · rw [if_neg fun hboth => hsi hboth.2, queueOf_modifyStream_of_ne hopenc hsi, hqueue]
  · rw [if_neg fun hboth => hover hboth.1]
    obtain ⟨c, _, hc, heq⟩ := handleData_of_not_handsOver (by simpa using hover)
    have hkept : c.reconfigRequests = ∅ ∧ c.queueOf si = a.queueOf si := by
      rcases hc with rfl | rfl
      · exact ⟨hnone, rfl⟩
      · exact ⟨hcreate, queueOf_getOrCreateStream hopen _⟩
    rcases heq with heq | heq
    · rw [heq]
      exact hkept
    · obtain ⟨hack, hrequests⟩ := streamTable_acknowledgement hkept.1 d.immediateSack
      rw [heq, queueOf_congr hack]
      exact ⟨hrequests, hkept.2⟩

theorem si_queueOf (h : a.QueuesAddressed) : (a.queueOf si).si = si := by
  unfold queueOf
  split
  · rename_i s hs
    exact h si s hs
  · rfl

theorem queueOf_acceptStream : a.acceptStream.1.queueOf si = a.queueOf si := by
  apply queueOf_congr
  unfold acceptStream
  split <;> rfl

/-- **A read of a stream takes from its queue, and gives what the queue gives.** -/
theorem queueOf_readStream (si : U16) (hopen : a.StreamsOpen) (n : ℕ) :
    (a.readStream si n).queueOf si = ((a.queueOf si).read n).1 ∧
      a.messageRead si (.read si n) = match ((a.queueOf si).read n).2 with
        | .ok message => [message]
        | .error _ => [] := by
  unfold messageRead readStream
  dsimp only
  rw [if_pos rfl]
  cases hs : a.stream? si with
  | none =>
    -- the queue of a stream that is not there is empty
    have hnone : a.queueOf si = ReassemblyQueue.new si := by
      unfold queueOf
      rw [hs]
    have hkept : (a.modifyStream si fun s => (s.readSctp n).1).queueOf si = ReassemblyQueue.new si := by
      unfold queueOf
      rw [stream?_modifyStream hopen, if_pos rfl, hs]
      rfl
    rw [hkept, hnone]
    exact ⟨rfl, rfl⟩
  | some s =>
    have hread : s.readShutdown = false := by
      cases hr : a.streams.lookup si with
      | none =>
        rw [stream?_of_none hr] at hs
        cases hs
      | some r =>
        obtain ⟨s', hs', hshut⟩ := hopen.isOpen si r hr
        rw [stream?_eq hr, hs', Option.some.injEq] at hs
        rw [← hs]
        exact hshut
    rw [queueOf_modifyStream hopen hs, reassemblyQueue_readSctp, queueOf_of_stream hs, hread]
    refine ⟨rfl, ?_⟩
    unfold Stream.readSctp
    dsimp only
    rw [if_neg (by rw [hread]; exact Bool.false_ne_true)]
    rcases s.reassemblyQueue.read n with ⟨q, e | message⟩
    · cases e <;> rfl
    · rfl

theorem queueOf_readStream_of_ne (hopen : a.StreamsOpen) (hne : si' ≠ si) (n : ℕ) :
    (a.readStream si' n).queueOf si = a.queueOf si := queueOf_modifyStream_of_ne hopen hne _

end AssociationInternal

/-! ## What has been sent stays sent -/

namespace SendLog

/-- Of two states of a sender, the second one comes later. -/
structure Grows (s s' : SendLog) : Prop where
  assigned : s.assigned <+: s'.assigned
  packets : s.packets <+: s'.packets

theorem Grows.refl (s : SendLog) : s.Grows s := ⟨List.prefix_rfl, List.prefix_rfl⟩

theorem Grows.trans {s s' s'' : SendLog} (h : s.Grows s') (h' : s'.Grows s'') : s.Grows s'' :=
  ⟨h.assigned.trans h'.assigned, h.packets.trans h'.packets⟩

theorem grows_step (s : SendLog) (si : U16) (op : SenderOp) : s.Grows (s.step si op) :=
  ⟨List.prefix_append _ _, List.prefix_append _ _⟩

end SendLog

/-! ## What the receiver has of what has been sent -/

namespace ReadLog

open AssociationInternal ReassemblyQueue SendLog

variable {si : U16} {maxLen : ℕ} {start : U32} {s : SendLog} {r : ReadLog}
  {blocks : List (List ChunkPayloadData)} {op : ReceiverOp}

/-- The queue of the stream collects the blocks, and what has been read was written. -/
structure Follows (si : U16) (s : SendLog) (start : U32) (blocks : List (List ChunkPayloadData))
    (r : ReadLog) : Prop where
  receipt : Receipt start r.accepted r.association
  streamsOpen : r.association.StreamsOpen
  addressed : r.association.QueuesAddressed
  reconfigRequests : r.association.reconfigRequests = ∅
  collects : (r.association.queueOf si).Collects r.accepted (arrivingBlocks blocks) r.read.length
  inOrder : r.read = (s.messages.map (·.content)).take r.read.length

theorem follows_of_meetsFresh {a b : AssociationInternal} (h : a.MeetsFresh b si) :
    Follows si s b.peerLastTsn blocks { association := b } where
  receipt := Receipt.new h.payloadQueue
  streamsOpen := StreamsOpen.new h.streams h.objects
  addressed si' obj hobj := by
    rw [stream?_of_none (by rw [h.streams]; exact AList.lookup_empty si')] at hobj
    cases hobj
  reconfigRequests := h.reconfigRequests
  collects := by
    have hnew : b.queueOf si = ReassemblyQueue.new si := by
      unfold queueOf
      rw [stream?_of_none (by rw [h.streams]; exact AList.lookup_empty si)]
    rw [hnew]
    exact Collects.new si
  inOrder := rfl

/-- What has been sent lies in the half of the space behind the start. -/
theorem Receives.arrivesNear (hop : r.Receives si maxLen s op)
    (hsender : Records si maxLen (start + 1) s) (hfew : s.assigned.length < 2 ^ 31) :
    ArrivesNear start op := by
  cases op with
  | data d =>
    obtain ⟨i, c, hc, rfl⟩ := hsender.exists_arriving hop.1
    have hi := (List.getElem?_eq_some_iff.mp hc).1
    show Serial.dist start c.tsn < 2 ^ 31
    rw [hsender.tsns i c hc, show (start + 1).after i = start.after (1 + i) from after_add start 1 i,
      dist_after start (by omega)]
    omega
  | forwardTsn c => exact absurd hop id
  | _ => trivial

/-- Where nothing is read, what has been read stays. -/
theorem Follows.quiet (h : Follows si s start blocks r) (hnear : ArrivesNear start op)
    (hread : r.association.messageRead si op = [])
    (hnone : (r.association.receiverStep op).reconfigRequests = ∅)
    (hcollects : ((r.association.receiverStep op).queueOf si).Collects
      (r.accepted ++ r.association.handedOver op) (arrivingBlocks blocks) r.read.length) :
    Follows si s start blocks (r.step si op) := by
  have hsame : (r.step si op).read = r.read := by
    show r.read ++ r.association.messageRead si op = _
    rw [hread, List.append_nil]
  refine ⟨h.receipt.step hnear, h.streamsOpen.streamStep (.receive op),
    h.addressed.streamStep h.streamsOpen (.receive op), hnone, ?_, ?_⟩
  · rw [hsame]
    exact hcollects
  · rw [hsame]
    exact h.inOrder

/-- A chunk of the sender arrives. -/
theorem Follows.data (h : Follows si s start blocks r) (hsender : Records si maxLen (start + 1) s)
    (hsent : SentIn si s blocks) (hfew : s.assigned.length < 2 ^ 31) {d : ChunkPayloadData}
    (hop : r.Receives si maxLen s (.data d)) : Follows si s start blocks (r.step si (.data d)) := by
  have hnear := hop.arrivesNear hsender hfew
  obtain ⟨hcarries, hreach⟩ := hop
  obtain ⟨i, c, hc, rfl⟩ := hsender.exists_arriving hcarries
  have hi := (List.getElem?_eq_some_iff.mp hc).1
  obtain ⟨hnone, hqueue⟩ := queueOf_handleData si h.streamsOpen h.reconfigRequests c.arriving
  refine h.quiet hnear rfl hnone ?_
  show ((r.association.handleData c.arriving).1.queueOf si).Collects
    (r.accepted ++ if r.association.handsOver c.arriving = true then [c.arriving.tsn] else []) _ _
  rw [hqueue]
  by_cases hover : r.association.handsOver c.arriving = true
  · rw [if_pos hover]
    have hinTurn := hsent.inTurn hsender hfew
    by_cases hsi : c.streamIdentifier = si
    · rw [if_pos ⟨hover, hsi⟩]
      -- the block of the chunk
      have hin : c ∈ blocks.flatten := by
        rw [hsent.flatten]
        exact List.mem_filter.mpr ⟨List.mem_of_getElem? hc, decide_eq_true hsi⟩
      obtain ⟨b, hb, hmem⟩ := List.mem_flatten.mp hin
      obtain ⟨j, hj⟩ := List.mem_iff_getElem?.mp hb
      have hblock : (arrivingBlocks blocks)[j]? = some (b.map (·.arriving)) := by
        unfold arrivingBlocks
        rw [List.getElem?_map, hj]
        rfl
      have hnew : c.arriving.tsn ∉ r.accepted := by
        have hin : c.arriving.tsn ∈ r.association.handedOver (.data c.arriving) := by
          unfold handedOver
          dsimp only
          rw [if_pos hover]
          exact List.mem_singleton_self _
        exact h.receipt.not_mem hin
      have hle := hsent.le_wholeBefore hsender hfew hc hj hmem
      have hlt := hreach hsi i hi c hc rfl
      exact h.collects.push hinTurn (si_queueOf h.addressed) hblock (List.mem_map_of_mem hmem) hnew
        (by omega)
    · rw [if_neg fun hboth => hsi hboth.2]
      refine h.collects.other ?_
      -- another chunk of the sender has another TSN
      intro b hb d hd heq
      have hin : d ∈ (arrivingBlocks blocks).flatten := List.mem_flatten_of_mem hb hd
      rw [flatten_arrivingBlocks, hsent.flatten] at hin
      obtain ⟨c', hc', rfl⟩ := List.mem_map.mp hin
      obtain ⟨hassigned, hsi'⟩ := List.mem_filter.mp hc'
      have hsame := List.inj_on_of_nodup_map (hsender.nodup hfew) hassigned
        (List.mem_of_getElem? hc) heq
      rw [hsame] at hsi'
      exact hsi (of_decide_eq_true hsi')
  · rw [if_neg hover, if_neg fun hboth => hover hboth.1, List.append_nil]
    exact h.collects

/-- A read gives the next message, if it is whole, and nothing otherwise. -/
theorem Follows.read_cases (h : Follows si s start blocks r)
    (hsender : Records si maxLen (start + 1) s) (hsent : SentIn si s blocks)
    (hfew : s.assigned.length < 2 ^ 31) {n : ℕ} (hn : maxLen ≤ n) :
    (∃ b w, (arrivingBlocks blocks)[r.read.length]? = some b ∧ Whole r.accepted b ∧
      s.messages[r.read.length]? = some w ∧ r.association.messageRead si (.read si n) = [w.content] ∧
      ((r.association.readStream si n).queueOf si).Collects r.accepted (arrivingBlocks blocks)
        (r.read.length + 1)) ∨
    ((∀ b, (arrivingBlocks blocks)[r.read.length]? = some b → ¬ Whole r.accepted b) ∧
      r.association.messageRead si (.read si n) = [] ∧
      ((r.association.readStream si n).queueOf si).Collects r.accepted (arrivingBlocks blocks)
        r.read.length) := by
  have hinTurn := hsent.inTurn hsender hfew
  obtain ⟨hqueue, hmessage⟩ := queueOf_readStream si h.streamsOpen n
  rw [hqueue, hmessage]
  by_cases hwhole : ∃ b, (arrivingBlocks blocks)[r.read.length]? = some b ∧ Whole r.accepted b
  · obtain ⟨b, hb, hall⟩ := hwhole
    obtain ⟨c, hc⟩ := List.exists_mem_of_ne_nil b (hinTurn.isBlock _ b hb).ne_nil
    obtain ⟨w, hw, hcontent, hlen⟩ := hsent.content hsender hb hall.2 hc
    have hbytes : chunksBytes b ≤ n := by
      have hdata : chunksData b = w.data := congrArg Prod.fst hcontent
      rw [chunksBytes_eq_length, hdata]
      omega
    obtain ⟨hgives, hcollects⟩ := h.collects.read_of_whole hinTurn hb hall hc hbytes
    refine Or.inl ⟨b, w, hb, hall, hw, ?_, hcollects⟩
    rw [hgives, hcontent]
  · have hnot : ∀ b, (arrivingBlocks blocks)[r.read.length]? = some b → ¬ Whole r.accepted b :=
      fun b hb hall => hwhole ⟨b, hb, hall⟩
    have hempty := h.collects.read_of_not_whole hinTurn hnot n
    refine Or.inr ⟨hnot, ?_, ?_⟩
    · rw [hempty]
    · rw [hempty]
      exact h.collects

theorem Follows.read (h : Follows si s start blocks r) (hsender : Records si maxLen (start + 1) s)
    (hsent : SentIn si s blocks) (hfew : s.assigned.length < 2 ^ 31) {n : ℕ} (hn : maxLen ≤ n) :
    Follows si s start blocks (r.step si (.read si n)) := by
  have hnone : (r.association.receiverStep (.read si n)).reconfigRequests = ∅ :=
    (reconfigRequests_ignoresStreams.modifyStream _ _ _).trans h.reconfigRequests
  have hsame : r.accepted ++ r.association.handedOver (.read si n) = r.accepted := List.append_nil _
  rcases h.read_cases hsender hsent hfew hn with ⟨_, w, _, _, hw, hgives, hcollects⟩ |
    ⟨_, hgives, hcollects⟩
  · have hread : (r.step si (.read si n)).read = r.read ++ [w.content] := by
      show r.read ++ r.association.messageRead si (.read si n) = _
      rw [hgives]
    refine ⟨h.receipt.step trivial, h.streamsOpen.streamStep (.receive (.read si n)),
      h.addressed.streamStep h.streamsOpen (.receive (.read si n)), hnone, ?_, ?_⟩
    · rw [hread, List.length_append]
      show ((r.association.readStream si n).queueOf si).Collects
        (r.accepted ++ r.association.handedOver (.read si n)) _ _
      rw [hsame]
      exact hcollects
    · rw [hread, List.length_append, List.length_singleton, List.take_add_one, ← h.inOrder,
        List.getElem?_map, hw]
      rfl
  · refine h.quiet trivial hgives hnone ?_
    rw [hsame]
    exact hcollects

/-- **What one operation of the receiver keeps.** -/
theorem Follows.step (h : Follows si s start blocks r) (hsender : Records si maxLen (start + 1) s)
    (hsent : SentIn si s blocks) (hfew : s.assigned.length < 2 ^ 31)
    (hop : r.Receives si maxLen s op) : Follows si s start blocks (r.step si op) := by
  cases op with
  | data d => exact h.data hsender hsent hfew hop
  | forwardTsn c => exact absurd hop id
  | reconfig c => exact absurd hop id
  | accept =>
    refine h.quiet trivial rfl ((reconfigRequests_ignoresStreams.acceptStream _).trans h.reconfigRequests) ?_
    show (r.association.acceptStream.1.queueOf si).Collects (r.accepted ++ []) _ _
    rw [queueOf_acceptStream, List.append_nil]
    exact h.collects
  | read si' n =>
    by_cases hsi : si' = si
    · subst hsi
      exact h.read hsender hsent hfew (hop rfl)
    · refine h.quiet trivial (if_neg hsi) ((reconfigRequests_ignoresStreams.modifyStream _ _ _).trans
        h.reconfigRequests) ?_
      show ((r.association.readStream si' n).queueOf si).Collects (r.accepted ++ []) _ _
      rw [queueOf_readStream_of_ne h.streamsOpen hsi, List.append_nil]
      exact h.collects

/-- A SACK takes only the record of the duplicates along. -/
theorem Follows.reply (h : Follows si s start blocks r) :
    Follows si s start blocks { r with association := r.association.createSelectiveAckChunk.1 } where
  receipt := h.receipt.createSelectiveAckChunk
  streamsOpen := by
    have htable : r.association.createSelectiveAckChunk.1.streamTable = r.association.streamTable := rfl
    exact ofStreams_streamsOpen.congr htable h.streamsOpen
  addressed si' obj hobj := h.addressed si' obj hobj
  reconfigRequests := h.reconfigRequests
  collects := h.collects
  inOrder := h.inOrder

/-! ## Reading to the end -/

theorem chunksOfFirst_eq (k : ℕ) :
    s.chunksOfFirst k = ((s.messages.map (·.chunks)).take k).flatten.length := by
  unfold chunksOfFirst
  rw [← List.map_take, List.flatMap_def]

/-- The chunks of a message of which no block is missing. -/
theorem sentOfMessage_eq (hsent : SentIn si s blocks) {j : ℕ} {b : List ChunkPayloadData}
    (hb : blocks[j]? = some b) (hall : (s.messages.map (·.chunks))[j]? = some (b.map (·.unsent))) :
    s.sentOfMessage si j = b ∧ s.chunksOfFirst (j + 1) ≤ (s.sentOf si).length := by
  have hat : (blocks.map (·.map (·.unsent)))[j]? = some (b.map (·.unsent)) := by
    rw [List.getElem?_map, hb]
    rfl
  have hupto := hsent.cutOff.take_succ_eq hat hall
  have hbefore : (blocks.map (·.map (·.unsent))).take j = (s.messages.map (·.chunks)).take j := by
    have htake := congrArg (List.take j) hupto
    rwa [List.take_take, List.take_take, Nat.min_eq_left (Nat.le_succ j)] at htake
  have hcount : ∀ i, (blocks.map (·.map (·.unsent))).take i = (s.messages.map (·.chunks)).take i →
      s.chunksOfFirst i = (blocks.take i).flatten.length := by
    intro i hi
    rw [chunksOfFirst_eq, ← hi, ← List.map_take, ← List.map_flatten, List.length_map]
  have hsplit : (blocks.take (j + 1)).flatten ++ (blocks.drop (j + 1)).flatten = s.sentOf si := by
    rw [← List.flatten_append, List.take_append_drop]
    exact hsent.flatten
  refine ⟨?_, ?_⟩
  · unfold sentOfMessage
    rw [hcount (j + 1) hupto, hcount j hbefore, ← hsplit, List.take_left, List.take_add_one, hb,
      Option.toList_some, List.flatten_append, List.flatten_singleton, List.drop_left]
  · rw [hcount (j + 1) hupto, ← hsplit, List.length_append]
    exact Nat.le_add_right _ _

/-- A message that has been sent to the end is a block. -/
theorem exists_block (hsender : Records si maxLen (start + 1) s) (hsent : SentIn si s blocks) {j : ℕ}
    (hj : j < s.messages.length) (hlen : s.chunksOfFirst (j + 1) ≤ (s.sentOf si).length) :
    ∃ b, blocks[j]? = some b ∧ (s.messages.map (·.chunks))[j]? = some (b.map (·.unsent)) := by
  have htake : (blocks.map (·.map (·.unsent))).take (j + 1) = (s.messages.map (·.chunks)).take (j + 1) := by
    refine hsent.cutOff.take_eq ?_ ?_
    · intro m hm
      obtain ⟨w, hw, rfl⟩ := List.mem_map.mp hm
      obtain ⟨i, hi⟩ := List.mem_iff_getElem?.mp hw
      obtain ⟨header, hfragments, _⟩ := (hsender.messages i w hi).fragments
      exact hfragments.ne_nil
    · rw [← chunksOfFirst_eq, ← List.map_flatten, List.length_map, hsent.flatten]
      exact hlen
  have hat : (blocks.map (·.map (·.unsent)))[j]? = (s.messages.map (·.chunks))[j]? := by
    rw [← List.getElem?_take_of_lt (Nat.lt_succ_self j), htake,
      List.getElem?_take_of_lt (Nat.lt_succ_self j)]
  rw [← hat, List.getElem?_map]
  rw [List.getElem?_map, List.getElem?_map, List.getElem?_eq_getElem hj] at hat
  obtain ⟨b, hb, _⟩ := Option.map_eq_some_iff.mp hat
  exact ⟨b, hb, by rw [hb]; rfl⟩

/-- **A message is there as a whole** exactly if its block is. -/
theorem hasMessage_iff (hsender : Records si maxLen (start + 1) s) (hsent : SentIn si s blocks) {j : ℕ} :
    HasMessage si s r j ↔ ∃ b, (arrivingBlocks blocks)[j]? = some b ∧ Whole r.accepted b := by
  constructor
  · rintro ⟨hj, hlen, haccepted⟩
    obtain ⟨b, hb, hall⟩ := exists_block hsender hsent hj hlen
    rw [(sentOfMessage_eq hsent hb hall).1] at haccepted
    refine ⟨b.map (·.arriving), ?_, ?_, SentIn.endsMessage hsender hall⟩
    · unfold arrivingBlocks
      rw [List.getElem?_map, hb]
      rfl
    · unfold acceptedOf
      rw [List.filter_eq_self]
      intro d hd
      obtain ⟨c, hc, rfl⟩ := List.mem_map.mp hd
      exact decide_eq_true (haccepted c hc)
  · rintro ⟨d, hd, haccepted, hends⟩
    unfold arrivingBlocks at hd
    rw [List.getElem?_map] at hd
    obtain ⟨b, hb, rfl⟩ := Option.map_eq_some_iff.mp hd
    obtain ⟨w, hw, hchunks, _⟩ := hsent.whole hsender hb hends
    obtain ⟨hmessage, hlen⟩ := sentOfMessage_eq hsent hb (by rw [List.getElem?_map, hw, hchunks]; rfl)
    refine ⟨(List.getElem?_eq_some_iff.mp hw).1, hlen, fun c hc => ?_⟩
    rw [hmessage] at hc
    have hin := List.mem_map_of_mem (f := ChunkPayloadData.arriving) hc
    rw [← haccepted] at hin
    exact (mem_acceptedOf.mp hin).2

theorem chunksOfFirst_mono {j k : ℕ} (h : j ≤ k) : s.chunksOfFirst j ≤ s.chunksOfFirst k := by
  unfold chunksOfFirst
  obtain ⟨more, hmore⟩ := List.take_prefix_take_left (l := s.messages) h
  rw [← hmore, List.flatMap_append, List.length_append]
  exact Nat.le_add_right _ _

/-- Each of the first messages that have been accepted is there as a whole. -/
theorem Accepted.hasMessage {k : ℕ} (hk : Accepted si s r k) {j : ℕ} (hjk : j < k)
    (hj : j < s.messages.length) : HasMessage si s r j where
  written := hj
  sent := Nat.le_trans (chunksOfFirst_mono hjk) hk.sent
  accepted c hc := hk.accepted c
    ((List.take_prefix_take_left (chunksOfFirst_mono hjk)).subset (List.mem_of_mem_drop hc))

/-- As long as the next message is whole, every read gives one. -/
theorem Follows.reads (h : Follows si s start blocks r) (hsender : Records si maxLen (start + 1) s)
    (hsent : SentIn si s blocks) (hfew : s.assigned.length < 2 ^ 31) {n k : ℕ} (hn : maxLen ≤ n)
    (hk : ∀ j < k, ∃ b, (arrivingBlocks blocks)[j]? = some b ∧ Whole r.accepted b) (m : ℕ) :
    Follows si s start blocks (Runs.run (ReadLog.step si) r (List.replicate m (.read si n))) ∧
      min k (r.read.length + m) ≤ (Runs.run (ReadLog.step si) r (List.replicate m (.read si n))).read.length := by
  induction m generalizing r with
  | zero => exact ⟨h, by rw [Nat.add_zero]; exact Nat.min_le_right _ _⟩
  | succ m ih =>
    have hsame : (r.step si (.read si n)).accepted = r.accepted := List.append_nil _
    obtain ⟨hfollows, hlen⟩ := ih (h.read hsender hsent hfew hn) (by rw [hsame]; exact hk)
    refine ⟨hfollows, Nat.le_trans ?_ hlen⟩
    have hread : (r.step si (.read si n)).read.length =
        r.read.length + (r.association.messageRead si (.read si n)).length := List.length_append
    rw [hread]
    rcases h.read_cases hsender hsent hfew hn with ⟨_, _, _, _, _, hgives, _⟩ | ⟨hnot, hgives, _⟩
    · rw [hgives, List.length_singleton]
      omega
    · -- nothing is left of the whole messages
      have hdone : k ≤ r.read.length := by
        by_contra hlt
        obtain ⟨b, hb, hwhole⟩ := hk r.read.length (by omega)
        exact hnot b hb hwhole
      omega

/-- A read gives one message at most. -/
theorem length_messageRead_le (a : AssociationInternal) (si : U16) (n : ℕ) :
    (a.messageRead si (.read si n)).length ≤ 1 := by
  unfold messageRead
  dsimp only
  rw [if_pos rfl]
  split
  · exact Nat.zero_le _
  · split
    · exact Nat.le_refl _
    · exact Nat.zero_le _

theorem length_read_le (r : ReadLog) (si : U16) (n m : ℕ) :
    (Runs.run (ReadLog.step si) r (List.replicate m (.read si n))).read.length ≤ r.read.length + m := by
  induction m generalizing r with
  | zero => exact Nat.le_refl _
  | succ m ih =>
    have hread : (r.step si (.read si n)).read.length =
        r.read.length + (r.association.messageRead si (.read si n)).length := List.length_append
    have hone := length_messageRead_le r.association si n
    have hrest := ih (r.step si (.read si n))
    rw [List.replicate_succ, Runs.run_cons]
    omega

/-- The first messages are read once all of them has been accepted. -/
theorem Follows.readAfter_of_accepted (h : Follows si s start blocks r)
    (hsender : Records si maxLen (start + 1) s) (hsent : SentIn si s blocks)
    (hfew : s.assigned.length < 2 ^ 31) {k n : ℕ} (hk : Accepted si s r k) (hn : maxLen ≤ n) :
    (s.messages.take k).map (·.content) <+: r.readAfter si k n ∧
      r.readAfter si k n <+: s.messages.map (·.content) := by
  obtain ⟨hfollows, hlen⟩ := h.reads hsender hsent hfew hn (k := min k s.messages.length)
    (fun j hj => (hasMessage_iff hsender hsent).mp (hk.hasMessage (by omega) (by omega))) k
  unfold readAfter
  rw [hfollows.inOrder, List.map_take]
  refine ⟨?_, List.take_prefix _ _⟩
  by_cases hall : s.messages.length ≤ k
  · refine ⟨[], ?_⟩
    rw [List.append_nil, List.take_of_length_le (i := k) (by rw [List.length_map]; exact hall),
      List.take_of_length_le (by rw [List.length_map]; omega)]
  · exact List.take_prefix_take_left (by omega)

/-- No read more than the missing ones is needed. -/
theorem Follows.readsInTurn (h : Follows si s start blocks r)
    (hsender : Records si maxLen (start + 1) s) (hsent : SentIn si s blocks)
    (hfew : s.assigned.length < 2 ^ 31) : r.ReadsInTurn si maxLen s where
  inOrder := by
    rw [h.inOrder]
    exact List.take_prefix _ _
  succeeds k hle hk hread n hn := by
    obtain ⟨hfollows, hlen⟩ := h.reads hsender hsent hfew hn (k := k)
      (fun j hj => (hasMessage_iff hsender hsent).mp (hk.hasMessage hj (by omega))) (k - r.read.length)
    -- a read gives one message at most
    have hmost := length_read_le r si n (k - r.read.length)
    unfold readAfter
    rw [hfollows.inOrder, List.map_take]
    congr 1
    omega

/-- A read gives the next message exactly if it is there as a whole. -/
theorem Follows.deliversInOrder (h : Follows si s start blocks r)
    (hsender : Records si maxLen (start + 1) s) (hsent : SentIn si s blocks)
    (hfew : s.assigned.length < 2 ^ 31) : r.DeliversInOrder si maxLen s where
  inOrder := by
    rw [h.inOrder]
    exact List.take_prefix _ _
  next n hn := by
    rcases h.read_cases hsender hsent hfew hn with ⟨b, w, hb, hwhole, hw, hgives, _⟩ | ⟨hnot, hgives, _⟩
    · rw [if_pos ((hasMessage_iff hsender hsent).mpr ⟨b, hb, hwhole⟩), hw, hgives]
      rfl
    · have hmissing : ¬ HasMessage si s r r.read.length := by
        rw [hasMessage_iff hsender hsent]
        rintro ⟨b, hb, hwhole⟩
        exact hnot b hb hwhole
      rw [if_neg hmissing, hgives]

/-- Where a chunk stands in what has been sent does not change. -/
theorem InReach.later {s' : SendLog} {first : U32} {d c : ChunkPayloadData} {i : ℕ}
    (h : r.InReach si s d) (hgrows : s.Grows s') (hsender : Records si maxLen first s)
    (hsender' : Records si maxLen first s') (hfew : s'.assigned.length < 2 ^ 31)
    (hc : s.assigned[i]? = some c) (htsn : c.tsn = d.tsn) : r.InReach si s' d := by
  intro hsi i' hi' c' hc' htsn'
  obtain ⟨more, hmore⟩ := hgrows.assigned
  have hi := (List.getElem?_eq_some_iff.mp hc).1
  have hlen := congrArg List.length hmore
  rw [List.length_append] at hlen
  have hsame : i' = i := by
    rw [← htsn, hsender'.tsns i' c' hc', hsender.tsns i c hc] at htsn'
    have hdist := congrArg (Serial.dist first) htsn'
    rw [dist_after first (by omega), dist_after first (by omega)] at hdist
    exact hdist
  rw [hsame]
  have hwhole : s'.wholeBefore si i = s.wholeBefore si i := by
    unfold wholeBefore
    rw [← hmore, List.take_append_of_le_length (by omega)]
  rw [hwhole]
  exact h hsi i hi c hc htsn

/-- What has been sent stays sent. -/
theorem Receives.later {s' : SendLog} {first : U32} (hop : r.Receives si maxLen s op)
    (hgrows : s.Grows s') (hsender : Records si maxLen first s) (hsender' : Records si maxLen first s')
    (hfew : s'.assigned.length < 2 ^ 31) : r.Receives si maxLen s' op := by
  cases op with
  | data d =>
    obtain ⟨⟨p, hp, hin⟩, hreach⟩ := hop
    obtain ⟨i, c, hc, rfl⟩ := hsender.exists_arriving ⟨p, hp, hin⟩
    exact ⟨⟨p, hgrows.packets.subset hp, hin⟩, hreach.later hgrows hsender hsender' hfew hc rfl⟩
  | forwardTsn c => exact hop
  | reconfig c => exact hop
  | accept => trivial
  | read si' n => exact hop

end ReadLog

/-! ## Runs of the link -/

namespace Link

open SendLog ReadLog

variable {si : U16} {maxLen : ℕ} {l : Link} {ops : List LinkOp}

theorem records_run {first : U32} (h : Records si maxLen first l.sender)
    (hops : Runs.Along (step si) (Permits si maxLen) l ops) :
    Records si maxLen first (Runs.run (step si) l ops).sender ∧
      l.sender.Grows (Runs.run (step si) l ops).sender := by
  induction ops generalizing l with
  | nil => exact ⟨h, .refl _⟩
  | cons op ops ih =>
    obtain ⟨hop, hrest⟩ := hops
    cases op with
    | send op =>
      obtain ⟨hrun, hgrows⟩ := ih (l := l.step si (.send op)) (h.step hop) hrest
      exact ⟨hrun, (l.sender.grows_step si op).trans hgrows⟩
    | receive op => exact ih (l := l.step si (.receive op)) h hrest
    | reply => exact ih (l := l.step si .reply) h hrest

/-- The receiver follows the sender as it will be in the end. -/
theorem follows_run {first : U32} {s : SendLog} {blocks : List (List ChunkPayloadData)}
    (h : Follows si s first blocks l.receiver) (hsender : Records si maxLen (first + 1) l.sender)
    (hops : Runs.Along (step si) (Permits si maxLen) l ops)
    (hgrows : (Runs.run (step si) l ops).sender.Grows s) (hs : Records si maxLen (first + 1) s)
    (hsent : SentIn si s blocks) (hfew : s.assigned.length < 2 ^ 31) :
    Follows si s first blocks (Runs.run (step si) l ops).receiver := by
  induction ops generalizing l with
  | nil => exact h
  | cons op ops ih =>
    have hall := (records_run hsender hops).2.trans hgrows
    obtain ⟨hop, hrest⟩ := hops
    cases op with
    | send op => exact ih (l := l.step si (.send op)) h (hsender.step hop) hrest hgrows
    | receive op =>
      exact ih (l := l.step si (.receive op)) (h.step hs hsent hfew (hop.later hall hsender hs hfew))
        hsender hrest hgrows
    | reply => exact ih (l := l.step si .reply) h.reply hsender hrest hgrows

/-- Of what has been sent the receiver of a run has the blocks that it has accepted. -/
theorem exists_follows {a b : AssociationInternal} (h : a.MeetsFresh b si)
    (hops : Runs.Along (step si) (Permits si maxLen) (start a b) ops)
    (hfew : (Runs.run (step si) (start a b) ops).sender.assigned.length < 2 ^ 31) :
    Records si maxLen (b.peerLastTsn + 1) (Runs.run (step si) (start a b) ops).sender ∧
      ∃ blocks, SentIn si (Runs.run (step si) (start a b) ops).sender blocks ∧
        Follows si (Runs.run (step si) (start a b) ops).sender b.peerLastTsn blocks
          (Runs.run (step si) (start a b) ops).receiver := by
  have hstart : Records si maxLen (b.peerLastTsn + 1) (start a b).sender := by
    rw [h.firstTsn]
    exact records_of_meetsFresh h
  obtain ⟨hrecords, _⟩ := records_run hstart hops
  obtain ⟨blocks, hsent⟩ := hrecords.exists_blocks
  exact ⟨hrecords, blocks, hsent,
    follows_run (follows_of_meetsFresh h) hstart hops (.refl _) hrecords hsent hfew⟩

/-- **Ordered reliable delivery**: in every run of a sender, its receiver and a network that loses,
repeats and reorders, what has been read are the first of the messages that were written, and once
the chunks of the first messages have been accepted, every read that is missing gives the next one. -/
theorem readsInTurn_of_run {a b : AssociationInternal} (h : a.MeetsFresh b si)
    (hops : Runs.Along (step si) (Permits si maxLen) (start a b) ops)
    (hfew : (Runs.run (step si) (start a b) ops).sender.assigned.length < 2 ^ 31) :
    (Runs.run (step si) (start a b) ops).receiver.ReadsInTurn si maxLen
      (Runs.run (step si) (start a b) ops).sender := by
  obtain ⟨hrecords, _, hsent, hfollows⟩ := exists_follows h hops hfew
  exact hfollows.readsInTurn hrecords hsent hfew

/-- **A read waits for nothing else**: in every such run the next read gives the message that is next
exactly if all of its chunks have been accepted, whatever is there or missing of the others. -/
theorem deliversInOrder_of_run {a b : AssociationInternal} (h : a.MeetsFresh b si)
    (hops : Runs.Along (step si) (Permits si maxLen) (start a b) ops)
    (hfew : (Runs.run (step si) (start a b) ops).sender.assigned.length < 2 ^ 31) :
    (Runs.run (step si) (start a b) ops).receiver.DeliversInOrder si maxLen
      (Runs.run (step si) (start a b) ops).sender := by
  obtain ⟨hrecords, _, hsent, hfollows⟩ := exists_follows h hops hfew
  exact hfollows.deliversInOrder hrecords hsent hfew

/-- A sender that cuts messages after two bytes. -/
def cutting : AssociationInternal := { AssociationInternal.wideOpen with maxPayloadSize := 2 }

/-- A receiver that waits for the first TSN of the sender. -/
def awaiting : AssociationInternal :=
  { AssociationInternal.justEstablished with peerLastTsn := 0xfffffffe }

/-- A message of two chunks, one of another stream, and one more; all are sent at once. -/
def threeSent : List LinkOp :=
  [.send (.openStream 1 .binary), .send (.openStream 2 .binary), .send (.write 0 [1, 2, 3] .binary),
    .send (.write 1 [9] .binary), .send (.write 0 [4] .string), .send (.gather 0)]

/-- The chunks of stream 1 arrive backwards, one of them twice; the chunk of stream 2 is lost. -/
def backwards : List LinkOp :=
  let first : ChunkPayloadData :=
    { tsn := 0xffffffff, streamIdentifier := 1, beginningFragment := true, userData := [1, 2]
      payloadType := .binary }
  let second : ChunkPayloadData :=
    { tsn := 0, streamIdentifier := 1, endingFragment := true, userData := [3], payloadType := .binary }
  let third : ChunkPayloadData :=
    { tsn := 2, streamIdentifier := 1, streamSequenceNumber := 1, beginningFragment := true
      endingFragment := true, userData := [4], payloadType := .string }
  [.receive (.data third), .receive (.data second), .receive (.data second), .receive (.read 1 16),
    .receive (.data first), .receive .accept, .receive (.read 1 16), .receive (.read 1 16)]

theorem cutting_meetsFresh (si : U16) : cutting.MeetsFresh awaiting si where
  fresh := { AssociationInternal.wideOpen_fresh with maxPayloadSize := by decide }
  established := rfl
  registered := by
    intro r s hs
    cases hs
  controlQueue := rfl
  unnumbered s hs := by cases hs
  payloadQueue := rfl
  reconfigRequests := rfl
  streams := rfl
  objects := rfl
  firstTsn := by decide

theorem readsInTurn_backwards :
    let l := Runs.run (step 1) (start cutting awaiting) (threeSent ++ backwards)
    l.receiver.ReadsInTurn 1 16 l.sender ∧
      l.receiver.read = [([1, 2, 3], .binary), ([4], .string)] :=
  ⟨readsInTurn_of_run (cutting_meetsFresh 1) (by decide +kernel) (by decide +kernel),
    by decide +kernel⟩

/-- Before the first chunk has arrived a read waits, afterwards it gives the first message. -/
theorem deliversInOrder_backwards :
    let l := Runs.run (step 1) (start cutting awaiting) (threeSent ++ backwards.take 4)
    let l' := Runs.run (step 1) (start cutting awaiting) (threeSent ++ backwards.take 5)
    (l.receiver.DeliversInOrder 1 16 l.sender ∧
      l.receiver.association.messageRead 1 (.read 1 16) = []) ∧
    l'.receiver.DeliversInOrder 1 16 l'.sender ∧
      l'.receiver.association.messageRead 1 (.read 1 16) = [([1, 2, 3], .binary)] :=
  ⟨⟨deliversInOrder_of_run (cutting_meetsFresh 1) (by decide +kernel) (by decide +kernel),
      by decide +kernel⟩,
    deliversInOrder_of_run (cutting_meetsFresh 1) (by decide +kernel) (by decide +kernel),
    by decide +kernel⟩

end Link

end Sctp
