import Sctp.Association.EmissionTheorems
import Sctp.Association.HandshakeTheorems
import Sctp.Association.StreamTableTheorems

/-!
# What a packet is answered with

A handler queues packets of the handshake, reports of errors and responses to reset requests;
data, its acknowledgement and a shutdown come from gathering alone.
-/

namespace Sctp

namespace AssociationInternal

variable {a a' : AssociationInternal}

/-! ## One chunk after the other -/

/-- A chunk that is handled without an error was dispatched without one. -/
theorem handleChunk_ok {now : ℕ} {p : Packet} {c : Chunk}
    (h : (a.handleChunk now p c).2.isOk = true) : (a.dispatchChunk now p c).2.isOk = true := by
  unfold handleChunk at h
  split at h
  · cases h
  · revert h
    generalize a.dispatchChunk now p c = r
    obtain ⟨b, e | packets⟩ := r
    · exact id
    · exact fun _ => rfl

/-- If a packet that passes its check is handled without an error, so are its chunks. -/
theorem handleInbound_ok {now : ℕ} {p : Packet} (hcheck : p.checkPacket.isOk = true)
    (h : (a.handleInbound now p).2.isOk = true) :
    (handleChunks now p a.handleChunkStart p.chunks).2.isOk = true := by
  unfold handleInbound at h
  split at h
  · rename_i e he
    rw [he] at hcheck
    cases hcheck
  · revert h
    generalize handleChunks now p a.handleChunkStart p.chunks = r
    obtain ⟨b, e | u⟩ := r
    · exact id
    · exact fun _ => rfl

/-- What every handler keeps together with its answer, a packet keeps. Where the packet is
accepted, its chunks are. -/
theorem handleInbound_invariant {I : AssociationInternal → Prop} {now : ℕ} {p : Packet}
    (hack : ∀ b delayed immediate ackState ackTimer, I b → I { b with
      delayedAckTriggered := delayed, immediateAckTriggered := immediate, ackState, ackTimer })
    (hdispatch : ∀ b c, c ∈ p.chunks → c.check.isOk = true →
      ((a.handleInbound now p).2.isOk = true → (b.dispatchChunk now p c).2.isOk = true) → I b →
      I (queueing (b.dispatchChunk now p c)))
    (h : I a) : I (a.handleInbound now p).1 := by
  have hchunk : ∀ b c, c ∈ p.chunks →
      ((a.handleInbound now p).2.isOk = true → (b.handleChunk now p c).2.isOk = true) → I b →
      I (b.handleChunk now p c).1 := by
    intro b c hc hok hb
    have hone := fun hcheck => hdispatch b c hc hcheck (fun h => handleChunk_ok (hok h)) hb
    unfold handleChunk
    split
    · exact hb
    · rename_i u hcheck
      have hone := hone (by rw [hcheck]; rfl)
      revert hone
      generalize b.dispatchChunk now p c = r
      obtain ⟨b', e | packets⟩ := r
      · exact id
      · exact id
  have hchunks : ∀ (cs : List Chunk) b, (∀ c ∈ cs, c ∈ p.chunks) →
      ((a.handleInbound now p).2.isOk = true → (handleChunks now p b cs).2.isOk = true) → I b →
      I (handleChunks now p b cs).1 := by
    intro cs
    induction cs with
    | nil => exact fun b _ _ hb => hb
    | cons c cs ih =>
      intro b hmem hok hb
      have hone := hchunk b c (hmem c List.mem_cons_self)
      unfold handleChunks at hok ⊢
      generalize b.handleChunk now p c = r at hone hok ⊢
      obtain ⟨b', e | u⟩ := r
      · exact hone hok hb
      · exact ih b' (fun c' hc' => hmem c' (List.mem_cons_of_mem _ hc')) hok (hone (fun _ => rfl) hb)
  have hok := @handleInbound_ok a now p
  generalize (a.handleInbound now p).2.isOk = accepted at hchunks hok
  unfold handleInbound
  split
  · exact h
  · rename_i u hcheck
    have hstart : I a.handleChunkStart := hack a false false a.ackState a.ackTimer h
    have hall := hchunks p.chunks a.handleChunkStart (fun c hc => hc)
      (hok (by rw [hcheck]; rfl)) hstart
    generalize handleChunks now p a.handleChunkStart p.chunks = r at hall ⊢
    obtain ⟨b, e | u⟩ := r
    · exact hall
    · dsimp only
      unfold handleChunkEnd
      split
      · exact hack b b.delayedAckTriggered b.immediateAckTriggered _ _ hall
      · split
        · exact hack b b.delayedAckTriggered b.immediateAckTriggered _ _ hall
        · exact hall

/-! ## Answers -/

/-- The packets a handler answers with. -/
def answer (r : AssociationInternal × Except Error (List Packet)) : List Packet :=
  match r.2 with
  | .ok packets => packets
  | .error _ => []

/-- Handshake packets, reports of errors and answers to a HEARTBEAT have no chunk of the kind. -/
structure NotAnswered (kind : Chunk → Bool) : Prop where
  init : ∀ i, kind (.init i) = false
  cookieEcho : ∀ cookie, kind (.cookieEcho cookie) = false
  cookieAck : kind .cookieAck = false
  error : ∀ causes, kind (.error causes) = false
  heartbeatAck : ∀ params, kind (.heartbeatAck params) = false

namespace NotAnswered

variable {kind : Chunk → Bool}

/-- A packet of one chunk that is not of the kind emits none of the kind. -/
theorem single {c : Chunk} (hc : kind c = false) (a : AssociationInternal) :
    emits kind [a.createPacket [c]] = false := by
  rw [emits_singleton, List.any_cons, hc]
  rfl

/-- An INIT ACK queues at most a COOKIE ECHO. -/
theorem handleInitAck (hk : NotAnswered kind) (a : AssociationInternal) (p : Packet)
    (i : ChunkInit) :
    ∃ new, (a.handleInitAck p i).1.controlQueue = a.controlQueue ++ new ∧
      emits kind new = false ∧ emits kind (answer (a.handleInitAck p i)) = false := by
  unfold AssociationInternal.handleInitAck
  split
  · exact ⟨[], (List.append_nil _).symm, rfl, rfl⟩
  · dsimp only
    split
    · exact ⟨[], (List.append_nil _).symm, rfl, rfl⟩
    · cases cookieParam i.params with
      | none => exact ⟨[], (List.append_nil _).symm, rfl, rfl⟩
      | some cookie => exact ⟨_, rfl, single (hk.cookieEcho cookie) _, rfl⟩

/-- An INIT is answered with an INIT ACK at most. -/
theorem handleInit (hk : NotAnswered kind) (a : AssociationInternal) (p : Packet) (i : ChunkInit) :
    emits kind (answer (a.handleInit p i)) = false := by
  unfold AssociationInternal.handleInit
  split
  · rfl
  · exact single (hk.init _) _

/-- A COOKIE ECHO is answered with a COOKIE ACK at most. -/
theorem handleCookieEcho (hk : NotAnswered kind) (a : AssociationInternal) (cookie : Bytes) :
    emits kind (a.handleCookieEcho cookie).2 = false := by
  have hack : ∀ b : AssociationInternal, emits kind [b.createPacket [.cookieAck]] = false :=
    fun b => single hk.cookieAck b
  unfold AssociationInternal.handleCookieEcho
  dsimp only
  split
  · rfl
  · split
    · split
      · rfl
      · exact hack _
    · split
      · rfl
      · exact hack _
    · split
      · rfl
      · exact hack _
    · split
      · rfl
      · exact hack _
    · rfl

/-- A HEARTBEAT is answered with a HEARTBEAT ACK at most. -/
theorem handleHeartbeat (hk : NotAnswered kind) (a : AssociationInternal) (params : List Param) :
    emits kind (a.handleHeartbeat params) = false := by
  unfold AssociationInternal.handleHeartbeat
  split
  · exact single (hk.heartbeatAck _) _
  · rfl

/-- An unknown chunk is answered with an ERROR at most, as the upper bits of its type ask. -/
theorem handleUnknown (hk : NotAnswered kind) (a : AssociationInternal) (hdr : ChunkHeader)
    (value : Bytes) :
    ∃ new, (a.handleUnknown hdr value).1.controlQueue = a.controlQueue ++ new ∧
      emits kind new = false ∧ emits kind (answer (a.handleUnknown hdr value)) = false := by
  unfold AssociationInternal.handleUnknown
  dsimp only
  split
  · exact ⟨[], (List.append_nil _).symm, rfl, rfl⟩
  · exact ⟨_, rfl, single (hk.error _) _, rfl⟩
  · exact ⟨[], (List.append_nil _).symm, rfl, rfl⟩
  · exact ⟨[], (List.append_nil _).symm, rfl, single (hk.error _) _⟩

end NotAnswered

/-- Responses to reset requests have no chunk of the kind either. -/
structure NotQueued (kind : Chunk → Bool) : Prop extends NotAnswered kind where
  reconfig : ∀ c, kind (.reconfig c) = false

namespace NotQueued

variable {kind : Chunk → Bool}

/-- The answer to a reset request is a RECONFIG chunk. -/
theorem resetStreams (hk : NotQueued kind) (a : AssociationInternal)
    (p : ParamOutgoingResetRequest) : emits kind [(a.resetStreamsIfAny p).2] = false := by
  unfold resetStreamsIfAny
  split
  · exact NotAnswered.single (hk.reconfig _) _
  · exact NotAnswered.single (hk.reconfig _) _

/-- So are the answers to the requests that are looked at again. -/
theorem recheck (hk : NotQueued kind) (a : AssociationInternal) :
    emits kind a.recheckReconfigRequests.2 = false := by
  have hloop : ∀ (requests : List ParamOutgoingResetRequest) (b : AssociationInternal)
      (reply : List Packet), emits kind reply = false →
      emits kind (requests.foldl (fun s rstReq =>
        ((s.1.resetStreamsIfAny rstReq).1, s.2 ++ [(s.1.resetStreamsIfAny rstReq).2])) (b, reply)).2 =
          false := by
    intro requests
    induction requests with
    | nil => exact fun _ _ h => h
    | cons request requests ih =>
      intro b reply h
      apply ih
      rw [emits_append, h, hk.resetStreams b request]
      rfl
  exact hloop _ a [] rfl

/-- The loop that moves `peer_last_tsn` answers requests only. -/
theorem advance (hk : NotQueued kind) (fuel : ℕ) (a : AssociationInternal) (reply : List Packet)
    (h : emits kind reply = false) : emits kind (advancePeerLastTsn fuel a reply).2 = false := by
  induction fuel generalizing a reply with
  | zero => exact h
  | succ fuel ih =>
    unfold advancePeerLastTsn
    split
    · exact h
    · rename_i q c _
      have hmore : emits kind (reply ++ { a with
          payloadQueue := q, peerLastTsn := a.peerLastTsn + 1 }.recheckReconfigRequests.2) =
            false := by
        rw [emits_append, h, hk.recheck]
        rfl
      exact ih _ _ hmore

/-- What ends the handling of DATA and FORWARD TSN chunks answers requests only. -/
theorem acknowledgement (hk : NotQueued kind) (a : AssociationInternal) (sackImmediately : Bool) :
    emits kind (a.handlePeerLastTsnAndAcknowledgement sackImmediately).2 = false :=
  hk.advance _ a [] rfl

/-- DATA is answered with RECONFIG chunks at most; a SACK waits for the next gathering. -/
theorem handleData (hk : NotQueued kind) (a : AssociationInternal) (d : ChunkPayloadData) :
    emits kind (a.handleData d).2 = false := by
  unfold AssociationInternal.handleData
  split
  · split
    · rfl
    · split
      · exact hk.acknowledgement _ _
      · exact hk.acknowledgement _ _
  · exact hk.acknowledgement _ _

/-- A FORWARD TSN is answered with an ERROR or with RECONFIG chunks at most. -/
theorem handleForwardTsn (hk : NotQueued kind) (a : AssociationInternal) (c : ChunkForwardTsn) :
    emits kind (a.handleForwardTsn c).2 = false := by
  unfold AssociationInternal.handleForwardTsn
  split
  · exact NotAnswered.single (hk.error _) _
  · split
    · rfl
    · exact hk.acknowledgement _ _

/-- A parameter is answered with a RECONFIG chunk at most. -/
theorem handleReconfigParam? (hk : NotQueued kind) (a : AssociationInternal) (raw : Option Param) :
    emits kind (answer (a.handleReconfigParam? raw)) = false := by
  cases raw with
  | none => rfl
  | some raw =>
    unfold AssociationInternal.handleReconfigParam? handleReconfigParam
    dsimp only
    cases raw with
    | outgoingResetRequest p => exact hk.resetStreams _ p
    | reconfigResponse p => rfl
    | _ => rfl

/-- A RECONFIG chunk is answered with RECONFIG chunks at most. -/
theorem handleReconfig (hk : NotQueued kind) (a : AssociationInternal) (c : ChunkReconfig) :
    emits kind (answer (a.handleReconfig c)) = false := by
  unfold AssociationInternal.handleReconfig
  have hfirst := hk.handleReconfigParam? a c.paramA
  generalize a.handleReconfigParam? c.paramA = r at hfirst ⊢
  obtain ⟨b, e | packets⟩ := r
  · rfl
  · have hsecond := hk.handleReconfigParam? b c.paramB
    dsimp only
    generalize b.handleReconfigParam? c.paramB = r at hsecond ⊢
    obtain ⟨b', e | more⟩ := r
    · rfl
    · show emits kind (packets ++ more) = false
      rw [emits_append, show emits kind packets = false from hfirst,
        show emits kind more = false from hsecond]
      rfl

end NotQueued

/-- A SACK is never answered. -/
theorem answer_handleSack (a : AssociationInternal) (now : ℕ) (d : ChunkSelectiveAck) :
    answer (a.handleSack now d) = [] := by
  rcases handleSack_outcome a now d with
    heq | ⟨_, _, ⟨_, _, _, heq⟩ | ⟨_, _, _, _, ⟨_, _, _, heq⟩ | ⟨_, _, heq⟩⟩⟩
  · rw [heq]
    rfl
  · rw [heq]
    rfl
  · rw [heq]
    rfl
  · rw [heq]
    rfl

end AssociationInternal

end Sctp
