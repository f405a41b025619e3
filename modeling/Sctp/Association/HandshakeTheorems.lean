import Sctp.Association.Handshake
import Sctp.Association.OutboundTheorems

/-!
# What the handshake establishes

The stream counts are bounded by the wrong one of the peer's numbers, and `handle_init` takes
no note of the peer's window. Tags, TSNs and ports are agreed upon in every run.
-/

namespace Sctp

/-- The lesser of two numbers is within a bound if one of them is. -/
theorem cmpMin_le_iff {w : ℕ} (a b c : BitVec w) : cmpMin a b ≤ c ↔ a ≤ c ∨ b ≤ c := by
  unfold cmpMin
  split
  · rename_i hle
    rw [BitVec.le_def] at hle
    rw [BitVec.le_def, BitVec.le_def]
    omega
  · rename_i hlt
    rw [BitVec.le_def] at hlt
    rw [BitVec.le_def, BitVec.le_def]
    omega

namespace AssociationInternal

variable {a b : AssociationInternal}

/-! ## Announced parameters -/

/-- An accepted INIT bounds the counts and leaves the window. -/
theorem handleInit_counts {p : Packet} {i : ChunkInit} (h : (a.handleInit p i).2.isOk = true) :
    (a.handleInit p i).1.myMaxNumOutboundStreams =
        cmpMin i.numOutboundStreams a.myMaxNumOutboundStreams ∧
      (a.handleInit p i).1.myMaxNumInboundStreams =
        cmpMin i.numInboundStreams a.myMaxNumInboundStreams ∧
      (a.handleInit p i).1.rwnd = a.rwnd := by
  unfold handleInit at h ⊢
  by_cases hstate : a.state ≠ .closed ∧ a.state ≠ .cookieWait ∧ a.state ≠ .cookieEchoed
  · rw [if_pos hstate] at h
    cases h
  · rw [if_neg hstate]
    dsimp only
    split <;> exact ⟨rfl, rfl, rfl⟩

/-- An accepted INIT ACK bounds the counts and takes the window over. -/
theorem handleInitAck_counts {p : Packet} {i : ChunkInit} (hstate : a.state = .cookieWait)
    (hsource : a.sourcePort = p.destinationPort) (hdestination : a.destinationPort = p.sourcePort) :
    (a.handleInitAck p i).1.myMaxNumOutboundStreams =
        cmpMin i.numOutboundStreams a.myMaxNumOutboundStreams ∧
      (a.handleInitAck p i).1.myMaxNumInboundStreams =
        cmpMin i.numInboundStreams a.myMaxNumInboundStreams ∧
      (a.handleInitAck p i).1.rwnd = i.advertisedReceiverWindowCredit := by
  unfold handleInitAck
  rw [if_neg (by rw [hstate]; exact fun h => h rfl)]
  dsimp only
  rw [if_neg (by rw [hsource, hdestination]; simp)]
  cases cookieParam i.params with
  | none => exact ⟨rfl, rfl, rfl⟩
  | some cookie => exact ⟨rfl, rfl, rfl⟩

/-- What is accepted respects the peer's offer exactly if the offer is symmetric enough for
the wrong bound to do, and an INIT announces the window that is already assumed. -/
theorem respectsPeer_iff {p : Packet} {i : ChunkInit} (h : a.AcceptsInit p i) :
    (a.handleInitOrAck p i).1.RespectsPeer i ↔ a.SymmetricOffer i := by
  obtain ⟨hok, hack⟩ := h
  unfold handleInitOrAck at hok ⊢
  by_cases hisAck : i.isAck = true
  · obtain ⟨hstate, hsource, hdestination⟩ := hack hisAck
    rw [if_pos hisAck]
    obtain ⟨hout, hin, hwindow⟩ := @handleInitAck_counts a p i hstate hsource hdestination
    constructor
    · rintro ⟨h1, h2, _⟩
      rw [hout, cmpMin_le_iff] at h1
      rw [hin, cmpMin_le_iff] at h2
      exact ⟨h1, h2, fun hno => absurd (hno.symm.trans hisAck) Bool.false_ne_true⟩
    · rintro ⟨h1, h2, _⟩
      refine ⟨?_, ?_, hwindow⟩
      · rw [hout, cmpMin_le_iff]
        exact h1
      · rw [hin, cmpMin_le_iff]
        exact h2
  · rw [if_neg hisAck] at hok ⊢
    obtain ⟨hout, hin, hwindow⟩ := handleInit_counts hok
    constructor
    · rintro ⟨h1, h2, h3⟩
      rw [hout, cmpMin_le_iff] at h1
      rw [hin, cmpMin_le_iff] at h2
      exact ⟨h1, h2, fun _ => hwindow.symm.trans h3⟩
    · rintro ⟨h1, h2, h3⟩
      refine ⟨?_, ?_, hwindow.trans (h3 (by simpa using hisAck))⟩
      · rw [hout, cmpMin_le_iff]
        exact h1
      · rw [hin, cmpMin_le_iff]
        exact h2

/-- An INIT ACK with as many inbound as outbound streams. -/
theorem respectsPeer_evenOffer :
    let a := client { randomTsn := 1, randomTag := 1, randomCookie := [1] }
    let i : ChunkInit :=
      { isAck := true, initiateTag := 2, initialTsn := 7, numOutboundStreams := 10
        numInboundStreams := 10, advertisedReceiverWindowCredit := 4096
        params := [.stateCookie [2]] }
    (a.handleInitOrAck { sourcePort := 5000, destinationPort := 5000 } i).1.RespectsPeer i := by
  intro a i
  refine (respectsPeer_iff ⟨by decide, fun _ => by decide⟩).mpr ⟨?_, ?_, ?_⟩
  · exact Or.inl (by decide)
  · exact Or.inl (by decide)
  · exact fun h => absurd h (by decide)

/-- A peer that takes five streams and opens ten. -/
theorem not_respectsPeer_unevenOffer :
    ¬ ∀ (a : AssociationInternal) (p : Packet) (i : ChunkInit), (Chunk.init i).check.isOk = true →
      a.AcceptsInit p i → (a.handleInitOrAck p i).1.RespectsPeer i := by
  intro h
  have hrespects := h (server { randomTsn := 1, randomTag := 1, randomCookie := [1] })
    { sourcePort := 5000, destinationPort := 5000 }
    { isAck := false, initiateTag := 2, initialTsn := 7, numOutboundStreams := 10
      numInboundStreams := 5, advertisedReceiverWindowCredit := 4096, params := [] }
    (by decide) ⟨by decide, fun hno => absurd hno (by decide)⟩
  exact absurd hrespects.outbound (by decide)

/-! ## Gathering during the handshake -/

/-- There is nothing to send besides the control queue. -/
structure Silent (a : AssociationInternal) : Prop where
  pendingQueue : a.pendingQueue = {}
  inflightQueue : a.inflightQueue = {}
  willRetransmitFast : a.willRetransmitFast = false
  ackState : a.ackState ≠ .immediate
  willSendForwardTsn : a.willSendForwardTsn = false
  willRetransmitReconfig : a.willRetransmitReconfig = false

theorem Silent.gatherEstablished (h : a.Silent) (now : ℕ) : a.gatherEstablished now = (a, []) := by
  have hretransmit : a.getDataPacketsToRetransmit now = (a, []) := by
    unfold getDataPacketsToRetransmit
    rw [h.inflightQueue]
    rfl
  have hdata : a.gatherOutboundDataAndReconfigPackets now = (a, []) := by
    have hpop : a.popPendingDataChunksToSend now = (a, [], []) := by
      unfold popPendingDataChunksToSend
      rw [if_pos (by rw [h.pendingQueue]; rfl)]
    have hreconfig : a.gatherOutboundReconfigPackets [] = (a, []) := by
      unfold gatherOutboundReconfigPackets
      rw [if_neg (by rw [h.willRetransmitReconfig]; simp)]
    unfold gatherOutboundDataAndReconfigPackets
    rw [hpop]
    dsimp only
    rw [if_neg (fun hne => hne rfl)]
    dsimp only
    rw [hreconfig]
    rfl
  have hfast : a.gatherOutboundFastRetransmissionPackets now = (a, []) := by
    unfold gatherOutboundFastRetransmissionPackets
    rw [h.willRetransmitFast]
    rfl
  have hsack : a.gatherOutboundSackPackets = (a, []) := by
    unfold gatherOutboundSackPackets
    rw [if_neg h.ackState]
  have hforward : a.gatherOutboundForwardTsnPackets = (a, []) := by
    unfold gatherOutboundForwardTsnPackets
    rw [h.willSendForwardTsn]
    rfl
  unfold AssociationInternal.gatherEstablished
  rw [hretransmit]
  dsimp only
  rw [hdata]
  dsimp only
  rw [hfast]
  dsimp only
  rw [hsack]
  dsimp only
  rw [hforward]
  rfl

/-- The states of the handshake. -/
def Handshaking (a : AssociationInternal) : Prop :=
  a.state = .closed ∨ a.state = .cookieWait ∨ a.state = .cookieEchoed ∨ a.state = .established

theorem Silent.gatherOutbound (h : a.Silent) (hstate : a.Handshaking) (now : ℕ) :
    a.gatherOutbound now = ({ a with controlQueue := [] }, a.controlQueue, true) := by
  rcases hstate with hs | hs | hs | hs
  · unfold AssociationInternal.gatherOutbound
    rw [hs]
  · unfold AssociationInternal.gatherOutbound
    rw [hs]
  · unfold AssociationInternal.gatherOutbound
    rw [hs]
  · have hsilent : { a with controlQueue := [] }.Silent := { h with }
    rw [gatherOutbound_of_established hs now, hsilent.gatherEstablished now, List.append_nil]

/-! ## One endpoint -/

/-- The endpoint has got the peer's INIT ACK, or is established. -/
def Shaken (a : AssociationInternal) : Prop := a.state = .cookieEchoed ∨ a.state = .established

/-- What the peer with configuration `d` announces is known. -/
structure Knows (d : Config) (a : AssociationInternal) : Prop where
  tag : a.peerVerificationTag = d.randomTag
  tag_ne : d.randomTag ≠ 0
  tsn : a.peerLastTsn = Peers.initialTsn d - 1
  useForwardTsn : a.useForwardTsn = true

/-- An endpoint with configuration `c` that shakes hands with one with configuration `d`. -/
structure HandshakeState (c d : Config) (a : AssociationInternal) : Prop where
  silent : a.Silent
  state : a.Handshaking
  tag : a.myVerificationTag = c.randomTag
  tsn : a.myNextTsn = Peers.initialTsn c
  newCookie : a.newCookie = c.randomCookie
  myCookie : a.myCookie = none ∨ a.myCookie = some c.randomCookie
  storedInit : a.storedInit = none ∨ a.storedInit = some (new c).initialInit
  storedCookieEcho : a.storedCookieEcho ≠ none →
    a.storedCookieEcho = some d.randomCookie ∧ a.Shaken
  ports : a.state ≠ .closed ∨ a.myCookie ≠ none ∨ a.storedInit ≠ none →
    a.sourcePort = 5000 ∧ a.destinationPort = 5000
  knows : a.myCookie ≠ none ∨ a.Shaken → a.Knows d
  tag_unset : a.storedInit ≠ none → a.myCookie = none → a.peerVerificationTag = 0

/-- What an endpoint with configuration `c` sends to one with configuration `d`. -/
structure HandshakePacket (c d : Config) (a : AssociationInternal) (p : Packet) : Prop where
  sourcePort : p.sourcePort = 5000
  destinationPort : p.destinationPort = 5000
  chunks :
    p.chunks = [.init (new c).initialInit] ∨
    (∃ i : ChunkInit, p.chunks = [.init i] ∧ i.isAck = true ∧ i.initiateTag = c.randomTag ∧
      i.initialTsn = Peers.initialTsn c ∧ cookieParam i.params = some c.randomCookie ∧
      usesForwardTsn i.params = true) ∨
    (p.chunks = [.cookieEcho d.randomCookie] ∧ a.Shaken) ∨
    (p.chunks = [.cookieAck] ∧ a.state = .established)

/-- What an endpoint has reached it keeps. -/
structure Advances (a a' : AssociationInternal) : Prop where
  shaken : a.Shaken → a'.Shaken
  established : a.state = .established → a'.state = .established

theorem Advances.of_state (h : b.state = a.state) : Advances a b :=
  ⟨fun hs => hs.imp h.trans h.trans, h.trans⟩

theorem HandshakePacket.mono {c d : Config} {p : Packet} (h : HandshakePacket c d a p)
    (hab : Advances a b) : HandshakePacket c d b p where
  sourcePort := h.sourcePort
  destinationPort := h.destinationPort
  chunks := by
    rcases h.chunks with hinit | hack | ⟨hecho, hs⟩ | ⟨hcookieAck, hs⟩
    · exact Or.inl hinit
    · exact Or.inr (Or.inl hack)
    · exact Or.inr (Or.inr (Or.inl ⟨hecho, hab.shaken hs⟩))
    · exact Or.inr (Or.inr (Or.inr ⟨hcookieAck, hab.established hs⟩))

/-- A step of `a`, whose peer is `b`, that stays within the handshake. -/
structure HandshakeStep (c d : Config) (b a a' : AssociationInternal) : Prop where
  own : HandshakeState c d a'
  advances : Advances a a'
  sends : ∃ out, a'.controlQueue = a.controlQueue ++ out ∧ ∀ p ∈ out, HandshakePacket c d a' p
  agreed : a'.state = .established → a.state = .established ∨ b.Shaken

theorem HandshakeStep.of_same {c d : Config} {a' : AssociationInternal} (h : HandshakeState c d a')
    (hstate : a'.state = a.state) (hqueue : a'.controlQueue = a.controlQueue) :
    HandshakeStep c d b a a' where
  own := h
  advances := Advances.of_state hstate
  sends := ⟨[], by rw [hqueue, List.append_nil], fun p hp => absurd hp List.not_mem_nil⟩
  agreed hest := Or.inl (hstate.symm.trans hest)

/-- What is queued is no part of the state of the handshake. -/
theorem HandshakeState.queued {c d : Config} (h : HandshakeState c d a) (packets : List Packet) :
    HandshakeState c d { a with controlQueue := packets } :=
  { h with silent := { h.silent with }, knows := fun hk => { h.knows hk with } }

/-! ## Timeouts -/

theorem sendInit_of_some {i : ChunkInit} (h : a.storedInit = some i) :
    a.sendInit.1 = { a with
      sourcePort := 5000
      destinationPort := 5000
      controlQueue := a.controlQueue ++
        [{ verificationTag := a.peerVerificationTag, sourcePort := 5000, destinationPort := 5000
           chunks := [.init i] }] } := by
  cases a
  cases h
  rfl

theorem sendInit_of_none (h : a.storedInit = none) : a.sendInit.1 = a := by
  unfold sendInit
  rw [h]

theorem sendCookieEcho_of_some {cookie : Bytes} (h : a.storedCookieEcho = some cookie) :
    a.sendCookieEcho =
      ({ a with controlQueue := a.controlQueue ++ [a.createPacket [.cookieEcho cookie]] },
        .ok ()) := by
  cases a
  cases h
  rfl

theorem sendCookieEcho_of_none (h : a.storedCookieEcho = none) : a.sendCookieEcho.1 = a := by
  unfold sendCookieEcho
  rw [h]

theorem HandshakeState.ports_of_shaken {c d : Config} (h : HandshakeState c d a) (hs : a.Shaken) :
    a.sourcePort = 5000 ∧ a.destinationPort = 5000 := by
  apply h.ports
  left
  rcases hs with hs | hs <;> rw [hs] <;> decide

theorem HandshakeState.t1Init {c d : Config} (h : HandshakeState c d a) :
    HandshakeStep c d b a a.sendInit.1 := by
  rcases h.storedInit with hnone | hsome
  · rw [sendInit_of_none hnone]
    exact HandshakeStep.of_same h rfl rfl
  · rw [sendInit_of_some hsome]
    have hown : HandshakeState c d { a with
        sourcePort := 5000
        destinationPort := 5000
        controlQueue := a.controlQueue ++
          [{ verificationTag := a.peerVerificationTag, sourcePort := 5000, destinationPort := 5000
             chunks := [.init (new c).initialInit] }] } :=
      { h with
        silent := { h.silent with }
        ports := fun _ => ⟨rfl, rfl⟩
        knows := fun hk => { h.knows hk with } }
    refine ⟨hown, Advances.of_state rfl, ⟨_, rfl, ?_⟩, Or.inl⟩
    intro p hp
    rw [List.mem_singleton] at hp
    subst hp
    exact ⟨rfl, rfl, Or.inl rfl⟩

theorem HandshakeState.t1Cookie {c d : Config} (h : HandshakeState c d a) :
    HandshakeStep c d b a a.sendCookieEcho.1 := by
  rcases hecho : a.storedCookieEcho with _ | cookie
  · rw [sendCookieEcho_of_none hecho]
    exact HandshakeStep.of_same h rfl rfl
  · obtain ⟨hcookie, hshaken⟩ := h.storedCookieEcho (by rw [hecho]; simp)
    obtain ⟨hsource, hdestination⟩ := h.ports_of_shaken hshaken
    rw [sendCookieEcho_of_some hecho]
    refine ⟨h.queued _, Advances.of_state rfl, ⟨_, rfl, ?_⟩, Or.inl⟩
    intro p hp
    rw [List.mem_singleton] at hp
    subst hp
    rw [hecho, Option.some.injEq] at hcookie
    subst hcookie
    exact ⟨hsource, hdestination, Or.inr (Or.inr (Or.inl ⟨rfl, hshaken⟩))⟩

/-! ## Packets of the peer -/

/-- The state a handler leaves, with its answer queued. -/
def queueing (r : AssociationInternal × Except Error (List Packet)) : AssociationInternal :=
  match r.2 with
  | .ok packets => { r.1 with controlQueue := r.1.controlQueue ++ packets }
  | .error _ => r.1

/-- A chunk that is neither answered nor refused. -/
theorem HandshakeStep.ignored {c d : Config} (h : HandshakeState c d a) :
    HandshakeStep c d b a (queueing (a, .ok [])) :=
  HandshakeStep.of_same (h.queued _) rfl (List.append_nil _)

/-- A packet with one chunk: it is dropped, or its handler runs. -/
theorem handleInbound_single (now : ℕ) {p : Packet} {chunk : Chunk} (hp : p.chunks = [chunk]) :
    (a.handleInbound now p).1 = a ∨
    (a.handleInbound now p).1 = a.handleChunkStart ∨
    ((a.handleInbound now p).1 = queueing (a.handleChunkStart.dispatchChunk now p chunk) ∨
      (a.handleInbound now p).1 =
        (queueing (a.handleChunkStart.dispatchChunk now p chunk)).handleChunkEnd) ∧
      chunk.check.isOk = true := by
  unfold handleInbound
  rcases p.checkPacket with e | u
  · exact Or.inl rfl
  · right
    dsimp only
    rw [hp]
    unfold handleChunks handleChunk queueing
    rcases chunk.check with e | u
    · exact Or.inl rfl
    · right
      dsimp only
      rcases a.handleChunkStart.dispatchChunk now p chunk with ⟨a', e | packets⟩
      · exact ⟨Or.inl rfl, rfl⟩
      · exact ⟨Or.inr rfl, rfl⟩

/-- A handler that triggers no acknowledgement. -/
theorem handleChunkEnd_of_untriggered (h : a.immediateAckTriggered = false)
    (hd : a.delayedAckTriggered = false) : a.handleChunkEnd = a := by
  unfold handleChunkEnd
  rw [h, hd]
  rfl

theorem tsn_before (tsn : U32) : (if tsn = 0 then 0xffffffff else tsn - 1) = tsn - 1 := by
  split
  · rename_i h
    rw [h]
    decide
  · rfl

/-- An INIT that is taken: the peer's values, and an INIT ACK with the own ones. -/
theorem handleInit_eq (h : a.state = .closed ∨ a.state = .cookieWait ∨ a.state = .cookieEchoed)
    (p : Packet) (i : ChunkInit) :
    ∃ (maxIn maxOut : U16) (cookie : Bytes) (ack : ChunkInit),
      (a.myCookie = some cookie ∨ a.myCookie = none ∧ cookie = a.newCookie) ∧
      ack.isAck = true ∧ ack.initiateTag = a.myVerificationTag ∧ ack.initialTsn = a.myNextTsn ∧
      ack.params = [.stateCookie cookie, .supportedExtensions [ctReconfig, ctForwardTsn]] ∧
      a.handleInit p i =
        ({ a with
            myMaxNumInboundStreams := maxIn
            myMaxNumOutboundStreams := maxOut
            peerVerificationTag := i.initiateTag
            sourcePort := p.destinationPort
            destinationPort := p.sourcePort
            peerLastTsn := i.initialTsn - 1
            useForwardTsn := a.useForwardTsn || usesForwardTsn i.params
            myCookie := some cookie },
          .ok [{ verificationTag := i.initiateTag
                 sourcePort := p.destinationPort
                 destinationPort := p.sourcePort
                 chunks := [.init ack] }]) := by
  unfold handleInit
  rw [if_neg (by rcases h with h | h | h <;> rw [h] <;> decide), tsn_before]
  rcases hcookie : a.myCookie with _ | cookie
  · exact ⟨_, _, a.newCookie, _, Or.inr ⟨rfl, rfl⟩, rfl, rfl, rfl, rfl, rfl⟩
  · dsimp only
    rw [if_neg (by simp)]
    exact ⟨_, _, cookie, _, Or.inl rfl, rfl, rfl, rfl, rfl, rfl⟩

theorem handleInit_of_established (h : a.state = .established) (p : Packet) (i : ChunkInit) :
    a.handleInit p i = (a, .error .errHandleInitState) := by
  unfold handleInit
  rw [if_pos (by rw [h]; decide)]

/-- An INIT of the peer. -/
theorem HandshakeState.handleInit {c d : Config} {p : Packet} (h : HandshakeState c d a)
    (hsource : p.sourcePort = 5000) (hdestination : p.destinationPort = 5000)
    (htag : d.randomTag ≠ 0) :
    HandshakeStep c d b a (queueing (a.handleInit p (new d).initialInit)) ∧
      (queueing (a.handleInit p (new d).initialInit)).immediateAckTriggered =
        a.immediateAckTriggered ∧
      (queueing (a.handleInit p (new d).initialInit)).delayedAckTriggered =
        a.delayedAckTriggered := by
  by_cases hest : a.state = .established
  · rw [handleInit_of_established hest]
    exact ⟨HandshakeStep.of_same h rfl rfl, rfl, rfl⟩
  · have hstate : a.state = .closed ∨ a.state = .cookieWait ∨ a.state = .cookieEchoed := by
      rcases h.state with hs | hs | hs | hs
      · exact Or.inl hs
      · exact Or.inr (Or.inl hs)
      · exact Or.inr (Or.inr hs)
      · exact absurd hs hest
    obtain ⟨maxIn, maxOut, cookie, ack, hcookie, hisAck, hackTag, hackTsn, hparams, heq⟩ :=
      handleInit_eq hstate p (new d).initialInit
    -- the cookie is made at most once
    have hmine : cookie = c.randomCookie := by
      rcases hcookie with hc | ⟨_, hc⟩
      · rcases h.myCookie with hnone | hsome
        · rw [hnone] at hc
          cases hc
        · rw [hsome, Option.some.injEq] at hc
          exact hc.symm
      · exact hc.trans h.newCookie
    subst hmine
    rw [heq]
    refine ⟨⟨?_, Advances.of_state rfl, ⟨_, rfl, ?_⟩, Or.inl⟩, rfl, rfl⟩
    · exact { h with
        silent := { h.silent with }
        myCookie := Or.inr rfl
        ports := fun _ => ⟨hdestination, hsource⟩
        knows := fun _ => ⟨rfl, htag, rfl, by
          show (a.useForwardTsn || true) = true
          rw [Bool.or_true]⟩
        tag_unset := fun _ hnone => by cases hnone }
    · intro p' hp'
      rw [List.mem_singleton] at hp'
      subst hp'
      exact ⟨hdestination, hsource, Or.inr (Or.inl ⟨ack, rfl, hisAck, hackTag.trans h.tag,
        hackTsn.trans h.tsn, by rw [hparams]; rfl, by rw [hparams]; rfl⟩)⟩

/-- An INIT ACK in the state that waits for it. -/
theorem handleInitAck_eq {p : Packet} {i : ChunkInit} {cookie : Bytes} (h : a.state = .cookieWait)
    (hsource : a.sourcePort = p.destinationPort) (hdestination : a.destinationPort = p.sourcePort)
    (hcookie : cookieParam i.params = some cookie) :
    ∃ (maxIn maxOut : U16) (t1init t1cookie : RtxTimer),
      a.handleInitAck p i =
        ({ a with
            myMaxNumInboundStreams := maxIn
            myMaxNumOutboundStreams := maxOut
            peerVerificationTag := i.initiateTag
            peerLastTsn := i.initialTsn - 1
            rwnd := i.advertisedReceiverWindowCredit
            ssthresh := i.advertisedReceiverWindowCredit
            t1init
            t1cookie
            storedInit := none
            useForwardTsn := a.useForwardTsn || usesForwardTsn i.params
            storedCookieEcho := some cookie
            controlQueue := a.controlQueue ++
              [{ verificationTag := i.initiateTag
                 sourcePort := a.sourcePort
                 destinationPort := a.destinationPort
                 chunks := [.cookieEcho cookie] }]
            state := .cookieEchoed }, .ok []) := by
  unfold handleInitAck
  rw [if_neg (by rw [h]; exact fun hne => hne rfl), tsn_before]
  dsimp only
  rw [if_neg (by rw [hsource, hdestination]; simp), hcookie]
  exact ⟨_, _, _, _, rfl⟩

theorem handleInitAck_of_ne (h : a.state ≠ .cookieWait) (p : Packet) (i : ChunkInit) :
    a.handleInitAck p i = (a, .ok []) := by
  unfold handleInitAck
  rw [if_pos h]

/-- An INIT ACK of the peer. -/
theorem HandshakeState.handleInitAck {c d : Config} {p : Packet} {i : ChunkInit}
    (h : HandshakeState c d a) (hsource : p.sourcePort = 5000)
    (hdestination : p.destinationPort = 5000) (htag : i.initiateTag = d.randomTag)
    (htag_ne : d.randomTag ≠ 0) (htsn : i.initialTsn = Peers.initialTsn d)
    (hcookie : cookieParam i.params = some d.randomCookie)
    (hforward : usesForwardTsn i.params = true) :
    HandshakeStep c d b a (queueing (a.handleInitAck p i)) ∧
      (queueing (a.handleInitAck p i)).immediateAckTriggered = a.immediateAckTriggered ∧
      (queueing (a.handleInitAck p i)).delayedAckTriggered = a.delayedAckTriggered := by
  by_cases hwait : a.state = .cookieWait
  · obtain ⟨hmySource, hmyDestination⟩ := h.ports (Or.inl (by rw [hwait]; decide))
    obtain ⟨maxIn, maxOut, t1init, t1cookie, heq⟩ := handleInitAck_eq hwait
      (hmySource.trans hdestination.symm) (hmyDestination.trans hsource.symm) hcookie
    rw [heq]
    have hknows : ∀ a' : AssociationInternal, a'.peerVerificationTag = i.initiateTag →
        a'.peerLastTsn = i.initialTsn - 1 →
        a'.useForwardTsn = (a.useForwardTsn || usesForwardTsn i.params) → a'.Knows d := by
      intro a' h1 h2 h3
      exact ⟨h1.trans htag, htag_ne, by rw [h2, htsn], by rw [h3, hforward, Bool.or_true]⟩
    have hshaken : ∀ a' : AssociationInternal, a'.state = .cookieEchoed → a'.Shaken :=
      fun a' => Or.inl
    refine ⟨⟨?_, ?_, ?_, ?_⟩, rfl, rfl⟩
    · exact { h with
        silent := { h.silent with }
        state := Or.inr (Or.inr (Or.inl rfl))
        storedInit := Or.inl rfl
        storedCookieEcho := fun _ => ⟨rfl, Or.inl rfl⟩
        ports := fun _ => ⟨hmySource, hmyDestination⟩
        knows := fun _ => hknows _ rfl rfl rfl
        tag_unset := fun hsome => absurd rfl hsome }
    · refine ⟨fun _ => Or.inl rfl, fun hest => ?_⟩
      rw [hwait] at hest
      cases hest
    · refine ⟨[{ verificationTag := i.initiateTag, sourcePort := a.sourcePort
                 destinationPort := a.destinationPort, chunks := [.cookieEcho d.randomCookie] }],
        List.append_nil _, ?_⟩
      intro p' hp'
      rw [List.mem_singleton] at hp'
      subst hp'
      exact ⟨hmySource, hmyDestination, Or.inr (Or.inr (Or.inl ⟨rfl, Or.inl rfl⟩))⟩
    · intro hest
      cases hest
  · -- a late INIT ACK is ignored
    rw [handleInitAck_of_ne hwait]
    exact ⟨HandshakeStep.ignored h, rfl, rfl⟩

/-- An INIT or INIT ACK that passes its check has a tag. -/
theorem initiateTag_ne_of_check {i : ChunkInit} (h : (Chunk.init i).check.isOk = true) :
    i.initiateTag ≠ 0 := by
  intro hzero
  unfold Chunk.check at h
  dsimp only at h
  rw [if_pos hzero] at h
  cases h

/-- A COOKIE ECHO that brings the own cookie back. -/
theorem HandshakeState.handleCookieEcho {c d : Config} (h : HandshakeState c d a)
    (hb : b.Shaken) (now : ℕ) (p : Packet) :
    HandshakeStep c d b a (queueing (a.dispatchChunk now p (.cookieEcho c.randomCookie))) ∧
      (queueing (a.dispatchChunk now p (.cookieEcho c.randomCookie))).immediateAckTriggered =
        a.immediateAckTriggered ∧
      (queueing (a.dispatchChunk now p (.cookieEcho c.randomCookie))).delayedAckTriggered =
        a.delayedAckTriggered := by
  rcases hmine : a.myCookie with _ | cookie
  · -- no cookie has been made yet
    have heq : a.dispatchChunk now p (.cookieEcho c.randomCookie) = (a, .ok []) := by
      unfold dispatchChunk AssociationInternal.handleCookieEcho
      rw [hmine]
    rw [heq]
    exact ⟨HandshakeStep.ignored h, rfl, rfl⟩
  · have hcookie : cookie = c.randomCookie := by
      rcases h.myCookie with hnone | hsome
      · rw [hmine] at hnone
        cases hnone
      · rw [hmine, Option.some.injEq] at hsome
        exact hsome
    subst hcookie
    have hset : a.myCookie ≠ none := by
      rw [hmine]
      exact fun hno => by cases hno
    have hports := h.ports (Or.inr (Or.inl hset))
    have hknows := h.knows (Or.inl hset)
    have hack : ∀ a' : AssociationInternal, a'.state = .established →
        ∀ p' ∈ [a.createPacket [.cookieAck]], HandshakePacket c d a' p' := by
      intro a' hest p' hp'
      rw [List.mem_singleton] at hp'
      subst hp'
      exact ⟨hports.1, hports.2, Or.inr (Or.inr (Or.inr ⟨rfl, hest⟩))⟩
    -- a repeated COOKIE ECHO is only answered; the first one establishes the association
    by_cases hest : a.state = .established
    · have heq : a.dispatchChunk now p (.cookieEcho c.randomCookie) =
          (a, .ok [a.createPacket [.cookieAck]]) := by
        unfold dispatchChunk AssociationInternal.handleCookieEcho
        rw [hmine, hest]
        dsimp only
        rw [if_neg (fun hne => hne rfl)]
      rw [heq]
      exact ⟨⟨h.queued _, Advances.of_state rfl, ⟨_, rfl, hack _ hest⟩, Or.inl⟩, rfl, rfl⟩
    · have heq : a.dispatchChunk now p (.cookieEcho c.randomCookie) =
          ({ a with
              t1init := a.t1init.stop
              storedInit := none
              t1cookie := a.t1cookie.stop
              storedCookieEcho := none
              state := .established }, .ok [a.createPacket [.cookieAck]]) := by
        unfold dispatchChunk AssociationInternal.handleCookieEcho
        rw [hmine]
        rcases h.state with hs | hs | hs | hs
        · rw [hs]
          dsimp only
          rw [if_neg (fun hne => hne rfl)]
          rfl
        · rw [hs]
          dsimp only
          rw [if_neg (fun hne => hne rfl)]
          rfl
        · rw [hs]
          dsimp only
          rw [if_neg (fun hne => hne rfl)]
          rfl
        · exact absurd hs hest
      rw [heq]
      refine ⟨⟨?_, ⟨fun _ => Or.inr rfl, fun _ => rfl⟩, ⟨_, rfl, hack _ rfl⟩, fun _ => Or.inr hb⟩,
        rfl, rfl⟩
      exact { h with
        silent := { h.silent with }
        state := Or.inr (Or.inr (Or.inr rfl))
        storedInit := Or.inl rfl
        storedCookieEcho := fun hsome => absurd rfl hsome
        ports := fun _ => hports
        knows := fun _ => { hknows with }
        tag_unset := fun hsome => absurd rfl hsome }

/-- A COOKIE ACK. -/
theorem HandshakeState.handleCookieAck {c d : Config} (h : HandshakeState c d a)
    (hb : b.state = .established) (now : ℕ) (p : Packet) :
    HandshakeStep c d b a (queueing (a.dispatchChunk now p .cookieAck)) ∧
      (queueing (a.dispatchChunk now p .cookieAck)).immediateAckTriggered =
        a.immediateAckTriggered ∧
      (queueing (a.dispatchChunk now p .cookieAck)).delayedAckTriggered =
        a.delayedAckTriggered := by
  by_cases hechoed : a.state = .cookieEchoed
  · have heq : a.dispatchChunk now p .cookieAck =
        ({ a with
            t1cookie := a.t1cookie.stop
            storedCookieEcho := none
            state := .established }, .ok []) := by
      unfold dispatchChunk AssociationInternal.handleCookieAck
      rw [if_neg (fun hne => hne hechoed)]
      rfl
    -- the cookie of the peer is known, so everything else of it is
    have hshaken : a.Shaken := Or.inl hechoed
    have hports := h.ports_of_shaken hshaken
    have hknows := h.knows (Or.inr hshaken)
    rw [heq]
    refine ⟨⟨?_, ⟨fun _ => Or.inr rfl, fun _ => rfl⟩, ⟨[], rfl, fun p' hp' => ?_⟩,
      fun _ => Or.inr (Or.inr hb)⟩, rfl, rfl⟩
    · exact { h with
        silent := { h.silent with }
        state := Or.inr (Or.inr (Or.inr rfl))
        storedCookieEcho := fun hsome => absurd rfl hsome
        ports := fun _ => hports
        knows := fun _ => { hknows with } }
    · exact absurd hp' List.not_mem_nil
  · have heq : a.dispatchChunk now p .cookieAck = (a, .ok []) := by
      unfold dispatchChunk AssociationInternal.handleCookieAck
      rw [if_pos hechoed]
    rw [heq]
    exact ⟨HandshakeStep.ignored h, rfl, rfl⟩

/-- What the packet carries is taken in within the handshake. -/
theorem HandshakeState.dispatchChunk {c d : Config} {p : Packet} {chunk : Chunk}
    (h : HandshakeState c d a) (hp : HandshakePacket d c b p) (hchunk : p.chunks = [chunk])
    (hcheck : chunk.check.isOk = true) (now : ℕ) :
    HandshakeStep c d b a (queueing (a.dispatchChunk now p chunk)) ∧
      (queueing (a.dispatchChunk now p chunk)).immediateAckTriggered = a.immediateAckTriggered ∧
      (queueing (a.dispatchChunk now p chunk)).delayedAckTriggered = a.delayedAckTriggered := by
  have hsame : ∀ {chunk' : Chunk}, p.chunks = [chunk'] → chunk = chunk' := by
    intro chunk' hchunk'
    rw [hchunk, List.singleton_inj] at hchunk'
    exact hchunk'
  rcases hp.chunks with hinit | ⟨i, hack, hisAck, htag, htsn, hcookie, hforward⟩ |
    ⟨hecho, hb⟩ | ⟨hack, hb⟩
  · have htag := initiateTag_ne_of_check (hsame hinit ▸ hcheck)
    rw [hsame hinit]
    exact h.handleInit hp.sourcePort hp.destinationPort htag
  · have htag_ne := initiateTag_ne_of_check (hsame hack ▸ hcheck)
    have heq : a.dispatchChunk now p chunk = a.handleInitAck p i := by
      rw [hsame hack]
      unfold AssociationInternal.dispatchChunk
      dsimp only
      rw [if_pos hisAck]
    rw [heq]
    exact h.handleInitAck hp.sourcePort hp.destinationPort htag (htag ▸ htag_ne) htsn hcookie
      hforward
  · rw [hsame hecho]
    exact h.handleCookieEcho hb now p
  · rw [hsame hack]
    exact h.handleCookieAck hb now p


/-- A packet of the peer. -/
theorem HandshakeState.handleInbound {c d : Config} {p : Packet} (h : HandshakeState c d a)
    (hp : HandshakePacket d c b p) (now : ℕ) :
    HandshakeStep c d b a (a.handleInbound now p).1 := by
  have hstart : HandshakeState c d a.handleChunkStart :=
    { h with silent := { h.silent with }, knows := fun hk => { h.knows hk with } }
  obtain ⟨chunk, hchunk⟩ : ∃ chunk, p.chunks = [chunk] := by
    rcases hp.chunks with hc | ⟨i, hc, _⟩ | ⟨hc, _⟩ | ⟨hc, _⟩
    · exact ⟨_, hc⟩
    · exact ⟨_, hc⟩
    · exact ⟨_, hc⟩
    · exact ⟨_, hc⟩
  rcases handleInbound_single now hchunk with hdropped | hrefused | ⟨htaken, hcheck⟩
  · rw [hdropped]
    exact HandshakeStep.of_same h rfl rfl
  · rw [hrefused]
    exact HandshakeStep.of_same hstart rfl rfl
  · obtain ⟨hstep, himmediate, hdelayed⟩ := @HandshakeState.dispatchChunk _ b c d p chunk hstart hp
      hchunk hcheck now
    have hend : (queueing (a.handleChunkStart.dispatchChunk now p chunk)).handleChunkEnd =
        queueing (a.handleChunkStart.dispatchChunk now p chunk) := by
      apply handleChunkEnd_of_untriggered
      · rw [himmediate]
        rfl
      · rw [hdelayed]
        rfl
    rw [hend, or_self] at htaken
    rw [htaken]
    exact ⟨hstep.own, ⟨hstep.advances.shaken, hstep.advances.established⟩, hstep.sends,
      hstep.agreed⟩

/-! ## Both endpoints -/

/-- An endpoint, its peer and what it has sent. -/
structure ShakesHands (c d : Config) (a b : AssociationInternal) (sent : List Packet) : Prop where
  own : HandshakeState c d a
  packets : ∀ p ∈ sent ++ a.controlQueue, HandshakePacket c d a p
  agreed : a.state = .established → b.Shaken

theorem ShakesHands.step {c d : Config} {a' : AssociationInternal} {sent : List Packet}
    (h : ShakesHands c d a b sent) (hstep : HandshakeStep c d b a a') :
    ShakesHands c d a' b sent where
  own := hstep.own
  packets := by
    obtain ⟨out, hqueue, hout⟩ := hstep.sends
    intro p hp
    rw [hqueue, ← List.append_assoc, List.mem_append] at hp
    rcases hp with hp | hp
    · exact (h.packets p hp).mono hstep.advances
    · exact hout p hp
  agreed hest := by
    rcases hstep.agreed hest with hbefore | hb
    · exact h.agreed hbefore
    · exact hb

theorem ShakesHands.peer {c d : Config} {b' : AssociationInternal} {sent : List Packet}
    (h : ShakesHands c d a b sent) (hb : Advances b b') : ShakesHands c d a b' sent where
  own := h.own
  packets := h.packets
  agreed hest := hb.shaken (h.agreed hest)

theorem ShakesHands.gather {c d : Config} {sent : List Packet} (h : ShakesHands c d a b sent)
    (now : ℕ) :
    ShakesHands c d (a.gatherOutbound now).1 b (sent ++ (a.gatherOutbound now).2.1) ∧
      Advances a (a.gatherOutbound now).1 := by
  rw [h.own.silent.gatherOutbound h.own.state now]
  refine ⟨⟨?_, ?_, h.agreed⟩, Advances.of_state rfl⟩
  · exact { h.own with
      silent := { h.own.silent with }
      knows := fun hk => { h.own.knows hk with } }
  · intro p hp
    rw [List.append_nil] at hp
    exact (h.packets p hp).mono (Advances.of_state rfl)

theorem handshakeState_server (c d : Config) : HandshakeState c d (server c) where
  silent := ⟨rfl, rfl, rfl, (fun h => by cases h), rfl, rfl⟩
  state := Or.inl rfl
  tag := rfl
  tsn := rfl
  newCookie := rfl
  myCookie := Or.inl rfl
  storedInit := Or.inl rfl
  storedCookieEcho h := absurd rfl h
  ports h := by
    rcases h with h | h | h
    · exact absurd rfl h
    · exact absurd rfl h
    · exact absurd rfl h
  knows h := by
    rcases h with h | h | h
    · exact absurd rfl h
    · cases h
    · cases h
  tag_unset h := absurd rfl h

theorem handshakeState_client (c d : Config) : HandshakeState c d (client c) where
  silent := ⟨rfl, rfl, rfl, (fun h => by cases h), rfl, rfl⟩
  state := Or.inr (Or.inl rfl)
  tag := rfl
  tsn := rfl
  newCookie := rfl
  myCookie := Or.inl rfl
  storedInit := Or.inr rfl
  storedCookieEcho h := absurd rfl h
  ports _ := ⟨rfl, rfl⟩
  knows h := by
    rcases h with h | h | h
    · exact absurd rfl h
    · cases h
    · cases h
  tag_unset _ _ := rfl

end AssociationInternal

namespace Peers

open AssociationInternal

/-- Both endpoints shake hands. -/
def ShakeHands (config : Bool → Config) : Peers → Prop :=
  TwoParty.Both fun x a b sent _ => ShakesHands (config x) (config !x) a b sent

theorem shakeHands_start (isClient : Bool → Bool) (config : Bool → Config) :
    ShakeHands config (start isClient config) := by
  intro x
  unfold start
  dsimp only
  split
  · refine ⟨handshakeState_client _ _, ?_, fun hest => by cases hest⟩
    intro p hp
    have hinit : p = { verificationTag := 0, sourcePort := 5000, destinationPort := 5000
                       chunks := [.init (new (config x)).initialInit] } := List.mem_singleton.mp hp
    subst hinit
    exact ⟨rfl, rfl, Or.inl rfl⟩
  · exact ⟨handshakeState_server _ _, fun p hp => absurd hp List.not_mem_nil,
      fun hest => by cases hest⟩

/-- Whatever the endpoints do, and whatever the network delivers, the handshake goes on. -/
theorem ShakeHands.step {config : Bool → Config} {s : Peers} (h : ShakeHands config s)
    {e : PeerEvent} (he : Handshakes e) : ShakeHands config (s.step e) := by
  have hother : ∀ x (b' : AssociationInternal), Advances (s.party x) b' →
      ShakesHands (config !x) (config !!x) (s.party !x) b' (s.sent !x) := by
    intro x b' hb
    have hpeer := h (!x)
    dsimp only at hpeer
    rw [Bool.not_not] at hpeer ⊢
    exact hpeer.peer hb
  apply TwoParty.Protocol.both_step h e
  · intro x op hop
    subst hop
    have hsilent : ∀ a', HandshakeStep (config x) (config !x) (s.party !x) (s.party x) a' →
        ShakesHands (config x) (config !x) a' (s.party !x) (s.sent x ++ []) ∧
          ShakesHands (config !x) (config !!x) (s.party !x) a' (s.sent !x) := by
      intro a' ha'
      rw [List.append_nil]
      exact ⟨(h x).step ha', hother x a' ha'.advances⟩
    unfold Handshakes at he
    split at he
    · rename_i y now heq
      cases heq
      obtain ⟨hown, hadvances⟩ := (h x).gather now
      exact ⟨hown, hother x _ hadvances⟩
    · rename_i heq
      cases heq
      exact hsilent _ (h x).own.t1Init
    · rename_i heq
      cases heq
      exact hsilent _ (h x).own.t1Cookie
    · exact he.elim
    · rename_i heq
      cases heq
  · intro x now i p _ hp
    have hpeer := h (!x)
    dsimp only at hpeer
    rw [Bool.not_not] at hpeer
    have hpacket := hpeer.packets p (List.mem_append_left _ (List.mem_of_getElem? hp))
    have hstep := (h x).own.handleInbound hpacket now
    exact ⟨(h x).step hstep, hother x _ hstep.advances⟩

theorem shakeHands_run (isClient : Bool → Bool) (config : Bool → Config) {events : List PeerEvent}
    (h : ∀ e ∈ events, Handshakes e) :
    ShakeHands config (Runs.run step (start isClient config) events) :=
  Runs.run_invariant_along (P := fun _ e => Handshakes e) (fun _ _ he hs => hs.step he)
    (shakeHands_start isClient config) (Runs.along_of_forall _ h)

/-- An established endpoint and its peer agree, whatever the network does to the packets of
the handshake. -/
theorem agreed_of_run (isClient : Bool → Bool) (config : Bool → Config) (events : List PeerEvent)
    (h : ∀ e ∈ events, Handshakes e) (x : Bool)
    (hest : ((Runs.run step (start isClient config) events).party x).state = .established) :
    ((Runs.run step (start isClient config) events).party x).Agreed
      ((Runs.run step (start isClient config) events).party !x)
      (initialTsn (config x)) (initialTsn (config !x)) := by
  have hrun := shakeHands_run isClient config h
  generalize Runs.run step (start isClient config) events = s at hest hrun
  have hown := hrun x
  have hpeer := hrun (!x)
  dsimp only at hown hpeer
  rw [Bool.not_not] at hpeer
  have hshaken := hown.agreed hest
  have hmine := hown.own.knows (Or.inr (Or.inr hest))
  have htheirs := hpeer.own.knows (Or.inr hshaken)
  obtain ⟨hsource, hdestination⟩ := hown.own.ports_of_shaken (Or.inr hest)
  obtain ⟨hpeerSource, hpeerDestination⟩ := hpeer.own.ports_of_shaken hshaken
  exact
    { knows := ⟨hmine.tag.trans hpeer.own.tag.symm, hmine.tsn⟩
      sourcePort := hsource.trans hpeerDestination.symm
      destinationPort := hdestination.trans hpeerSource.symm
      useForwardTsn := hmine.useForwardTsn
      peerState := hshaken
      peerKnows := ⟨htheirs.tag.trans hown.own.tag.symm, htheirs.tsn⟩ }

/-! ## INITs that are sent again -/

/-- What T1-init sends is acceptable exactly if no INIT of the peer has been taken yet. -/
theorem sendsAcceptableInit_iff {config : Bool → Config} {s : Peers} (h : ShakeHands config s)
    (e : PeerEvent) : SendsAcceptableInit s e ↔ ResendsInitEarly s e := by
  unfold SendsAcceptableInit ResendsInitEarly
  split
  · rename_i x
    have hown := (h x).own
    rcases hown.storedInit with hnone | hsome
    · rw [sendInit_of_none hnone, List.drop_length]
      constructor
      · exact fun _ hsome => absurd hnone hsome
      · exact fun _ p hp => absurd hp List.not_mem_nil
    · have hstored : (s.party x).storedInit ≠ none := by
        rw [hsome]
        exact fun hno => by cases hno
      rw [sendInit_of_some hsome]
      dsimp only
      rw [List.drop_left, List.forall_mem_singleton]
      constructor
      · intro hacceptable _
        have hzero : (s.party x).peerVerificationTag = 0 := hacceptable.1
        by_contra hcookie
        have hknows := hown.knows (Or.inl hcookie)
        exact hknows.tag_ne (hknows.tag.symm.trans hzero)
      · intro hearly
        have hzero := hown.tag_unset hstored (hearly hstored)
        rw [hzero]
        exact ⟨rfl, rfl⟩
  · exact Iff.rfl

/-- Every INIT of a run is acceptable exactly if T1-init resends none after an INIT of the
peer has been taken. -/
theorem sendsAcceptableInit_iff_resendsInitEarly (isClient : Bool → Bool) (config : Bool → Config)
    (events : List PeerEvent) (h : ∀ e ∈ events, Handshakes e) :
    (∀ x, ∀ p ∈ ((start isClient config).party x).controlQueue, AcceptableInit p) ∧
      (Runs.Along step SendsAcceptableInit (start isClient config) events ↔
        Runs.Along step ResendsInitEarly (start isClient config) events) := by
  constructor
  · intro x p hp
    unfold start at hp
    dsimp only at hp
    split at hp
    · have hinit : p = { verificationTag := 0, sourcePort := 5000, destinationPort := 5000
                         chunks := [.init (new (config x)).initialInit] } := List.mem_singleton.mp hp
      subst hinit
      exact ⟨rfl, rfl⟩
    · exact absurd hp List.not_mem_nil
  · exact Runs.along_iff_of_invariant (R := fun _ e => Handshakes e) (I := ShakeHands config)
      (fun _ _ he _ hs => hs.step he) (fun _ e _ hs => sendsAcceptableInit_iff hs e)
      (shakeHands_start isClient config) (Runs.along_of_forall _ h)

/-- Two clients. -/
def twoConfigs (x : Bool) : Config :=
  if x then { randomTsn := 7, randomTag := 1, randomCookie := [1] }
  else { randomTsn := 0xffffffff, randomTag := 2, randomCookie := [2] }

/-- Both clients send their INIT, answer the other one's, and finish with an INIT ACK, a COOKIE
ECHO and a COOKIE ACK. -/
def simultaneousOpen : List PeerEvent :=
  [.act true (.gather 0), .act false (.gather 0), .deliver true 1 0, .deliver false 1 0,
   .act true (.gather 2), .deliver false 3 1, .act false (.gather 4), .deliver true 5 2,
   .act true (.gather 6), .deliver false 7 2]

/-- Both ends of a simultaneous open. -/
theorem agreed_simultaneousOpen :
    ((Runs.run step (start (fun _ => true) twoConfigs) simultaneousOpen).party false).Agreed
      ((Runs.run step (start (fun _ => true) twoConfigs) simultaneousOpen).party true)
      0xffffffff 7 :=
  agreed_of_run _ _ _ (by decide) false (by decide +kernel)

/-- T1-init fires at a client that has not heard of the other one. -/
theorem sendsAcceptableInit_lostInit :
    Runs.Along step SendsAcceptableInit (start (fun _ => true) twoConfigs)
      [.act true (.gather 0), .act false (.timeout .t1Init), .deliver false 1 0] :=
  ((sendsAcceptableInit_iff_resendsInitEarly _ _ _ (by decide)).2).mpr
    ⟨trivial, fun _ => rfl, trivial, trivial⟩

/-- T1-init fires at a client that has answered the INIT of the other one. -/
theorem not_sendsAcceptableInit_crossedInits :
    ¬ ∀ (isClient : Bool → Bool) (config : Bool → Config) (events : List PeerEvent),
      (∀ e ∈ events, Handshakes e) →
        Runs.Along step SendsAcceptableInit (start isClient config) events := by
  intro h
  have hrun := h (fun _ => true) twoConfigs
    [.act true (.gather 0), .deliver false 1 0, .act false (.timeout .t1Init)] (by decide)
  have hlast := hrun.2.2.1
  exact absurd hlast (by unfold SendsAcceptableInit; decide +kernel)

end Peers

end Sctp
