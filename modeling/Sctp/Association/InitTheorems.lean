import Sctp.Wire.RoundTripTheorems
import Sctp.Association.HandshakeTheorems

/-!
# What INIT and INIT ACK leave behind

An INIT ACK is checked in three places, with the peer's values written in between. The INIT
ACK sent for an INIT carries the cookie and the extensions in place of the list of what was
not recognized.
-/

namespace Sctp

namespace AssociationInternal

variable {a : AssociationInternal} {p : Packet} {i : ChunkInit}

/-! ## An INIT ACK that is discarded -/

/-- Where the association does not enter COOKIE-ECHOED, nothing about it is changed. -/
def LeavesNoTrace (a : AssociationInternal) (p : Packet) (i : ChunkInit) : Prop :=
  ¬ (a.state ≠ .cookieEchoed ∧ (a.handleInitAck p i).1.state = .cookieEchoed) →
    (a.handleInitAck p i).1 = a

/-- The packet comes from the port the association sends to, and goes to its own. -/
def PortsMatch (a : AssociationInternal) (p : Packet) : Prop :=
  a.sourcePort = p.destinationPort ∧ a.destinationPort = p.sourcePort

/-- What is written before the ports are compared is what the association holds. -/
structure HoldsPeer (a : AssociationInternal) (i : ChunkInit) : Prop where
  inbound : cmpMin i.numInboundStreams a.myMaxNumInboundStreams = a.myMaxNumInboundStreams
  outbound : cmpMin i.numOutboundStreams a.myMaxNumOutboundStreams = a.myMaxNumOutboundStreams
  tag : i.initiateTag = a.peerVerificationTag
  tsn : i.initialTsn - 1 = a.peerLastTsn

/-- What is written between the ports and the cookie is what the association holds. -/
structure HoldsWindow (a : AssociationInternal) (i : ChunkInit) : Prop where
  rwnd : i.advertisedReceiverWindowCredit = a.rwnd
  ssthresh : i.advertisedReceiverWindowCredit = a.ssthresh
  t1init : a.t1init.stop = a.t1init
  storedInit : a.storedInit = none
  useForwardTsn : usesForwardTsn i.params = true → a.useForwardTsn = true

/-- The writes in front of the port check. -/
def learnPeer (a : AssociationInternal) (i : ChunkInit) : AssociationInternal :=
  { a with
    myMaxNumInboundStreams := cmpMin i.numInboundStreams a.myMaxNumInboundStreams
    myMaxNumOutboundStreams := cmpMin i.numOutboundStreams a.myMaxNumOutboundStreams
    peerVerificationTag := i.initiateTag
    peerLastTsn := i.initialTsn - 1 }

/-- The writes in front of the look for a cookie. -/
def learnWindow (a : AssociationInternal) (i : ChunkInit) : AssociationInternal :=
  { a with
    rwnd := i.advertisedReceiverWindowCredit
    ssthresh := i.advertisedReceiverWindowCredit
    t1init := a.t1init.stop
    storedInit := none
    useForwardTsn := a.useForwardTsn || usesForwardTsn i.params }

/-- The four ways through `handle_init_ack`. -/
theorem handleInitAck_cases (a : AssociationInternal) (p : Packet) (i : ChunkInit) :
    (a.state ≠ .cookieWait ∧ (a.handleInitAck p i).1 = a) ∨
    (a.state = .cookieWait ∧ ¬ a.PortsMatch p ∧ (a.handleInitAck p i).1 = a.learnPeer i) ∨
    (a.state = .cookieWait ∧ a.PortsMatch p ∧ cookieParam i.params = none ∧
      (a.handleInitAck p i).1 = (a.learnPeer i).learnWindow i) ∨
    (a.state = .cookieWait ∧ a.PortsMatch p ∧ cookieParam i.params ≠ none ∧
      (a.handleInitAck p i).1.state = .cookieEchoed) := by
  by_cases hstate : a.state = .cookieWait
  · right
    unfold handleInitAck
    rw [if_neg (not_not_intro hstate), tsn_before]
    by_cases hports : a.PortsMatch p
    · right
      have hpass : ¬ (a.sourcePort ≠ p.destinationPort ∨ a.destinationPort ≠ p.sourcePort) := by
        rw [not_or, not_not, not_not]
        exact hports
      dsimp only
      rw [if_neg hpass]
      rcases hcookie : cookieParam i.params with _ | cookie
      · exact Or.inl ⟨hstate, hports, rfl, rfl⟩
      · exact Or.inr ⟨hstate, hports, nofun, rfl⟩
    · left
      have hfail : a.sourcePort ≠ p.destinationPort ∨ a.destinationPort ≠ p.sourcePort := by
        rw [← not_and_or]
        exact hports
      dsimp only
      rw [if_pos hfail]
      exact ⟨hstate, hports, rfl⟩
  · refine Or.inl ⟨hstate, ?_⟩
    unfold handleInitAck
    rw [if_pos hstate]

theorem learnPeer_eq_iff : a.learnPeer i = a ↔ a.HoldsPeer i := by
  constructor
  · intro h
    exact
      { inbound := congrArg myMaxNumInboundStreams h
        outbound := congrArg myMaxNumOutboundStreams h
        tag := congrArg peerVerificationTag h
        tsn := congrArg peerLastTsn h }
  · intro ⟨hin, hout, htag, htsn⟩
    unfold learnPeer
    rw [hin, hout, htag, htsn]

theorem learnWindow_eq_iff : a.learnWindow i = a ↔ a.HoldsWindow i := by
  constructor
  · intro h
    exact
      { rwnd := congrArg rwnd h
        ssthresh := congrArg ssthresh h
        t1init := congrArg t1init h
        storedInit := (congrArg storedInit h).symm
        useForwardTsn := fun huse => by
          have hor : (a.useForwardTsn || usesForwardTsn i.params) = a.useForwardTsn :=
            congrArg useForwardTsn h
          rw [← hor, huse, Bool.or_true] }
  · intro ⟨hrwnd, hssthresh, ht1init, hstored, huse⟩
    have hor : (a.useForwardTsn || usesForwardTsn i.params) = a.useForwardTsn := by
      cases hparams : usesForwardTsn i.params with
      | true => rw [huse hparams, Bool.or_true]
      | false => rw [Bool.or_false]
    unfold learnWindow
    rw [ht1init, hor, ← hstored]
    nth_rewrite 1 [hrwnd]
    rw [hssthresh]

/-- What is learnt first is not overwritten by what is learnt next. -/
theorem learnPeer_of_learnWindow (h : (a.learnPeer i).learnWindow i = a) : a.learnPeer i = a :=
  learnPeer_eq_iff.mpr
    { inbound := congrArg myMaxNumInboundStreams h
      outbound := congrArg myMaxNumOutboundStreams h
      tag := congrArg peerVerificationTag h
      tsn := congrArg peerLastTsn h }

/-- **A discarded INIT ACK leaves a trace** unless the association was not waiting for one, or
everything it wrote before its check failed was there already. -/
theorem handleInitAck_leavesNoTrace_iff (a : AssociationInternal) (p : Packet) (i : ChunkInit) :
    LeavesNoTrace a p i ↔
      a.state = .cookieWait →
        (¬ a.PortsMatch p → a.HoldsPeer i) ∧
        (a.PortsMatch p → cookieParam i.params = none → a.HoldsPeer i ∧ a.HoldsWindow i) := by
  unfold LeavesNoTrace
  rcases a.handleInitAck_cases p i with ⟨hstate, heq⟩ | ⟨hstate, hports, heq⟩ |
    ⟨hstate, hports, hcookie, heq⟩ | ⟨hstate, hports, hcookie, heq⟩
  · exact iff_of_true (fun _ => heq) fun hwait => absurd hwait hstate
  · have hstay : ¬ (a.state ≠ .cookieEchoed ∧ (a.learnPeer i).state = .cookieEchoed) :=
      fun h => h.1 h.2
    rw [heq, ← learnPeer_eq_iff]
    exact ⟨fun h _ => ⟨fun _ => h hstay, fun hmatch => absurd hmatch hports⟩,
      fun h _ => (h hstate).1 hports⟩
  · have hstay : ¬ (a.state ≠ .cookieEchoed ∧
        ((a.learnPeer i).learnWindow i).state = .cookieEchoed) := fun h => h.1 h.2
    rw [heq, ← learnPeer_eq_iff, ← learnWindow_eq_iff]
    constructor
    · intro h _
      refine ⟨fun hno => absurd hports hno, fun _ _ => ?_⟩
      have hpeer := learnPeer_of_learnWindow (h hstay)
      refine ⟨hpeer, ?_⟩
      have hboth := h hstay
      rwa [hpeer] at hboth
    · intro h _
      obtain ⟨hpeer, hwindow⟩ := (h hstate).2 hports hcookie
      rw [hpeer, hwindow]
  · have hmove : a.state ≠ .cookieEchoed ∧ (a.handleInitAck p i).1.state = .cookieEchoed :=
      ⟨by rw [hstate]; decide, heq⟩
    exact iff_of_true (fun h => absurd hmove h)
      fun _ => ⟨fun hno => absurd hports hno, fun _ hnone => absurd hnone hcookie⟩

/-- An INIT ACK that came from another port. -/
def otherPortInitAck : ChunkInit :=
  { isAck := true, initiateTag := 1, initialTsn := 100, numInboundStreams := 1
    numOutboundStreams := 1, advertisedReceiverWindowCredit := 1500 }

/-- An INIT ACK from another port replaces the peer's tag and TSN and narrows the stream limits
of a client that waits for its INIT ACK. -/
theorem not_leavesNoTrace_of_otherPort :
    ¬ LeavesNoTrace (client { randomTsn := 7, randomTag := 9, randomCookie := [] })
      { sourcePort := 6000, destinationPort := 5000, verificationTag := 9
        chunks := [.init otherPortInitAck] } otherPortInitAck := by
  intro h
  have hstay := h fun hmoves => absurd hmoves.2 (by decide)
  have htag := congrArg peerVerificationTag hstay
  revert htag
  decide

/-! ## What an INIT ACK reports -/

/-- A parameter of unknown type with bit 14 set, which an INIT ACK is to report. -/
def mustBeReported (p : Param) : Bool :=
  match p.typ with
  | .unknown paramType => paramType.getLsbD 14
  | _ => false

/-- A parameter that reports an unrecognized one. -/
def isUnrecognized : Param → Bool
  | .unrecognized _ => true
  | _ => false

/-- The INIT is answered with one packet, which is read back as an INIT ACK with the cookie, the
extensions and the parameters to report, in their order, and no others. -/
def ReportsReadably (crc : Bytes → U32) (a : AssociationInternal) (p : Packet) (i : ChunkInit) :
    Prop :=
  ∃ b reply raw q c cookie,
    a.handleInit p i = (b, .ok [reply]) ∧ reply.marshal crc = .ok raw ∧
      Packet.unmarshal crc raw = .ok q ∧ q.chunks = [.init c] ∧ c.isAck = true ∧
        b.myCookie = some cookie ∧ .stateCookie cookie ∈ c.params ∧
          .supportedExtensions [ctReconfig, ctForwardTsn] ∈ c.params ∧
            c.params.filter isUnrecognized = (i.params.filter mustBeReported).map .unrecognized

/-- `ParamStateCookie::new` draws 32 bytes. -/
def HasDrawnCookies (a : AssociationInternal) : Prop :=
  a.newCookie.length = 32 ∧ ∀ cookie, a.myCookie = some cookie → cookie.length = 32

/-- The states in which an INIT is handled. -/
def TakesInit (a : AssociationInternal) : Prop :=
  a.state = .closed ∨ a.state = .cookieWait ∨ a.state = .cookieEchoed

/-- The answer is read back with the cookie and the extensions, which are all of its
parameters. -/
theorem handleInit_readBack (crc : Bytes → U32) (haccepts : a.TakesInit)
    (hcookies : a.HasDrawnCookies) (p : Packet) (i : ChunkInit) :
    ∃ b reply raw c cookie,
      a.handleInit p i = (b, .ok [reply]) ∧ reply.marshal crc = .ok raw ∧
        Packet.unmarshal crc raw = .ok reply.wire ∧ reply.chunks = [.init c] ∧ c.isAck = true ∧
          b.myCookie = some cookie ∧
            c.params = [.stateCookie cookie, .supportedExtensions [ctReconfig, ctForwardTsn]] := by
  obtain ⟨maxIn, maxOut, cookie, ack, hmine, hisAck, -, -, hparams, heq⟩ :=
    handleInit_eq haccepts p i
  have hlen : cookie.length = 32 := by
    rcases hmine with hmine | ⟨hnone, rfl⟩
    · exact hcookies.2 cookie hmine
    · exact hcookies.1
  have hwell : (Chunk.init ack).WellFormed := by
    refine ⟨?_, ?_⟩
    · show chunkHeaderSize + (4 + 4 + 2 + 2 + 4 + paramsLength ack.params) ≤ 65535
      rw [hparams]
      simp only [paramsLength, Param.valueLength, hlen]
      decide
    · show ∀ q ∈ ack.params, q.WellFormed
      rw [hparams]
      exact List.forall_mem_cons.mpr ⟨trivial, List.forall_mem_singleton.mpr trivial⟩
  have hrecoverable : (Chunk.init ack).Recoverable := by
    show (∀ q ∈ ack.params, q.KnownAlgorithms) ∧
      ∀ q, ack.params.getLast? = some q → 0 < q.valueLength
    rw [hparams]
    refine ⟨List.forall_mem_cons.mpr ⟨trivial, List.forall_mem_singleton.mpr trivial⟩, ?_⟩
    intro q hq
    have hlast : q = .supportedExtensions [ctReconfig, ctForwardTsn] := (Option.some.inj hq).symm
    rw [hlast]
    decide
  have hback : Packet.RoundTrips crc
      { verificationTag := i.initiateTag, sourcePort := p.destinationPort
        destinationPort := p.sourcePort, chunks := [.init ack] } :=
    (Packet.roundTrips_iff_of_single crc rfl hwell).mpr hrecoverable
  obtain ⟨raw, hraw, hback⟩ := hback
  exact ⟨_, _, raw, ack, cookie, heq, hraw, hback, rfl, hisAck, rfl, hparams⟩

/-- What is read of the answer is determined. -/
theorem readBack_unique {crc : Bytes → U32} {b b' : AssociationInternal} {reply reply' q : Packet}
    {raw raw' : Bytes} {c c' : ChunkInit} (heq : a.handleInit p i = (b, .ok [reply]))
    (hraw : reply.marshal crc = .ok raw) (hback : Packet.unmarshal crc raw = .ok q)
    (hchunks : q.chunks = [.init c]) (heq' : a.handleInit p i = (b', .ok [reply']))
    (hraw' : reply'.marshal crc = .ok raw') (hback' : Packet.unmarshal crc raw' = .ok reply'.wire)
    (hchunks' : reply'.chunks = [.init c']) : c = c' := by
  have hreply : reply = reply' := by
    rw [heq] at heq'
    injection heq' with _ hout
    injection hout with hout
    exact List.head_eq_of_cons_eq hout
  subst hreply
  have hsame : raw = raw' := Except.ok.inj (hraw.symm.trans hraw')
  subst hsame
  rw [hback] at hback'
  injection hback' with hq
  have hread : q.chunks = reply.chunks.map Chunk.wire := congrArg Packet.chunks hq
  rw [hchunks, hchunks'] at hread
  injection hread with hc _
  injection hc

/-- **What must be reported is not**: the INIT ACK reports what it should when there is nothing
to report. -/
theorem handleInit_reportsReadably_iff (crc : Bytes → U32) (haccepts : a.TakesInit)
    (hcookies : a.HasDrawnCookies) (p : Packet) (i : ChunkInit) :
    ReportsReadably crc a p i ↔ ∀ q ∈ i.params, mustBeReported q = false := by
  obtain ⟨b, reply, raw, c, cookie, heq, hraw, hback, hchunks, hisAck, hmine, hparams⟩ :=
    handleInit_readBack crc haccepts hcookies p i
  have hread : reply.wire.chunks = [.init c] := by
    show reply.chunks.map Chunk.wire = _
    rw [hchunks]
    rfl
  constructor
  · intro ⟨b', reply', raw', q, c', cookie', heq', hraw', hback', hchunks', _, _, _, _, hreported⟩
    rw [readBack_unique heq' hraw' hback' hchunks' heq hraw hback hchunks, hparams] at hreported
    have hnone := List.map_eq_nil_iff.mp hreported.symm
    intro q hq
    rw [List.filter_eq_nil_iff] at hnone
    exact Bool.eq_false_iff.mpr (hnone q hq)
  · intro hnone
    have hempty : i.params.filter mustBeReported = [] := by
      rw [List.filter_eq_nil_iff]
      intro q hq
      rw [hnone q hq]
      decide
    refine ⟨b, reply, raw, reply.wire, c, cookie, heq, hraw, hback, hread, hisAck, hmine, ?_, ?_, ?_⟩
    · rw [hparams]
      exact List.mem_cons_self
    · rw [hparams]
      exact List.mem_cons_of_mem _ List.mem_cons_self
    · rw [hparams, hempty]
      rfl

/-- A server that has not received anything. -/
def freshServer : AssociationInternal :=
  server { randomTsn := 7, randomTag := 9, randomCookie := List.replicate 32 0 }

/-- An INIT of a peer that supports the two extensions, with one more parameter. -/
def initWith (param : Param) : ChunkInit :=
  ChunkInit.setSupportedExtensions
    { initiateTag := 1, initialTsn := 100, numInboundStreams := 10, numOutboundStreams := 10
      advertisedReceiverWindowCredit := 1500, params := [param] }

/-- A packet with an INIT that has the parameter. -/
def initPacketWith (param : Param) : Packet :=
  { sourcePort := 5000, destinationPort := 5000, chunks := [.init (initWith param)] }

theorem freshServer_takesInit : freshServer.TakesInit := Or.inl rfl

theorem freshServer_hasDrawnCookies : freshServer.HasDrawnCookies := ⟨rfl, nofun⟩

/-- A parameter of unknown type that may be skipped in silence. -/
theorem handleInit_reportsReadably_iff_silent :
    ReportsReadably (fun _ => 0) freshServer (initPacketWith (.unknown 0x80aa [1, 2, 3]))
      (initWith (.unknown 0x80aa [1, 2, 3])) :=
  (handleInit_reportsReadably_iff (fun _ => 0) freshServer_takesInit freshServer_hasDrawnCookies
    _ _).mpr (by decide)

/-- With bit 14 set the parameter is to be reported; the INIT ACK says nothing of it. -/
theorem not_reportsReadably_of_reported :
    ¬ ReportsReadably (fun _ => 0) freshServer (initPacketWith (.unknown 0xc0aa [1, 2, 3]))
      (initWith (.unknown 0xc0aa [1, 2, 3])) := by
  intro ⟨b, reply, raw, q, c, cookie, heq, hraw, hback, hchunks, _, _, _, _, hreported⟩
  obtain ⟨b', reply', raw', c', cookie', heq', hraw', hback', hchunks', _, _, hparams⟩ :=
    handleInit_readBack (fun _ => 0) freshServer_takesInit freshServer_hasDrawnCookies
      (initPacketWith (.unknown 0xc0aa [1, 2, 3])) (initWith (.unknown 0xc0aa [1, 2, 3]))
  have hc : c = c' := readBack_unique heq hraw hback hchunks heq' hraw' hback' hchunks'
  rw [hc, hparams] at hreported
  revert hreported
  show ¬ ([] = _)
  decide

end AssociationInternal

end Sctp
