import Sctp.Association.TimerTheorems
import Sctp.Wire.RoundTripTheorems

/-!
# What is bundled is what is received

The write loop's packets of DATA chunks, from the list of the chunks to what the peer decodes.
The association never changes the limits it was made with, so every chunk it bundles fits the
length field.
-/

namespace Sctp

namespace AssociationInternal

variable {a a' : AssociationInternal}

/-! ## Limits -/

theorem maxPayloadSize_handleSack (a : AssociationInternal) (now : ℕ) (d : ChunkSelectiveAck) :
    (a.handleSack now d).1.maxPayloadSize = a.maxPayloadSize :=
  handleSack_kept (fun _ _ _ _ _ _ => rfl) a now d

theorem maxPayloadSize_ignoresStreams : IgnoresStreams maxPayloadSize := fun _ _ _ _ => rfl

theorem maxPayloadSize_handleReconfig (a : AssociationInternal) (c : ChunkReconfig) :
    (a.handleReconfig c).1.maxPayloadSize = a.maxPayloadSize := by
  refine handleReconfig_invariant (I := fun b => b.maxPayloadSize = a.maxPayloadSize) ?_ rfl
  intro b raw _ hb
  refine Eq.trans ?_ hb
  unfold handleReconfigParam
  cases raw with
  | outgoingResetRequest p =>
    exact maxPayloadSize_ignoresStreams.resetStreamsIfAny (fun _ _ => rfl) _ p
  | reconfigResponse p =>
    dsimp only
    split <;> rfl
  | _ => rfl

theorem maxPayloadSize_dispatchChunk (a : AssociationInternal) (now : ℕ) (p : Packet)
    (chunk : Chunk) : (a.dispatchChunk now p chunk).1.maxPayloadSize = a.maxPayloadSize := by
  -- no handler writes it
  cases chunk with
  | init c =>
    unfold dispatchChunk handleInitAck handleInit
    dsimp only
    split
    · split
      · rfl
      · split
        · rfl
        · cases cookieParam c.params with
          | none => rfl
          | some cookie => rfl
    · split_ifs <;> rfl
  | abort _ => rfl
  | error _ => rfl
  | heartbeat params => rfl
  | heartbeatAck _ => rfl
  | cookieEcho cookie =>
    show (a.handleCookieEcho cookie).1.maxPayloadSize = _
    unfold handleCookieEcho setState
    dsimp only
    split
    · rfl
    · split
      · split <;> rfl
      · split <;> rfl
      · split <;> rfl
      · split <;> rfl
      · rfl
  | cookieAck =>
    show a.handleCookieAck.maxPayloadSize = _
    unfold handleCookieAck
    split <;> rfl
  | payloadData d => exact (congrArg maxPayloadSize (apartFromData_handleData a d) :)
  | selectiveAck d => exact maxPayloadSize_handleSack a now d
  | reconfig c => exact maxPayloadSize_handleReconfig a c
  | forwardTsn c => exact (congrArg maxPayloadSize (apartFromData_handleForwardTsn a c) :)
  | shutdown _ =>
    obtain ⟨_, _, heq⟩ := handleShutdown_eq a
    show a.handleShutdown.maxPayloadSize = _
    rw [heq]
  | shutdownAck =>
    show a.handleShutdownAck.maxPayloadSize = _
    unfold handleShutdownAck
    split <;> rfl
  | shutdownComplete =>
    show a.handleShutdownComplete.maxPayloadSize = _
    unfold handleShutdownComplete close
    split
    · split
      · exact maxPayloadSize_ignoresStreams.unregisterStreams _ _
      · rfl
    · rfl
  | unknown hdr value =>
    show (a.handleUnknown hdr value).1.maxPayloadSize = _
    unfold handleUnknown
    dsimp only
    split <;> rfl

theorem maxPayloadSize_localStep (a : AssociationInternal) (op : LocalOp) :
    (a.localStep op).1.maxPayloadSize = a.maxPayloadSize := by
  cases op with
  | openStream si ppi =>
    obtain ⟨_, _, heq⟩ := openStream_eq a si ppi
    show (a.openStream si ppi).1.maxPayloadSize = _
    rw [heq]
  | acceptStream =>
    show a.acceptStream.1.maxPayloadSize = _
    unfold acceptStream
    split <;> rfl
  | setReliabilityParams r unordered relType relVal => rfl
  | write r p ppi =>
    obtain ⟨_, _, _, heq⟩ := writeSctp_eq a r p ppi
    show (a.writeSctp r p ppi).1.maxPayloadSize = _
    rw [heq]
  | read r bufLen =>
    show (a.readSctp r bufLen).1.maxPayloadSize = _
    unfold readSctp
    split <;> rfl
  | shutdownStream r how =>
    obtain ⟨_, _, _, heq⟩ := shutdownStream_eq a r how
    show (a.shutdownStream r how).1.maxPayloadSize = _
    rw [heq]
  | shutdown =>
    obtain ⟨_, _, heq⟩ := shutdown_eq a
    show a.shutdown.1.maxPayloadSize = _
    rw [heq]
  | gather now => exact (congrArg maxPayloadSize (a.ungathered_gatherOutbound now).1 :)
  | ackTimeout => rfl
  | timeout id =>
    show (a.onRetransmissionTimeout id).maxPayloadSize = _
    unfold onRetransmissionTimeout
    cases id with
    | t1Init =>
      show a.sendInit.1.maxPayloadSize = _
      unfold sendInit
      split <;> rfl
    | t1Cookie =>
      show a.sendCookieEcho.1.maxPayloadSize = _
      unfold sendCookieEcho
      split <;> rfl
    | t2Shutdown =>
      dsimp only
      split <;> rfl
    | t3Rtx => exact (congrArg maxPayloadSize a.onT3RtxTimeout_frame :)
    | reconfig => rfl

/-- No packet, call or timeout changes the limit on the user data of a chunk. -/
theorem maxPayloadSize_endpointStep (a : AssociationInternal) (op : EndpointOp) :
    (a.endpointStep op).maxPayloadSize = a.maxPayloadSize := by
  cases op with
  | act op => exact maxPayloadSize_localStep a op
  | receive now p =>
    refine handleInbound_invariant (I := fun b => b.maxPayloadSize = a.maxPayloadSize)
      (fun b _ _ _ _ hb => hb) ?_ rfl
    intro b c _ _ _ hb
    have hkept := (maxPayloadSize_dispatchChunk b now p c).trans hb
    revert hkept
    generalize b.dispatchChunk now p c = r
    obtain ⟨b', e | packets⟩ := r
    · exact id
    · exact id

theorem maxPayloadSize_run (isClient : Bool) (config : Config) (ops : List EndpointOp) :
    (Runs.run endpointStep (endpoint isClient config) ops).maxPayloadSize =
      initialMtu - (commonHeaderSize + dataChunkHeaderSize) := by
  rw [Runs.run_frame (f := maxPayloadSize) maxPayloadSize_endpointStep]
  cases isClient with
  | false => rfl
  | true => rfl

/-! ## Bundling -/

/-- The chunks of the packets are those of the list, in order. -/
theorem chunks_bundleFrom (a : AssociationInternal) (toSend : List Chunk) (bytes : U32)
    (cs : List ChunkPayloadData) :
    (a.bundleFrom toSend bytes cs).flatMap Packet.chunks = toSend ++ cs.map .payloadData := by
  induction cs generalizing toSend bytes with
  | nil =>
    unfold bundleFrom
    split
    · rename_i hnil
      rw [hnil]
      rfl
    · rw [List.flatMap_singleton, List.map_nil, List.append_nil]
      rfl
  | cons c cs ih =>
    unfold bundleFrom
    dsimp only
    split
    · rw [List.flatMap_cons, ih]
      rfl
    · rw [ih, List.append_assoc]
      rfl

theorem chunks_bundleDataChunksIntoPackets (a : AssociationInternal)
    (cs : List ChunkPayloadData) :
    (a.bundleDataChunksIntoPackets cs).flatMap Packet.chunks = cs.map .payloadData :=
  a.chunks_bundleFrom [] commonHeaderSize cs

/-- **What is bundled is what is received**: in every run, marshalling the packets made of a
list of chunks and decoding them gives the chunks in order, whatever the hash. -/
theorem receivedChunks_bundle (isClient : Bool) (config : Config) (ops : List EndpointOp)
    (crc : Bytes → U32) {cs : List ChunkPayloadData}
    (hcs : ∀ c ∈ cs, c.userData.length ≤
      (Runs.run endpointStep (endpoint isClient config) ops).maxPayloadSize.toNat) :
    Packet.receivedChunks crc ((Runs.run endpointStep (endpoint isClient config)
      ops).bundleDataChunksIntoPackets cs) = .ok (cs.map fun c => (Chunk.payloadData c).wire) := by
  rw [maxPayloadSize_run] at hcs
  generalize Runs.run endpointStep (endpoint isClient config) ops = a
  have hall := chunks_bundleDataChunksIntoPackets a cs
  have hchunk : ∀ p ∈ a.bundleDataChunksIntoPackets cs, ∀ c ∈ p.chunks,
      ∃ d ∈ cs, Chunk.payloadData d = c := by
    intro p hp c hc
    have hmem : c ∈ (a.bundleDataChunksIntoPackets cs).flatMap Packet.chunks :=
      List.mem_flatMap.mpr ⟨p, hp, hc⟩
    rw [hall] at hmem
    exact List.mem_map.mp hmem
  have htrips : ∀ p ∈ a.bundleDataChunksIntoPackets cs, Packet.RoundTrips crc p := by
    intro p hp
    refine (Packet.roundTrips_iff_of_recoverable crc ?_).mpr ?_
    · intro c hc
      obtain ⟨d, hd, rfl⟩ := hchunk p hp c hc
      refine ⟨⟨?_, trivial⟩, rfl, trivial⟩
      have hsize : d.userData.length ≤ 1200 := hcs d hd
      show chunkHeaderSize + (payloadDataHeaderSize + d.userData.length) ≤ 65535
      unfold chunkHeaderSize payloadDataHeaderSize
      omega
    · intro c hc
      obtain ⟨d, _, rfl⟩ := hchunk p hp c (List.dropLast_subset _ hc)
      rfl
  rw [Packet.receivedChunks_of_roundTrips htrips]
  refine congrArg Outcome.ok ?_
  rw [← List.map_flatMap, hall, List.map_map]
  rfl

/-- A packet's worth of data and some more. -/
theorem receivedChunks_twoPackets :
    Packet.receivedChunks (fun _ => 0)
        ((endpoint true ⟨0, 0, 1, 1, []⟩).bundleDataChunksIntoPackets
          [{ tsn := 1, userData := List.replicate 1200 7 }, { tsn := 2, userData := [1, 2, 3] }]) =
      .ok [.payloadData { tsn := 1, userData := List.replicate 1200 7 },
        .payloadData { tsn := 2, userData := [1, 2, 3] }] := by
  refine receivedChunks_bundle true ⟨0, 0, 1, 1, []⟩ [] (fun _ => 0) ?_
  refine List.forall_mem_cons.mpr ⟨?_, List.forall_mem_singleton.mpr ?_⟩
  · exact Nat.le_of_eq List.length_replicate
  · show 3 ≤ 1200
    decide

end AssociationInternal

end Sctp
