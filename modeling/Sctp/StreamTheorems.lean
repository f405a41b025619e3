import Sctp.Stream
import Sctp.Queue.Writers

/-!
# What a stream writes

`packetize` cuts a message into fragments: their data put together is the message, they
agree in everything but data and position, and they form a message in the sense of the
pending queue.
-/

namespace Sctp

/-- The chunk without what tells the fragments of one message apart. -/
def ChunkPayloadData.header (c : ChunkPayloadData) : ChunkPayloadData :=
  { c with userData := [], beginningFragment := false, endingFragment := false }

/-- `chunks` are fragments of `data` with the common `header`; the first one begins the
message when `first` says so, the last one ends it. -/
structure FragmentsOf (header : ChunkPayloadData) (first : Bool) (data : Bytes)
    (chunks : List ChunkPayloadData) : Prop where
  ne_nil : chunks ≠ []
  data_eq : chunksData chunks = data
  header_eq : ∀ c ∈ chunks, c.header = header
  data_ne : ∀ c ∈ chunks, c.userData ≠ []
  beginning : ∀ i c, chunks[i]? = some c → (c.beginningFragment = true ↔ first = true ∧ i = 0)
  ending : ∀ i c, chunks[i]? = some c → (c.endingFragment = true ↔ i + 1 = chunks.length)

namespace FragmentsOf

variable {header : ChunkPayloadData} {first : Bool}

/-- The last fragment. -/
theorem singleton {c : ChunkPayloadData} {data : Bytes} (hheader : c.header = header)
    (hdata : c.userData = data) (hne : data ≠ []) (hfirst : c.beginningFragment = first)
    (hlast : c.endingFragment = true) : FragmentsOf header first data [c] where
  ne_nil := by simp
  data_eq := by simp [chunksData, hdata]
  header_eq := by simpa using hheader
  data_ne := by simpa [hdata] using hne
  beginning i c' hc' := by
    cases i with
    | zero => simp at hc'; simp [← hc', hfirst]
    | succ i => simp at hc'
  ending i c' hc' := by
    cases i with
    | zero => simp at hc'; simp [← hc', hlast]
    | succ i => simp at hc'

/-- A fragment before others. -/
theorem cons {c : ChunkPayloadData} {data rest : Bytes} {chunks : List ChunkPayloadData}
    (hheader : c.header = header) (hdata : c.userData ++ rest = data) (hne : c.userData ≠ [])
    (hfirst : c.beginningFragment = first) (hlast : c.endingFragment = false)
    (h : FragmentsOf header false rest chunks) : FragmentsOf header first data (c :: chunks) where
  ne_nil := by simp
  data_eq := by rw [← hdata, ← h.data_eq]; rfl
  header_eq := by simpa using ⟨hheader, h.header_eq⟩
  data_ne := by simpa using ⟨hne, h.data_ne⟩
  beginning i c' hc' := by
    cases i with
    | zero => simp at hc'; simp [← hc', hfirst]
    | succ i =>
      rw [List.getElem?_cons_succ] at hc'
      rw [h.beginning i c' hc']
      simp
  ending i c' hc' := by
    have hpos : 0 < chunks.length := List.length_pos_of_ne_nil h.ne_nil
    cases i with
    | zero =>
      simp only [List.getElem?_cons_zero, Option.some.injEq] at hc'
      rw [← hc', hlast, List.length_cons]
      simp only [Bool.false_eq_true, false_iff]
      omega
    | succ i =>
      rw [List.getElem?_cons_succ] at hc'
      rw [h.ending i c' hc', List.length_cons]
      omega

/-- The fragments of a whole are a message. -/
theorem isMessage {data : Bytes} {chunks : List ChunkPayloadData}
    (h : FragmentsOf header true data chunks) : IsMessage header.unordered chunks where
  ne_nil := h.ne_nil
  kind c hc := by rw [← h.header_eq c hc]; rfl
  beginning i c hc := by simpa using h.beginning i c hc
  ending := h.ending

end FragmentsOf

namespace Stream

/-- What the fragments of a message written to the stream have in common. -/
def messageHeader (s : Stream) (unordered : Bool) (ppi : PayloadProtocolIdentifier)
    (headAbandoned headAllInflight : SharedFlag) : ChunkPayloadData :=
  { streamIdentifier := s.streamIdentifier
    unordered
    payloadType := ppi
    streamSequenceNumber := s.sequenceNumber
    abandoned := headAbandoned
    allInflight := headAllInflight }

/-- The fragmentation loop, on a stream whose payload size is not 0. -/
theorem fragments_of_pos {s : Stream} (hmax : 0 < s.maxPayloadSize.toNat) (unordered : Bool)
    (ppi : PayloadProtocolIdentifier) (headAbandoned headAllInflight : SharedFlag) {raw : Bytes}
    {fuel i : ℕ} (hi : i < raw.length) (hfuel : raw.length - i ≤ fuel) :
    FragmentsOf (s.messageHeader unordered ppi headAbandoned headAllInflight) (i = 0) (raw.drop i)
      (s.fragments unordered ppi headAbandoned headAllInflight raw fuel i) := by
  induction fuel generalizing i with
  | zero => omega
  | succ fuel ih =>
    have hne : raw.length - i ≠ 0 := by omega
    unfold fragments
    rw [if_neg hne]
    by_cases hlast : raw.length - i ≤ s.maxPayloadSize.toNat
    · -- the last fragment takes all that remains
      have hsize : min s.maxPayloadSize.toNat (raw.length - i) = raw.length - i :=
        Nat.min_eq_right hlast
      have hdone : s.fragments unordered ppi headAbandoned headAllInflight raw fuel
          (i + (raw.length - i)) = [] := by
        cases fuel with
        | zero => rfl
        | succ fuel =>
          unfold fragments
          rw [if_pos (by omega)]
      have htake : (raw.drop i).take (raw.length - i) = raw.drop i :=
        List.take_of_length_le (by simp)
      rw [hsize]
      dsimp only
      rw [hdone, htake, Nat.sub_self]
      refine FragmentsOf.singleton ?_ ?_ ?_ ?_ ?_
      · rfl
      · rfl
      · rw [← List.length_pos_iff, List.length_drop]
        omega
      · rfl
      · rfl
    · have hsize : min s.maxPayloadSize.toNat (raw.length - i) = s.maxPayloadSize.toNat :=
        Nat.min_eq_left (by omega)
      have hrest := ih (i := i + s.maxPayloadSize.toNat) (by omega) (by omega)
      rw [hsize]
      rw [decide_eq_false (by omega)] at hrest
      refine FragmentsOf.cons ?_ ?_ ?_ ?_ ?_ hrest
      · rfl
      · rw [← List.drop_drop, List.take_append_drop]
      · rw [← List.length_pos_iff, List.length_take, List.length_drop]
        omega
      · rfl
      · exact decide_eq_false (by omega)

/-- What a stream makes of a non-empty message. -/
theorem packetize_fragmentsOf {s : Stream} (hmax : 0 < s.maxPayloadSize.toNat)
    (flags : SharedFlags) {raw : Bytes} (hraw : raw ≠ []) (ppi : PayloadProtocolIdentifier) :
    FragmentsOf (s.messageHeader (ppi ≠ .dcep && s.unordered) ppi flags.length (flags.length + 1))
      true raw (s.packetize flags raw ppi).2.2 := by
  have hlen : 0 < raw.length := List.length_pos_of_ne_nil hraw
  have h := s.fragments_of_pos hmax (ppi ≠ .dcep && s.unordered) ppi flags.length
    (flags ++ [false]).length (i := 0) hlen (le_refl _)
  simpa [packetize, SharedFlags.alloc] using h

/-- The two things a writer pushes are messages: the fragments of a write, -/
theorem packetize_isMessage {s : Stream} (hmax : 0 < s.maxPayloadSize.toNat)
    (flags : SharedFlags) {raw : Bytes} (hraw : raw ≠ []) (ppi : PayloadProtocolIdentifier) :
    IsMessage (ppi ≠ .dcep && s.unordered) (s.packetize flags raw ppi).2.2 :=
  (packetize_fragmentsOf hmax flags hraw ppi).isMessage

/-- and the end-of-stream marker of a shutdown. -/
theorem eosMarker_isMessage (streamIdentifier : U16) (abandoned allInflight : SharedFlag) :
    IsMessage false [eosMarker streamIdentifier abandoned allInflight] where
  ne_nil := by simp
  kind := by simp [eosMarker]
  beginning i c hc := by
    cases i with
    | zero => simp at hc; simp [← hc, eosMarker]
    | succ i => simp at hc
  ending i c hc := by
    cases i with
    | zero => simp at hc; simp [← hc, eosMarker]
    | succ i => simp at hc

/-! ## What the calls do -/

/-- Every message gets two cells, for both of its flags. -/
theorem packetize_flags (s : Stream) (flags : SharedFlags) (raw : Bytes)
    (ppi : PayloadProtocolIdentifier) : (s.packetize flags raw ppi).2.1 = flags ++ [false, false] := by
  show (flags ++ [false]) ++ [false] = flags ++ [false, false]
  rw [List.append_assoc]
  rfl

/-- Writing does not change the limit of a fragment. -/
theorem packetize_maxPayloadSize (s : Stream) (flags : SharedFlags) (raw : Bytes)
    (ppi : PayloadProtocolIdentifier) :
    (s.packetize flags raw ppi).1.maxPayloadSize = s.maxPayloadSize := by
  unfold packetize
  dsimp only
  split <;> rfl

/-- A write fails at once, or it fails when the message has been cut into chunks, or the chunks
are pushed. -/
theorem writeSctp_cases (s : Stream) (maxMessageSize : U32) (state : AssociationState)
    (flags : SharedFlags) (q : PendingQueue) (p : Bytes) (ppi : PayloadProtocolIdentifier) :
    (∃ e, s.writeSctp maxMessageSize state flags q p ppi = (s, flags, q, .error e)) ∨
    (∃ e, s.writeSctp maxMessageSize state flags q p ppi =
      ((s.packetize flags p ppi).1, (s.packetize flags p ppi).2.1, q, .error e)) ∨
    (state = .established ∧ s.writeSctp maxMessageSize state flags q p ppi =
      ((s.packetize flags p ppi).1, (s.packetize flags p ppi).2.1,
        (s.packetize flags p ppi).2.2.foldl PendingQueue.push q, .ok p.length)) := by
  unfold writeSctp
  by_cases hclosed : s.writeShutdown = true
  · exact Or.inl ⟨_, if_pos hclosed⟩
  · rw [if_neg hclosed]
    by_cases hlarge : p.length > maxMessageSize.toNat
    · exact Or.inl ⟨_, if_pos hlarge⟩
    · rw [if_neg hlarge]
      by_cases hstate : state = .established
      · subst hstate
        exact Or.inr (Or.inr ⟨rfl, rfl⟩)
      · have hsend : ∀ chunks, sendPayloadData state q chunks =
            (q, .error .errPayloadDataStateNotExist) := fun _ => if_pos hstate
        split
        · exact Or.inl ⟨_, rfl⟩
        · exact Or.inl ⟨_, rfl⟩
        · exact Or.inl ⟨_, rfl⟩
        · exact Or.inl ⟨_, rfl⟩
        · dsimp only
          rw [hsend]
          exact Or.inr (Or.inl ⟨_, rfl⟩)

/-- A shutdown pushes an end-of-stream marker or nothing. -/
theorem shutdown_cases (s : Stream) (state : AssociationState) (flags : SharedFlags)
    (q : PendingQueue) (how : Shutdown) :
    ∃ s', s' = { s with readShutdown := s'.readShutdown, writeShutdown := s'.writeShutdown } ∧
      ((∃ r, s.shutdown state flags q how = (s', flags, q, r)) ∨
        s.shutdown state flags q how = (s', flags ++ [false, false],
          q.push (eosMarker s.streamIdentifier flags.length (flags.length + 1)), .ok ())) := by
  unfold shutdown
  by_cases hdone : (s.readShutdown && s.writeShutdown) = true
  · exact ⟨s, rfl, Or.inl ⟨_, if_pos hdone⟩⟩
  · rw [if_neg hdone]
    dsimp only
    have hshut : ∀ s₁ : Stream,
        s₁ = { s with readShutdown := s₁.readShutdown, writeShutdown := s₁.writeShutdown } → ∃ s',
        s' = { s with readShutdown := s'.readShutdown, writeShutdown := s'.writeShutdown } ∧
        ((∃ r, (if how = .both ∨ (s₁.readShutdown && s₁.writeShutdown) = true then
            (s₁, (sendResetRequest s₁.streamIdentifier state flags q).1,
              (sendResetRequest s₁.streamIdentifier state flags q).2.1,
              (sendResetRequest s₁.streamIdentifier state flags q).2.2)
          else (s₁, flags, q, .ok ())) = (s', flags, q, r)) ∨
        (if how = .both ∨ (s₁.readShutdown && s₁.writeShutdown) = true then
            (s₁, (sendResetRequest s₁.streamIdentifier state flags q).1,
              (sendResetRequest s₁.streamIdentifier state flags q).2.1,
              (sendResetRequest s₁.streamIdentifier state flags q).2.2)
          else (s₁, flags, q, .ok ())) = (s', flags ++ [false, false],
            q.push (eosMarker s.streamIdentifier flags.length (flags.length + 1)), .ok ())) := by
      intro s₁ hs₁
      have hsi : s₁.streamIdentifier = s.streamIdentifier := congrArg (·.streamIdentifier) hs₁
      refine ⟨s₁, hs₁, ?_⟩
      split
      · unfold sendResetRequest
        by_cases hstate : state ≠ .established
        · rw [if_pos hstate]
          exact Or.inl ⟨_, rfl⟩
        · rw [if_neg hstate]
          refine Or.inr ?_
          show (s₁, (flags ++ [false]) ++ [false], q.push (eosMarker s₁.streamIdentifier flags.length
            (flags ++ [false]).length), Except.ok ()) = _
          rw [List.append_assoc, hsi, List.length_append]
          rfl
      · exact Or.inl ⟨_, rfl⟩
    apply hshut
    split_ifs <;> rfl

/-- A shutdown opens no half again, and pushes the marker when the second half is shut. -/
theorem shutdown_shuts (s : Stream) (state : AssociationState) (flags : SharedFlags)
    (q : PendingQueue) (how : Shutdown) :
    (s.readShutdown = true → (s.shutdown state flags q how).1.readShutdown = true) ∧
    (s.writeShutdown = true → (s.shutdown state flags q how).1.writeShutdown = true) ∧
    ((s.shutdown state flags q how).2.2.1 = q ∨
      (s.readShutdown && s.writeShutdown) = false ∧
        (s.shutdown state flags q how).1.readShutdown = true ∧
        (s.shutdown state flags q how).1.writeShutdown = true) := by
  unfold shutdown sendResetRequest
  cases hread : s.readShutdown <;> cases hwrite : s.writeShutdown <;> cases how <;>
    simp [hread, hwrite]

end Stream

end Sctp
