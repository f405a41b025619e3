import Sctp.StreamTheorems

/-!
# Writes that fail

`write_sctp` looks at the state before it cuts the message into chunks, and `send_payload_data`
looks at it again. A write that only the second look turns down has taken its sequence number
and its bytes.
-/

namespace Sctp

namespace Stream

variable {s : Stream} {maxMessageSize : U32} {state : AssociationState} {flags : SharedFlags}
  {q : PendingQueue} {p : Bytes} {ppi : PayloadProtocolIdentifier}

/-- If the write fails, it leaves the counters of the stream and the pending queue alone. -/
def FailsWithoutEffect (s : Stream) (maxMessageSize : U32) (state : AssociationState)
    (flags : SharedFlags) (q : PendingQueue) (p : Bytes) (ppi : PayloadProtocolIdentifier) : Prop :=
  let r := s.writeSctp maxMessageSize state flags q p ppi
  r.2.2.2.isOk = false →
    r.1.sequenceNumber = s.sequenceNumber ∧ r.1.bufferedAmount = s.bufferedAmount ∧ r.2.2.1 = q

/-- The association is not established yet, and the message, which is neither refused for the
stream nor for its size, is sent in order or has bytes. -/
def TurnedDownLate (s : Stream) (maxMessageSize : U32) (state : AssociationState) (p : Bytes)
    (ppi : PayloadProtocolIdentifier) : Prop :=
  s.writeShutdown = false ∧ p.length ≤ maxMessageSize.toNat ∧
    (state = .closed ∨ state = .cookieWait ∨ state = .cookieEchoed) ∧
    (p ≠ [] ∨ ppi = .dcep ∨ s.unordered = false)

/-- A message that is cut into chunks takes an SSN, if it is ordered, and is charged. -/
theorem packetize_counters (s : Stream) (flags : SharedFlags) (p : Bytes)
    (ppi : PayloadProtocolIdentifier) :
    (s.packetize flags p ppi).1.sequenceNumber =
        (if ppi = .dcep ∨ s.unordered = false then s.sequenceNumber + 1 else s.sequenceNumber) ∧
      (s.packetize flags p ppi).1.bufferedAmount = s.bufferedAmount + p.length := by
  unfold packetize
  dsimp only
  by_cases hdcep : ppi = .dcep
  · simp [hdcep]
  · cases hu : s.unordered <;> simp [hdcep]

/-- Such a write has an effect if it takes an SSN or bytes. -/
theorem packetize_counters_iff (s : Stream) (flags : SharedFlags) (p : Bytes)
    (ppi : PayloadProtocolIdentifier) :
    ((s.packetize flags p ppi).1.sequenceNumber = s.sequenceNumber ∧
        (s.packetize flags p ppi).1.bufferedAmount = s.bufferedAmount) ↔
      ¬ (p ≠ [] ∨ ppi = .dcep ∨ s.unordered = false) := by
  obtain ⟨hssn, hbytes⟩ := s.packetize_counters flags p ppi
  rw [hssn, hbytes]
  have hlen : s.bufferedAmount + p.length = s.bufferedAmount ↔ p = [] := by
    rw [← List.length_eq_zero_iff]
    omega
  rw [hlen]
  by_cases hordered : ppi = .dcep ∨ s.unordered = false
  · rw [if_pos hordered]
    have hne : s.sequenceNumber + 1 ≠ s.sequenceNumber := by
      intro h
      bv_omega
    tauto
  · rw [if_neg hordered]
    tauto

/-- **When a write that fails has no effect.** -/
theorem failsWithoutEffect_iff : s.FailsWithoutEffect maxMessageSize state flags q p ppi ↔
    ¬ s.TurnedDownLate maxMessageSize state p ppi := by
  unfold FailsWithoutEffect TurnedDownLate writeSctp
  by_cases hclosed : s.writeShutdown = true
  · simp [hclosed]
  · rw [if_neg hclosed]
    rw [Bool.not_eq_true] at hclosed
    by_cases hlarge : p.length > maxMessageSize.toNat
    · rw [if_pos hlarge]
      have hnot : ¬ p.length ≤ maxMessageSize.toNat := Nat.not_le.mpr hlarge
      simp [hnot]
    · rw [if_neg hlarge]
      have hfits : p.length ≤ maxMessageSize.toNat := Nat.not_lt.mp hlarge
      have heffect := s.packetize_counters_iff flags p ppi
      -- before the association is established, nothing is pushed
      have hlate : ∀ state : AssociationState, state ≠ .established →
          sendPayloadData state q (s.packetize flags p ppi).2.2 =
            (q, .error .errPayloadDataStateNotExist) := fun _ hstate => if_pos hstate
      cases state with
      | established =>
        simp [sendPayloadData, Except.isOk, Except.toBool]
      | closed =>
        dsimp only
        rw [hlate _ (by decide)]
        simp only [hclosed, hfits, true_and, true_or, and_true]
        rw [← heffect]
        simp [Except.isOk, Except.toBool]
      | cookieWait =>
        dsimp only
        rw [hlate _ (by decide)]
        simp only [hclosed, hfits, true_and, true_or, or_true, and_true]
        rw [← heffect]
        simp [Except.isOk, Except.toBool]
      | cookieEchoed =>
        dsimp only
        rw [hlate _ (by decide)]
        simp only [hclosed, hfits, true_and, or_true, and_true]
        rw [← heffect]
        simp [Except.isOk, Except.toBool]
      | shutdownAckSent => simp
      | shutdownPending => simp
      | shutdownReceived => simp
      | shutdownSent => simp

/-- While the handshake is under way, the write fails and the next message skips an SSN. -/
theorem not_failsWithoutEffect_cookieEchoed :
    ¬ ∀ (s : Stream) (maxMessageSize : U32) (state : AssociationState) (flags : SharedFlags)
      (q : PendingQueue) (p : Bytes) (ppi : PayloadProtocolIdentifier),
      s.FailsWithoutEffect maxMessageSize state flags q p ppi := by
  intro hall
  have hkept := hall (Stream.new 1 1200) 65536 .cookieEchoed [] {} [1] .binary (by decide)
  exact absurd hkept.1 (by decide)

end Stream

end Sctp
