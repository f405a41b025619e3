import Sctp.Association.FlowTheorems
import Sctp.Association.Sender

/-!
# What the calls of the application leave alone

Of the operations of the sending side only `gather_outbound`, a SACK and the T3-rtx timeout
touch the queue in flight and the points that go with it. All the others push to the pending
queue, allocate flag cells, work on the stream objects or begin a shutdown.
-/

namespace Sctp

/-- The operation is none that sends or acknowledges. -/
def SenderOp.isCall : SenderOp → Bool
  | .gather _ | .t3Rtx | .sack .. => false
  | _ => true

namespace AssociationInternal

variable {a a' : AssociationInternal}

/-- What is in flight and the points are the same, and the flag cells hold what they held. -/
structure Called (a a' : AssociationInternal) : Prop where
  frame : a' = { a with
    objects := a'.objects
    streams := a'.streams
    flags := a'.flags
    pendingQueue := a'.pendingQueue
    state := a'.state
    willSendShutdown := a'.willSendShutdown
    willSendShutdownAck := a'.willSendShutdownAck }
  load : ∀ x, a'.flags.load x = a.flags.load x

theorem called_writeSctp (a : AssociationInternal) (r : StreamRef) (p : Bytes)
    (ppi : PayloadProtocolIdentifier) : Called a (a.writeSctp r p ppi).1 := by
  unfold writeSctp
  split
  · exact ⟨rfl, fun _ => rfl⟩
  · rename_i s _
    dsimp only
    rcases s.writeSctp_cases a.maxMessageSize a.state a.flags a.pendingQueue p ppi with
      ⟨e, heq⟩ | ⟨e, heq⟩ | ⟨_, heq⟩
    · rw [heq]
      exact ⟨rfl, fun _ => rfl⟩
    · rw [heq, Stream.packetize_flags]
      exact ⟨rfl, SharedFlags.load_alloc a.flags⟩
    · rw [heq, Stream.packetize_flags]
      exact ⟨rfl, SharedFlags.load_alloc a.flags⟩

theorem called_shutdownStream (a : AssociationInternal) (r : StreamRef) (how : Shutdown) :
    Called a (a.shutdownStream r how).1 := by
  unfold shutdownStream
  split
  · exact ⟨rfl, fun _ => rfl⟩
  · rename_i s _
    dsimp only
    obtain ⟨s', _, hcases⟩ := s.shutdown_cases a.state a.flags a.pendingQueue how
    rcases hcases with ⟨res, heq⟩ | heq
    · rw [heq]
      exact ⟨rfl, fun _ => rfl⟩
    · rw [heq]
      exact ⟨rfl, SharedFlags.load_alloc a.flags⟩

/-- Every operation but the three. -/
theorem called_senderStep {op : SenderOp} (h : op.isCall = true) : Called a (a.senderStep op) := by
  cases op with
  | openStream si ppi =>
    obtain ⟨objects, streams, heq⟩ := a.openStream_eq si ppi
    show Called a (a.openStream si ppi).1
    rw [heq]
    exact ⟨rfl, fun _ => rfl⟩
  | setReliabilityParams r unordered relType relVal => exact ⟨rfl, fun _ => rfl⟩
  | write r p ppi => exact called_writeSctp a r p ppi
  | shutdownStream r how => exact called_shutdownStream a r how
  | push c => exact ⟨rfl, fun _ => rfl⟩
  | gather now => cases h
  | t3Rtx => cases h
  | sack now d => cases h
  | shutdownChunk =>
    obtain ⟨state, willSendShutdownAck, heq⟩ := a.handleShutdown_eq
    show Called a a.handleShutdown
    rw [heq]
    exact ⟨rfl, fun _ => rfl⟩
  | shutdown =>
    obtain ⟨state, willSendShutdown, heq⟩ := a.shutdown_eq
    show Called a a.shutdown.1
    rw [heq]
    exact ⟨rfl, fun _ => rfl⟩

end AssociationInternal

end Sctp
