import Sctp.Association.Outbound
import Sctp.Lib.Runs

/-!
# Delayed acknowledgements as a system

The acknowledgement state, the `AckTimer` and the tasks it spawned, under inbound packets,
the expiry of the tasks and the write loop's `gather_outbound`. The interval of a task ends
at some moment (`wake`) and the task calls back once it gets the association's lock
(`expire`); anything may happen in between.
-/

namespace Sctp

/-- What moves acknowledgements: inbound packets, the two steps of the timer task and the write
loop. -/
inductive AckOp where
  | inbound (now : ℕ) (p : Packet)
  | wake (task : ℕ)
  | expire (task : ℕ)
  | gather (now : ℕ)

namespace AssociationInternal

/-- The end of a task whose interval is over. -/
def expireAck (a : AssociationInternal) (task : ℕ) : AssociationInternal :=
  if (task, .woken) ∈ a.ackTimer.tasks then
    { a.onAckTimeout with ackTimer := a.ackTimer.finish task }
  else
    a

/-- The association after an operation. -/
def ackStep (a : AssociationInternal) : AckOp → AssociationInternal
  | .inbound now p => (a.handleInbound now p).1
  | .wake task => { a with ackTimer := a.ackTimer.wake task }
  | .expire task => a.expireAck task
  | .gather now => (a.gatherOutbound now).1

/-- The association after the first `k` chunks of a packet. -/
def afterChunks (a : AssociationInternal) (now : ℕ) (p : Packet) (k : ℕ) : AssociationInternal :=
  (a.handleChunkStart.handleChunks now p (p.chunks.take k)).1

/-- The association is established all through the operation. -/
def StaysEstablished (a : AssociationInternal) (op : AckOp) : Prop :=
  a.state = .established ∧
    match op with
    | .inbound now p => ∀ k, (a.afterChunks now p k).state = .established
    | _ => True

/-- A task is left, asleep or woken, whose call back makes the acknowledgement immediate. -/
def AckPending (a : AssociationInternal) : Prop :=
  ∃ task, (∃ t, (task, t) ∈ a.ackTimer.tasks) ∧
    ((a.ackStep (.wake task)).ackStep (.expire task)).ackState = .immediate

/-- Every task that is left does call back. -/
theorem ackPending_iff (a : AssociationInternal) : a.AckPending ↔ a.ackTimer.tasks ≠ [] := by
  constructor
  · rintro ⟨task, ⟨t, ht⟩, _⟩
    exact List.ne_nil_of_mem ht
  · intro h
    obtain ⟨⟨task, t⟩, ht⟩ := List.exists_mem_of_ne_nil _ h
    refine ⟨task, ⟨t, ht⟩, ?_⟩
    have hwoken : (task, AckTask.woken) ∈ (a.ackTimer.wake task).tasks := by
      unfold AckTimer.wake
      refine List.mem_map.mpr ⟨(task, t), ht, ?_⟩
      cases t <;> simp
    show (({ a with ackTimer := a.ackTimer.wake task } : AssociationInternal).expireAck task).ackState = _
    unfold expireAck
    rw [if_pos hwoken]
    rfl

instance (a : AssociationInternal) : Decidable a.AckPending :=
  decidable_of_iff _ a.ackPending_iff.symm

/-- A delayed acknowledgement has a task that will see to it. -/
def AckBacked (a : AssociationInternal) : Prop := a.ackState = .delay → a.AckPending

instance (a : AssociationInternal) : Decidable a.AckBacked :=
  inferInstanceAs (Decidable (_ → _))

/-- Whether `handle_data` goes on to the acknowledgement: it does unless the chunk opens a
stream that cannot be opened. -/
def reachesAck (a : AssociationInternal) (d : ChunkPayloadData) : Bool :=
  !a.payloadQueue.canPush d a.peerLastTsn || (a.getOrCreateStream d.streamIdentifier).2.isSome

/-- `p` is taken with `Ok`, and one of its DATA chunks gets to the acknowledgement. -/
def TakesData (a : AssociationInternal) (now : ℕ) (p : Packet) : Prop :=
  p.checkPacket.isOk = true ∧ (a.handleInbound now p).2.isOk = true ∧
    ∃ k d, p.chunks[k]? = some (.payloadData d) ∧ (a.afterChunks now p k).reachesAck d = true

/-- After the operation a delayed acknowledgement is backed, and data that was taken is
acknowledged at once or by a task to come. -/
def BacksAcks (a : AssociationInternal) (op : AckOp) : Prop :=
  (a.ackStep op).AckBacked ∧
    match op with
    | .inbound now p => a.TakesData now p →
      (a.ackStep op).ackState = .immediate ∨ (a.ackStep op).AckPending
    | _ => True

/-- Where the packet leads `handle_chunk_end` to `AckTimer::start`, that is no no-op on a
timer whose tasks are gone: `close_tx` is not set, or a task is left. -/
def StartsLive (a : AssociationInternal) : AckOp → Prop
  | .inbound now p =>
    let a' := a.afterChunks now p p.chunks.length
    p.checkPacket.isOk = true → (a.handleInbound now p).2.isOk = true →
      a'.immediateAckTriggered = false → a'.delayedAckTriggered = true →
      a'.ackTimer.isRunning = true → a'.AckPending
  | _ => True

instance (a : AssociationInternal) (op : AckOp) : Decidable (a.StartsLive op) :=
  match op with
  | .inbound _ _ => inferInstanceAs (Decidable (_ → _))
  | .wake _ | .expire _ | .gather _ => isTrue trivial

end AssociationInternal

end Sctp
