import Sctp.Association.Inbound
import Sctp.Lib.Runs

/-!
# What operations on streams leave alone

The operations on streams write the stream table, the stream objects and the accept queue. An
observation of the association that sees none of the three is the same behind each of them.
-/

namespace Sctp

namespace AssociationInternal

variable {β : Type*} {f : AssociationInternal → β}

/-- The observation does not see the streams. -/
def IgnoresStreams (f : AssociationInternal → β) : Prop :=
  ∀ (a : AssociationInternal) streams objects acceptCh,
    f { a with streams := streams, objects := objects, acceptCh := acceptCh } = f a

/-- The observation does not see the requests that are kept. -/
def IgnoresRequests (f : AssociationInternal → β) : Prop :=
  ∀ (a : AssociationInternal) requests, f { a with reconfigRequests := requests } = f a

/-- The observation does not see which acknowledgement has been triggered. -/
def IgnoresTriggers (f : AssociationInternal → β) : Prop :=
  ∀ (a : AssociationInternal) delayed immediate,
    f { a with delayedAckTriggered := delayed, immediateAckTriggered := immediate } = f a

namespace IgnoresStreams

/-- What is done with one stream is not seen. -/
theorem modifyStream (hf : IgnoresStreams f) (a : AssociationInternal) (si : U16)
    (g : Stream → Stream) : f (a.modifyStream si g) = f a := by
  unfold AssociationInternal.modifyStream
  split
  · exact hf a a.streams _ a.acceptCh
  · rfl

/-- Nor is the release of what was acknowledged, stream by stream. -/
theorem releaseBuffers (hf : IgnoresStreams f) (a : AssociationInternal)
    (released : List (Sigma fun _ : U16 => ℕ)) :
    f (released.foldl (fun a e => a.modifyStream e.1 fun s => (s.onBufferReleased e.2).1) a) =
      f a :=
  Runs.run_frame (fun b (e : Sigma fun _ : U16 => ℕ) =>
    hf.modifyStream b e.1 fun s => (s.onBufferReleased e.2).1) a released

theorem unregisterStream (hf : IgnoresStreams f) (a : AssociationInternal) (si : U16) :
    f (a.unregisterStream si) = f a := by
  unfold AssociationInternal.unregisterStream
  split
  · exact hf a _ _ a.acceptCh
  · rfl

theorem unregisterStreams (hf : IgnoresStreams f) (a : AssociationInternal) (ids : List U16) :
    f (ids.foldl AssociationInternal.unregisterStream a) = f a :=
  Runs.run_frame hf.unregisterStream a ids

/-- A stream that is created, or dropped because it cannot be accepted, is not seen. -/
theorem getOrCreateStream (hf : IgnoresStreams f) (a : AssociationInternal) (si : U16) :
    f (a.getOrCreateStream si).1 = f a := by
  unfold AssociationInternal.getOrCreateStream createStream
  dsimp only
  split
  · rfl
  · rw [if_pos rfl]
    split
    · split
      · exact hf a _ _ _
      · rfl
    · rfl

theorem acceptStream (hf : IgnoresStreams f) (a : AssociationInternal) :
    f a.acceptStream.1 = f a := by
  unfold AssociationInternal.acceptStream
  split
  · exact hf a a.streams a.objects _
  · rfl

/-- A request is performed on streams, and is not kept then. -/
theorem resetStreamsIfAny (hf : IgnoresStreams f) (hr : IgnoresRequests f)
    (a : AssociationInternal) (p : ParamOutgoingResetRequest) :
    f (a.resetStreamsIfAny p).1 = f a := by
  unfold AssociationInternal.resetStreamsIfAny
  split
  · exact (hr _ _).trans (hf.unregisterStreams a p.streamIdentifiers)
  · rfl

/-- So with all the requests that are kept. -/
theorem recheckReconfigRequests (hf : IgnoresStreams f) (hr : IgnoresRequests f)
    (a : AssociationInternal) : f a.recheckReconfigRequests.1 = f a :=
  Runs.run_frame (f := fun s : AssociationInternal × List Packet => f s.1)
    (fun s p => hf.resetStreamsIfAny hr s.1 p) (a, []) a.reconfigRequests.values

end IgnoresStreams

/-- Only the two flags that ask for an acknowledgement are written. -/
theorem IgnoresTriggers.triggerAck (hf : IgnoresTriggers f) (a : AssociationInternal)
    (sackImmediately : Bool) : f (a.triggerAck sackImmediately) = f a := by
  unfold AssociationInternal.triggerAck
  dsimp only
  split
  · split
    · exact hf a true a.immediateAckTriggered
    · exact hf a a.delayedAckTriggered true
  · exact hf a a.delayedAckTriggered true

end AssociationInternal

end Sctp
