import Sctp.Association.Inbound

/-!
# What a FORWARD TSN releases

The peer gives up on messages; what has arrived of them is to leave the reassembly queues of
the streams, whose next messages are then free to be read.
-/

namespace Sctp

/-- What is left in the queue `q'` of a stream that had `q`, of which `ssns` are listed. -/
structure Releases (ssns : List U16) (newCumulativeTsn : U32) (q q' : ReassemblyQueue) : Prop where
  ordered : ∀ ssn ∈ ssns, ∀ cset ∈ q'.ordered, ¬ (sna16lte cset.ssn ssn ∧ cset.isComplete = false)
  nextSsn : ∀ ssn ∈ ssns, sna16gt q'.nextSsn ssn = true
  unorderedChunks : ∀ c ∈ q'.unorderedChunks, sna32lte c.tsn newCumulativeTsn = false
  complete : q'.ordered.filter (·.isComplete) = q.ordered.filter (·.isComplete) ∧
    q'.unordered = q.unordered

/-- `next_ssn` after an SSN has been skipped. -/
def skipTo (nextSsn ssn : U16) : U16 := if sna16lte nextSsn ssn then ssn + 1 else nextSsn

/-- There is nothing to release of the kind the stream does not look at, and what it looks at
lies as its loops expect: the chunks at or behind the point come first, and no SSN listed
carries `next_ssn` over half the space past another one. -/
def Stream.ReleasesAll (s : Stream) (ssns : List U16) (newCumulativeTsn : U32) : Prop :=
  if s.unordered then
    (∀ ssn ∈ ssns, (∀ cset ∈ s.reassemblyQueue.ordered, ReassemblyQueue.skippedBy ssn cset = false) ∧
      sna16gt s.reassemblyQueue.nextSsn ssn = true) ∧
    (s.reassemblyQueue.unorderedChunks.filter fun c => sna32lte c.tsn newCumulativeTsn) <+:
      s.reassemblyQueue.unorderedChunks
  else
    (∀ ssn ∈ ssns, sna16gt (ssns.foldl skipTo s.reassemblyQueue.nextSsn) ssn = true) ∧
    ∀ c ∈ s.reassemblyQueue.unorderedChunks, sna32lte c.tsn newCumulativeTsn = false

instance (s : Stream) (ssns : List U16) (newCumulativeTsn : U32) :
    Decidable (s.ReleasesAll ssns newCumulativeTsn) := by
  unfold Stream.ReleasesAll
  infer_instance

namespace AssociationInternal

/-- The SSNs a FORWARD TSN lists for a stream object. -/
def listedSsns (a : AssociationInternal) (c : ChunkForwardTsn) (r : StreamRef) : List U16 :=
  (c.streams.filter fun e => a.streams.lookup e.identifier = some r).map (·.sequence)

/-- The FORWARD TSN releases what it skips of the stream object. -/
def ReleasesSkipped (a : AssociationInternal) (c : ChunkForwardTsn) (r : StreamRef) : Prop :=
  ∃ s s', a.objects[r]? = some s ∧ (a.handleForwardTsn c).1.objects[r]? = some s' ∧
    Releases (a.listedSsns c r) c.newCumulativeTsn s.reassemblyQueue s'.reassemblyQueue

end AssociationInternal

end Sctp
