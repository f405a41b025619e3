import Sctp.Lib.Runs
import Sctp.Stream
import Mathlib.Logic.Function.Basic

/-!
# Readers of a stream beside the calls that close it

`read_sctp` tests `read_shutdown`, tries to read under the lock of the reassembly queue, and only
then waits for `read_notifier`. The flag, the queue and the notifier are separate, so the steps of
the calls on a stream fall between one another in any order.
-/

namespace Sctp

/-- How far a call of `read_sctp` has come. -/
inductive Reader where
  | idle
  /-- It is about to test `read_shutdown`. -/
  | testing (bufLen : ℕ)
  /-- It has found the read half open. -/
  | reading (bufLen : ℕ)
  /-- It has found nothing to read. -/
  | registering (bufLen : ℕ)
  /-- It waits for `read_notifier`. -/
  | waiting (bufLen : ℕ)
  | returned
deriving DecidableEq, Repr

/-- It has tested the flag, and it does not wait yet. -/
def Reader.inGap : Reader → Bool
  | .reading _ | .registering _ => true
  | _ => false

/-- What a notification does to a reader. -/
def Reader.wake : Reader → Reader
  | .waiting bufLen => .testing bufLen
  | r => r

/-- How far a call of `shutdown` or `unregister_stream` has come. -/
inductive Closer where
  | idle
  /-- `shutdown` is about to test whether both halves are shut down. -/
  | loadingRead (how : Shutdown)
  | loadingWrite (how : Shutdown)
  | storingWrite (how : Shutdown)
  /-- It is about to swap `read_shutdown`. -/
  | swapping (unregisters : Bool)
  /-- The flag was not set before, so it is about to call `notify_waiters`. -/
  | notifying (unregisters : Bool)
  /-- `unregister_stream` is about to set `write_shutdown`. -/
  | unregistering
  | finished
deriving DecidableEq, Repr

/-- The stream and its notifier: `permit` is what `notify_one` stores when nobody waits, and
`waiters` are the readers that wait, the first one first. A handler is a call of `handle_data`
that is about to call `notify_one`. -/
structure ReadRace where
  stream : Stream := {}
  permit : Bool := false
  waiters : List ℕ := []
  readers : ℕ → Reader := fun _ => .idle
  handlers : ℕ → Bool := fun _ => false
  closers : ℕ → Closer := fun _ => .idle

namespace ReadRace

/-- What can happen, one atomic step of a task at a time. -/
inductive Event where
  /-- A call begins. -/
  | read (i : ℕ) (bufLen : ℕ)
  | shutdown (i : ℕ) (how : Shutdown)
  | unregister (i : ℕ)
  /-- `handle_data` pushes the chunk. -/
  | data (i : ℕ) (pd : ChunkPayloadData)
  /-- The next step of a call. -/
  | reader (i : ℕ)
  | handler (i : ℕ)
  | closer (i : ℕ)

/-! ## The notifier -/

/-- `notify_one`: wakes the first that waits, or leaves a permit. -/
def notifyOne (s : ReadRace) : ReadRace :=
  match s.waiters with
  | [] => { s with permit := true }
  | i :: waiters =>
    { s with waiters, readers := Function.update s.readers i (s.readers i).wake }

/-- `notify_waiters`: wakes all that wait now, and leaves no permit. -/
def notifyWaiters (s : ReadRace) : ReadRace :=
  { s with
    waiters := []
    readers := fun i => if i ∈ s.waiters then (s.readers i).wake else s.readers i }

/-- `notified().await` takes the permit, or it waits. -/
def notified (s : ReadRace) (i : ℕ) (bufLen : ℕ) : ReadRace :=
  if s.permit then
    { s with permit := false, readers := Function.update s.readers i (.testing bufLen) }
  else
    { s with
      waiters := s.waiters ++ [i]
      readers := Function.update s.readers i (.waiting bufLen) }

/-! ## The calls -/

/-- A step of `read_sctp`. -/
def readerStep (s : ReadRace) (i : ℕ) : ReadRace :=
  match s.readers i with
  | .idle | .waiting _ | .returned => s
  | .testing bufLen =>
    if s.stream.readShutdown then
      { s with readers := Function.update s.readers i .returned }
    else
      { s with readers := Function.update s.readers i (.reading bufLen) }
  | .reading bufLen =>
    let (q, result) := s.stream.reassemblyQueue.read bufLen
    let s := { s with stream := { s.stream with reassemblyQueue := q } }
    match result with
    | .ok _ | .error .errShortBuffer =>
      { s with readers := Function.update s.readers i .returned }
    | .error _ => { s with readers := Function.update s.readers i (.registering bufLen) }
  | .registering bufLen => s.notified i bufLen

/-- The locked part of `handle_data`. -/
def dataStep (s : ReadRace) (i : ℕ) (pd : ChunkPayloadData) : ReadRace :=
  let (stream, readable) := s.stream.handleData pd
  { s with stream, handlers := Function.update s.handlers i readable }

/-- The end of a handler: it notifies one reader if the queue was readable. -/
def handlerStep (s : ReadRace) (i : ℕ) : ReadRace :=
  if s.handlers i then
    { s with handlers := Function.update s.handlers i false }.notifyOne
  else
    s

/-- A step of `shutdown` or `unregister_stream`. -/
def closerStep (s : ReadRace) (i : ℕ) : ReadRace :=
  let goTo (c : Closer) : ReadRace := { s with closers := Function.update s.closers i c }
  match s.closers i with
  | .idle | .finished => s
  | .loadingRead how =>
    if s.stream.readShutdown then goTo (.loadingWrite how) else goTo (.storingWrite how)
  | .loadingWrite how =>
    if s.stream.writeShutdown then goTo .finished else goTo (.storingWrite how)
  | .storingWrite how =>
    let s :=
      if how = .write ∨ how = .both then
        { s with stream := { s.stream with writeShutdown := true } }
      else
        s
    { s with
      closers := Function.update s.closers i
        (if how = .read ∨ how = .both then .swapping false else .finished) }
  | .swapping unregisters =>
    if s.stream.readShutdown then
      goTo (if unregisters then .unregistering else .finished)
    else
      { s with
        stream := { s.stream with readShutdown := true }
        closers := Function.update s.closers i (.notifying unregisters) }
  | .notifying unregisters =>
    { s with
      closers := Function.update s.closers i
        (if unregisters then .unregistering else .finished) }.notifyWaiters
  | .unregistering =>
    { s with
      stream := { s.stream with writeShutdown := true }
      closers := Function.update s.closers i .finished }

/-- The system after an event. -/
def step (s : ReadRace) : Event → ReadRace
  | .read i bufLen =>
    match s.readers i with
    | .idle | .returned => { s with readers := Function.update s.readers i (.testing bufLen) }
    | _ => s
  | .shutdown i how =>
    match s.closers i with
    | .idle | .finished => { s with closers := Function.update s.closers i (.loadingRead how) }
    | _ => s
  | .unregister i =>
    match s.closers i with
    | .idle | .finished => { s with closers := Function.update s.closers i (.swapping true) }
    | _ => s
  | .data i pd => if s.handlers i then s else s.dataStep i pd
  | .reader i => s.readerStep i
  | .handler i => s.handlerStep i
  | .closer i => s.closerStep i

/-! ## A reader that is left behind -/

/-- The read half is closed, a reader waits, and nobody is about to wake it. -/
structure LeftWaiting (s : ReadRace) : Prop where
  closed : s.stream.readShutdown = true
  noCloser : ∀ i unregisters, s.closers i ≠ .notifying unregisters
  noHandler : ∀ i, s.handlers i = false
  waits : ∃ i bufLen, s.readers i = .waiting bufLen

/-- `notify_waiters` is not called while a reader is between its test of the flag and its wait. -/
def NotifiesOutsideGap (s : ReadRace) : Event → Prop
  | .closer i => ∀ unregisters, s.closers i = .notifying unregisters →
      ∀ j, (s.readers j).inGap = false
  | _ => True

end ReadRace

end Sctp
