import Sctp.Queue.PendingQueue

/-!
# Writers of one pending queue

Several tasks push their chunks into the pending queue of an association while the write
loop pops from it. A writer is a task inside `send_payload_data` or `send_reset_request`:
it pushes the chunks of one message, in order, one push at a time.
-/

namespace Sctp

/-- The chunks a writer pushes: the fragments of one message, or an end-of-stream marker. -/
structure IsMessage (unordered : Bool) (chunks : List ChunkPayloadData) : Prop where
  ne_nil : chunks ≠ []
  kind : ∀ c ∈ chunks, c.unordered = unordered
  beginning : ∀ i c, chunks[i]? = some c → (c.beginningFragment = true ↔ i = 0)
  ending : ∀ i c, chunks[i]? = some c → (c.endingFragment = true ↔ i + 1 = chunks.length)

/-- A message as `packetize` makes it: the fragments, all of one kind. -/
structure Message where
  chunks : List ChunkPayloadData
  unordered : Bool
  isMessage : IsMessage unordered chunks

/-- A task pushing a message, with the number of chunks it has pushed. -/
structure Writer where
  message : Message
  pushed : ℕ := 0

/-- Some chunks of the message are pushed and some are not. -/
def Writer.HalfWay (w : Writer) : Prop := 0 < w.pushed ∧ w.pushed < w.message.chunks.length

instance (w : Writer) : Decidable w.HalfWay :=
  inferInstanceAs (Decidable (0 < w.pushed ∧ w.pushed < w.message.chunks.length))

/-- The pending queue, its writers, the chunk the write loop has peeked, and for each of its
pops the chunk it had peeked and the one it got. -/
structure PendingSystem where
  queue : PendingQueue := {}
  writers : List Writer := []
  peeked : Option ChunkPayloadData := none
  popped : List (ChunkPayloadData × Option ChunkPayloadData) := []

namespace PendingSystem

/-- What can happen: a task starts to push a message or pushes its next chunk, and the association
peeks and pops. -/
inductive Event where
  | start (m : Message)
  | push (i : ℕ)
  | peek
  | pop

/-- Writer `i` pushes its next chunk. -/
def pushNext (s : PendingSystem) (i : ℕ) : PendingSystem :=
  match s.writers[i]? with
  | none => s
  | some w =>
    match w.message.chunks[w.pushed]? with
    | none => s
    | some c =>
      { s with
        queue := s.queue.push c
        writers := s.writers.set i { w with pushed := w.pushed + 1 } }

/-- The pop with the flags of the peeked chunk. -/
def popPeeked (s : PendingSystem) : PendingSystem :=
  match s.peeked with
  | none => s
  | some c =>
    let (queue, r) := s.queue.pop c.beginningFragment c.unordered
    { s with queue, peeked := none, popped := s.popped ++ [(c, r)] }

/-- The system after an event. -/
def step (s : PendingSystem) : Event → PendingSystem
  | .start m => { s with writers := s.writers ++ [{ message := m }] }
  | .push i => s.pushNext i
  | .peek => { s with peeked := s.queue.peek }
  | .pop => s.popPeeked

/-- The chunks that have left the queue. -/
def sent (s : PendingSystem) : List ChunkPayloadData := s.popped.filterMap (·.2)

/-- The messages of all tasks, in the order in which they were started. -/
def messages (s : PendingSystem) : List Message := s.writers.map (·.message)

/-- Every pop gave the chunk just peeked, and what has left the queue is whole messages and
then the beginning of one. -/
def Atomic (s : PendingSystem) : Prop :=
  (∀ e ∈ s.popped, e.2 = some e.1) ∧
    ∃ (done : List Message) (cur : List ChunkPayloadData),
      s.sent = done.flatMap (·.chunks) ++ cur ∧ (∀ m ∈ done, m ∈ s.messages) ∧
        (cur = [] ∨ ∃ m ∈ s.messages, cur <+: m.chunks)

/-- A push is taken only when no other writer is half-way through a message that goes into
the same of the two queues. -/
def PushesAlone (s : PendingSystem) : Event → Prop
  | .push i => ∀ j < s.writers.length, j ≠ i → ∀ w ∈ s.writers[i]?, ∀ w' ∈ s.writers[j]?,
      w'.HalfWay → w'.message.unordered ≠ w.message.unordered
  | _ => True

instance (s : PendingSystem) (e : Event) : Decidable (s.PushesAlone e) :=
  match e with
  | .push i =>
    inferInstanceAs (Decidable (∀ j < s.writers.length, j ≠ i → ∀ w ∈ s.writers[i]?,
      ∀ w' ∈ s.writers[j]?, w'.HalfWay → w'.message.unordered ≠ w.message.unordered))
  | .start _ | .peek | .pop => isTrue trivial

end PendingSystem

end Sctp
