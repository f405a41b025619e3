import Sctp.Association.Types
import Sctp.Lib.Runs
import Mathlib.Logic.Function.Basic

/-!
# The task of an `RtxTimer` beside the operations that stop it

`start` spawns a task that sleeps, takes the lock of the observer and calls back. `stop` drops the
sender of a channel that the task looks at only while it sleeps. The steps of the tasks fall
between those of the operations that hold the lock, in any order.
-/

namespace Sctp

/-- The trait of the observer. -/
class RtxTimerObserver (σ : Type) where
  onRetransmissionTimeout : σ → RtxTimerId → ℕ → σ
  onRetransmissionFailure : σ → RtxTimerId → σ

/-- Where the task is in its loop, with `n_rtos`. -/
inductive RtxTask where
  /-- In the `select!`, between the timer and the channel. -/
  | sleeping (nRtos : ℕ)
  /-- Past its sleep, it waits for the lock of the observer. -/
  | waiting (nRtos : ℕ)
  | holding (nRtos : ℕ)
  /-- It is about to clear `close_tx` and end. -/
  | givingUp
  | ended
deriving DecidableEq, Repr

/-- Who holds the lock of the observer. -/
inductive LockHolder where
  | operation
  | task (i : ℕ)
deriving DecidableEq, Repr

/-- An observer with its timer: `closeTx` is the sender of the channel to a task. -/
structure RtxTimerRace (σ : Type) where
  observer : σ
  id : RtxTimerId
  maxRetrans : ℕ
  /-- The weak reference to the observer can be upgraded. -/
  alive : Bool := true
  holder : Option LockHolder := none
  closeTx : Option ℕ := none
  tasks : ℕ → RtxTask := fun _ => .ended
  nextTask : ℕ := 0
  /-- The tasks below had been started when `stop` returned last. -/
  stoppedBelow : ℕ := 0

namespace RtxTimerRace

/-- What can happen: an operation under the lock, or an atomic step of a timer task. -/
inductive Event (σ : Type) where
  /-- An operation gets the lock. -/
  | lock
  /-- It works on the observer. -/
  | operate (f : σ → σ)
  | start
  | stop
  | unlock
  /-- The `select!` of a task takes the branch of the timer. -/
  | wake (i : ℕ)
  /-- It takes the branch of the channel. -/
  | close (i : ℕ)
  | acquire (i : ℕ)
  | callBack (i : ℕ)
  | giveUp (i : ℕ)
  /-- The last strong reference to the observer goes. -/
  | drop

variable {σ : Type}

/-- The task with the index goes on. -/
def setTask (s : RtxTimerRace σ) (i : ℕ) (task : RtxTask) : RtxTimerRace σ :=
  { s with tasks := Function.update s.tasks i task }

/-- `start`, a no-op while `close_tx` is set. -/
def start (s : RtxTimerRace σ) : RtxTimerRace σ :=
  if s.closeTx.isSome then
    s
  else
    { s.setTask s.nextTask (.sleeping 0) with
      closeTx := some s.nextTask, nextTask := s.nextTask + 1 }

/-- `stop`: the channel is dropped, and with it every task so far is told to end. -/
def stop (s : RtxTimerRace σ) : RtxTimerRace σ :=
  { s with closeTx := none, stoppedBelow := s.nextTask }

/-- The timer counts up and the task upgrades its reference, before it waits for the lock. -/
def wake (s : RtxTimerRace σ) (i : ℕ) : RtxTimerRace σ :=
  match s.tasks i with
  | .sleeping nRtos => s.setTask i (if s.alive then .waiting (nRtos + 1) else .givingUp)
  | _ => s

/-- The channel of a task is closed when `close_tx` does not send to it. -/
def close (s : RtxTimerRace σ) (i : ℕ) : RtxTimerRace σ :=
  match s.tasks i with
  | .sleeping _ => if s.closeTx = some i then s else s.setTask i .ended
  | _ => s

/-- A task that was woken takes the lock if it is free. -/
def acquire (s : RtxTimerRace σ) (i : ℕ) : RtxTimerRace σ :=
  match s.tasks i with
  | .waiting nRtos =>
    if s.holder = none then { s.setTask i (.holding nRtos) with holder := some (.task i) } else s
  | _ => s

/-- The task calls back under the lock, and goes on or gives up. -/
def callBack [RtxTimerObserver σ] (s : RtxTimerRace σ) (i : ℕ) : RtxTimerRace σ :=
  match s.tasks i with
  | .holding nRtos =>
    if s.maxRetrans = 0 ∨ nRtos ≤ s.maxRetrans then
      { s.setTask i (.sleeping nRtos) with
        observer := RtxTimerObserver.onRetransmissionTimeout s.observer s.id nRtos
        holder := none }
    else
      { s.setTask i .givingUp with
        observer := RtxTimerObserver.onRetransmissionFailure s.observer s.id
        holder := none }
  | _ => s

/-- A task that gives up clears the channel and ends. -/
def giveUp (s : RtxTimerRace σ) (i : ℕ) : RtxTimerRace σ :=
  match s.tasks i with
  | .givingUp => { s.setTask i .ended with closeTx := none }
  | _ => s

/-- The system after an event. -/
def step [RtxTimerObserver σ] (s : RtxTimerRace σ) : Event σ → RtxTimerRace σ
  | .lock => if s.holder = none ∧ s.alive then { s with holder := some .operation } else s
  | .operate f =>
    if s.holder = some .operation then { s with observer := f s.observer } else s
  | .start => if s.holder = some .operation then s.start else s
  | .stop => if s.holder = some .operation then s.stop else s
  | .unlock => if s.holder = some .operation then { s with holder := none } else s
  | .wake i => s.wake i
  | .close i => s.close i
  | .acquire i => s.acquire i
  | .callBack i => s.callBack i
  | .giveUp i => s.giveUp i
  | .drop => { s with alive := false }

/-! ## What is asked of a stop -/

/-- A task that a stop has found running does not call back, and until the next start the observer
is changed by operations alone. -/
def StopSilences [RtxTimerObserver σ] (s : RtxTimerRace σ) (e : Event σ) : Prop :=
  (∀ i nRtos, e = .callBack i → s.tasks i = .holding nRtos → s.stoppedBelow ≤ i) ∧
    (s.stoppedBelow = s.nextTask → (∀ f, e ≠ .operate f) → (s.step e).observer = s.observer)

/-- A stop finds no task between its sleep and its callback, and no task that has been stopped
takes the branch of the timer while the observer lives. -/
def StopsInTime (s : RtxTimerRace σ) : Event σ → Prop
  | .stop => s.holder = some .operation → ∀ i nRtos, s.tasks i ≠ .waiting nRtos
  | .wake i => s.alive = true → ∀ nRtos, s.tasks i = .sleeping nRtos → s.stoppedBelow ≤ i
  | _ => True

end RtxTimerRace

end Sctp
