import Sctp.Util

/-!
# States, timers and constants of an association

The timers are what the association can see of them. An `RtxTimer` is its `close_tx`; the
task behind it may call back as long as that is set. Of the `AckTimer` the tasks themselves
are kept, because `close_tx` alone does not tell whether one of them is left.
-/

namespace Sctp

/-- The sizes and limits of `association/mod.rs`. -/
def initialMtu : U32 := 1228
def initialRecvBufSize : U32 := 1024 * 1024
def commonHeaderSize : U32 := 12
def dataChunkHeaderSize : U32 := 16
def defaultMaxMessageSize : U32 := 65536
def acceptChSize : ℕ := 16

/-- `AssociationState`. -/
inductive AssociationState where
  | closed
  | cookieWait
  | cookieEchoed
  | established
  | shutdownAckSent
  | shutdownPending
  | shutdownReceived
  | shutdownSent
deriving DecidableEq, Repr

/-- The five retransmission timers. -/
inductive RtxTimerId where
  | t1Init
  | t1Cookie
  | t2Shutdown
  | t3Rtx
  | reconfig
deriving DecidableEq, Repr

/-- When the peer is sent SACKs. -/
inductive AckMode where
  | normal
  | noDelay
  | alwaysDelay
deriving DecidableEq, Repr

/-- Whether a SACK is due. -/
inductive AckState where
  | idle
  | immediate
  | delay
deriving DecidableEq, Repr

/-- `RtxTimer`: whether `close_tx` is set. -/
structure RtxTimer where
  closeTx : Bool := false
deriving DecidableEq, Repr

namespace RtxTimer

/-- `start`, a no-op on a running timer. -/
def start (_ : RtxTimer) : RtxTimer := { closeTx := true }

/-- `stop`, whether or not the timer runs. -/
def stop (_ : RtxTimer) : RtxTimer := { closeTx := false }

/-- `is_running`. -/
def isRunning (t : RtxTimer) : Bool := t.closeTx

end RtxTimer

/-- What a task spawned by `AckTimer::start` is doing: it sleeps until its interval is over
or its channel closes, and once woken by the interval it waits for the observer's lock to
call `on_ack_timeout`. A task that is done is no longer listed. -/
inductive AckTask where
  | sleeping
  | woken
deriving DecidableEq, Repr

/-- `AckTimer`: the channel to the task started last, and the tasks that are not done. -/
structure AckTimer where
  closeTx : Option ℕ := none
  tasks : List (ℕ × AckTask) := []
  nextTask : ℕ := 0
deriving DecidableEq, Repr

namespace AckTimer

/-- `start` spawns a task, unless `close_tx` is set. -/
def start (t : AckTimer) : AckTimer × Bool :=
  if t.closeTx.isSome then
    (t, false)
  else
    ({ closeTx := some t.nextTask
       tasks := t.tasks ++ [(t.nextTask, .sleeping)]
       nextTask := t.nextTask + 1 }, true)

/-- `stop` drops `close_tx`; the task on the other end gives up if it still sleeps. -/
def stop (t : AckTimer) : AckTimer :=
  match t.closeTx with
  | some i => { t with closeTx := none, tasks := t.tasks.filter (· ≠ (i, .sleeping)) }
  | none => t

/-- `is_running`: `close_tx` is set, also when the task has ended by itself. -/
def isRunning (t : AckTimer) : Bool := t.closeTx.isSome

/-- The interval of task `i` is over. -/
def wake (t : AckTimer) (i : ℕ) : AckTimer :=
  { t with tasks := t.tasks.map fun e => if e = (i, .sleeping) then (i, .woken) else e }

/-- Task `i` has called back and is done; `close_tx` stays as it is. -/
def finish (t : AckTimer) (i : ℕ) : AckTimer :=
  { t with tasks := t.tasks.filter (· ≠ (i, .woken)) }

end AckTimer

/-- `RtoManager`: the round-trip times measured so far, which determine its state. -/
structure RtoManager where
  measured : List ℕ := []
deriving DecidableEq, Repr

/-- `set_new_rtt` keeps what it was told. -/
def RtoManager.setNewRtt (m : RtoManager) (rtt : ℕ) : RtoManager :=
  { measured := m.measured ++ [rtt] }

end Sctp
