import Sctp.Association.Sender

/-!
# `Association::shutdown` beside the processing of a SACK

`shutdown` works on the atomics it shares with the association and does not take the lock, so
its steps fall anywhere between those of `handle_sack`, which reads the state once.
-/

namespace Sctp

/-- How far the call of `shutdown` has come. -/
inductive ShutdownCall where
  | idle
  /-- It has found the state Established. -/
  | checked
  /-- It has stored ShutdownPending. -/
  | stored
  /-- It has found nothing in flight. -/
  | drained
  /-- It has set `will_send_shutdown`. -/
  | asked
deriving DecidableEq

/-- How far `handle_sack` has come; `state` is what it has read at its start. -/
inductive SackHandler where
  | idle
  /-- The chunk to be popped next is `i`. -/
  | popping (state : AssociationState) (now : ℕ) (d : ChunkSelectiveAck) (i : U32)
      (bytesAcked : AssociationInternal.BytesAcked)
  | popped (state : AssociationState) (now : ℕ) (d : ChunkSelectiveAck)
      (bytesAcked : AssociationInternal.BytesAcked)
  /-- `postprocess_sack` is left to be done. -/
  | processed (state : AssociationState)

/-- The association, the call of `shutdown` and the SACK that is handled meanwhile. -/
structure ShutdownRace where
  association : AssociationInternal
  call : ShutdownCall := .idle
  sack : SackHandler := .idle

/-- What can happen, an atomic step at a time. -/
inductive ShutdownRaceOp where
  /-- The next step of the call. -/
  | call
  | sackArrives (now : ℕ) (d : ChunkSelectiveAck)
  /-- The next step of the handler. -/
  | sack

namespace ShutdownRace

/-- `Association::shutdown`. -/
def callStep (s : ShutdownRace) : ShutdownRace :=
  let a := s.association
  match s.call with
  | .idle => if a.state = .established then { s with call := .checked } else s
  | .checked => { s with association := a.setState .shutdownPending, call := .stored }
  | .stored =>
    if a.inflightQueue.length = 0 then
      { s with call := .drained }
    else
      { s with call := .idle }
  | .drained => { s with association := { a with willSendShutdown := true }, call := .asked }
  | .asked => { s with association := a.setState .shutdownSent, call := .idle }

/-- The start of `handle_sack`; one SACK is handled after the other. -/
def sackArrives (s : ShutdownRace) (now : ℕ) (d : ChunkSelectiveAck) : ShutdownRace :=
  let a := s.association
  match s.sack with
  | .idle =>
    let state := a.state
    if state ≠ .established ∧ state ≠ .shutdownPending ∧ state ≠ .shutdownReceived then
      s
    else if sna32gt a.cumulativeTsnAckPoint d.cumulativeTsnAck then
      s
    else
      { s with sack := .popping state now d (a.cumulativeTsnAckPoint + 1) ∅ }
  | _ => s

/-- On an error `read_loop` closes the association. -/
def fail (s : ShutdownRace) (a : AssociationInternal) : ShutdownRace :=
  { s with association := a.close, sack := .idle }

/-- The next step of the handler of the SACK. -/
def sackStep (s : ShutdownRace) : ShutdownRace :=
  let a := s.association
  match s.sack with
  | .idle => s
  | .popping state now d i bytesAcked =>
    if sna32lte i d.cumulativeTsnAck then
      match a.inflightQueue.pop i with
      | (q, none) => s.fail { a with inflightQueue := q }
      | (q, some c) =>
        match { a with inflightQueue := q }.ackPopped now i c bytesAcked with
        | (a, .error _) => s.fail a
        | (a, .ok bytesAcked) =>
          { s with
            association := a.exitFastRecovery c
            sack := .popping state now d (i + 1) bytesAcked }
    else
      { s with sack := .popped state now d bytesAcked }
  | .popped state now d bytesAcked =>
    match AssociationInternal.ackGaps now a bytesAcked d.cumulativeTsnAck
      (AssociationInternal.gapTsns d) with
    | (a, .error _) => s.fail a
    | (a, .ok (bytesAcked, htna)) =>
      let cumTsnAckPointAdvanced := sna32lt a.cumulativeTsnAckPoint d.cumulativeTsnAck
      match (a.applySack d bytesAcked).processFastRetransmission d.cumulativeTsnAck htna
        cumTsnAckPointAdvanced with
      | (a, .error _) => s.fail a
      | (a, .ok ()) => { s with association := a.raiseAckPoint, sack := .processed state }
  | .processed state => { s with association := a.postprocessSack state, sack := .idle }

/-- The system after an operation. -/
def step (s : ShutdownRace) : ShutdownRaceOp → ShutdownRace
  | .call => s.callStep
  | .sackArrives now d => s.sackArrives now d
  | .sack => s.sackStep

/-- Where neither is in progress, ShutdownPending waits for chunks in flight. -/
def Remembered (s : ShutdownRace) : Prop :=
  s.call = .idle → (s.sack matches .idle) = true → s.association.state = .shutdownPending →
    s.association.inflightQueue.isEmpty = false

instance (s : ShutdownRace) : Decidable s.Remembered :=
  inferInstanceAs (Decidable (_ → _ → _ → _))

/-- The SACK being handled, begun before ShutdownPending was stored, pops just what is left in
flight. -/
def DrainsUnaware (s : ShutdownRace) : Prop :=
  match s.sack with
  | .popping state _ d i _ =>
    state ≠ .shutdownPending ∧ roundsLeft i d.cumulativeTsnAck = s.association.inflightQueue.len
  | _ => False

instance (s : ShutdownRace) : Decidable s.DrainsUnaware := by
  unfold DrainsUnaware
  split
  · exact instDecidableAnd
  · exact instDecidableFalse

/-- No such SACK is being handled when `shutdown` finds chunks in flight. -/
def ReadsAware (s : ShutdownRace) : ShutdownRaceOp → Prop
  | .call => s.call = .stored → s.association.inflightQueue.length ≠ 0 → ¬ s.DrainsUnaware
  | _ => True

instance (s : ShutdownRace) (op : ShutdownRaceOp) : Decidable (s.ReadsAware op) :=
  match op with
  | .call => inferInstanceAs (Decidable (_ → _ → _))
  | .sackArrives .. | .sack => isTrue trivial

end ShutdownRace

end Sctp
