import Sctp.Lib.Runs
import Sctp.Stream

/-!
# `PollStream` of `stream/mod.rs`, the writing half

`poll_write` hands its buffer to a future of `Stream::write` and says that it is written when the
future is still pending. When the future gets on is not up to the stream: each poll of it comes
with its outcome.
-/

namespace Sctp

/-- `std::task::Poll`. -/
inductive Poll (α : Type) where
  | pending
  | ready (value : α)
deriving DecidableEq, Repr

/-- `writeFut` is the buffer that the stored future writes. -/
structure PollStream where
  writeFut : Option Bytes := none
deriving DecidableEq, Repr

/-- One poll of the future of `Stream::write`, which gives the length of its buffer. -/
def pollStreamWrite (bytes : Bytes) : Poll (Except Error Unit) → Poll (Except Error ℕ)
  | .pending => .pending
  | .ready (.error e) => .ready (.error e)
  | .ready (.ok ()) => .ready (.ok bytes.length)

namespace PollStream

/-- `poll_write`: a write that is still stored is polled again, in place of the new buffer. -/
def pollWrite (s : PollStream) (buf : Bytes) (outcome : Poll (Except Error Unit)) :
    PollStream × Poll (Except Error ℕ) :=
  let (fut, futIsNew) :=
    match s.writeFut with
    | some fut => (fut, false)
    | none => (buf, true)
  match pollStreamWrite fut outcome with
  | .pending =>
    -- a new future cannot make the stream not ready
    if futIsNew then
      ({ s with writeFut := some fut }, .ready (.ok buf.length))
    else
      ({ s with writeFut := some fut }, .pending)
  | .ready (.error e) => ({ s with writeFut := none }, .ready (.error e))
  | .ready (.ok n) => ({ s with writeFut := none }, .ready (.ok n))

/-- `poll_flush`: polls the write that is stored until it is done. -/
def pollFlush (s : PollStream) (outcome : Poll (Except Error Unit)) :
    PollStream × Poll (Except Error Unit) :=
  match s.writeFut with
  | some fut =>
    match pollStreamWrite fut outcome with
    | .pending => (s, .pending)
    | .ready (.error e) => ({ s with writeFut := none }, .ready (.error e))
    | .ready (.ok _) => ({ s with writeFut := none }, .ready (.ok ()))
  | none => (s, .ready (.ok ()))

/-! ## Runs -/

/-- A poll, with the outcome of the future that it polls. -/
inductive Op where
  | write (buf : Bytes) (outcome : Poll (Except Error Unit))
  | flush (outcome : Poll (Except Error Unit))

/-- The stream after a poll. -/
def step (s : PollStream) : Op → PollStream
  | .write buf outcome => (s.pollWrite buf outcome).1
  | .flush outcome => (s.pollFlush outcome).1

/-- The future that is polled does not fail. -/
def Op.Succeeds : Op → Prop
  | .write _ outcome | .flush outcome => ∀ e, outcome ≠ .ready (.error e)

instance (op : Op) : Decidable op.Succeeds :=
  match op with
  | .write _ .pending | .flush .pending => isTrue nofun
  | .write _ (.ready (.ok ())) | .flush (.ready (.ok ())) => isTrue nofun
  | .write _ (.ready (.error e)) | .flush (.ready (.error e)) => isFalse fun h => h e rfl

/-- What the step hands to `Stream::write`. -/
def handed (s : PollStream) : Op → Bytes
  | .write buf _ => if s.writeFut.isNone then buf else []
  | .flush _ => []

/-- What the step says is written: the first `n` bytes of the buffer. -/
def accepted (s : PollStream) : Op → Bytes
  | .write buf outcome =>
    match (s.pollWrite buf outcome).2 with
    | .ready (.ok n) => buf.take n
    | _ => []
  | .flush _ => []

/-- What all polls hand to the stream. -/
def allHanded (s : PollStream) (ops : List Op) : Bytes :=
  (Runs.outputs step handed s ops).flatten

/-- What all polls tell their callers was written. -/
def allAccepted (s : PollStream) (ops : List Op) : Bytes :=
  (Runs.outputs step accepted s ops).flatten

/-- No more bytes are said to be written than there are. -/
def Bounded (s : PollStream) : Op → Prop
  | .write buf outcome => ∀ n, (s.pollWrite buf outcome).2 = .ready (.ok n) → n ≤ buf.length
  | .flush _ => True

/-- Whenever a flush is through, what has been handed on is what has been accepted. -/
structure WritesExactly (ops : List Op) : Prop where
  bounded : Runs.Along step Bounded {} ops
  exact : ∀ before outcome after, ops = before ++ .flush outcome :: after →
    ((Runs.run step {} before).pollFlush outcome).2 = .ready (.ok ()) →
      allHanded {} (before ++ [.flush outcome]) = allAccepted {} (before ++ [.flush outcome])

/-- `poll_write` does not complete the future of an earlier buffer that has any bytes. -/
def CompletesNone (s : PollStream) : Op → Prop
  | .write _ outcome => outcome = .ready (.ok ()) → s.writeFut.getD [] = []
  | .flush _ => True

instance (s : PollStream) (op : Op) : Decidable (s.CompletesNone op) :=
  match op with
  | .write _ outcome =>
    match outcome with
    | .pending | .ready (.error _) => isTrue nofun
    | .ready (.ok ()) => decidable_of_iff (s.writeFut.getD [] = []) ⟨fun h _ => h, fun h => h rfl⟩
  | .flush _ => isTrue trivial

end PollStream

end Sctp
