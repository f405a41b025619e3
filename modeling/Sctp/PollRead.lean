import Sctp.PollStream

/-!
# `PollStream` of `stream/mod.rs`, the reading half

`poll_read` reads a message into a temporary buffer and hands it out in pieces of the size of the
buffers it is given. The messages are those that `Stream::read` will yield, one after the other;
when its future gets on is not up to the stream, so each poll of it comes with its outcome.
-/

namespace Sctp

/-- `ReadFut`; the future that reads owns its temporary buffer. -/
inductive ReadFut where
  | idle
  | reading (tempBuf : Bytes)
  | remainingData (data : Bytes)
deriving DecidableEq, Repr

/-- `unread` is what `Stream::read` has yet to yield. -/
structure PollReader where
  readFut : ReadFut := .idle
  /-- `DEFAULT_READ_BUF_SIZE` at first. -/
  readBufCap : ℕ := 8192
  unread : List Bytes
deriving DecidableEq, Repr

/-- What a poll of the future of `Stream::read` comes to. -/
inductive ReadOutcome where
  | pending
  | error (e : Error)
  | message
deriving DecidableEq, Repr

namespace PollReader

/-- One poll of the future: the message is copied into the temporary buffer, which is then
truncated to its length. -/
def pollStreamRead (s : PollReader) (tempBuf : Bytes) :
    ReadOutcome → PollReader × Poll (Except Error Bytes)
  | .pending => (s, .pending)
  | .error e => (s, .ready (.error e))
  | .message =>
    match s.unread with
    | [] => (s, .pending)
    | m :: unread =>
      let s := { s with unread }
      if tempBuf.length < m.length then
        (s, .ready (.error .errShortBuffer))
      else
        let tempBuf := m ++ tempBuf.drop m.length
        (s, .ready (.ok (tempBuf.take m.length)))

/-- The bytes that fit are put, and the rest is what is left of the temporary buffer. -/
def putTempBuf (s : PollReader) (tempBuf : Bytes) (remaining : ℕ) : PollReader × Bytes :=
  let len := min tempBuf.length remaining
  if remaining < tempBuf.length then
    ({ s with readFut := .remainingData (tempBuf.drop len) }, tempBuf.take len)
  else
    ({ s with readFut := .idle }, tempBuf.take len)

/-- The loop of `poll_read`, which retries on `ErrTryAgain`. -/
def pollReading (s : PollReader) (tempBuf : Bytes) (remaining : ℕ) :
    List ReadOutcome → PollReader × Bytes × Poll (Except Error Unit)
  | [] => (s, [], .pending)
  | outcome :: outcomes =>
    match s.pollStreamRead tempBuf outcome with
    | (s, .pending) => (s, [], .pending)
    | (s, .ready (.error e)) =>
      if e = .errTryAgain then
        pollReading s tempBuf remaining outcomes
      else if e = .errEof then
        ({ s with readFut := .idle }, [], .ready (.ok ()))
      else
        ({ s with readFut := .idle }, [], .ready (.error e))
    | (s, .ready (.ok tempBuf)) =>
      let (s, put) := s.putTempBuf tempBuf remaining
      (s, put, .ready (.ok ()))

/-- `poll_read` with a buffer of `remaining` free bytes: the bytes it puts there, and its
result. -/
def pollRead (s : PollReader) (remaining : ℕ) (outcomes : List ReadOutcome) :
    PollReader × Bytes × Poll (Except Error Unit) :=
  if remaining = 0 then
    (s, [], .ready (.ok ()))
  else
    match s.readFut with
    | .idle =>
      let tempBuf : Bytes := List.replicate s.readBufCap 0
      { s with readFut := .reading tempBuf }.pollReading tempBuf remaining outcomes
    | .reading tempBuf => s.pollReading tempBuf remaining outcomes
    | .remainingData data =>
      let (s, put) := s.putTempBuf data remaining
      (s, put, .ready (.ok ()))

/-! ## Runs -/

/-- A call of `poll_read`, with the outcomes of the polls it makes. -/
structure Call where
  remaining : ℕ
  outcomes : List ReadOutcome

/-- The reader after a call. -/
def step (s : PollReader) (c : Call) : PollReader := (s.pollRead c.remaining c.outcomes).1

/-- What a call puts into the buffer of its caller. -/
def put (s : PollReader) (c : Call) : Bytes := (s.pollRead c.remaining c.outcomes).2.1

/-- All that the calls put into their buffers. -/
def allPut (s : PollReader) (calls : List Call) : Bytes :=
  (Runs.outputs step put s calls).flatten

/-- What has been put is a prefix of the messages and a leading part of the next one, whose rest
is what is held back; the messages after it are unread. -/
def InOrder (messages : List Bytes) (s : PollReader) (bytes : Bytes) : Prop :=
  ∃ done part, bytes = done.flatten ++ part ∧
    match s.readFut with
    | .remainingData rest => messages = done ++ (part ++ rest) :: s.unread
    | _ => part = [] ∧ messages = done ++ s.unread

/-- No call puts more than its buffer has room for, and after every call what has been put is in
order. -/
structure ReadsOnce (readBufCap : ℕ) (messages : List Bytes) (calls : List Call) : Prop where
  bounded : Runs.Along step (fun s c => (s.put c).length ≤ c.remaining)
    { readBufCap, unread := messages } calls
  inOrder : InOrder messages (Runs.run step { readBufCap, unread := messages } calls)
    (allPut { readBufCap, unread := messages } calls)

end PollReader

end Sctp
