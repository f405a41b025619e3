import Sctp.Wire.Chunk
import Sctp.Lib.SortBy

/-!
# `queue/reassembly_queue.rs`

The receiving side of a stream. Ordered chunks are collected in one `ChunkSet` for each
SSN; unordered chunks lie in one list until a complete run of fragments is found in it.
-/

namespace Sctp

/-- `sort_chunks_by_tsn`. -/
def sortChunksByTsn (c : List ChunkPayloadData) : List ChunkPayloadData :=
  StableSort.sortBy (fun a b => sna32lt a.tsn b.tsn) c

/-- A set of chunks that share the same SSN. -/
structure ChunkSet where
  ssn : U16
  ppi : PayloadProtocolIdentifier
  chunks : List ChunkPayloadData := []
deriving DecidableEq, Repr

/-- `sort_chunks_by_ssn`. -/
def sortChunksBySsn (c : List ChunkSet) : List ChunkSet :=
  StableSort.sortBy (fun a b => sna16lt a.ssn b.ssn) c

/-- The user data of the chunks, one after the other. -/
def chunksData (chunks : List ChunkPayloadData) : Bytes := chunks.flatMap (·.userData)

/-- The loop of `is_complete`: every TSN is the one before it plus one. -/
def isContiguousFrom (lastTsn : U32) : List ChunkPayloadData → Bool
  | [] => true
  | c :: cs => c.tsn = lastTsn + 1 && isContiguousFrom c.tsn cs

namespace ChunkSet

/-- `ChunkSet::new`. -/
def new (ssn : U16) (ppi : PayloadProtocolIdentifier) : ChunkSet := { ssn, ppi }

/-- `is_complete`: from a beginning fragment to an ending one, with consecutive TSNs between. -/
def isComplete (s : ChunkSet) : Bool :=
  match s.chunks with
  | [] => false
  | c :: cs =>
    c.beginningFragment && ((c :: cs).getLast?.map (·.endingFragment)).getD false &&
      isContiguousFrom c.tsn cs

/-- Adds the chunk unless it is there, and tells whether the set is now complete. -/
def push (s : ChunkSet) (chunk : ChunkPayloadData) : ChunkSet × Bool :=
  if s.chunks.any (·.tsn = chunk.tsn) then
    (s, false)
  else
    let s := { s with chunks := sortChunksByTsn (s.chunks ++ [chunk]) }
    (s, s.isComplete)

end ChunkSet

/-- What a stream has received and not handed out yet: sets of ordered chunks by SSN, complete
unordered sets, and single unordered chunks. -/
structure ReassemblyQueue where
  si : U16 := 0
  nextSsn : U16 := 0
  ordered : List ChunkSet := []
  unordered : List ChunkSet := []
  unorderedChunks : List ChunkPayloadData := []
  nBytes : ℕ := 0
deriving DecidableEq, Repr

namespace ReassemblyQueue

/-- `ReassemblyQueue::new`. -/
def new (si : U16) : ReassemblyQueue := { si }

/-- The loop of `find_complete_unordered_chunk_set`: where a complete run starts and how many
chunks it has. -/
def scanUnordered (i : ℕ) (startIdx : Option ℕ) (nChunks : ℕ) (lastTsn : U32) :
    List ChunkPayloadData → Option (ℕ × ℕ)
  | [] => none
  | c :: cs =>
    if c.beginningFragment then
      if c.endingFragment then some (i, 1) else scanUnordered (i + 1) (some i) 1 c.tsn cs
    else
      match startIdx with
      | none => scanUnordered (i + 1) none nChunks lastTsn cs
      | some start =>
        if c.tsn ≠ lastTsn + 1 then
          scanUnordered (i + 1) none nChunks lastTsn cs
        else if c.endingFragment then
          some (start, nChunks + 1)
        else
          scanUnordered (i + 1) (some start) (nChunks + 1) c.tsn cs

/-- `find_complete_unordered_chunk_set`: takes the set out of the single chunks. -/
def findCompleteUnorderedChunkSet (q : ReassemblyQueue) : ReassemblyQueue × Option ChunkSet :=
  match scanUnordered 0 none 0 0 q.unorderedChunks with
  | none => (q, none)
  | some (start, n) =>
    let chunks := (q.unorderedChunks.drop start).take n
    let ppi := (chunks.head?.map (·.payloadType)).getD .unknown
    ({ q with unorderedChunks := q.unorderedChunks.take start ++ q.unorderedChunks.drop (start + n) },
      some { ssn := 0, ppi, chunks })

/-- Gives the chunk to the set that has its SSN. -/
def pushOrdered (chunk : ChunkPayloadData) : List ChunkSet → Option (List ChunkSet × Bool)
  | [] => none
  | s :: sets =>
    if s.ssn = chunk.streamSequenceNumber then
      let (s, ok) := s.push chunk
      some (s :: sets, ok)
    else
      (pushOrdered chunk sets).map fun (sets, ok) => (s :: sets, ok)

/-- `push`: chunks of another stream and ordered ones behind the next SSN are dropped. -/
def push (q : ReassemblyQueue) (chunk : ChunkPayloadData) : ReassemblyQueue × Bool :=
  if chunk.streamIdentifier ≠ q.si then
    (q, false)
  else if chunk.unordered then
    let q :=
      { q with
        nBytes := q.nBytes + chunk.userData.length
        unorderedChunks := sortChunksByTsn (q.unorderedChunks ++ [chunk]) }
    match q.findCompleteUnorderedChunkSet with
    | (q, some cset) => ({ q with unordered := q.unordered ++ [cset] }, true)
    | (q, none) => (q, false)
  else if sna16lt chunk.streamSequenceNumber q.nextSsn then
    (q, false)
  else
    let q := { q with nBytes := q.nBytes + chunk.userData.length }
    match pushOrdered chunk q.ordered with
    | some (ordered, ok) => ({ q with ordered }, ok)
    | none =>
      let (cset, ok) := (ChunkSet.new chunk.streamSequenceNumber chunk.payloadType).push chunk
      ({ q with ordered := sortChunksBySsn (q.ordered ++ [cset]) }, ok)

/-- `is_readable`: a complete unordered set, or a complete first ordered one whose turn it is. -/
def isReadable (q : ReassemblyQueue) : Bool :=
  if q.unordered ≠ [] then
    true
  else
    match q.ordered with
    | [] => false
    | cset :: _ => cset.isComplete && sna16lte cset.ssn q.nextSsn

/-- `subtract_num_bytes`, which stops at zero. -/
def subtractNumBytes (q : ReassemblyQueue) (nBytes : ℕ) : ReassemblyQueue :=
  { q with nBytes := q.nBytes - nBytes }

/-- The copy loop of `read` into a buffer of `bufLen` bytes. -/
def copyChunks (bufLen : ℕ) (written : Bytes) (err : Option Error) :
    List ChunkPayloadData → Except Error Bytes
  | [] =>
    match err with
    | some e => .error e
    | none => .ok written
  | c :: cs =>
    if err = none then
      let toCopy := c.userData.length
      let n := min toCopy (bufLen - written.length)
      copyChunks bufLen (written ++ c.userData.take n)
        (if n < toCopy then some .errShortBuffer else none) cs
    else
      copyChunks bufLen written err cs

/-- The chunk set `read` takes, if there is one to take. -/
def takeReadable (q : ReassemblyQueue) : ReassemblyQueue × Option ChunkSet :=
  match q.unordered with
  | cset :: unordered => ({ q with unordered }, some cset)
  | [] =>
    match q.ordered with
    | [] => (q, none)
    | cset :: ordered =>
      if !cset.isComplete then
        (q, none)
      else if sna16gt cset.ssn q.nextSsn then
        (q, none)
      else if cset.ssn = q.nextSsn then
        ({ q with nextSsn := q.nextSsn + 1, ordered }, some cset)
      else
        ({ q with ordered }, some cset)

/-- `read` into a buffer of `bufLen` bytes: the bytes written there and the payload type. -/
def read (q : ReassemblyQueue) (bufLen : ℕ) :
    ReassemblyQueue × Except Error (Bytes × PayloadProtocolIdentifier) :=
  match q.takeReadable with
  | (q, none) => (q, .error .errTryAgain)
  | (q, some cset) =>
    (q.subtractNumBytes (cset.chunks.map (·.userData.length)).sum,
      (copyChunks bufLen [] none cset.chunks).map fun buf => (buf, cset.ppi))

/-- A set that a forward to `lastSsn` removes. -/
def skippedBy (lastSsn : U16) (s : ChunkSet) : Bool := sna16lte s.ssn lastSsn && !s.isComplete

/-- `forward_tsn_for_ordered`: drops the incomplete sets up to the SSN, and the next SSN follows it.
-/
def forwardTsnForOrdered (q : ReassemblyQueue) (lastSsn : U16) : ReassemblyQueue :=
  let numBytes :=
    ((q.ordered.filter (skippedBy lastSsn)).map fun s => (s.chunks.map (·.userData.length)).sum).sum
  let q := q.subtractNumBytes numBytes
  let q := { q with ordered := q.ordered.filter fun s => !skippedBy lastSsn s }
  if sna16lte q.nextSsn lastSsn then { q with nextSsn := lastSsn + 1 } else q

/-- `forward_tsn_for_unordered`: drops the leading single chunks up to the TSN. -/
def forwardTsnForUnordered (q : ReassemblyQueue) (newCumulativeTsn : U32) : ReassemblyQueue :=
  let skipped := q.unorderedChunks.takeWhile fun c => !sna32gt c.tsn newCumulativeTsn
  let q := q.subtractNumBytes (skipped.map (·.userData.length)).sum
  { q with unorderedChunks := q.unorderedChunks.drop skipped.length }

/-- `get_num_bytes`. -/
def getNumBytes (q : ReassemblyQueue) : ℕ := q.nBytes

end ReassemblyQueue

end Sctp
