import Sctp.Queue.ReassemblyRuns

/-!
# Nothing is lost in reassembly

Every operation moves chunks between what is held, what the reader takes and what is discarded;
`n_bytes` goes along.
-/

namespace Sctp

theorem setChunks_append (sets sets' : List ChunkSet) :
    setChunks (sets ++ sets') = setChunks sets ++ setChunks sets' := List.flatMap_append

theorem setChunks_cons (s : ChunkSet) (sets : List ChunkSet) :
    setChunks (s :: sets) = s.chunks ++ setChunks sets := List.flatMap_cons

/-- The order of sets does not matter for what they hold. -/
theorem setChunks_perm {sets sets' : List ChunkSet} (h : sets.Perm sets') :
    (setChunks sets).Perm (setChunks sets') := h.flatMap_right _

/-- The bytes of two lists. -/
theorem chunksBytes_append (l l' : List ChunkPayloadData) :
    chunksBytes (l ++ l') = chunksBytes l + chunksBytes l' := by
  unfold chunksBytes
  rw [List.map_append, List.sum_append]

/-- The order of chunks does not matter for their bytes. -/
theorem chunksBytes_perm {l l' : List ChunkPayloadData} (h : l.Perm l') :
    chunksBytes l = chunksBytes l' := (h.map _).sum_nat

/-- Sorting by TSN permutes. -/
theorem sortChunksByTsn_perm (l : List ChunkPayloadData) : (sortChunksByTsn l).Perm l :=
  StableSort.sortBy_perm _ l

/-- The bytes of sets, set by set. -/
theorem chunksBytes_setChunks (sets : List ChunkSet) :
    chunksBytes (setChunks sets) = (sets.map fun s => chunksBytes s.chunks).sum := by
  induction sets with
  | nil => rfl
  | cons s sets ih =>
    rw [setChunks_cons, chunksBytes_append, ih, List.map_cons, List.sum_cons]

/-- A list is what a filter keeps and what it drops. -/
theorem setChunks_filter_perm (p : ChunkSet → Bool) (sets : List ChunkSet) :
    (setChunks sets).Perm (setChunks (sets.filter fun s => !p s) ++ setChunks (sets.filter p)) := by
  rw [← setChunks_append]
  exact setChunks_perm ((List.filter_append_perm p sets).symm.trans List.perm_append_comm)

/-! ## One set -/

/-- A push adds the chunk to the set. -/
theorem ChunkSet.chunks_push {s : ChunkSet} {chunk : ChunkPayloadData}
    (h : ∀ c ∈ s.chunks, c.tsn ≠ chunk.tsn) :
    (s.push chunk).1.chunks.Perm (chunk :: s.chunks) := by
  have hany : ¬ s.chunks.any (·.tsn = chunk.tsn) = true := by
    rw [List.any_eq_true]
    intro ⟨c, hc, heq⟩
    exact h c hc (by simpa using heq)
  unfold ChunkSet.push
  rw [if_neg hany]
  exact (sortChunksByTsn_perm _).trans List.perm_append_comm

/-- Unless the set has its TSN. -/
theorem ChunkSet.mem_push {s : ChunkSet} {c d : ChunkPayloadData} :
    d ∈ (s.push c).1.chunks ↔ d ∈ s.chunks ∨ d = c ∧ s.chunks.any (·.tsn = c.tsn) = false := by
  unfold ChunkSet.push
  by_cases hdup : s.chunks.any (·.tsn = c.tsn) = true
  · rw [if_pos hdup, hdup]
    simp
  · rw [if_neg hdup]
    show d ∈ sortChunksByTsn (s.chunks ++ [c]) ↔ _
    have hnew : s.chunks.any (·.tsn = c.tsn) = false := by simpa using hdup
    unfold sortChunksByTsn
    rw [StableSort.mem_sortBy, List.mem_append, List.mem_singleton]
    simp only [hnew, and_true]

/-- A set keeps its SSN. -/
theorem ChunkSet.ssn_push (s : ChunkSet) (chunk : ChunkPayloadData) :
    (s.push chunk).1.ssn = s.ssn := by
  unfold ChunkSet.push
  split <;> rfl

namespace ReassemblyQueue

variable {q : ReassemblyQueue} {chunk : ChunkPayloadData}

/-! ## The operations -/

/-- The scanner touches nothing but the list it looks through. -/
theorem findCompleteUnorderedChunkSet_frame (q : ReassemblyQueue) :
    ∃ unorderedChunks, q.findCompleteUnorderedChunkSet.1 = { q with unorderedChunks } := by
  unfold findCompleteUnorderedChunkSet
  split
  · exact ⟨q.unorderedChunks, rfl⟩
  · exact ⟨_, rfl⟩

/-- What `push` does, with the conditions under which it does it. -/
theorem push_cases (q : ReassemblyQueue) (chunk : ChunkPayloadData) :
    (q.accepts chunk = false ∧ (q.push chunk).1 = q) ∨
    (q.accepts chunk = true ∧ chunk.unordered = true ∧
      (∃ unordered unorderedChunks, (q.push chunk).1 =
        { q with nBytes := q.nBytes + chunk.userData.length, unordered, unorderedChunks }) ∧
      ∃ q', q' = { q with
          nBytes := q.nBytes + chunk.userData.length
          unorderedChunks := sortChunksByTsn (q.unorderedChunks ++ [chunk]) } ∧
        (q.push chunk).1 = match q'.findCompleteUnorderedChunkSet with
          | (q', some cset) => { q' with unordered := q'.unordered ++ [cset] }
          | (q', none) => q') ∨
    (q.accepts chunk = true ∧ chunk.unordered = false ∧
      sna16lt chunk.streamSequenceNumber q.nextSsn = false ∧
      ((∃ ordered ok, pushOrdered chunk q.ordered = some (ordered, ok) ∧
          (q.push chunk).1 = { q with nBytes := q.nBytes + chunk.userData.length, ordered }) ∨
        (pushOrdered chunk q.ordered = none ∧ (q.push chunk).1 =
          { q with
            nBytes := q.nBytes + chunk.userData.length
            ordered := sortChunksBySsn (q.ordered ++ [((ChunkSet.new chunk.streamSequenceNumber
              chunk.payloadType).push chunk).1]) }))) := by
  unfold push accepts
  -- a chunk is turned down for its stream, or for an SSN that has been read
  by_cases hsi : chunk.streamIdentifier ≠ q.si
  · left
    rw [if_pos hsi]
    exact ⟨by simp [hsi], rfl⟩
  · rw [if_neg hsi]
    rw [not_not] at hsi
    cases hu : chunk.unordered with
    | true =>
      right; left
      rw [if_pos rfl]
      dsimp only
      generalize hq' : ({ q with
        nBytes := q.nBytes + chunk.userData.length
        unorderedChunks := sortChunksByTsn (q.unorderedChunks ++ [chunk]) } : ReassemblyQueue) = q'
      -- a run that is complete leaves the chunks for the sets
      obtain ⟨rest, hframe⟩ := findCompleteUnorderedChunkSet_frame q'
      rcases hfind : q'.findCompleteUnorderedChunkSet with ⟨q₁, _ | cset⟩
      · rw [hfind] at hframe
        have hq₁ : q₁ = { q' with unorderedChunks := rest } := hframe
        refine ⟨by simp [hsi], rfl, ⟨q.unordered, rest, ?_⟩, q', rfl, by rw [hfind]⟩
        rw [hq₁, ← hq']
      · rw [hfind] at hframe
        have hq₁ : q₁ = { q' with unorderedChunks := rest } := hframe
        refine ⟨by simp [hsi], rfl, ⟨q.unordered ++ [cset], rest, ?_⟩, q', rfl, by rw [hfind]⟩
        rw [hq₁, ← hq']
    | false =>
      rw [if_neg Bool.false_ne_true]
      cases hlt : sna16lt chunk.streamSequenceNumber q.nextSsn with
      | true =>
        left
        rw [if_pos rfl]
        exact ⟨by simp, rfl⟩
      | false =>
        right; right
        rw [if_neg Bool.false_ne_true]
        refine ⟨by simp [hsi], rfl, rfl, ?_⟩
        dsimp only
        cases hpush : pushOrdered chunk q.ordered with
        | some r => exact Or.inl ⟨r.1, r.2, rfl, rfl⟩
        | none => exact Or.inr ⟨rfl, rfl⟩

/-- The set that gets the chunk, if there is one. -/
theorem pushOrdered_perm {sets sets' : List ChunkSet} {ok : Bool}
    (h : pushOrdered chunk sets = some (sets', ok)) (hnew : ∀ c ∈ setChunks sets, c.tsn ≠ chunk.tsn) :
    (setChunks sets').Perm (chunk :: setChunks sets) := by
  induction sets generalizing sets' ok with
  | nil => cases h
  | cons s sets ih =>
    rw [setChunks_cons] at hnew ⊢
    rw [List.forall_mem_append] at hnew
    unfold pushOrdered at h
    split at h
    · injection h with h
      injection h with hsets _
      rw [← hsets, setChunks_cons]
      exact (ChunkSet.chunks_push hnew.1).append_right _
    · obtain ⟨⟨rest, ok'⟩, hrest, heq⟩ := Option.map_eq_some_iff.mp h
      injection heq with hsets _
      rw [← hsets, setChunks_cons]
      exact ((ih hrest hnew.2).append_left s.chunks).trans List.perm_middle

/-- No set has the SSN. -/
theorem pushOrdered_eq_none {sets : List ChunkSet} (h : pushOrdered chunk sets = none) :
    sets.find? (·.ssn = chunk.streamSequenceNumber) = none := by
  induction sets with
  | nil => rfl
  | cons s sets ih =>
    unfold pushOrdered at h
    by_cases hssn : s.ssn = chunk.streamSequenceNumber
    · rw [if_pos hssn] at h
      cases h
    · rw [if_neg hssn] at h
      rw [List.find?_cons_of_neg (by simpa using hssn)]
      exact ih (Option.map_eq_none_iff.mp h)

/-- Extracting a run moves chunks from one list to the other. -/
theorem findCompleteUnorderedChunkSet_perm {q' : ReassemblyQueue} {cset : ChunkSet}
    (h : q.findCompleteUnorderedChunkSet = (q', some cset)) :
    q.unorderedChunks.Perm (cset.chunks ++ q'.unorderedChunks) := by
  unfold findCompleteUnorderedChunkSet at h
  split at h
  · cases h
  · rename_i start n _
    injection h with hq hc
    injection hc with hc
    rw [← hq, ← hc]
    show q.unorderedChunks.Perm ((q.unorderedChunks.drop start).take n ++
      (q.unorderedChunks.take start ++ q.unorderedChunks.drop (start + n)))
    have hsplit : q.unorderedChunks = q.unorderedChunks.take start ++
        ((q.unorderedChunks.drop start).take n ++ q.unorderedChunks.drop (start + n)) := by
      rw [← List.drop_drop, List.take_append_drop, List.take_append_drop]
    conv_lhs => rw [hsplit]
    rw [← List.append_assoc, ← List.append_assoc]
    exact List.perm_append_comm.append_right _

theorem accepted_push (q : ReassemblyQueue) (chunk : ChunkPayloadData) :
    q.accepted (.push chunk) = if q.accepts chunk then [chunk] else [] := rfl

/-- A push adds what it accepts to what is held. -/
theorem held_push (hnew : q.PushesFresh (.push chunk)) :
    (q.held ++ q.accepted (.push chunk)).Perm (q.push chunk).1.held := by
  have hparts : ∀ c ∈ setChunks q.ordered, c.tsn ≠ chunk.tsn := fun c hc =>
    hnew c (List.mem_append_left _ (List.mem_append_left _ hc))
  rw [accepted_push]
  rcases q.push_cases chunk with ⟨hacc, heq⟩ | ⟨hacc, _, _, q', hq', heq⟩ | ⟨hacc, _, _, hord⟩
  · rw [heq, hacc, if_neg Bool.false_ne_true, List.append_nil]
  · -- an unordered chunk joins the others, and then a run of them may leave
    have hin : (q.held ++ [chunk]).Perm q'.held := by
      rw [hq']
      show (setChunks q.ordered ++ setChunks q.unordered ++ q.unorderedChunks ++ [chunk]).Perm
        (setChunks q.ordered ++ setChunks q.unordered ++
          sortChunksByTsn (q.unorderedChunks ++ [chunk]))
      rw [List.append_assoc (setChunks q.ordered ++ setChunks q.unordered)]
      exact (sortChunksByTsn_perm _).symm.append_left _
    rw [heq, hacc, if_pos rfl]
    refine hin.trans ?_
    split
    · rename_i q₁ cset hfind
      obtain ⟨rest, hframe⟩ := findCompleteUnorderedChunkSet_frame q'
      have hperm := findCompleteUnorderedChunkSet_perm hfind
      rw [hfind] at hframe
      dsimp only at hframe
      subst hframe
      show (setChunks q'.ordered ++ setChunks q'.unordered ++ q'.unorderedChunks).Perm
        (setChunks q'.ordered ++ setChunks (q'.unordered ++ [cset]) ++ rest)
      rw [setChunks_append, List.append_assoc, List.append_assoc, List.append_assoc]
      have hone : setChunks [cset] = cset.chunks := List.append_nil _
      rw [hone]
      exact (hperm.append_left _).append_left _
    · rename_i q₁ hfind
      have hsame : q₁ = q' := by
        unfold findCompleteUnorderedChunkSet at hfind
        split at hfind
        · injection hfind with hq _
          exact hq.symm
        · cases hfind
      rw [hsame]
  · rw [hacc, if_pos rfl]
    -- an ordered chunk joins a set, or it begins one
    have hset : ∀ ordered, (setChunks ordered).Perm (chunk :: setChunks q.ordered) →
        (q.held ++ [chunk]).Perm (setChunks ordered ++ setChunks q.unordered ++ q.unorderedChunks) := by
      intro ordered hperm
      have hmid := (hperm.append_right (setChunks q.unordered)).append_right q.unorderedChunks
      have hone : (q.held ++ [chunk]).Perm (chunk :: q.held) := List.perm_append_comm
      exact hone.trans hmid.symm
    rcases hord with ⟨ordered, ok, hpush, heq⟩ | ⟨_, heq⟩
    · rw [heq]
      exact hset ordered (pushOrdered_perm hpush hparts)
    · rw [heq]
      refine hset _ ((setChunks_perm (StableSort.sortBy_perm _ _)).trans ?_)
      rw [setChunks_append]
      exact List.perm_append_comm

/-- The set that is read leaves; of the rest only `next_ssn` may change. -/
theorem takeReadable_cases (q : ReassemblyQueue) :
    (q.takeReadable = (q, none)) ∨
    (∃ cset rest, q.unordered = cset :: rest ∧
      q.takeReadable = ({ q with unordered := rest }, some cset)) ∨
    (∃ cset rest, q.unordered = [] ∧ q.ordered = cset :: rest ∧ cset.isComplete = true ∧
      sna16gt cset.ssn q.nextSsn = false ∧
      q.takeReadable =
        ({ q with
            nextSsn := if cset.ssn = q.nextSsn then q.nextSsn + 1 else q.nextSsn
            ordered := rest }, some cset)) := by
  unfold takeReadable
  cases hu : q.unordered with
  | cons cset rest => exact Or.inr (Or.inl ⟨cset, rest, rfl, rfl⟩)
  | nil =>
    cases ho : q.ordered with
    | nil => exact Or.inl rfl
    | cons cset rest =>
      dsimp only
      cases hc : cset.isComplete with
      | false => exact Or.inl rfl
      | true =>
        cases hgt : sna16gt cset.ssn q.nextSsn with
        | true => exact Or.inl rfl
        | false =>
          refine Or.inr (Or.inr ⟨cset, rest, rfl, rfl, hc, hgt, ?_⟩)
          by_cases heq : cset.ssn = q.nextSsn
          · simp [heq]
          · simp [heq]

/-- A read counts off what it takes. -/
theorem read_fst (q : ReassemblyQueue) (bufLen : ℕ) :
    (q.read bufLen).1 = q.takeReadable.1.subtractNumBytes (chunksBytes (q.taken (.read bufLen))) := by
  unfold read taken takenSet
  rcases htake : q.takeReadable with ⟨q', _ | cset⟩
  · rfl
  · have hone : setChunks (some cset).toList = cset.chunks := List.append_nil _
    dsimp only
    rw [hone]
    rfl

/-- Once the buffer is too short, it stays so. -/
theorem copyChunks_error (bufLen : ℕ) (written : Bytes) (e : Error) (cs : List ChunkPayloadData) :
    copyChunks bufLen written (some e) cs = .error e := by
  induction cs with
  | nil => rfl
  | cons c cs ih =>
    unfold copyChunks
    rw [if_neg (Option.some_ne_none e)]
    exact ih

/-- The loop of `read` copies everything or fails. -/
theorem copyChunks_eq {bufLen : ℕ} {written : Bytes} (h : written.length ≤ bufLen)
    (cs : List ChunkPayloadData) : copyChunks bufLen written none cs =
      if written.length + chunksBytes cs ≤ bufLen then .ok (written ++ chunksData cs)
      else .error .errShortBuffer := by
  induction cs generalizing written with
  | nil =>
    have hfits : written.length + chunksBytes [] ≤ bufLen := h
    rw [if_pos hfits]
    show Except.ok written = Except.ok (written ++ [])
    rw [List.append_nil]
  | cons c cs ih =>
    have hbytes : chunksBytes (c :: cs) = c.userData.length + chunksBytes cs := List.sum_cons
    unfold copyChunks
    rw [if_pos rfl, hbytes]
    dsimp only
    by_cases hshort : min c.userData.length (bufLen - written.length) < c.userData.length
    · have hno : ¬ written.length + (c.userData.length + chunksBytes cs) ≤ bufLen := by omega
      rw [if_pos hshort, if_neg hno, copyChunks_error]
    · have hmin : min c.userData.length (bufLen - written.length) = c.userData.length := by omega
      have hlen : (written ++ c.userData).length = written.length + c.userData.length :=
        List.length_append
      rw [if_neg hshort, hmin, List.take_length, ih (by omega), hlen, Nat.add_assoc]
      show (if _ then Except.ok (written ++ c.userData ++ chunksData cs) else _) =
        if _ then Except.ok (written ++ (c.userData ++ chunksData cs)) else _
      rw [List.append_assoc]

/-- What a read takes is what it copies. -/
theorem readsTaken (q : ReassemblyQueue) (op : ReassemblyOp) : q.ReadsTaken op := by
  intro bufLen hop
  subst hop
  unfold takenSet read
  rcases htake : q.takeReadable with ⟨q', _ | cset⟩
  · rfl
  · dsimp only
    rw [copyChunks_eq (Nat.zero_le _)]
    have hzero : ([] : Bytes).length + chunksBytes cset.chunks = chunksBytes cset.chunks :=
      Nat.zero_add _
    rw [hzero]
    split <;> rfl

/-- A read divides what was held into what is and what it took. -/
theorem held_read (q : ReassemblyQueue) (bufLen : ℕ) :
    q.held.Perm ((q.read bufLen).1.held ++ q.taken (.read bufLen)) := by
  rw [read_fst]
  show q.held.Perm (q.takeReadable.1.held ++ setChunks q.takeReadable.2.toList)
  rcases q.takeReadable_cases with heq | ⟨cset, rest, hu, heq⟩ | ⟨cset, rest, hu, ho, _, _, heq⟩
  · rw [heq]
    show q.held.Perm (q.held ++ [])
    rw [List.append_nil]
  · have hone : setChunks (some cset).toList = cset.chunks := List.append_nil _
    rw [heq, hone]
    show (setChunks q.ordered ++ setChunks q.unordered ++ q.unorderedChunks).Perm
      (setChunks q.ordered ++ setChunks rest ++ q.unorderedChunks ++ cset.chunks)
    rw [hu, setChunks_cons, List.perm_iff_count]
    intro c
    simp only [List.count_append]
    omega
  · have hone : setChunks (some cset).toList = cset.chunks := List.append_nil _
    rw [heq, hone]
    show (setChunks q.ordered ++ setChunks q.unordered ++ q.unorderedChunks).Perm
      (setChunks rest ++ setChunks q.unordered ++ q.unorderedChunks ++ cset.chunks)
    rw [ho, setChunks_cons, List.perm_iff_count]
    intro c
    simp only [List.count_append]
    omega

/-- What a FORWARD TSN drops of the ordered sets. -/
theorem forwardTsnForOrdered_eq (q : ReassemblyQueue) (lastSsn : U16) :
    q.forwardTsnForOrdered lastSsn =
      { q with
        nBytes := q.nBytes - chunksBytes (q.discarded (.forwardTsnForOrdered lastSsn))
        ordered := q.ordered.filter fun s => !skippedBy lastSsn s
        nextSsn := if sna16lte q.nextSsn lastSsn then lastSsn + 1 else q.nextSsn } := by
  have hbytes : chunksBytes (q.discarded (.forwardTsnForOrdered lastSsn)) =
      ((q.ordered.filter (skippedBy lastSsn)).map
        fun s => (s.chunks.map (·.userData.length)).sum).sum := chunksBytes_setChunks _
  rw [hbytes]
  unfold forwardTsnForOrdered
  dsimp only
  show (if sna16lte q.nextSsn lastSsn then _ else _) = _
  split <;> rfl

/-- And of the single unordered chunks. -/
theorem forwardTsnForUnordered_eq (q : ReassemblyQueue) (newCumulativeTsn : U32) :
    q.forwardTsnForUnordered newCumulativeTsn =
      { q with
        nBytes := q.nBytes - chunksBytes (q.discarded (.forwardTsnForUnordered newCumulativeTsn))
        unorderedChunks :=
          q.unorderedChunks.dropWhile fun c => !sna32gt c.tsn newCumulativeTsn } := by
  let p (c : ChunkPayloadData) : Bool := !sna32gt c.tsn newCumulativeTsn
  have hsplit : q.unorderedChunks.takeWhile p ++ q.unorderedChunks.dropWhile p = q.unorderedChunks :=
    List.takeWhile_append_dropWhile
  have hdrop : q.unorderedChunks.drop (q.unorderedChunks.takeWhile p).length =
      q.unorderedChunks.dropWhile p := by
    have hleft : (q.unorderedChunks.takeWhile p ++ q.unorderedChunks.dropWhile p).drop
        (q.unorderedChunks.takeWhile p).length = q.unorderedChunks.dropWhile p := List.drop_left
    rw [hsplit] at hleft
    exact hleft
  show { q with
    nBytes := _
    unorderedChunks := q.unorderedChunks.drop (q.unorderedChunks.takeWhile p).length } = _
  rw [hdrop]
  rfl

/-! ## The stream identifier -/

/-- A push keeps the stream identifier. -/
theorem si_push (q : ReassemblyQueue) (chunk : ChunkPayloadData) : (q.push chunk).1.si = q.si := by
  rcases q.push_cases chunk with ⟨_, heq⟩ | ⟨_, _, ⟨_, _, heq⟩, _⟩ | ⟨_, _, _, hord⟩
  · rw [heq]
  · rw [heq]
  · rcases hord with ⟨ordered, ok, _, heq⟩ | ⟨_, heq⟩
    · rw [heq]
    · rw [heq]

theorem si_read (q : ReassemblyQueue) (bufLen : ℕ) : (q.read bufLen).1.si = q.si := by
  rw [read_fst]
  show q.takeReadable.1.si = q.si
  rcases q.takeReadable_cases with heq | ⟨cset, rest, _, heq⟩ | ⟨cset, rest, _, _, _, _, heq⟩
  · rw [heq]
  · rw [heq]
  · rw [heq]

theorem si_forwardTsnForOrdered (q : ReassemblyQueue) (lastSsn : U16) :
    (q.forwardTsnForOrdered lastSsn).si = q.si := by
  rw [forwardTsnForOrdered_eq]

/-- So does every operation. -/
theorem si_applyOp (q : ReassemblyQueue) (op : ReassemblyOp) : (q.applyOp op).si = q.si := by
  cases op with
  | push chunk => exact q.si_push chunk
  | read bufLen => exact q.si_read bufLen
  | forwardTsnForOrdered lastSsn => exact q.si_forwardTsnForOrdered lastSsn
  | forwardTsnForUnordered newCumulativeTsn => rfl

/-! ## The account of a step -/

/-- **What an operation accepts** is held afterwards, with what was held before, unless it is
read or discarded. -/
theorem held_applyOp {op : ReassemblyOp} (hfresh : q.PushesFresh op) :
    (q.held ++ q.accepted op).Perm ((q.applyOp op).held ++ (q.taken op ++ q.discarded op)) := by
  cases op with
  | push chunk =>
    have hnone : q.taken (.push chunk) ++ q.discarded (.push chunk) = [] := rfl
    rw [hnone, List.append_nil]
    exact held_push hfresh
  | read bufLen =>
    have hnone : q.discarded (.read bufLen) = [] := rfl
    have hnone' : q.accepted (.read bufLen) = [] := rfl
    rw [hnone, hnone', List.append_nil, List.append_nil]
    exact q.held_read bufLen
  | forwardTsnForOrdered lastSsn =>
    have hnone : q.taken (.forwardTsnForOrdered lastSsn) = [] := rfl
    have hnone' : q.accepted (.forwardTsnForOrdered lastSsn) = [] := rfl
    rw [hnone, hnone', List.append_nil, List.nil_append]
    show q.held.Perm ((q.forwardTsnForOrdered lastSsn).held ++ _)
    rw [forwardTsnForOrdered_eq]
    show (setChunks q.ordered ++ setChunks q.unordered ++ q.unorderedChunks).Perm
      (setChunks (q.ordered.filter fun s => !skippedBy lastSsn s) ++ setChunks q.unordered ++
        q.unorderedChunks ++ setChunks (q.ordered.filter (skippedBy lastSsn)))
    have hsplit := List.perm_iff_count.mp (setChunks_filter_perm (skippedBy lastSsn) q.ordered)
    rw [List.perm_iff_count]
    intro c
    have hc := hsplit c
    simp only [List.count_append] at hc ⊢
    omega
  | forwardTsnForUnordered newCumulativeTsn =>
    have hnone : q.taken (.forwardTsnForUnordered newCumulativeTsn) = [] := rfl
    have hnone' : q.accepted (.forwardTsnForUnordered newCumulativeTsn) = [] := rfl
    rw [hnone, hnone', List.append_nil, List.nil_append]
    show q.held.Perm ((q.forwardTsnForUnordered newCumulativeTsn).held ++ _)
    rw [forwardTsnForUnordered_eq]
    have hsplit := List.takeWhile_append_dropWhile (p := fun c : ChunkPayloadData =>
      !sna32gt c.tsn newCumulativeTsn) (l := q.unorderedChunks)
    show (setChunks q.ordered ++ setChunks q.unordered ++ q.unorderedChunks).Perm
      (setChunks q.ordered ++ setChunks q.unordered ++ q.unorderedChunks.dropWhile _ ++
        q.unorderedChunks.takeWhile _)
    conv_lhs => rw [← hsplit]
    rw [List.perm_iff_count]
    intro c
    simp only [List.count_append]
    omega

/-! ## The counter -/

/-- Accepted chunks are added, the others are subtracted. -/
theorem nBytes_applyOp (q : ReassemblyQueue) (op : ReassemblyOp) :
    (q.applyOp op).nBytes =
      q.nBytes + chunksBytes (q.accepted op) - chunksBytes (q.taken op ++ q.discarded op) := by
  cases op with
  | push chunk =>
    have hnone : chunksBytes (q.taken (.push chunk) ++ q.discarded (.push chunk)) = 0 := rfl
    have hone : chunksBytes [chunk] = chunk.userData.length := Nat.add_zero _
    rw [hnone, accepted_push, Nat.sub_zero]
    show (q.push chunk).1.nBytes = _
    rcases q.push_cases chunk with ⟨hacc, heq⟩ | ⟨hacc, _, ⟨_, _, heq⟩, _⟩ | ⟨hacc, _, _, hord⟩
    · rw [heq, hacc]
      rfl
    · rw [heq, hacc, if_pos rfl, hone]
    · rw [hacc, if_pos rfl, hone]
      rcases hord with ⟨ordered, ok, _, heq⟩ | ⟨_, heq⟩
      · rw [heq]
      · rw [heq]
  | read bufLen =>
    have hnone : q.discarded (.read bufLen) = [] := rfl
    have htake : q.takeReadable.1.nBytes = q.nBytes := by
      rcases q.takeReadable_cases with heq | ⟨cset, rest, _, heq⟩ | ⟨cset, rest, _, _, _, _, heq⟩
      · rw [heq]
      · rw [heq]
      · rw [heq]
    show (q.read bufLen).1.nBytes = q.nBytes - _
    rw [read_fst, hnone, List.append_nil, ← htake]
    rfl
  | forwardTsnForOrdered lastSsn =>
    show (q.forwardTsnForOrdered lastSsn).nBytes = _
    rw [forwardTsnForOrdered_eq]
    rfl
  | forwardTsnForUnordered newCumulativeTsn =>
    show (q.forwardTsnForUnordered newCumulativeTsn).nBytes = _
    rw [forwardTsnForUnordered_eq]
    rfl

/-- The bytes accepted are held, taken or dropped. -/
theorem heldBytes_applyOp {op : ReassemblyOp} (hfresh : q.PushesFresh op) :
    q.heldBytes + chunksBytes (q.accepted op) =
      (q.applyOp op).heldBytes + chunksBytes (q.taken op ++ q.discarded op) := by
  have hbytes := chunksBytes_perm (held_applyOp hfresh)
  rw [chunksBytes_append, chunksBytes_append] at hbytes
  exact hbytes

/-- The counter follows them. -/
theorem CountsHeld.applyOp (q : ReassemblyQueue) (op : ReassemblyOp) (hfresh : q.PushesFresh op)
    (h : q.CountsHeld) : (q.applyOp op).CountsHeld := by
  have hheld := heldBytes_applyOp hfresh
  have hcount := q.nBytes_applyOp op
  unfold CountsHeld at h ⊢
  omega

/-- Only what is held is read or discarded. -/
theorem CountsHeld.neverSaturates (q : ReassemblyQueue) (op : ReassemblyOp)
    (hfresh : q.PushesFresh op) (h : q.CountsHeld) : q.NeverSaturates op := by
  have hheld := heldBytes_applyOp hfresh
  unfold NeverSaturates
  unfold CountsHeld at h
  cases op with
  | push chunk => exact Nat.zero_le _
  | read bufLen =>
    have hnone : chunksBytes (q.accepted (.read bufLen)) = 0 := rfl
    omega
  | forwardTsnForOrdered lastSsn =>
    have hnone : chunksBytes (q.accepted (.forwardTsnForOrdered lastSsn)) = 0 := rfl
    omega
  | forwardTsnForUnordered newCumulativeTsn =>
    have hnone : chunksBytes (q.accepted (.forwardTsnForUnordered newCumulativeTsn)) = 0 := rfl
    omega

/-- **Over a run** the counter is what is held, and never stops at zero. -/
theorem countsHeld_of_run {si : U16} {ops : List ReassemblyOp}
    (h : Runs.Along applyOp PushesFresh (new si) ops) :
    (Runs.run applyOp (new si) ops).CountsHeld ∧ Runs.Along applyOp NeverSaturates (new si) ops := by
  have hnew : (new si).CountsHeld := rfl
  exact ⟨Runs.run_invariant_along CountsHeld.applyOp hnew h,
    Runs.along_of_invariant CountsHeld.applyOp CountsHeld.neverSaturates hnew h⟩

end ReassemblyQueue

end Sctp
