import Sctp.PollRead

/-!
# What `PollStream` reads

A message that does not fit its buffer leaves its rest behind, and the next calls take from the
rest before anything else is read.
-/

namespace Sctp

namespace PollReader

variable {s : PollReader} {messages : List Bytes} {readBufCap : ℕ} {bytes tempBuf : Bytes}
  {remaining : ℕ}

/-! ## One call -/

/-- No more is put than there is room for. -/
theorem length_putTempBuf_le (s : PollReader) (tempBuf : Bytes) (remaining : ℕ) :
    (s.putTempBuf tempBuf remaining).2.length ≤ remaining := by
  have hlen : (tempBuf.take (min tempBuf.length remaining)).length ≤ remaining := by
    rw [List.length_take]
    omega
  unfold putTempBuf
  dsimp only
  split_ifs
  · exact hlen
  · exact hlen

/-- So when a stored read is done. -/
theorem length_pollReading_le (s : PollReader) (tempBuf : Bytes) (remaining : ℕ)
    (outcomes : List ReadOutcome) :
    (s.pollReading tempBuf remaining outcomes).2.1.length ≤ remaining := by
  induction outcomes generalizing s with
  | nil => exact Nat.zero_le _
  | cons outcome outcomes ih =>
    unfold pollReading
    split
    · exact Nat.zero_le _
    · split_ifs
      · exact ih _
      · exact Nat.zero_le _
      · exact Nat.zero_le _
    · exact length_putTempBuf_le _ _ _

/-- So in every call. -/
theorem length_put_le (s : PollReader) (c : Call) : (s.put c).length ≤ c.remaining := by
  unfold put pollRead
  split_ifs
  · exact Nat.zero_le _
  · split
    · exact length_pollReading_le _ _ _ _
    · exact length_pollReading_le _ _ _ _
    · exact length_putTempBuf_le _ _ _

/-! ## What is kept between the calls -/

/-- The bytes are in order, and every message still to come fits the buffer it is read into. -/
structure Reads (readBufCap : ℕ) (messages : List Bytes) (s : PollReader) (bytes : Bytes) :
    Prop where
  inOrder : InOrder messages s bytes
  fits : ∀ m ∈ s.unread, m.length ≤ readBufCap
  cap : s.readBufCap = readBufCap
  tempBuf : ∀ t, s.readFut = .reading t → t.length = readBufCap

/-- A message, or the rest of one, goes out as far as it fits. -/
theorem Reads.putTempBuf {done : List Bytes} {part : Bytes}
    (hmessages : messages = done ++ (part ++ tempBuf) :: s.unread)
    (hfits : ∀ m ∈ s.unread, m.length ≤ readBufCap) (hcap : s.readBufCap = readBufCap)
    (remaining : ℕ) :
    Reads readBufCap messages (s.putTempBuf tempBuf remaining).1
      (done.flatten ++ part ++ (s.putTempBuf tempBuf remaining).2) := by
  unfold PollReader.putTempBuf
  dsimp only
  split_ifs with hlong
  · refine { inOrder := ?_, fits := hfits, cap := hcap, tempBuf := nofun }
    refine ⟨done, part ++ tempBuf.take (min tempBuf.length remaining), List.append_assoc _ _ _, ?_⟩
    show messages = done ++ (part ++ _ ++ _) :: s.unread
    rw [List.append_assoc, List.take_append_drop]
    exact hmessages
  · -- the whole of it fits, and the message is done
    have hall : tempBuf.take (min tempBuf.length remaining) = tempBuf :=
      List.take_of_length_le (by omega)
    rw [hall]
    refine { inOrder := ?_, fits := hfits, cap := hcap, tempBuf := nofun }
    refine ⟨done ++ [part ++ tempBuf], [], ?_, rfl, ?_⟩
    · rw [List.flatten_append, List.flatten_singleton, List.append_nil, List.append_assoc]
    · rw [hmessages, List.append_assoc]
      rfl

/-- A future that comes to an end without a message, or does not, leaves all as it is. -/
theorem Reads.of_nothing {readFut : ReadFut} (h : Reads readBufCap messages s bytes)
    (hfut : s.readFut = .reading tempBuf)
    (hidle : readFut = .idle ∨ readFut = .reading tempBuf) :
    Reads readBufCap messages { s with readFut } (bytes ++ []) := by
  obtain ⟨done, part, hbytes, hheld⟩ := h.inOrder
  rw [hfut] at hheld
  rw [List.append_nil]
  rcases hidle with rfl | rfl
  · exact
      { inOrder := ⟨done, part, hbytes, hheld⟩
        fits := h.fits
        cap := h.cap
        tempBuf := nofun }
  · exact
      { inOrder := ⟨done, part, hbytes, hheld⟩
        fits := h.fits
        cap := h.cap
        tempBuf := fun t ht => by
          cases ht
          exact h.tempBuf _ hfut }

/-- The polls of one call, as long as they are retried. -/
theorem Reads.pollReading (h : Reads readBufCap messages s bytes)
    (hfut : s.readFut = .reading tempBuf) (remaining : ℕ) (outcomes : List ReadOutcome) :
    Reads readBufCap messages (s.pollReading tempBuf remaining outcomes).1
      (bytes ++ (s.pollReading tempBuf remaining outcomes).2.1) := by
  have hpending : Reads readBufCap messages s (bytes ++ []) := by
    have hstay := h.of_nothing hfut (Or.inr rfl)
    rwa [← hfut] at hstay
  induction outcomes with
  | nil => exact hpending
  | cons outcome outcomes ih =>
    cases outcome with
    | pending => exact hpending
    | error e =>
      unfold PollReader.pollReading pollStreamRead
      dsimp only
      split_ifs
      · exact ih
      · exact h.of_nothing hfut (Or.inl rfl)
      · exact h.of_nothing hfut (Or.inl rfl)
    | message =>
      unfold PollReader.pollReading pollStreamRead
      cases hunread : s.unread with
      | nil => exact hpending
      | cons m unread =>
        -- the message fits the temporary buffer, which is truncated to it
        have hm : m.length ≤ tempBuf.length := by
          rw [h.tempBuf tempBuf hfut]
          exact h.fits m (by rw [hunread]; exact List.mem_cons_self)
        dsimp only
        rw [if_neg (Nat.not_lt.mpr hm), List.take_left]
        dsimp only
        obtain ⟨done, part, hbytes, hheld⟩ := h.inOrder
        rw [hfut, hunread] at hheld
        obtain ⟨hpart, hmessages⟩ := hheld
        have hrest : messages = done ++ (part ++ m) :: unread := by
          rw [hpart]
          exact hmessages
        have hfits : ∀ m' ∈ unread, m'.length ≤ readBufCap := fun m' hm' =>
          h.fits m' (by rw [hunread]; exact List.mem_cons_of_mem _ hm')
        rw [hbytes]
        exact @Reads.putTempBuf { s with unread } messages readBufCap m done part hrest hfits h.cap
          remaining

/-- A call of `poll_read`. -/
theorem Reads.step (h : Reads readBufCap messages s bytes) (c : Call) :
    Reads readBufCap messages (s.step c) (bytes ++ s.put c) := by
  unfold PollReader.step put pollRead
  obtain ⟨done, part, hbytes, hheld⟩ := h.inOrder
  split_ifs with hzero
  · rw [List.append_nil]
    exact h
  · cases hfut : s.readFut with
    | idle =>
      rw [hfut] at hheld
      have hnew : Reads readBufCap messages
          { s with readFut := .reading (List.replicate s.readBufCap 0) } bytes :=
        { inOrder := ⟨done, part, hbytes, hheld⟩
          fits := h.fits
          cap := h.cap
          tempBuf := fun t ht => by
            cases ht
            rw [List.length_replicate]
            exact h.cap }
      exact hnew.pollReading rfl c.remaining c.outcomes
    | reading tempBuf => exact h.pollReading hfut c.remaining c.outcomes
    | remainingData data =>
      -- nothing is read before the rest of the last message is out
      rw [hfut] at hheld
      rw [hbytes]
      exact Reads.putTempBuf hheld h.fits h.cap c.remaining

/-! ## Runs of calls -/

/-- **What `PollStream` reads**: every byte once and in order. -/
theorem readsOnce (hfit : ∀ m ∈ messages, m.length ≤ readBufCap) (calls : List Call) :
    ReadsOnce readBufCap messages calls := by
  refine ⟨Runs.along_mono (fun s c _ => length_put_le s c) (Runs.along_true _ _), ?_⟩
  have hstart : Reads readBufCap messages { readBufCap, unread := messages } [] :=
    { inOrder := ⟨[], [], rfl, rfl, rfl⟩
      fits := hfit
      cap := rfl
      tempBuf := nofun }
  exact (Runs.run_invariant_outputs (I := Reads readBufCap messages)
    (fun s c bytes h => Reads.step h c) hstart calls).inOrder

/-- A message is read in two pieces, with a pending poll and a full buffer in between. -/
theorem readsOnce_twoPieces :
    ReadsOnce 4 [[1, 2, 3], [], [4]]
      [⟨2, [.pending]⟩, ⟨2, [.message]⟩, ⟨0, []⟩, ⟨8, []⟩, ⟨8, [.message]⟩] ∧
    allPut { readBufCap := 4, unread := [[1, 2, 3], [], [4]] }
      [⟨2, [.pending]⟩, ⟨2, [.message]⟩, ⟨0, []⟩, ⟨8, []⟩, ⟨8, [.message]⟩] = [1, 2, 3] :=
  ⟨readsOnce (by decide) _, by decide⟩

end PollReader

end Sctp
