import Sctp.Queue.OrderedDeliveryTheorems

/-!
# Ordered delivery with skipped messages

With all SSNs in one window their distances from its base are their order. What the next SSN has
passed is complete and waits for its reader in order; what a forward skipped does not come back.
-/

namespace Sctp

namespace ReassemblyQueue

variable {q : ReassemblyQueue} {op : ReassemblyOp} {chunk : ChunkPayloadData} {base : U16}

/-! ## Chunks in the set of their SSN -/

/-- Every chunk lies in the set of its SSN. -/
def SameSsn (q : ReassemblyQueue) : Prop :=
  ∀ s ∈ q.ordered, ∀ c ∈ s.chunks, c.streamSequenceNumber = s.ssn

/-- A chunk with the SSN of the set goes into it. -/
theorem sameSsn_push {s : ChunkSet} (hssn : s.ssn = chunk.streamSequenceNumber)
    (h : ∀ c ∈ s.chunks, c.streamSequenceNumber = s.ssn) :
    ∀ c ∈ (s.push chunk).1.chunks, c.streamSequenceNumber = (s.push chunk).1.ssn := by
  intro c hc
  rw [ChunkSet.ssn_push]
  rcases ChunkSet.mem_push.mp hc with hold | ⟨rfl, _⟩
  · exact h c hold
  · exact hssn.symm

/-- A push keeps the chunks of a set to its SSN. -/
theorem SameSsn.push (h : q.SameSsn) : (q.push chunk).1.SameSsn := by
  rcases q.push_cases chunk with ⟨_, heq⟩ | ⟨_, _, ⟨_, _, heq⟩, _⟩ | ⟨_, _, _, hord⟩
  · rw [heq]
    exact h
  · rw [heq]
    exact h
  · rcases hord with ⟨ordered, ok, hpush, heq⟩ | ⟨_, heq⟩
    · rw [heq]
      intro s' hs'
      rcases mem_pushOrdered hpush hs' with hold | ⟨s, hs, hssn, rfl⟩
      · exact h s' hold
      · exact sameSsn_push hssn (h s hs)
    · rw [heq]
      intro s' hs'
      have hin := StableSort.mem_sortBy.mp hs'
      rw [List.mem_append, List.mem_singleton] at hin
      rcases hin with hold | rfl
      · exact h s' hold
      · exact sameSsn_push rfl fun c hc => absurd hc List.not_mem_nil

/-- But for `push`, no set is new. -/
theorem ordered_sublist (hop : ∀ chunk, op ≠ .push chunk) :
    (q.applyOp op).ordered.Sublist q.ordered := by
  cases op with
  | push chunk => exact absurd rfl (hop chunk)
  | read bufLen =>
    show (q.read bufLen).1.ordered.Sublist q.ordered
    rw [read_fst]
    rcases q.takeReadable_cases with heq | ⟨_, _, _, heq⟩ | ⟨cset, rest, _, ho, _, _, heq⟩
    · rw [heq]
      exact List.Sublist.refl _
    · rw [heq]
      exact List.Sublist.refl _
    · rw [heq, ho]
      exact List.sublist_cons_self cset rest
  | forwardTsnForOrdered lastSsn =>
    show (q.forwardTsnForOrdered lastSsn).ordered.Sublist q.ordered
    rw [forwardTsnForOrdered_eq]
    exact List.filter_sublist
  | forwardTsnForUnordered newCumulativeTsn => exact List.Sublist.refl _

/-- So does every operation. -/
theorem SameSsn.applyOp (q : ReassemblyQueue) (op : ReassemblyOp) (h : q.SameSsn) :
    (q.applyOp op).SameSsn := by
  by_cases hpush : ∃ chunk, op = .push chunk
  · obtain ⟨chunk, rfl⟩ := hpush
    exact h.push
  · intro s hs
    have hsub : (q.applyOp op).ordered.Sublist q.ordered :=
      ordered_sublist fun chunk heq => hpush ⟨chunk, heq⟩
    exact h s (hsub.subset hs)

/-! ## One window -/

/-- The sets are in order from the base, and all within half the space. -/
structure Near (base : U16) (q : ReassemblyQueue) : Prop where
  inOrder : q.InOrder base
  near : ∀ s ∈ q.ordered, Serial.dist base s.ssn < 2 ^ 15

/-- In the window the SSNs are ordered by their distances. -/
theorem sna16lt_iff_of_near {x y : U16} (hx : Serial.dist base x < 2 ^ 15)
    (hy : Serial.dist base y < 2 ^ 15) :
    sna16lt x y = true ↔ Serial.dist base x < Serial.dist base y :=
  sna16lt_iff_dist_lt (by omega) (by omega)

/-- Near the base `sna16lte` compares distances. -/
theorem sna16lte_iff_of_near {x y : U16} (hx : Serial.dist base x < 2 ^ 15)
    (hy : Serial.dist base y < 2 ^ 15) :
    sna16lte x y = true ↔ Serial.dist base x ≤ Serial.dist base y :=
  sna16lte_iff_dist_le (by omega) (by omega)

/-- An ordered chunk that is not behind the next SSN is near the base. -/
theorem dist_of_push (hop : q.InWindow base (.push chunk)) (hu : chunk.unordered = false)
    (hlt : sna16lt chunk.streamSequenceNumber q.nextSsn = false) :
    Serial.dist base q.nextSsn ≤ Serial.dist base chunk.streamSequenceNumber ∧
      Serial.dist base chunk.streamSequenceNumber < 2 ^ 15 := by
  obtain ⟨hnext, _, hssn⟩ := hop
  have hopSsn : opSsn (.push chunk) = some chunk.streamSequenceNumber := by
    show (if chunk.unordered = true then none else some chunk.streamSequenceNumber) = _
    rw [hu]
    rfl
  rw [hopSsn, Option.all_some, decide_eq_true_eq] at hssn
  refine ⟨?_, hssn⟩
  by_contra hcon
  have hbefore := (sna16lt_iff_of_near hssn hnext).mpr (by omega)
  rw [hlt] at hbefore
  cases hbefore

/-- A forward past the next SSN moves it beyond the last one. -/
theorem dist_of_forward {lastSsn : U16} (hop : q.InWindow base (.forwardTsnForOrdered lastSsn)) :
    Serial.dist base (lastSsn + 1) = Serial.dist base lastSsn + 1 ∧
      (sna16lte q.nextSsn lastSsn = true ↔
        Serial.dist base q.nextSsn ≤ Serial.dist base lastSsn) := by
  obtain ⟨hnext, _, hlast⟩ := hop
  have hlast' : Serial.dist base lastSsn < 2 ^ 15 := of_decide_eq_true hlast
  exact ⟨dist16_succ (by omega), sna16lte_iff_of_near hnext hlast'⟩

/-- Where a set comes from: it was there, or it is of an SSN that had not been passed. -/
theorem ordered_applyOp (hop : q.InWindow base op) {s : ChunkSet}
    (hs : s ∈ (q.applyOp op).ordered) :
    (∃ t ∈ q.ordered, t.ssn = s.ssn) ∨
      (Serial.dist base q.nextSsn ≤ Serial.dist base s.ssn ∧ Serial.dist base s.ssn < 2 ^ 15) := by
  by_cases hpush : ∃ chunk, op = .push chunk
  · obtain ⟨chunk, rfl⟩ := hpush
    have hs' : s ∈ (q.push chunk).1.ordered := hs
    rcases q.push_cases chunk with ⟨_, heq⟩ | ⟨_, _, ⟨_, _, heq⟩, _⟩ | ⟨_, hu, hlt, hord⟩
    · rw [heq] at hs'
      exact Or.inl ⟨s, hs', rfl⟩
    · rw [heq] at hs'
      exact Or.inl ⟨s, hs', rfl⟩
    · rcases hord with ⟨ordered, ok, hpush, heq⟩ | ⟨_, heq⟩
      · rw [heq] at hs'
        have hin : s.ssn ∈ q.ordered.map (·.ssn) := by
          rw [← ssn_pushOrdered hpush]
          exact List.mem_map_of_mem hs'
        obtain ⟨t, ht, hssn⟩ := List.mem_map.mp hin
        exact Or.inl ⟨t, ht, hssn⟩
      · rw [heq] at hs'
        have hin := StableSort.mem_sortBy.mp hs'
        rw [List.mem_append, List.mem_singleton] at hin
        rcases hin with hold | rfl
        · exact Or.inl ⟨s, hold, rfl⟩
        · have hssn := dist_of_push hop hu hlt
          rw [ChunkSet.ssn_push]
          exact Or.inr hssn
  · have hsub : (q.applyOp op).ordered.Sublist q.ordered :=
    -- only a push opens a set
      ordered_sublist fun chunk heq => hpush ⟨chunk, heq⟩
    exact Or.inl ⟨s, hsub.subset hs, rfl⟩

/-- A push into the window. -/
theorem Near.push (h : q.Near base) (hop : q.InWindow base (.push chunk)) :
    (q.push chunk).1.InOrder base := by
  rcases q.push_cases chunk with ⟨_, heq⟩ | ⟨_, _, ⟨_, _, heq⟩, _⟩ | ⟨_, hu, hlt, hord⟩
  · rw [heq]
    exact h.inOrder
  · rw [heq]
    exact h.inOrder.congr rfl rfl
  · obtain ⟨hle, hnear⟩ := dist_of_push hop hu hlt
    rcases hord with ⟨ordered, ok, hpush, heq⟩ | ⟨hpush, heq⟩
    · rw [heq]
      exact h.inOrder.push_some hpush hle
    · have hssn : ((ChunkSet.new chunk.streamSequenceNumber chunk.payloadType).push chunk).1.ssn =
        chunk.streamSequenceNumber := ChunkSet.ssn_push _ chunk
      rw [heq]
      refine h.inOrder.push_none ?_ ?_ ?_ ?_
      · rw [hssn]
        exact ssn_ne_of_pushOrdered_none hpush
      · rw [hssn]
        exact hle
      · rw [hssn]
        omega
      · intro s hs
        have hs' := h.near s hs
        rw [hssn]
        omega

/-- A read in the window. -/
theorem Near.read (h : q.Near base) {bufLen : ℕ} (hop : q.InWindow base (.read bufLen)) :
    (q.read bufLen).1.InOrder base := by
  have hnext := hop.1
  rw [read_fst]
  rcases q.takeReadable_cases with heq | ⟨_, _, _, heq⟩ | ⟨_, _, _, ho, _, _, heq⟩
  · rw [heq]
    exact h.inOrder.congr rfl rfl
  · rw [heq]
    exact h.inOrder.congr rfl rfl
  · rw [heq]
    exact h.inOrder.take ho rfl fun _ => by omega

/-- A FORWARD TSN into the window. -/
theorem Near.forwardTsnForOrdered (h : q.Near base) {lastSsn : U16}
    (hop : q.InWindow base (.forwardTsnForOrdered lastSsn)) :
    (q.forwardTsnForOrdered lastSsn).InOrder base := by
  obtain ⟨hsucc, hiff⟩ := dist_of_forward hop
  obtain ⟨_, hafter, hlast⟩ := hop
  have hlast' : Serial.dist base lastSsn < 2 ^ 15 := of_decide_eq_true hlast
  have hafter' : Serial.dist base (q.forwardTsnForOrdered lastSsn).nextSsn < 2 ^ 15 := hafter
  rw [forwardTsnForOrdered_eq] at hafter' ⊢
  by_cases hlte : sna16lte q.nextSsn lastSsn = true
  · rw [if_pos hlte] at hafter' ⊢
    refine h.inOrder.forward (hiff.mp hlte) (by omega) fun s _ _ => ?_
    have hafter'' : Serial.dist base (lastSsn + 1) < 2 ^ 15 := hafter'
    omega
  · rw [if_neg hlte]
    exact h.inOrder.filter _ _

/-- **One operation** in the window. -/
theorem Near.applyOp (q : ReassemblyQueue) (op : ReassemblyOp) (hop : q.InWindow base op)
    (h : q.Near base) : (q.applyOp op).Near base := by
  refine ⟨?_, ?_⟩
  · cases op with
    | push chunk => exact h.push hop
    | read bufLen => exact h.read hop
    | forwardTsnForOrdered lastSsn => exact h.forwardTsnForOrdered hop
    | forwardTsnForUnordered newCumulativeTsn => exact h.inOrder.congr rfl rfl
  · intro s hs
    rcases ordered_applyOp hop hs with ⟨t, ht, hssn⟩ | ⟨_, hnear⟩
    · rw [← hssn]
      exact h.near t ht
    · exact hnear

/-! ## One step -/

/-- A push does not move the next SSN. -/
theorem nextSsn_push (q : ReassemblyQueue) (chunk : ChunkPayloadData) :
    (q.push chunk).1.nextSsn = q.nextSsn := by
  rcases q.push_cases chunk with ⟨_, heq⟩ | ⟨_, _, ⟨_, _, heq⟩, _⟩ | ⟨_, _, _, hord⟩
  · rw [heq]
  · rw [heq]
  · rcases hord with ⟨_, _, _, heq⟩ | ⟨_, heq⟩
    · rw [heq]
    · rw [heq]

/-- In the window the next SSN goes up only. -/
theorem dist_nextSsn_applyOp (hop : q.InWindow base op) :
    Serial.dist base q.nextSsn ≤ Serial.dist base (q.applyOp op).nextSsn := by
  have hnext := hop.1
  cases op with
  | push chunk =>
    show _ ≤ Serial.dist base (q.push chunk).1.nextSsn
    rw [nextSsn_push]
  | read bufLen =>
    show _ ≤ Serial.dist base (q.read bufLen).1.nextSsn
    rw [read_fst]
    rcases q.takeReadable_cases with heq | ⟨_, _, _, heq⟩ | ⟨cset, _, _, _, _, _, heq⟩
    · rw [heq]
      exact Nat.le_refl _
    · rw [heq]
      exact Nat.le_refl _
    · rw [heq]
      show _ ≤ Serial.dist base (if cset.ssn = q.nextSsn then q.nextSsn + 1 else q.nextSsn)
      have hsucc : Serial.dist base (q.nextSsn + 1) = Serial.dist base q.nextSsn + 1 :=
        dist16_succ (by omega)
      split <;> omega
  | forwardTsnForOrdered lastSsn =>
    obtain ⟨hsucc, hiff⟩ := dist_of_forward hop
    show _ ≤ Serial.dist base (q.forwardTsnForOrdered lastSsn).nextSsn
    rw [forwardTsnForOrdered_eq]
    show _ ≤ Serial.dist base (if sna16lte q.nextSsn lastSsn then lastSsn + 1 else q.nextSsn)
    split
    · rename_i hlte
      have hle := hiff.mp hlte
      omega
    · exact Nat.le_refl _
  | forwardTsnForUnordered newCumulativeTsn => exact Nat.le_refl _

/-- Reads and FORWARD TSNs move the next SSN on, and not back. -/
theorem nextAdvances (hop : q.InWindow base op) : q.NextAdvances op :=
  (sna16lte_iff_of_near hop.1 hop.2.1).mpr (dist_nextSsn_applyOp hop)

/-- The set that an ordered read takes was the first one. -/
theorem takenSet_ordered {cset : ChunkSet} (hu : q.unordered = [])
    (htake : q.takenSet op = some cset) :
    cset.isComplete = true ∧ sna16gt cset.ssn q.nextSsn = false ∧
      q.ordered = cset :: (q.applyOp op).ordered ∧
      (q.applyOp op).nextSsn = if cset.ssn = q.nextSsn then q.nextSsn + 1 else q.nextSsn := by
  cases op with
  | read bufLen =>
    have hread : q.applyOp (.read bufLen) =
      q.takeReadable.1.subtractNumBytes (chunksBytes (q.taken (.read bufLen))) := q.read_fst bufLen
    have htake' : q.takeReadable.2 = some cset := htake
    rw [hread]
    rcases q.takeReadable_cases with heq | ⟨_, _, hu', _⟩ | ⟨cset', rest, _, ho, hc, hgt, heq⟩
    · rw [heq] at htake'
      cases htake'
    · rw [hu] at hu'
      cases hu'
    · rw [heq] at htake' ⊢
      have hcset : cset' = cset := Option.some.inj htake'
      rw [hcset] at hc hgt ho ⊢
      exact ⟨hc, hgt, ho, rfl⟩
  | push chunk => cases htake
  | forwardTsnForOrdered lastSsn => cases htake
  | forwardTsnForUnordered newCumulativeTsn => cases htake

/-- What a read takes out is one whole message. -/
theorem SameSsn.takesMessage (q : ReassemblyQueue) (op : ReassemblyOp) (h : q.SameSsn) :
    q.TakesMessage op := by
  intro s hu htake
  obtain ⟨hc, _, ho, _⟩ := takenSet_ordered hu htake
  have hin : s ∈ q.ordered := by
    rw [ho]
    exact List.mem_cons_self
  exact ChunkSet.isOrderedMessage hc (h s hin)

/-- No operation drops a complete message. -/
theorem keepsComplete (q : ReassemblyQueue) (op : ReassemblyOp) : q.KeepsComplete op := by
  rintro lastSsn rfl s hs hc
  show s ∈ (q.forwardTsnForOrdered lastSsn).ordered
  rw [forwardTsnForOrdered_eq]
  refine List.mem_filter.mpr ⟨hs, ?_⟩
  unfold skippedBy
  rw [hc, Bool.not_true, Bool.and_false]
  rfl

/-! ## Whole runs -/

/-- The SSNs that a run takes out, from the first operation on. -/
theorem takenSsns_cons (q : ReassemblyQueue) (op : ReassemblyOp) (ops : List ReassemblyOp) :
    takenSsns q (op :: ops) = (q.takenSsn op).toList ++ takenSsns (q.applyOp op) ops := by
  show (q.takenSsn op :: Runs.outputs applyOp takenSsn (q.applyOp op) ops).reduceOption = _
  cases q.takenSsn op with
  | none => rfl
  | some x => rfl

/-- A read takes an ordered set out if there is no unordered one. -/
theorem takenSsn_eq_some {x : U16} (h : q.takenSsn op = some x) :
    ∃ s, q.unordered = [] ∧ q.takenSet op = some s ∧ s.ssn = x := by
  unfold takenSsn at h
  by_cases hu : q.unordered = []
  · rw [if_pos hu] at h
    obtain ⟨s, hs, hx⟩ := Option.map_eq_some_iff.mp h
    exact ⟨s, hu, hs, hx⟩
  · rw [if_neg hu] at h
    cases h

/-- What is read later has a set now, or the next SSN has not passed it. -/
theorem mem_takenSsns {ops : List ReassemblyOp} (hops : Runs.Along applyOp (InWindow base) q ops)
    {x : U16} (hx : x ∈ takenSsns q ops) :
    (∃ s ∈ q.ordered, s.ssn = x) ∨
      (Serial.dist base q.nextSsn ≤ Serial.dist base x ∧ Serial.dist base x < 2 ^ 15) := by
  induction ops generalizing q with
  | nil => cases hx
  | cons op ops ih =>
    obtain ⟨hop, hrest⟩ := hops
    rw [takenSsns_cons, List.mem_append] at hx
    rcases hx with hhead | htail
    · obtain ⟨s, hu, htake, rfl⟩ := takenSsn_eq_some (Option.mem_toList.mp hhead)
      obtain ⟨_, _, ho, _⟩ := takenSet_ordered hu htake
      left
      refine ⟨s, ?_, rfl⟩
      rw [ho]
      exact List.mem_cons_self
    · have hnext := dist_nextSsn_applyOp hop
      rcases ih hrest htail with ⟨s, hs, rfl⟩ | ⟨hle, hnear⟩
      · exact ordered_applyOp hop hs
      · right
        omega

/-- **The reader gets ordered messages in order.** -/
theorem takenSsns_increasing {ops : List ReassemblyOp} (h : q.Near base)
    (hops : Runs.Along applyOp (InWindow base) q ops) :
    (takenSsns q ops).Pairwise fun x y => sna16lt x y = true := by
  induction ops generalizing q with
  | nil => exact List.Pairwise.nil
  | cons op ops ih =>
    obtain ⟨hop, hrest⟩ := hops
    have hnear' : (q.applyOp op).Near base := Near.applyOp q op hop h
    rw [takenSsns_cons, List.pairwise_append]
    refine ⟨?_, ih hnear' hrest, ?_⟩
    · cases q.takenSsn op with
      | none => exact List.Pairwise.nil
      | some x => exact List.pairwise_singleton _ _
    · intro x hx y hy
      obtain ⟨s, hu, htake, rfl⟩ := takenSsn_eq_some (Option.mem_toList.mp hx)
      obtain ⟨_, hgt, ho, hnext⟩ := takenSet_ordered hu htake
      have hin : s ∈ q.ordered := by
        rw [ho]
        exact List.mem_cons_self
      have hinc := h.inOrder.increasing
      rw [ho, List.pairwise_cons] at hinc
      have hs := h.near s hin
      rcases mem_takenSsns hrest hy with ⟨t, ht, rfl⟩ | ⟨hle, hy'⟩
      · exact (sna16lt_iff_of_near hs (hnear'.near t ht)).mpr (hinc.1 t ht)
      · refine (sna16lt_iff_of_near hs hy').mpr ?_
        -- the one read has been passed by now
        have hlte : sna16lte s.ssn q.nextSsn = true := by
          rw [sna16lte_eq_not_sna16gt, hgt]
          rfl
        have hpast := (sna16lte_iff_of_near hs hop.1).mp hlte
        rw [hnext] at hle
        by_cases heq : s.ssn = q.nextSsn
        · have hn := hop.1
          have hsucc : Serial.dist base (q.nextSsn + 1) = Serial.dist base q.nextSsn + 1 :=
            dist16_succ (by omega)
          rw [if_pos heq] at hle
          omega
        · have hne : Serial.dist base s.ssn ≠ Serial.dist base q.nextSsn :=
            fun hdist => heq (Serial.dist_inj hdist)
          rw [if_neg heq] at hle
          omega

/-- What is not whole when a forward goes over it is not read any more. -/
theorem not_mem_takenSsns_of_skipped {lastSsn : U16} {ops : List ReassemblyOp} (h : q.Near base)
    (hops : Runs.Along applyOp (InWindow base) q (.forwardTsnForOrdered lastSsn :: ops))
    {s : ChunkSet} (hs : s ∈ q.ordered) (hlte : sna16lte s.ssn lastSsn = true)
    (hc : s.isComplete = false) :
    s.ssn ∉ takenSsns q (.forwardTsnForOrdered lastSsn :: ops) := by
  obtain ⟨hop, hrest⟩ := hops
  have hstep : q.applyOp (.forwardTsnForOrdered lastSsn) = q.forwardTsnForOrdered lastSsn := rfl
  rw [hstep] at hrest
  have hlast : Serial.dist base lastSsn < 2 ^ 15 := of_decide_eq_true hop.2.2
  have hle : Serial.dist base s.ssn ≤ Serial.dist base lastSsn :=
    (sna16lte_iff_of_near (h.near s hs) hlast).mp hlte
  obtain ⟨hsucc, hiff⟩ := dist_of_forward hop
  rw [takenSsns_cons, List.mem_append]
  rintro (hnow | hlater)
  · obtain ⟨_, _, htake, _⟩ := takenSsn_eq_some (Option.mem_toList.mp hnow)
    cases htake
  · rw [hstep] at hlater
    rcases mem_takenSsns hrest hlater with ⟨t, ht, hssn⟩ | ⟨hpast, _⟩
    · -- no other set has this SSN
      rw [forwardTsnForOrdered_eq] at ht
      obtain ⟨hin, hnot⟩ := List.mem_filter.mp ht
      have heq : t = s := List.inj_on_of_nodup_map h.inOrder.orderedSorted.distinct hin hs hssn
      rw [heq] at hnot
      unfold skippedBy at hnot
      rw [hlte, hc] at hnot
      cases hnot
    · rw [forwardTsnForOrdered_eq] at hpast
      by_cases hgoes : sna16lte q.nextSsn lastSsn = true
      · have hpast' : Serial.dist base (lastSsn + 1) ≤ Serial.dist base s.ssn := by
          rw [if_pos hgoes] at hpast
          exact hpast
        omega
      · have hbeyond : ¬ Serial.dist base q.nextSsn ≤ Serial.dist base lastSsn :=
          fun hcon => hgoes (hiff.mpr hcon)
        have hwhole := h.inOrder.passed s hs (by omega)
        rw [hc] at hwhole
        cases hwhole

/-- **Delivery with skipped messages**, in a window of less than half the SSNs. -/
theorem delivers_of_inWindow {ops : List ReassemblyOp} (hnil : q.ordered = [])
    (hops : Runs.Along applyOp (InWindow base) q ops) :
    ((takenSsns q ops).Pairwise fun x y => sna16lt x y = true) ∧
      Runs.Along applyOp NextAdvances q ops ∧
      Runs.Along applyOp ReadsTaken q ops ∧
      Runs.Along applyOp TakesMessage q ops ∧
      Runs.Along applyOp KeepsComplete q ops ∧
      ∀ before lastSsn after, ops = before ++ .forwardTsnForOrdered lastSsn :: after →
        ∀ s ∈ (Runs.run applyOp q before).ordered, sna16lte s.ssn lastSsn = true →
          s.isComplete = false →
            s.ssn ∉ takenSsns (Runs.run applyOp q before) (.forwardTsnForOrdered lastSsn :: after) := by
  have hnone : ∀ s ∈ q.ordered, False := by
    intro s hs
    rw [hnil] at hs
    cases hs
  have hnear : q.Near base := ⟨InOrder.of_nil hnil, fun s hs => (hnone s hs).elim⟩
  have hssn : q.SameSsn := fun s hs => (hnone s hs).elim
  refine ⟨takenSsns_increasing hnear hops, ?_, ?_, ?_, ?_, ?_⟩
  · exact Runs.along_mono (fun _ _ => nextAdvances) hops
  · exact Runs.along_mono (fun q op _ => q.readsTaken op) hops
  · exact Runs.along_of_invariant (fun q op _ => SameSsn.applyOp q op)
      (fun q op _ => SameSsn.takesMessage q op) hssn hops
  · exact Runs.along_mono (fun q op _ => q.keepsComplete op) hops
  · rintro before lastSsn after rfl s hs hlte hc
    obtain ⟨hbefore, hafter⟩ := (Runs.along_append _ _ _).mp hops
    exact not_mem_takenSsns_of_skipped (Runs.run_invariant_along Near.applyOp hnear hbefore) hafter
      hs hlte hc

/-- The first message stays behind a forward that skips the second; the third follows. -/
def skippingOps : List ReassemblyOp :=
  [.push { tsn := 1, streamSequenceNumber := 65535, beginningFragment := true, endingFragment := true },
    .push { tsn := 2, streamSequenceNumber := 0, beginningFragment := true },
    .push { tsn := 4, streamSequenceNumber := 1, beginningFragment := true, endingFragment := true },
    .forwardTsnForOrdered 0, .read 10, .read 10]

theorem delivers_skippingOps :
    ((takenSsns { nextSsn := 65535 } skippingOps).Pairwise fun x y => sna16lt x y = true) ∧
      Runs.Along applyOp NextAdvances { nextSsn := 65535 } skippingOps ∧
      Runs.Along applyOp ReadsTaken { nextSsn := 65535 } skippingOps ∧
      Runs.Along applyOp TakesMessage { nextSsn := 65535 } skippingOps ∧
      Runs.Along applyOp KeepsComplete { nextSsn := 65535 } skippingOps ∧
      ∀ before lastSsn after, skippingOps = before ++ .forwardTsnForOrdered lastSsn :: after →
        ∀ s ∈ (Runs.run applyOp { nextSsn := 65535 } before).ordered,
          sna16lte s.ssn lastSsn = true → s.isComplete = false →
            s.ssn ∉ takenSsns (Runs.run applyOp { nextSsn := 65535 } before)
              (.forwardTsnForOrdered lastSsn :: after) :=
  @delivers_of_inWindow { nextSsn := 65535 } 65530 skippingOps rfl (by decide)

end ReassemblyQueue

end Sctp
