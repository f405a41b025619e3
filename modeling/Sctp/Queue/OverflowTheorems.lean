import Sctp.Queue.Overflow
import Sctp.Queue.OrderedDeliveryTheorems

/-!
# Which pushes and reads overflow

An addition overflows at the greatest number only. A set is looked through at once when a chunk
goes into it, so as long as nothing has overflowed none of the sets that are kept does, and
reading and forwarding are left with the additions to `next_ssn`.
-/

namespace Sctp

/-- Adding one overflows at the last number only. -/
theorem uaddOverflow_one_iff {w : ℕ} (hw : 0 < w) (x : BitVec w) :
    x.uaddOverflow 1 = true ↔ x = BitVec.allOnes w := by
  have hlt := x.isLt
  have hone : BitVec.toNat (1 : BitVec w) = 1 := BitVec.toNat_one hw
  unfold BitVec.uaddOverflow
  rw [decide_eq_true_iff, ← BitVec.toNat_inj, BitVec.toNat_allOnes, hone]
  omega

/-- At the last TSN. -/
theorem uaddOverflow_tsn (t : U32) : t.uaddOverflow 1 = true ↔ t = 0xffffffff :=
  uaddOverflow_one_iff (by decide) t

/-- And at the last SSN. -/
theorem uaddOverflow_ssn (n : U16) : n.uaddOverflow 1 = true ↔ n = 0xffff :=
  uaddOverflow_one_iff (by decide) n

/-! ## Ordered sets -/

/-- The check for contiguous TSNs overflows if it gets through to the last TSN and has a chunk to
compare. -/
theorem isContiguousFromOverflows_iff {c : ChunkPayloadData} {cs : List ChunkPayloadData} :
    isContiguousFromOverflows c.tsn cs = true ↔ ∃ begun d after, c :: cs = begun ++ d :: after ∧
      (begun.IsChain fun c c' => c'.tsn = c.tsn + 1) ∧
        ∃ c' ∈ begun.getLast?, c'.tsn = 0xffffffff := by
  induction cs generalizing c with
  | nil =>
    refine iff_of_false Bool.false_ne_true ?_
    rintro ⟨begun, d, after, heq, _, c', hc', _⟩
    -- nothing comes before the only chunk
    cases begun with
    | nil => cases hc'
    | cons x begun =>
      have hlen := congrArg List.length heq
      simp at hlen
  | cons d ds ih =>
    unfold isContiguousFromOverflows
    rw [Bool.or_eq_true, Bool.and_eq_true, decide_eq_true_iff, uaddOverflow_tsn, ih]
    constructor
    · rintro (hlast | ⟨htsn, begun, e, after, heq, hchain, c', hc', hlast⟩)
      · exact ⟨[c], d, ds, rfl, List.isChain_singleton c, c, rfl, hlast⟩
      · refine ⟨c :: begun, e, after, by rw [heq, List.cons_append], ?_, c', ?_, hlast⟩
        · refine List.isChain_cons.mpr ⟨?_, hchain⟩
          intro y hy
          cases begun with
          | nil => cases hy
          | cons x begun =>
            rw [List.head?_cons, Option.mem_some_iff] at hy
            rw [← hy, ← (List.cons.inj heq).1]
            exact htsn
        · rw [Option.mem_def] at hc' ⊢
          rw [List.getLast?_cons, hc']
          rfl
    · rintro ⟨begun, e, after, heq, hchain, c', hc', hlast⟩
      cases begun with
      | nil => cases hc'
      | cons x begun =>
        obtain ⟨hx, hrest⟩ := List.cons.inj heq
        subst hx
        cases begun with
        | nil =>
          left
          rw [List.getLast?_singleton, Option.mem_some_iff] at hc'
          rw [hc']
          exact hlast
        | cons y begun =>
          right
          obtain ⟨hhead, htail⟩ := List.isChain_cons.mp hchain
          have hd : d = y := (List.cons.inj hrest).1
          refine ⟨by rw [hd]; exact hhead y rfl, y :: begun, e, after, hrest, htail, c', ?_, hlast⟩
          rw [Option.mem_def, List.getLast?_cons_cons] at hc'
          exact hc'

/-- So does the check for a complete set, behind a beginning and before an ending fragment. -/
theorem ChunkSet.isCompleteOverflows_iff (s : ChunkSet) :
    s.isCompleteOverflows = true ↔ PassesLastTsn s.chunks := by
  unfold ChunkSet.isCompleteOverflows
  cases s.chunks with
  | nil =>
    refine iff_of_false Bool.false_ne_true fun h => ?_
    obtain ⟨c, hc, _⟩ := h.beginning
    cases hc
  | cons c cs =>
    dsimp only
    rw [Bool.and_eq_true, Bool.and_eq_true, isContiguousFromOverflows_iff, List.getLast?_cons]
    constructor
    · rintro ⟨⟨hb, he⟩, hpasses⟩
      exact ⟨⟨c, rfl, hb⟩, ⟨_, List.getLast?_cons, he⟩, hpasses⟩
    · rintro ⟨⟨c', hc', hb⟩, ⟨l, hl, he⟩, hpasses⟩
      rw [List.head?_cons, Option.mem_some_iff] at hc'
      rw [List.getLast?_cons, Option.mem_some_iff] at hl
      refine ⟨⟨by rw [hc']; exact hb, ?_⟩, hpasses⟩
      rw [hl]
      exact he

/-- A push into a set checks the set, unless it has the TSN. -/
theorem ChunkSet.pushOverflows_iff (s : ChunkSet) (chunk : ChunkPayloadData) :
    s.pushOverflows chunk = true ↔ (∀ c ∈ s.chunks, c.tsn ≠ chunk.tsn) ∧
      PassesLastTsn (sortChunksByTsn (s.chunks ++ [chunk])) := by
  unfold ChunkSet.pushOverflows
  by_cases hdup : s.chunks.any (·.tsn = chunk.tsn) = true
  · rw [if_pos hdup]
    refine iff_of_false Bool.false_ne_true fun h => ?_
    obtain ⟨c, hc, htsn⟩ := List.any_eq_true.mp hdup
    exact h.1 c hc (by simpa using htsn)
  · rw [if_neg hdup, ChunkSet.isCompleteOverflows_iff]
    refine (and_iff_right ?_).symm
    intro c hc htsn
    exact hdup (List.any_eq_true.mpr ⟨c, hc, by simpa using htsn⟩)

/-- A set that a push leaves without overflow can be looked through again. -/
theorem ChunkSet.isCompleteOverflows_push {s : ChunkSet} {chunk : ChunkPayloadData}
    (h : s.isCompleteOverflows = false) (hpush : s.pushOverflows chunk = false) :
    (s.push chunk).1.isCompleteOverflows = false := by
  unfold ChunkSet.pushOverflows at hpush
  unfold ChunkSet.push
  split
  · exact h
  · rename_i hnew
    rw [if_neg hnew] at hpush
    exact hpush

namespace ReassemblyQueue

variable {q : ReassemblyQueue} {chunk : ChunkPayloadData}

/-- The set that is pushed to is the one with the SSN, or a new one. -/
theorem pushOrderedOverflows_iff (sets : List ChunkSet) :
    pushOrderedOverflows chunk sets = true ↔
      let chunks := ((sets.find? (·.ssn = chunk.streamSequenceNumber)).map (·.chunks)).getD []
      (∀ c ∈ chunks, c.tsn ≠ chunk.tsn) ∧ PassesLastTsn (sortChunksByTsn (chunks ++ [chunk])) := by
  induction sets with
  | nil =>
    unfold pushOrderedOverflows
    rw [ChunkSet.pushOverflows_iff]
    rfl
  | cons s sets ih =>
    unfold pushOrderedOverflows
    by_cases hssn : s.ssn = chunk.streamSequenceNumber
    · rw [if_pos hssn, ChunkSet.pushOverflows_iff, List.find?_cons_of_pos (by simpa using hssn)]
      rfl
    · rw [if_neg hssn, ih, List.find?_cons_of_neg (by simpa using hssn)]

/-! ## Unordered chunks -/

/-- Where the scanner overflows: it has found nothing in the chunks before, and a run has begun
among them that reaches the last TSN. -/
theorem scanUnorderedOverflows_sound {pre cs : List ChunkPayloadData} {startIdx : Option ℕ}
    {nChunks : ℕ} {lastTsn : U32} (hscan : Scanning pre startIdx nChunks lastTsn)
    (h : scanUnorderedOverflows startIdx.isSome lastTsn cs = true) :
    ∃ seen c after, cs = seen ++ c :: after ∧ c.beginningFragment = false ∧
      scanUnordered pre.length startIdx nChunks lastTsn seen = none ∧
        ∃ before begun, pre ++ seen = before ++ begun ∧ BegunRun begun 0xffffffff := by
  induction cs generalizing pre startIdx nChunks lastTsn with
  | nil => cases h
  | cons c cs ih =>
    -- the scan goes on behind the chunk, and the overflow comes later
    have hlater : ∀ (startIdx' : Option ℕ) (nChunks' : ℕ) {lastTsn' : U32},
        Scanning (pre ++ [c]) startIdx' nChunks' lastTsn' →
        scanUnorderedOverflows startIdx'.isSome lastTsn' cs = true →
        (∀ seen, scanUnordered pre.length startIdx nChunks lastTsn (c :: seen) =
          scanUnordered (pre ++ [c]).length startIdx' nChunks' lastTsn' seen) →
        ∃ seen d after, c :: cs = seen ++ d :: after ∧ d.beginningFragment = false ∧
          scanUnordered pre.length startIdx nChunks lastTsn seen = none ∧
            ∃ before begun, pre ++ seen = before ++ begun ∧ BegunRun begun 0xffffffff := by
      intro startIdx' nChunks' lastTsn' hscan' h' hstep
      obtain ⟨seen, d, after, heq, hd, hnone, before, begun, hpre, hbegun⟩ := ih hscan' h'
      refine ⟨c :: seen, d, after, by rw [heq, List.cons_append], hd, (hstep seen).trans hnone,
        before, begun, ?_, hbegun⟩
      rw [← hpre, List.append_assoc]
      rfl
    have hlen : (pre ++ [c]).length = pre.length + 1 := by
      rw [List.length_append, List.length_singleton]
    unfold scanUnorderedOverflows at h
    cases hb : c.beginningFragment with
    | true =>
      rw [hb, if_pos rfl] at h
      cases he : c.endingFragment with
      | true =>
        rw [he, if_pos rfl] at h
        cases h
      | false =>
        rw [he, if_neg Bool.false_ne_true] at h
        refine hlater (some pre.length) 1 (Scanning.begin pre hb he) h fun seen => ?_
        conv_lhs => unfold scanUnordered
        rw [hb, if_pos rfl, he, if_neg Bool.false_ne_true, hlen]
    | false =>
      rw [hb, if_neg Bool.false_ne_true] at h
      cases startIdx with
      | none =>
        refine hlater none nChunks (Scanning.none _ nChunks lastTsn) h fun seen => ?_
        conv_lhs => unfold scanUnordered
        rw [hb, if_neg Bool.false_ne_true, hlen]
      | some start =>
        change (lastTsn.uaddOverflow 1 || _) = true at h
        obtain ⟨before, begun, hpre, hstart, hcount, hbegun⟩ := hscan start rfl
        rw [Bool.or_eq_true, uaddOverflow_tsn] at h
        rcases h with hlast | h
        · refine ⟨[], c, cs, rfl, hb, rfl, before, begun, by rw [List.append_nil, hpre], ?_⟩
          rw [← hlast]
          exact hbegun
        · by_cases htsn : c.tsn ≠ lastTsn + 1
          · rw [if_pos htsn] at h
            refine hlater none nChunks (Scanning.none _ nChunks lastTsn) h fun seen => ?_
            conv_lhs => unfold scanUnordered
            rw [hb, if_neg Bool.false_ne_true, hlen]
            exact if_pos htsn
          · rw [if_neg htsn] at h
            rw [not_not] at htsn
            cases he : c.endingFragment with
            | true =>
              rw [he, if_pos rfl] at h
              cases h
            | false =>
              rw [he, if_neg Bool.false_ne_true] at h
              refine hlater (some start) (nChunks + 1) ?_ h fun seen => ?_
              · intro start' hstart'
                refine ⟨before, begun ++ [c], by rw [hpre, List.append_assoc], ?_, ?_,
                  hbegun.extend htsn hb he⟩
                · exact hstart.trans (Option.some.inj hstart')
                · rw [List.length_append, List.length_singleton, hcount]
              · conv_lhs => unfold scanUnordered
                rw [hb, if_neg Bool.false_ne_true, hlen]
                dsimp only
                rw [if_neg (not_not.mpr htsn), he, if_neg Bool.false_ne_true]

/-- In the middle of a run that reaches the last TSN it goes on to the overflow. -/
theorem scanUnorderedOverflows_rest {begun rest after : List ChunkPayloadData}
    {c : ChunkPayloadData} {lastTsn : U32} (hlast : ∃ c' ∈ begun.getLast?, c'.tsn = lastTsn)
    (hrun : BegunRun (begun ++ rest) 0xffffffff) (hc : c.beginningFragment = false) :
    scanUnorderedOverflows true lastTsn (rest ++ c :: after) = true := by
  obtain ⟨c', hc', htsn'⟩ := hlast
  induction rest generalizing begun lastTsn c' with
  | nil =>
    obtain ⟨l, hl, hmax⟩ := hrun.last
    rw [List.append_nil] at hl
    rw [Option.mem_def] at hc' hl
    rw [hc', Option.some.injEq] at hl
    have hmaximal : lastTsn.uaddOverflow 1 = true := by
      rw [uaddOverflow_tsn, ← htsn', hl]
      exact hmax
    rw [List.nil_append]
    unfold scanUnorderedOverflows
    rw [hc, if_neg Bool.false_ne_true, hmaximal]
    rfl
  | cons x rest ih =>
    have hpos : 0 < begun.length := by
      rw [List.length_pos_iff]
      intro hnil
      rw [hnil] at hc'
      cases hc'
    have hget : (begun ++ x :: rest)[begun.length]? = some x := by
      rw [List.getElem?_append_right (Nat.le_refl _), Nat.sub_self, List.getElem?_cons_zero]
    have hb : x.beginningFragment = false := by
      rw [← Bool.not_eq_true, hrun.beginning _ x hget]
      omega
    have he : x.endingFragment = false := hrun.ending x (by simp)
    have htsn : x.tsn = lastTsn + 1 := by
      have hchain := (List.isChain_append.mp hrun.consecutive).2.2 c' hc' x rfl
      rw [hchain, htsn']
    rw [List.append_cons] at hrun
    have hrest := ih hrun x (by rw [Option.mem_def, List.getLast?_concat]) rfl
    rw [List.cons_append]
    unfold scanUnorderedOverflows
    rw [hb, if_neg Bool.false_ne_true, Bool.not_true, if_neg Bool.false_ne_true,
      if_neg (not_not.mpr htsn), he, if_neg Bool.false_ne_true, hrest, Bool.or_true]

/-- As long as it has found nothing it comes to the run that has begun. -/
theorem scanUnorderedOverflows_complete {before begun after : List ChunkPayloadData}
    {c : ChunkPayloadData} {startIdx : Option ℕ} {i nChunks : ℕ} {lastTsn : U32}
    (hnone : scanUnordered i startIdx nChunks lastTsn before = none)
    (hbegun : BegunRun begun 0xffffffff) (hc : c.beginningFragment = false) :
    scanUnorderedOverflows startIdx.isSome lastTsn (before ++ (begun ++ c :: after)) = true := by
  induction before generalizing startIdx i nChunks lastTsn with
  | nil =>
    obtain ⟨b, rest, rfl⟩ := List.exists_cons_of_ne_nil hbegun.ne_nil
    have hb : b.beginningFragment = true := (hbegun.beginning 0 b rfl).mpr rfl
    have he : b.endingFragment = false := hbegun.ending b List.mem_cons_self
    have hfirst : ∃ c' ∈ [b].getLast?, c'.tsn = b.tsn := ⟨b, rfl, rfl⟩
    have hrest : scanUnorderedOverflows true b.tsn (rest ++ c :: after) = true :=
      scanUnorderedOverflows_rest hfirst hbegun hc
    rw [List.nil_append, List.cons_append]
    unfold scanUnorderedOverflows
    rw [hb, if_pos rfl, he, if_neg Bool.false_ne_true]
    exact hrest
  | cons x before ih =>
    unfold scanUnordered at hnone
    rw [List.cons_append]
    unfold scanUnorderedOverflows
    cases hb : x.beginningFragment with
    | true =>
      rw [hb, if_pos rfl] at hnone
      rw [if_pos rfl]
      cases he : x.endingFragment with
      | true =>
        rw [he, if_pos rfl] at hnone
        cases hnone
      | false =>
        rw [he, if_neg Bool.false_ne_true] at hnone
        rw [if_neg Bool.false_ne_true]
        exact ih hnone
    | false =>
      rw [hb, if_neg Bool.false_ne_true] at hnone
      rw [if_neg Bool.false_ne_true]
      cases startIdx with
      | none => exact ih hnone
      | some start =>
        dsimp only at hnone
        rw [Option.isSome_some, Bool.not_true, if_neg Bool.false_ne_true]
        by_cases htsn : x.tsn ≠ lastTsn + 1
        · rw [if_pos htsn] at hnone
          rw [if_pos htsn, show scanUnorderedOverflows false _ _ = true from ih hnone, Bool.or_true]
        · rw [if_neg htsn] at hnone
          rw [if_neg htsn]
          cases he : x.endingFragment with
          | true =>
            rw [he, if_pos rfl] at hnone
            cases hnone
          | false =>
            rw [he, if_neg Bool.false_ne_true] at hnone
            rw [if_neg Bool.false_ne_true, show scanUnorderedOverflows true _ _ = true from ih hnone,
              Bool.or_true]

/-- The search for an unordered message overflows on a run that is begun and passes the last TSN. -/
theorem findCompleteUnorderedChunkSetOverflows_iff (q : ReassemblyQueue) :
    q.findCompleteUnorderedChunkSetOverflows = true ↔ UnorderedPassesLastTsn q.unorderedChunks := by
  unfold findCompleteUnorderedChunkSetOverflows
  constructor
  · intro h
    obtain ⟨seen, c, after, heq, hc, hnone, before, begun, hpre, hbegun⟩ :=
      scanUnorderedOverflows_sound (Scanning.none [] 0 0) h
    rw [List.nil_append] at hpre
    refine ⟨before, begun, c, after, by rw [heq, hpre], hbegun, hc, ?_⟩
    rintro run hrun ⟨l, r, hlr⟩
    have hfound : (scanUnordered 0 none 0 0 (l ++ run ++ r)).isSome = true :=
      scanUnordered_complete hrun
    rw [hlr, ← hpre, show scanUnordered 0 none 0 0 seen = none from hnone] at hfound
    cases hfound
  · rintro ⟨before, begun, c, after, heq, hbegun, hc, hno⟩
    have hnone : scanUnordered ([] : List ChunkPayloadData).length none 0 0 before = none := by
      cases hscan : scanUnordered ([] : List ChunkPayloadData).length none 0 0 before with
      | none => rfl
      | some found =>
        obtain ⟨l, run, r, hlr, _, _, hrun⟩ := scanUnordered_sound (Scanning.none [] 0 0) hscan
        rw [List.nil_append] at hlr
        refine absurd ⟨l, r ++ begun, ?_⟩ (hno run hrun)
        rw [hlr, List.append_assoc (l ++ run)]
    rw [heq, List.append_assoc]
    exact scanUnorderedOverflows_complete hnone hbegun hc

/-- So `push` overflows for one of two reasons. -/
theorem pushOverflows_iff : q.pushOverflows chunk = true ↔ q.PushPassesLastTsn chunk := by
  unfold pushOverflows PushPassesLastTsn
  by_cases hsi : chunk.streamIdentifier = q.si
  · rw [if_neg (not_not.mpr hsi), and_iff_right hsi]
    split
    · exact findCompleteUnorderedChunkSetOverflows_iff _
    · rw [← Bool.not_eq_true]
      split
      · rename_i hbehind
        exact iff_of_false Bool.false_ne_true fun h => h.1 hbehind
      · rename_i hahead
        rw [and_iff_right hahead]
        exact pushOrderedOverflows_iff q.ordered
  · rw [if_pos hsi]
    exact iff_of_false Bool.false_ne_true fun h => hsi h.1

/-! ## What is kept overflows no more -/

/-- No set that is kept overflows when it is looked through. -/
def SetsInRange (q : ReassemblyQueue) : Prop := ∀ s ∈ q.ordered, s.isCompleteOverflows = false

/-- Fewer sets. -/
theorem SetsInRange.of_subset {q' : ReassemblyQueue} (h : q.SetsInRange)
    (hsub : q'.ordered ⊆ q.ordered) : q'.SetsInRange := fun s hs => h s (hsub hs)

/-- A set that was pushed to without an overflow can be checked again. -/
theorem pushOrdered_inRange {sets sets' : List ChunkSet} {ok : Bool}
    (hsets : ∀ s ∈ sets, s.isCompleteOverflows = false)
    (hover : pushOrderedOverflows chunk sets = false)
    (h : pushOrdered chunk sets = some (sets', ok)) : ∀ s ∈ sets', s.isCompleteOverflows = false := by
  induction sets generalizing sets' ok with
  | nil => cases h
  | cons s sets ih =>
    rw [List.forall_mem_cons] at hsets
    unfold pushOrdered at h
    unfold pushOrderedOverflows at hover
    by_cases hssn : s.ssn = chunk.streamSequenceNumber
    · rw [if_pos hssn] at h hover
      have heq : ((s.push chunk).1 :: sets, (s.push chunk).2) = (sets', ok) := Option.some.inj h
      rw [← (Prod.mk.inj heq).1, List.forall_mem_cons]
      exact ⟨ChunkSet.isCompleteOverflows_push hsets.1 hover, hsets.2⟩
    · rw [if_neg hssn] at h hover
      obtain ⟨⟨rest, ok'⟩, hrest, heq⟩ := Option.map_eq_some_iff.mp h
      rw [← (Prod.mk.inj heq).1, List.forall_mem_cons]
      exact ⟨hsets.1, ih hsets.2 hover hrest⟩

/-- Without a set for it the chunk begins one. -/
theorem pushOrderedOverflows_of_none {sets : List ChunkSet}
    (h : pushOrdered chunk sets = none) :
    pushOrderedOverflows chunk sets =
      (ChunkSet.new chunk.streamSequenceNumber chunk.payloadType).pushOverflows chunk := by
  rw [Bool.eq_iff_iff, pushOrderedOverflows_iff, ChunkSet.pushOverflows_iff, pushOrdered_eq_none h]
  rfl

/-- A push that does not overflow leaves sets that can be checked. -/
theorem SetsInRange.push (h : q.SetsInRange) (hover : q.pushOverflows chunk = false) :
    (q.push chunk).1.SetsInRange := by
  have hframe : ∀ (q' : ReassemblyQueue), q'.ordered = q.ordered → q'.SetsInRange :=
    fun q' hq' => h.of_subset (by rw [hq']; exact List.Subset.refl _)
  rcases q.push_cases chunk with ⟨_, heq⟩ | ⟨_, _, ⟨_, _, heq⟩, _⟩ | ⟨hacc, hu, hahead, hord⟩
  · rw [heq]
    exact h
  · rw [heq]
    exact hframe _ rfl
  · have hsi : chunk.streamIdentifier = q.si := by
      unfold accepts at hacc
      by_contra hne
      simp [hne] at hacc
    unfold pushOverflows at hover
    rw [if_neg (not_not.mpr hsi), hu, if_neg Bool.false_ne_true, hahead,
      if_neg Bool.false_ne_true] at hover
    rcases hord with ⟨ordered, ok, hpush, heq⟩ | ⟨hnone, heq⟩
    · rw [heq]
      exact pushOrdered_inRange h hover hpush
    · rw [heq]
      intro s hs
      have hs' := StableSort.mem_sortBy.mp hs
      rw [List.mem_append, List.mem_singleton] at hs'
      rcases hs' with hold | rfl
      · exact h s hold
      · rw [pushOrderedOverflows_of_none hnone] at hover
        exact ChunkSet.isCompleteOverflows_push rfl hover

/-- A read leaves some of the sets. -/
theorem SetsInRange.read (h : q.SetsInRange) (bufLen : ℕ) : (q.read bufLen).1.SetsInRange := by
  rw [read_fst]
  show q.takeReadable.1.SetsInRange
  rcases q.takeReadable_cases with heq | ⟨cset, rest, _, heq⟩ | ⟨cset, rest, _, ho, _, _, heq⟩
  · rw [heq]
    exact h
  · rw [heq]
    exact h
  · rw [heq]
    refine h.of_subset ?_
    rw [ho]
    exact List.subset_cons_self cset rest

/-- So does a FORWARD TSN. -/
theorem SetsInRange.forwardTsnForOrdered (h : q.SetsInRange) (lastSsn : U16) :
    (q.forwardTsnForOrdered lastSsn).SetsInRange := by
  rw [forwardTsnForOrdered_eq]
  exact h.of_subset (List.filter_subset_self q.ordered)

/-- Unordered chunks are not in the sets. -/
theorem SetsInRange.forwardTsnForUnordered (h : q.SetsInRange) (newCumulativeTsn : U32) :
    (q.forwardTsnForUnordered newCumulativeTsn).SetsInRange := by
  rw [forwardTsnForUnordered_eq]
  exact h

/-- Looking at such sets does not overflow. -/
theorem SetsInRange.isReadable (h : q.SetsInRange) : q.isReadableOverflows = false := by
  unfold isReadableOverflows
  split
  · rfl
  · split
    · rfl
    · rename_i cset rest ho
      exact h cset (by rw [ho]; exact List.mem_cons_self)

/-- A read overflows only when it goes on behind the last SSN. -/
theorem SetsInRange.readOverflows_iff (h : q.SetsInRange) :
    q.readOverflows = true ↔ q.ReadsLastSsn := by
  unfold readOverflows ReadsLastSsn
  cases hu : q.unordered with
  | cons s sets => exact iff_of_false Bool.false_ne_true fun h => by cases h.1
  | nil =>
    dsimp only
    cases ho : q.ordered with
    | nil =>
      refine iff_of_false Bool.false_ne_true fun h => ?_
      obtain ⟨cset, hcset, _⟩ := h.2.2
      cases hcset
    | cons cset rest =>
      dsimp only
      rw [h cset (by rw [ho]; exact List.mem_cons_self), Bool.false_or]
      simp only [Bool.and_eq_true, decide_eq_true_iff, uaddOverflow_ssn]
      constructor
      · rintro ⟨⟨⟨hcomplete, _⟩, hssn⟩, hlast⟩
        exact ⟨trivial, hlast, cset, rfl, hssn.trans hlast, hcomplete⟩
      · rintro ⟨_, hlast, cset', hcset', hssn, hcomplete⟩
        rw [List.head?_cons, Option.mem_some_iff] at hcset'
        subst hcset'
        refine ⟨⟨⟨hcomplete, ?_⟩, hssn.trans hlast.symm⟩, hlast⟩
        rw [hssn, hlast]
        rfl

/-- So does a FORWARD TSN. -/
theorem SetsInRange.forwardOverflows_iff (h : q.SetsInRange) (lastSsn : U16) :
    q.forwardTsnForOrderedOverflows lastSsn = true ↔
      lastSsn = 0xffff ∧ sna16lte q.nextSsn 0xffff = true := by
  unfold forwardTsnForOrderedOverflows
  have hany : (q.ordered.any fun s => sna16lte s.ssn lastSsn && s.isCompleteOverflows) = false := by
    rw [List.any_eq_false]
    intro s hs
    rw [h s hs, Bool.and_false]
    exact Bool.false_ne_true
  rw [hany, Bool.false_or, Bool.and_eq_true, uaddOverflow_ssn]
  constructor
  · rintro ⟨hlte, hlast⟩
    exact ⟨hlast, hlast ▸ hlte⟩
  · rintro ⟨hlast, hlte⟩
    exact ⟨hlast ▸ hlte, hlast⟩

end ReassemblyQueue

/-! ## Gap blocks -/

namespace PayloadQueue

/-- The loop overflows if a block ends at the last offset and there is one more to come. -/
theorem gapAckBlocksFromOverflows_iff (b : GapAckBlock) (l : List U16) :
    gapAckBlocksFromOverflows b l = true ↔ 0xffff ∈ (b.end_ :: l).dropLast := by
  induction l generalizing b with
  | nil => exact iff_of_false Bool.false_ne_true List.not_mem_nil
  | cons diff rest ih =>
    unfold gapAckBlocksFromOverflows
    rw [Bool.or_eq_true, uaddOverflow_ssn, List.dropLast_cons_cons, List.mem_cons, eq_comm]
    refine or_congr_right ?_
    split
    · rename_i hnext
      rw [ih]
      dsimp only
      rw [hnext]
    · exact ih _

/-- Every TSN held but the last one has one added to its offset. -/
theorem getGapAckBlocksOverflows_iff {q : PayloadQueue} {point : U32} (h : q.Ahead point) :
    q.getGapAckBlocksOverflows point = true ↔
      ∃ t ∈ q.sorted.dropLast, point ≤ t ∧ (t - point).setWidth 16 = (0xffff : U16) := by
  have hoffset : ∀ t, gapOffset point t = 0xffff ↔
      point ≤ t ∧ (t - point).setWidth 16 = (0xffff : U16) := by
    intro t
    unfold gapOffset
    split
    · rename_i hle
      exact (and_iff_right hle).symm
    · rename_i hlt
      exact iff_of_false (by decide) fun h => hlt h.1
  have hany : (∃ t ∈ q.sorted.dropLast, point ≤ t ∧ (t - point).setWidth 16 = (0xffff : U16)) ↔
      0xffff ∈ (q.sorted.map (gapOffset point)).dropLast := by
    rw [← List.map_dropLast, List.mem_map]
    simp only [hoffset]
  rw [hany]
  unfold getGapAckBlocksOverflows
  split
  · rename_i hempty
    have hsorted : q.sorted = [] := by
      rw [List.eq_nil_iff_forall_not_mem]
      intro t ht
      have hkey : t ∈ q.chunkMap.keys := AList.mem_keys.mp ((h.mem_iff t).mp ht)
      unfold AList.keys at hkey
      rw [hempty] at hkey
      cases hkey
    rw [hsorted]
    exact iff_of_false Bool.false_ne_true List.not_mem_nil
  · cases q.sorted.map (gapOffset point) with
    | nil => exact iff_of_false Bool.false_ne_true List.not_mem_nil
    | cons diff rest => exact gapAckBlocksFromOverflows_iff _ rest

end PayloadQueue

end Sctp
