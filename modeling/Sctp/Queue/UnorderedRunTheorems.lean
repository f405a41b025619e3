import Sctp.Queue.ReassemblyTheorems
import Sctp.Queue.PayloadQueueRunTheorems

/-!
# Complete messages among the unordered chunks

The scanner keeps the beginning of a message, restarts at every beginning fragment and gives up
where a TSN is missing. In a list sorted by TSN a message lies in one piece, so none escapes it.
A push can complete but one message, because any that it completes has the chunk pushed.
-/

namespace Sctp

variable {run begun pre post l : List ChunkPayloadData} {c : ChunkPayloadData}

/-! ## Runs and their beginnings -/

/-- A run without its end: what the scanner has seen of it. -/
structure BegunRun (begun : List ChunkPayloadData) (lastTsn : U32) : Prop where
  consecutive : begun.IsChain fun c c' => c'.tsn = c.tsn + 1
  beginning : ∀ i c, begun[i]? = some c → (c.beginningFragment = true ↔ i = 0)
  ending : ∀ c ∈ begun, c.endingFragment = false
  last : ∃ c ∈ begun.getLast?, c.tsn = lastTsn

/-- A beginning fragment begins a run. -/
theorem BegunRun.single (hb : c.beginningFragment = true) (he : c.endingFragment = false) :
    BegunRun [c] c.tsn where
  consecutive := List.isChain_singleton c
  beginning i c' hc' := by
    cases i with
    | zero =>
      rw [List.getElem?_cons_zero, Option.some.injEq] at hc'
      rw [← hc', hb]
      simp
    | succ i => cases hc'
  ending c' hc' := by rw [List.mem_singleton.mp hc', he]
  last := ⟨c, rfl, rfl⟩

/-- A fragment that both begins and ends is a message. -/
theorem IsRun.single (hb : c.beginningFragment = true) (he : c.endingFragment = true) :
    IsRun [c] where
  ne_nil := List.cons_ne_nil c []
  consecutive := List.isChain_singleton c
  beginning i c' hc' := by
    cases i with
    | zero =>
      rw [List.getElem?_cons_zero, Option.some.injEq] at hc'
      rw [← hc', hb]
      simp
    | succ i => cases hc'
  ending i c' hc' := by
    cases i with
    | zero =>
      rw [List.getElem?_cons_zero, Option.some.injEq] at hc'
      rw [← hc', he]
      simp
    | succ i => cases hc'

namespace BegunRun

variable {lastTsn : U32}

/-- A run that is begun has a first chunk. -/
theorem ne_nil (h : BegunRun begun lastTsn) : begun ≠ [] := by
  obtain ⟨c, hc, _⟩ := h.last
  intro hnil
  rw [hnil] at hc
  cases hc

/-- With the next TSN a run goes on. -/
theorem consecutive_append (h : BegunRun begun lastTsn) (htsn : c.tsn = lastTsn + 1) :
    (begun ++ [c]).IsChain fun c c' => c'.tsn = c.tsn + 1 := by
  refine h.consecutive.append (List.isChain_singleton c) ?_
  intro x hx y hy
  obtain ⟨c', hc', hlast⟩ := h.last
  rw [Option.mem_def] at hx hc'
  rw [hx, Option.some.injEq] at hc'
  rw [List.head?_cons, Option.mem_some_iff] at hy
  rw [← hy, hc', hlast, htsn]

/-- A fragment that does not begin goes on. -/
theorem beginning_append (h : BegunRun begun lastTsn) (hb : c.beginningFragment = false) (i : ℕ)
    (c' : ChunkPayloadData) (hc' : (begun ++ [c])[i]? = some c') :
    c'.beginningFragment = true ↔ i = 0 := by
  have hpos := List.length_pos_of_ne_nil h.ne_nil
  by_cases hi : i < begun.length
  · rw [List.getElem?_append_left hi] at hc'
    exact h.beginning i c' hc'
  · rw [List.getElem?_append_right (by omega)] at hc'
    rw [List.mem_singleton.mp (List.mem_of_getElem? hc'), hb]
    simp
    omega

/-- The scanner goes on to the next fragment. -/
theorem extend (h : BegunRun begun lastTsn) (htsn : c.tsn = lastTsn + 1)
    (hb : c.beginningFragment = false) (he : c.endingFragment = false) :
    BegunRun (begun ++ [c]) c.tsn where
  consecutive := h.consecutive_append htsn
  beginning := h.beginning_append hb
  ending c' hc' := by
    rcases List.mem_append.mp hc' with hold | hnew
    · exact h.ending c' hold
    · rw [List.mem_singleton.mp hnew, he]
  last := ⟨c, by rw [Option.mem_def, List.getLast?_concat], rfl⟩

/-- The scanner has found the end. -/
theorem finish (h : BegunRun begun lastTsn) (htsn : c.tsn = lastTsn + 1)
    (hb : c.beginningFragment = false) (he : c.endingFragment = true) : IsRun (begun ++ [c]) where
  ne_nil := List.append_ne_nil_of_right_ne_nil _ (List.cons_ne_nil c [])
  consecutive := h.consecutive_append htsn
  beginning := h.beginning_append hb
  ending i c' hc' := by
    rw [List.length_append, List.length_singleton]
    by_cases hi : i < begun.length
    · rw [List.getElem?_append_left hi] at hc'
      rw [h.ending c' (List.mem_of_getElem? hc')]
      simp
      omega
    · have hlen := (List.getElem?_eq_some_iff.mp hc').1
      rw [List.length_append, List.length_singleton] at hlen
      rw [List.getElem?_append_right (by omega)] at hc'
      rw [List.mem_singleton.mp (List.mem_of_getElem? hc'), he]
      simp
      omega

end BegunRun

namespace ReassemblyQueue

/-! ## What the scanner finds -/

/-- Where the scanner stands: behind `pre`, at the end of which it has seen the beginning of a
run, if any. -/
def Scanning (pre : List ChunkPayloadData) (startIdx : Option ℕ) (nChunks : ℕ) (lastTsn : U32) :
    Prop :=
  ∀ start, startIdx = some start → ∃ before begun, pre = before ++ begun ∧ before.length = start ∧
    begun.length = nChunks ∧ BegunRun begun lastTsn

/-- The scan begins a run. -/
theorem Scanning.begin (pre : List ChunkPayloadData) (hb : c.beginningFragment = true)
    (he : c.endingFragment = false) : Scanning (pre ++ [c]) (some pre.length) 1 c.tsn := by
  intro start hstart
  exact ⟨pre, [c], rfl, Option.some.inj hstart, rfl, BegunRun.single hb he⟩

theorem Scanning.none (pre : List ChunkPayloadData) (n : ℕ) (t : U32) :
    Scanning pre Option.none n t := fun _ hstart => by cases hstart

/-- What it finds is a run. -/
theorem scanUnordered_sound {cs : List ChunkPayloadData} {startIdx : Option ℕ} {nChunks start n : ℕ}
    {lastTsn : U32} (hscan : Scanning pre startIdx nChunks lastTsn)
    (h : scanUnordered pre.length startIdx nChunks lastTsn cs = some (start, n)) :
    ∃ before run after, pre ++ cs = before ++ run ++ after ∧ before.length = start ∧
      run.length = n ∧ IsRun run := by
  induction cs generalizing pre startIdx nChunks lastTsn with
  | nil => cases h
  | cons c cs ih =>
    have hnext : pre ++ c :: cs = (pre ++ [c]) ++ cs := by rw [List.append_assoc]; rfl
    have hlen : pre.length + 1 = (pre ++ [c]).length := by
      rw [List.length_append, List.length_singleton]
    unfold scanUnordered at h
    rw [hlen] at h
    cases hb : c.beginningFragment with
    | true =>
      -- a beginning fragment starts a run anew, whatever had been begun
      rw [hb, if_pos rfl] at h
      cases he : c.endingFragment with
      | true =>
        rw [he, if_pos rfl, Option.some.injEq, Prod.mk.injEq] at h
        exact ⟨pre, [c], cs, hnext, h.1, h.2, IsRun.single hb he⟩
      | false =>
        rw [he, if_neg Bool.false_ne_true] at h
        rw [hnext]
        exact ih (Scanning.begin pre hb he) h
    | false =>
      rw [hb, if_neg Bool.false_ne_true] at h
      cases startIdx with
      | none =>
        rw [hnext]
        exact ih (Scanning.none _ _ _) h
      | some start' =>
        dsimp only at h
        by_cases htsn : c.tsn ≠ lastTsn + 1
        · rw [if_pos htsn] at h
          -- a gap: the scan forgets what it had begun
          rw [hnext]
          exact ih (Scanning.none _ _ _) h
        · rw [if_neg htsn] at h
          rw [not_not] at htsn
          obtain ⟨before, begun, hpre, hstart, hcount, hbegun⟩ := hscan start' rfl
          cases he : c.endingFragment with
          | true =>
            rw [he, if_pos rfl, Option.some.injEq, Prod.mk.injEq] at h
            refine ⟨before, begun ++ [c], cs, ?_, hstart.trans h.1, ?_, hbegun.finish htsn hb he⟩
            · rw [hnext, hpre, List.append_assoc before]
            · rw [List.length_append, List.length_singleton, hcount]
              exact h.2
          | false =>
            rw [he, if_neg Bool.false_ne_true] at h
            rw [hnext]
            refine ih ?_ h
            intro start hs
            refine ⟨before, begun ++ [c], ?_, hstart.trans (Option.some.inj hs), ?_,
              hbegun.extend htsn hb he⟩
            · rw [hpre, List.append_assoc]
            · rw [List.length_append, List.length_singleton, hcount]

/-! ## What it does not miss -/

/-- In the middle of a run it goes on to the end. -/
theorem scanUnordered_rest {rest : List ChunkPayloadData} {i start nChunks : ℕ} {lastTsn : U32}
    (hlast : ∃ c ∈ begun.getLast?, c.tsn = lastTsn) (hrun : IsRun (begun ++ rest))
    (hne : rest ≠ []) :
    (scanUnordered i (some start) nChunks lastTsn (rest ++ post)).isSome = true := by
  induction rest generalizing begun i nChunks lastTsn with
  | nil => exact absurd rfl hne
  | cons c rest ih =>
    obtain ⟨c', hc', htsn'⟩ := hlast
    have hpos : 0 < begun.length := by
      rw [List.length_pos_iff]
      intro hnil
      rw [hnil] at hc'
      cases hc'
    have hget : (begun ++ c :: rest)[begun.length]? = some c := by
      rw [List.getElem?_append_right (Nat.le_refl _), Nat.sub_self, List.getElem?_cons_zero]
    have hb : c.beginningFragment = false := by
      rw [← Bool.not_eq_true, hrun.beginning _ c hget]
      omega
    have htsn : c.tsn = lastTsn + 1 := by
      have hchain := (List.isChain_append.mp hrun.consecutive).2.2 c' hc' c rfl
      rw [hchain, htsn']
    have hend := hrun.ending _ c hget
    rw [List.cons_append]
    unfold scanUnordered
    rw [hb, if_neg Bool.false_ne_true]
    dsimp only
    rw [if_neg (not_not.mpr htsn)]
    cases he : c.endingFragment with
    | true => rfl
    | false =>
      rw [if_neg Bool.false_ne_true]
      rw [List.append_cons] at hrun
      refine ih ⟨c, by rw [Option.mem_def, List.getLast?_concat], rfl⟩ hrun ?_
      intro hnil
      rw [hnil] at hend
      rw [he] at hend
      simp at hend

/-- A run at the head is found, whatever has been seen before. -/
theorem scanUnordered_head (hrun : IsRun run) {i nChunks : ℕ} {startIdx : Option ℕ} {lastTsn : U32} :
    (scanUnordered i startIdx nChunks lastTsn (run ++ post)).isSome = true := by
  obtain ⟨c, rest, rfl⟩ := List.exists_cons_of_ne_nil hrun.ne_nil
  have hb : c.beginningFragment = true := (hrun.beginning 0 c rfl).mpr rfl
  have hend := hrun.ending 0 c rfl
  rw [List.cons_append]
  unfold scanUnordered
  rw [hb, if_pos rfl]
  cases he : c.endingFragment with
  | true => rfl
  | false =>
    rw [if_neg Bool.false_ne_true]
    have hlast : ∃ c' ∈ [c].getLast?, c'.tsn = c.tsn := ⟨c, rfl, rfl⟩
    refine scanUnordered_rest hlast hrun ?_
    intro hnil
    rw [hnil, he] at hend
    simp at hend

/-- Or a run is found before it. -/
theorem scanUnordered_complete (hrun : IsRun run) {i nChunks : ℕ} {startIdx : Option ℕ}
    {lastTsn : U32} :
    (scanUnordered i startIdx nChunks lastTsn (pre ++ run ++ post)).isSome = true := by
  induction pre generalizing i nChunks startIdx lastTsn with
  | nil => exact scanUnordered_head hrun
  | cons c pre ih =>
    rw [List.cons_append, List.cons_append]
    unfold scanUnordered
    split
    · split
      · rfl
      · exact ih
    · split
      · exact ih
      · split
        · exact ih
        · split
          · rfl
          · exact ih

/-! ## Runs in a sorted list -/

/-- Strictly increasing TSNs, counted from a base. -/
def SortedFrom (base : U32) (l : List ChunkPayloadData) : Prop :=
  l.Pairwise fun c c' => Serial.dist base c.tsn < Serial.dist base c'.tsn

/-- The next TSN is one further. -/
theorem dist_of_consecutive {base : U32} {c d : ChunkPayloadData} (htsn : d.tsn = c.tsn + 1)
    (hc : Serial.dist base c.tsn < 2 ^ 31) :
    Serial.dist base d.tsn = Serial.dist base c.tsn + 1 := by
  have hone : Serial.dist c.tsn d.tsn = 1 := by
    rw [htsn]
    exact dist_after c.tsn (k := 1) (by decide)
  rw [Serial.dist_add (b := c.tsn) (by omega), hone]

/-- Within the window consecutive TSNs increase. -/
theorem sortedFrom_of_consecutive {base : U32} (hnear : ∀ c ∈ l, Serial.dist base c.tsn < 2 ^ 31)
    (hchain : l.IsChain fun c c' => c'.tsn = c.tsn + 1) : SortedFrom base l := by
  have hlt : l.IsChain fun c c' => Serial.dist base c.tsn < Serial.dist base c'.tsn := by
    refine hchain.imp_of_mem_imp fun c c' hc _ htsn => ?_
    have hdist := dist_of_consecutive htsn (hnear c hc)
    omega
  have hmap : (l.map fun c => Serial.dist base c.tsn).IsChain (· < ·) := (List.isChain_map _).mpr hlt
  exact List.pairwise_map.mp (List.isChain_iff_pairwise.mp hmap)

/-- Consecutive chunks of a sorted list follow one another in it. -/
theorem prefix_of_consecutive {base : U32} {rest : List ChunkPayloadData}
    (hsorted : SortedFrom base (c :: l)) (hnear : ∀ c' ∈ c :: l, Serial.dist base c'.tsn < 2 ^ 31)
    (hchain : (c :: rest).IsChain fun c c' => c'.tsn = c.tsn + 1) (hsub : rest ⊆ c :: l) :
    rest <+: l := by
  induction rest generalizing c l with
  | nil => exact List.nil_prefix
  | cons d rest ih =>
    have hrest : SortedFrom base (c :: d :: rest) := by
      refine sortedFrom_of_consecutive ?_ hchain
      intro c' hc'
      rcases List.mem_cons.mp hc' with rfl | hc'
      · exact hnear c' List.mem_cons_self
      · exact hnear c' (hsub hc')
    have hbeyond := (List.pairwise_cons.mp hrest).1
    -- what follows lies beyond `c`, so it is in the tail
    have htail : d :: rest ⊆ l := by
      intro y hy
      rcases List.mem_cons.mp (hsub hy) with heq | hin
      · have hlt := hbeyond y hy
        rw [heq] at hlt
        exact absurd hlt (Nat.lt_irrefl _)
      · exact hin
    obtain ⟨htsn, hchain'⟩ := List.isChain_cons_cons.mp hchain
    have hdist := dist_of_consecutive htsn (hnear c List.mem_cons_self)
    have hdl : d ∈ l := htail List.mem_cons_self
    obtain ⟨x, l', rfl⟩ := List.exists_cons_of_ne_nil (List.ne_nil_of_mem hdl)
    obtain ⟨hcl, hl⟩ := List.pairwise_cons.mp hsorted
    have hx : d = x := by
      rcases List.mem_cons.mp hdl with heq | hdl'
      · exact heq
      · have hlt := (List.pairwise_cons.mp hl).1 d hdl'
        have hcx := hcl x List.mem_cons_self
        omega
    subst hx
    rw [List.cons_prefix_cons]
    exact ⟨rfl, ih hl (fun c' hc' => hnear c' (List.mem_cons_of_mem _ hc')) hchain'
      fun y hy => htail (List.mem_cons_of_mem _ hy)⟩

/-- A run whose chunks are in a sorted list lies in it in one piece. -/
theorem exists_split_of_run {base : U32} (hsorted : SortedFrom base l)
    (hnear : ∀ c ∈ l, Serial.dist base c.tsn < 2 ^ 31) (hrun : IsRun run) (hsub : run ⊆ l) :
    ∃ pre post, l = pre ++ run ++ post := by
  obtain ⟨c, rest, rfl⟩ := List.exists_cons_of_ne_nil hrun.ne_nil
  obtain ⟨pre, tail, rfl⟩ := List.append_of_mem (hsub List.mem_cons_self)
  obtain ⟨_, htail, happart⟩ := List.pairwise_append.mp hsorted
  have hrest : SortedFrom base (c :: rest) :=
    sortedFrom_of_consecutive (fun c' hc' => hnear c' (hsub hc')) hrun.consecutive
  have hprefix : rest <+: tail := by
    refine prefix_of_consecutive htail (fun c' hc' => hnear c' (List.mem_append_right _ hc'))
      hrun.consecutive ?_
    intro y hy
    rcases List.mem_append.mp (hsub (List.mem_cons_of_mem c hy)) with hpre | hin
    · have hlt := happart y hpre c List.mem_cons_self
      have hlt' := (List.pairwise_cons.mp hrest).1 y hy
      omega
    · exact hin
  obtain ⟨post, hpost⟩ := hprefix
  exact ⟨pre, post, by rw [← hpost, List.append_assoc, List.cons_append]⟩

/-! ## The invariant -/

/-- The unordered chunks are sorted and contain no run, and every set is one. -/
structure Scanned (base : U32) (q : ReassemblyQueue) : Prop extends q.UnorderedComplete where
  sorted : SortedFrom base q.unorderedChunks
  near : ∀ c ∈ q.unorderedChunks, Serial.dist base c.tsn < 2 ^ 31

/-- Fewer chunks contain no run either. -/
theorem Scanned.sublist {base : U32} {q q' : ReassemblyQueue} (h : q.Scanned base)
    (hsets : q'.unordered ⊆ q.unordered) (hchunks : q'.unorderedChunks.Sublist q.unorderedChunks) :
    q'.Scanned base where
  complete s hs := h.complete s (hsets hs)
  noRun run hrun hsub := h.noRun run hrun fun _ hc => hchunks.subset (hsub hc)
  sorted := List.Pairwise.sublist hchunks h.sorted
  near c hc := h.near c (hchunks.subset hc)

/-- Inserting a chunk keeps the list sorted. -/
theorem SortedFrom.insert {base : U32} (hsorted : SortedFrom base l)
    (hnear : ∀ c' ∈ l ++ [c], Serial.dist base c'.tsn < 2 ^ 31) (hnew : ∀ c' ∈ l, c'.tsn ≠ c.tsn) :
    SortedFrom base (sortChunksByTsn (l ++ [c])) := by
  have hhalf : Serial.half 32 = 2 ^ 31 := rfl
  have hranks : StableSort.RanksOn (fun a b : ChunkPayloadData => sna32lt a.tsn b.tsn)
      (fun c => Serial.dist base c.tsn) (l ++ [c]) := by
    intro a ha b hb
    have hda := hnear a ha
    have hdb := hnear b hb
    exact Serial.lt_iff_dist_lt (by decide) (by omega) (by omega)
  refine StableSort.sortBy_pairwise_lt hranks ?_
  rw [List.map_append, List.nodup_append]
  refine ⟨?_, List.nodup_singleton _, ?_⟩
  · rw [List.Nodup, List.pairwise_map]
    exact hsorted.imp Nat.ne_of_lt
  · intro x hx y hy heq
    obtain ⟨c', hc', rfl⟩ := List.mem_map.mp hx
    rw [List.map_singleton, List.mem_singleton] at hy
    rw [hy] at heq
    exact hnew c' hc' (Serial.dist_inj heq)

/-- Chunks in the order of their distances are different. -/
theorem SortedFrom.nodup {base : U32} (h : SortedFrom base l) : l.Nodup := by
  refine List.Pairwise.imp (fun {a b} hlt heq => ?_) h
  rw [heq] at hlt
  exact Nat.lt_irrefl _ hlt

/-- A run among the chunks that a push has made complete has the chunk pushed. -/
theorem mem_of_newRun {l' : List ChunkPayloadData} (hno : ∀ run, IsRun run → ¬ run ⊆ l)
    (hl' : ∀ c' ∈ l', c' ∈ l ∨ c' = c) (hrun : IsRun run) (hsub : run ⊆ l') : c ∈ run := by
  by_contra hnot
  apply hno run hrun
  intro c' hc'
  rcases hl' c' (hsub hc') with hold | heq
  · exact hold
  · rw [heq] at hc'
    exact absurd hc' hnot

/-- **One extraction is enough.** -/
theorem Scanned.extract {base : U32} {q q' : ReassemblyQueue} {l : List ChunkPayloadData}
    (hcomplete : ∀ s ∈ q.unordered, IsRun s.chunks) (hno : ∀ run, IsRun run → ¬ run ⊆ l)
    (hl : ∀ c' ∈ q.unorderedChunks, c' ∈ l ∨ c' = c) (hsorted : SortedFrom base q.unorderedChunks)
    (hnear : ∀ c ∈ q.unorderedChunks, Serial.dist base c.tsn < 2 ^ 31)
    (hq' : q' = match q.findCompleteUnorderedChunkSet with
      | (q', some cset) => { q' with unordered := q'.unordered ++ [cset] }
      | (q', none) => q') : q'.Scanned base := by
  unfold findCompleteUnorderedChunkSet at hq'
  cases hscan : scanUnordered 0 none 0 0 q.unorderedChunks with
  | none =>
    rw [hscan] at hq'
    dsimp only at hq'
    subst hq'
    refine ⟨⟨hcomplete, ?_⟩, hsorted, hnear⟩
    intro run hrun hsub
    obtain ⟨pre, post, hsplit⟩ := exists_split_of_run hsorted hnear hrun hsub
    have hsome : (scanUnordered 0 none 0 0 (pre ++ run ++ post)).isSome = true :=
      scanUnordered_complete hrun
    rw [← hsplit, hscan] at hsome
    cases hsome
  | some found =>
    obtain ⟨start, n⟩ := found
    rw [hscan] at hq'
    dsimp only at hq'
    obtain ⟨before, run, after, hsplit, hstart, hn, hrun⟩ :=
      scanUnordered_sound (Scanning.none [] 0 0) hscan
    rw [List.nil_append] at hsplit
    have htake : q.unorderedChunks.take start = before := by
      rw [hsplit, List.append_assoc, ← hstart]
      exact List.take_left
    have hdrop : q.unorderedChunks.drop start = run ++ after := by
      rw [hsplit, List.append_assoc, ← hstart]
      exact List.drop_left
    have hdrop' : q.unorderedChunks.drop (start + n) = after := by
      rw [← List.drop_drop, hdrop, ← hn]
      exact List.drop_left
    have hrunTake : (q.unorderedChunks.drop start).take n = run := by
      rw [hdrop, ← hn]
      exact List.take_left
    rw [hrunTake, htake, hdrop'] at hq'
    have hsub : (before ++ after).Sublist q.unorderedChunks := by
      rw [hsplit, List.append_assoc]
      exact (List.sublist_append_right run after).append_left before
    subst hq'
    refine ⟨⟨?_, ?_⟩, List.Pairwise.sublist hsub hsorted, fun c hc => hnear c (hsub.subset hc)⟩
    · intro s hs
      rcases List.mem_append.mp hs with hold | hnew
      · exact hcomplete s hold
      · rw [List.mem_singleton.mp hnew]
        exact hrun
    · intro run' hrun' hsub'
      -- the chunk pushed would be in the run that is gone and in one that is left
      have hin : c ∈ run := by
        refine mem_of_newRun hno hl hrun fun c' hc' => ?_
        rw [hsplit]
        exact List.mem_append_left _ (List.mem_append_right _ hc')
      have hin' : c ∈ before ++ after :=
        hsub' (mem_of_newRun hno hl hrun' fun c' hc' => hsub.subset (hsub' hc'))
      have hnodup := hsorted.nodup
      rw [hsplit, List.append_assoc] at hnodup
      have hperm : (before ++ (run ++ after)).Perm (run ++ (before ++ after)) := by
        rw [← List.append_assoc, ← List.append_assoc]
        exact List.perm_append_comm.append_right after
      rw [hperm.nodup_iff] at hnodup
      exact (List.nodup_append.mp hnodup).2.2 c hin c hin' rfl

/-! ## Runs of the queue -/

/-- A push of a new chunk near the base. -/
theorem Scanned.push {base : U32} {q : ReassemblyQueue} {chunk : ChunkPayloadData}
    (h : q.Scanned base) (hfresh : q.PushesFresh (.push chunk))
    (hnear : Serial.dist base chunk.tsn < 2 ^ 31) : (q.push chunk).1.Scanned base := by
  rcases q.push_cases chunk with ⟨_, heq⟩ | ⟨_, _, _, q', hq', heq⟩ | ⟨_, _, _, hord⟩
  · rw [heq]
    exact h
  · have hall : ∀ c ∈ q.unorderedChunks ++ [chunk], Serial.dist base c.tsn < 2 ^ 31 := by
      intro c hc
      rcases List.mem_append.mp hc with hold | hnew
      · exact h.near c hold
      · rw [List.mem_singleton.mp hnew]
        exact hnear
    have hnew : ∀ c ∈ q.unorderedChunks, c.tsn ≠ chunk.tsn :=
      fun c hc => hfresh c (List.mem_append_right _ hc)
    have hsorted : SortedFrom base q'.unorderedChunks := by
      rw [hq']
      exact SortedFrom.insert h.sorted hall hnew
    have hmem : ∀ c ∈ q'.unorderedChunks, c ∈ q.unorderedChunks ++ [chunk] := by
      rw [hq']
      exact fun c hc => (sortChunksByTsn_perm _).mem_iff.mp hc
    refine Scanned.extract (c := chunk) (l := q.unorderedChunks) ?_ h.noRun ?_ hsorted
      (fun c hc => hall c (hmem c hc)) heq
    · rw [hq']
      exact h.complete
    · intro c hc
      rcases List.mem_append.mp (hmem c hc) with hold | hnew
      · exact Or.inl hold
      · exact Or.inr (List.mem_singleton.mp hnew)
  · rcases hord with ⟨ordered, ok, _, heq⟩ | ⟨_, heq⟩
    · rw [heq]
      exact h.sublist (List.Subset.refl _) (List.Sublist.refl _)
    · rw [heq]
      exact h.sublist (List.Subset.refl _) (List.Sublist.refl _)

/-- The chunks pushed lie in the window. -/
def PushesNear (base : U32) (q : ReassemblyQueue) (op : ReassemblyOp) : Prop :=
  q.PushesFresh op ∧ ∀ chunk, op = .push chunk → Serial.dist base chunk.tsn < 2 ^ 31

/-- **One operation** that pushes new chunks near the base. -/
theorem Scanned.applyOp {base : U32} (q : ReassemblyQueue) (op : ReassemblyOp)
    (hop : PushesNear base q op) (h : q.Scanned base) : (q.applyOp op).Scanned base := by
  cases op with
  | push chunk => exact h.push hop.1 (hop.2 chunk rfl)
  | read bufLen =>
    show (q.read bufLen).1.Scanned base
    rw [read_fst]
    rcases q.takeReadable_cases with heq | ⟨cset, rest, hu, heq⟩ | ⟨cset, rest, hu, _, _, _, heq⟩
    · rw [heq]
      exact h.sublist (List.Subset.refl _) (List.Sublist.refl _)
    · rw [heq]
      refine h.sublist ?_ (List.Sublist.refl _)
      rw [hu]
      exact List.subset_cons_self cset rest
    · rw [heq]
      exact h.sublist (List.Subset.refl _) (List.Sublist.refl _)
  | forwardTsnForOrdered lastSsn =>
    show (q.forwardTsnForOrdered lastSsn).Scanned base
    rw [forwardTsnForOrdered_eq]
    exact h.sublist (List.Subset.refl _) (List.Sublist.refl _)
  | forwardTsnForUnordered newCumulativeTsn =>
    show (q.forwardTsnForUnordered newCumulativeTsn).Scanned base
    rw [forwardTsnForUnordered_eq]
    exact h.sublist (List.Subset.refl _) (List.dropWhile_sublist _)

/-- What has not been pushed before is not held. -/
theorem along_pushesNear {base : U32} {q : ReassemblyQueue} {ops : List ReassemblyOp}
    (hheld : ∀ c ∈ q.held, ∀ d ∈ pushedChunks ops, c.tsn ≠ d.tsn)
    (hnodup : ((pushedChunks ops).map (·.tsn)).Nodup)
    (hwindow : ∀ c ∈ pushedChunks ops, Serial.dist base c.tsn < 2 ^ 31) :
    Runs.Along applyOp (PushesNear base) q ops := by
  induction ops generalizing q with
  | nil => trivial
  | cons op ops ih =>
    have hlater : ∀ d ∈ pushedChunks ops, d ∈ pushedChunks (op :: ops) := by
      intro d hd
      cases op with
      | push chunk => exact List.mem_cons_of_mem chunk hd
      | read bufLen => exact hd
      | forwardTsnForOrdered lastSsn => exact hd
      | forwardTsnForUnordered newCumulativeTsn => exact hd
    have hnodup' : ((pushedChunks ops).map (·.tsn)).Nodup := by
      cases op with
      | push chunk => exact (List.nodup_cons.mp hnodup).2
      | read bufLen => exact hnodup
      | forwardTsnForOrdered lastSsn => exact hnodup
      | forwardTsnForUnordered newCumulativeTsn => exact hnodup
    have hfirst : PushesNear base q op := by
      cases op with
      | push chunk =>
        refine ⟨fun c hc => hheld c hc chunk List.mem_cons_self, ?_⟩
        intro chunk' heq
        injection heq with heq
        rw [← heq]
        exact hwindow chunk List.mem_cons_self
      | read bufLen => exact ⟨trivial, fun chunk heq => by cases heq⟩
      | forwardTsnForOrdered lastSsn => exact ⟨trivial, fun chunk heq => by cases heq⟩
      | forwardTsnForUnordered newCumulativeTsn => exact ⟨trivial, fun chunk heq => by cases heq⟩
    refine ⟨hfirst, ih ?_ hnodup' fun c hc => hwindow c (hlater c hc)⟩
    -- what is held after the step was held before or is the chunk just pushed
    intro c hc d hd
    have hmem := (held_applyOp hfirst.1).mem_iff.mpr (List.mem_append_left _ hc)
    rcases List.mem_append.mp hmem with hold | hnew
    · exact hheld c hold d (hlater d hd)
    · cases op with
      | push chunk =>
        rw [accepted_push] at hnew
        split at hnew
        · rw [List.mem_singleton.mp hnew]
          intro heq
          refine (List.nodup_cons.mp hnodup).1 (List.mem_map.mpr ⟨d, hd, ?_⟩)
          exact heq.symm
        · cases hnew
      | read bufLen => cases hnew
      | forwardTsnForOrdered lastSsn => cases hnew
      | forwardTsnForUnordered newCumulativeTsn => cases hnew

/-- The account of a run. -/
theorem held_run {q : ReassemblyQueue} {ops : List ReassemblyOp}
    (hops : Runs.Along applyOp PushesFresh q ops) :
    (q.held ++ (Runs.outputs applyOp accepted q ops).flatten).Perm
      ((Runs.run applyOp q ops).held ++ ((Runs.outputs applyOp taken q ops).flatten ++
        (Runs.outputs applyOp discarded q ops).flatten)) := by
  induction ops generalizing q with
  | nil => rfl
  | cons op ops ih =>
    have hone := List.perm_iff_count.mp (held_applyOp hops.1)
    have hrest := List.perm_iff_count.mp (ih hops.2)
    rw [List.perm_iff_count]
    intro c
    have hone := hone c
    have hrest := hrest c
    show List.count c (q.held ++ (q.accepted op ++ _)) =
      List.count c (_ ++ ((q.taken op ++ _) ++ (q.discarded op ++ _)))
    simp only [List.count_append, Runs.run_cons] at hone hrest ⊢
    omega

/-- **Reassembly** loses, duplicates and mixes nothing. -/
theorem reassembles_of_run {si : U16} {ops : List ReassemblyOp} {base : U32}
    (hnodup : ((pushedChunks ops).map (·.tsn)).Nodup)
    (hwindow : ∀ c ∈ pushedChunks ops, Serial.dist base c.tsn < 2 ^ 31) :
    (Runs.run applyOp (new si) ops).UnorderedComplete ∧
      ((Runs.outputs applyOp accepted (new si) ops).flatten).Perm
        ((Runs.run applyOp (new si) ops).held ++ ((Runs.outputs applyOp taken (new si) ops).flatten ++
          (Runs.outputs applyOp discarded (new si) ops).flatten)) ∧
      Runs.Along applyOp ReadsTaken (new si) ops := by
  have hempty : ∀ c ∈ (new si).held, ∀ d ∈ pushedChunks ops, c.tsn ≠ d.tsn :=
    fun c hc => absurd hc List.not_mem_nil
  have halong : Runs.Along applyOp (PushesNear base) (new si) ops :=
    along_pushesNear hempty hnodup hwindow
  have hscanned : (new si).Scanned base := by
    refine ⟨⟨fun s hs => absurd hs List.not_mem_nil, ?_⟩, List.Pairwise.nil,
      fun c hc => absurd hc List.not_mem_nil⟩
    intro run hrun hsub
    exact hrun.ne_nil (List.subset_nil.mp hsub)
  have hfresh : Runs.Along applyOp PushesFresh (new si) ops :=
    Runs.along_mono (fun _ _ hop => hop.1) halong
  have hread : Runs.Along applyOp ReadsTaken (new si) ops :=
    Runs.along_mono (fun q op _ => q.readsTaken op) hfresh
  exact ⟨(Runs.run_invariant_along Scanned.applyOp hscanned halong).toUnorderedComplete,
    held_run hfresh, hread⟩

/-- Two messages, the fragments of the first from behind, and what is left over is skipped. -/
def unorderedOps : List ReassemblyOp :=
  [.push { tsn := 1, unordered := true, endingFragment := true, userData := [2] },
    .push { tsn := 3, unordered := true, userData := [4] },
    .push { tsn := 0, unordered := true, beginningFragment := true, userData := [1] },
    .read 10, .forwardTsnForUnordered 3]

theorem reassembles_unorderedOps :
    (Runs.run applyOp (new 0) unorderedOps).UnorderedComplete ∧
      ((Runs.outputs applyOp accepted (new 0) unorderedOps).flatten).Perm
        ((Runs.run applyOp (new 0) unorderedOps).held ++
          ((Runs.outputs applyOp taken (new 0) unorderedOps).flatten ++
            (Runs.outputs applyOp discarded (new 0) unorderedOps).flatten)) ∧
      Runs.Along applyOp ReadsTaken (new 0) unorderedOps :=
  @reassembles_of_run 0 unorderedOps 0 (by decide) (by decide)

end ReassemblyQueue

end Sctp
