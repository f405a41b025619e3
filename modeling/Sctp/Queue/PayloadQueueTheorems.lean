import Sctp.Queue.PayloadQueue

/-!
# Facts about the payload queue

`WF` is what any use of the queue keeps: the sorted keys are the keys of the map. `Window`
is the shape the sender's queue has, the TSNs of one interval in their order, and `Ahead`
that of the receiver's. `Touched` relates a queue to itself after assignments to the
sender's bookkeeping.
-/

namespace Sctp

/-! ## Intervals of TSNs -/

/-- The `n` TSNs that follow `base`. -/
def tsnWindow (base : U32) (n : ℕ) : List U32 := (List.range n).map fun k => base.after (k + 1)

/-- The `k`th TSN after a base is at distance `k`. -/
theorem dist_after (base : U32) {k : ℕ} (hk : k < 2 ^ 32) : Serial.dist base (base.after k) = k :=
  Serial.dist_add_ofNat base hk

/-- Every TSN comes after the base, at its distance. -/
theorem after_dist (base t : U32) : base.after (Serial.dist base t) = t := Serial.add_dist base t

/-- Counting on in two parts. -/
theorem after_add (base : U32) (k l : ℕ) : (base.after k).after l = base.after (k + l) := by
  unfold U32.after
  rw [BitVec.add_assoc, ← BitVec.ofNat_add]

/-- Counting on by one. -/
theorem after_succ (base : U32) (k : ℕ) : base.after k + 1 = base.after (k + 1) :=
  after_add base k 1

@[simp] theorem after_zero (base : U32) : base.after 0 = base := BitVec.add_zero base

/-- A window holds the TSNs that follow its base. -/
theorem mem_tsnWindow {base t : U32} {n : ℕ} (hn : n < 2 ^ 32) :
    t ∈ tsnWindow base n ↔ 0 < Serial.dist base t ∧ Serial.dist base t ≤ n := by
  unfold tsnWindow
  rw [List.mem_map]
  constructor
  · intro ⟨k, hk, ht⟩
    rw [List.mem_range] at hk
    rw [← ht, dist_after base (by omega)]
    omega
  · intro ⟨hpos, hle⟩
    refine ⟨Serial.dist base t - 1, List.mem_range.mpr (by omega), ?_⟩
    rw [Nat.sub_add_cancel hpos, after_dist]

@[simp] theorem length_tsnWindow (base : U32) (n : ℕ) : (tsnWindow base n).length = n := by
  simp [tsnWindow]

/-- A window without its first TSN begins one later. -/
theorem tsnWindow_succ_left (base : U32) (n : ℕ) :
    tsnWindow base (n + 1) = (base + 1) :: tsnWindow (base + 1) n := by
  unfold tsnWindow
  rw [List.range_succ_eq_map, List.map_cons, List.map_map]
  congr 1
  refine List.map_congr_left fun k _ => ?_
  show base.after (k + 1 + 1) = (base.after 1).after (k + 1)
  rw [after_add, Nat.add_comm]

/-- The last TSN of a window. -/
theorem tsnWindow_succ_right (base : U32) (n : ℕ) :
    tsnWindow base (n + 1) = tsnWindow base n ++ [base.after (n + 1)] := by
  unfold tsnWindow
  rw [List.range_succ, List.map_append]
  rfl

/-- It lists them by distance. -/
theorem tsnWindow_pairwise (base : U32) {n : ℕ} (hn : n < 2 ^ 32) :
    (tsnWindow base n).Pairwise fun a b => Serial.dist base a < Serial.dist base b := by
  unfold tsnWindow
  rw [List.pairwise_map]
  refine List.pairwise_lt_range.imp_of_mem fun {a b} ha hb hlt => ?_
  rw [List.mem_range] at ha hb
  rw [dist_after base (by omega), dist_after base (by omega)]
  omega

/-- So none of them twice. -/
theorem tsnWindow_nodup (base : U32) {n : ℕ} (hn : n < 2 ^ 32) : (tsnWindow base n).Nodup := by
  refine (tsnWindow_pairwise base hn).imp fun h heq => ?_
  rw [heq] at h
  exact Nat.lt_irrefl _ h

/-- Up to half the space, an interval comes out of the sort as it is. -/
theorem sortBy_tsnWindow (base : U32) {n : ℕ} (hn : n ≤ 2 ^ 31) :
    StableSort.sortBy sna32lt (tsnWindow base n) = tsnWindow base n := by
  have hrank : StableSort.RanksOn sna32lt (Serial.dist base) (tsnWindow base n) := by
    intro a ha b hb
    rw [mem_tsnWindow (by omega)] at ha hb
    exact sna32lt_iff_dist_lt (by omega) (by omega) ha.1 hb.1
  exact StableSort.sortBy_eq_of_rank hrank (List.Perm.refl _) (tsnWindow_pairwise base (by omega))

namespace PayloadQueue

variable {q q' : PayloadQueue}

/-! ## Well-formed queues -/

/-- The sorted keys are the keys of the map, each once; a chunk lies under its TSN. -/
structure WF (q : PayloadQueue) : Prop where
  nodup : q.sorted.Nodup
  mem_iff : ∀ t, t ∈ q.sorted ↔ t ∈ q.chunkMap
  tsn_eq : ∀ t c, q.chunkMap.lookup t = some c → c.tsn = t
  length_eq : q.length = q.sorted.length

/-- An empty queue. -/
theorem WF.new : WF {} where
  nodup := List.nodup_nil
  mem_iff t := by simp
  tsn_eq t c hc := by simp at hc
  length_eq := rfl

/-- `len` counts the sorted keys; the assertion in `len` compares it to `length`. -/
theorem WF.len_eq (h : q.WF) : q.len = q.sorted.length := by
  refine List.Perm.length_eq ?_
  rw [List.perm_ext_iff_of_nodup q.chunkMap.keys_nodup h.nodup]
  intro t
  rw [h.mem_iff t, AList.mem_keys]

/-- Under every TSN of the list there is a chunk with it. -/
theorem WF.exists_get (h : q.WF) {t : U32} (ht : t ∈ q.sorted) :
    ∃ c, q.chunkMap.lookup t = some c ∧ c.tsn = t := by
  have hmem := (h.mem_iff t).mp ht
  obtain ⟨c, hc⟩ := Option.isSome_iff_exists.mp (AList.lookup_isSome.mpr hmem)
  exact ⟨c, hc, h.tsn_eq t c hc⟩

/-- A push of a new TSN. -/
theorem WF.pushNoCheck (h : q.WF) {p : ChunkPayloadData} (hp : p.tsn ∉ q.chunkMap) :
    (q.pushNoCheck p).WF where
  nodup := by
    have hperm := StableSort.sortBy_perm sna32lt (q.sorted ++ [p.tsn])
    refine hperm.nodup_iff.mpr (List.nodup_append.mpr ⟨h.nodup, List.nodup_singleton _, ?_⟩)
    intro a ha b hb hab
    rw [List.mem_singleton] at hb
    subst hab
    subst hb
    exact hp ((h.mem_iff _).mp ha)
  mem_iff t := by
    show t ∈ StableSort.sortBy sna32lt (q.sorted ++ [p.tsn]) ↔ t ∈ q.chunkMap.insert p.tsn p
    rw [StableSort.mem_sortBy, List.mem_append, List.mem_singleton, AList.mem_insert, h.mem_iff t]
    exact Or.comm
  tsn_eq t c hc := by
    have hc' : (q.chunkMap.insert p.tsn p).lookup t = some c := hc
    by_cases ht : t = p.tsn
    · subst ht
      rw [AList.lookup_insert, Option.some.injEq] at hc'
      rw [← hc']
    · rw [AList.lookup_insert_ne ht] at hc'
      exact h.tsn_eq t c hc'
  length_eq := by
    show q.length + 1 = (StableSort.sortBy sna32lt (q.sorted ++ [p.tsn])).length
    rw [StableSort.length_sortBy, List.length_append, h.length_eq]
    rfl

/-- A push does not make the queue shorter. -/
theorem len_le_pushNoCheck (q : PayloadQueue) (p : ChunkPayloadData) :
    q.len ≤ (q.pushNoCheck p).len := by
  show q.chunkMap.keys.length ≤ (q.chunkMap.insert p.tsn p).keys.length
  rw [AList.keys_insert, List.length_cons]
  have := List.le_length_erase (l := q.chunkMap.keys) (a := p.tsn)
  omega

/-- A TSN that is not the oldest one is not popped. -/
theorem pop_of_head?_ne {t : U32} (h : q.sorted.head? ≠ some t) : q.pop t = (q, none) := by
  unfold pop
  cases hs : q.sorted with
  | nil => rfl
  | cons first rest =>
    rw [hs, List.head?_cons, ne_eq, Option.some.injEq] at h
    exact if_neg (Ne.symm h)

/-- The oldest TSN is. -/
theorem WF.pop_head (h : q.WF) {t : U32} {rest : List U32} (hs : q.sorted = t :: rest) :
    ∃ c q', q.pop t = (q', some c) ∧ q.chunkMap.lookup t = some c ∧ q'.sorted = rest ∧
      q'.chunkMap = q.chunkMap.erase t ∧ q'.WF := by
  obtain ⟨c, hc, _⟩ := h.exists_get (t := t) (by rw [hs]; exact List.mem_cons_self ..)
  have hnd : t ∉ rest ∧ rest.Nodup := by
    have := h.nodup
    rwa [hs, List.nodup_cons] at this
  refine ⟨c, { q with
    sorted := rest, chunkMap := q.chunkMap.erase t, length := q.length - 1
    nBytes := q.nBytes - c.userData.length }, ?_, hc, rfl, rfl, ?_, ?_, ?_, ?_⟩
  · unfold pop
    rw [hs]
    dsimp only
    rw [if_pos rfl, hc]
  · exact hnd.2
  · intro t'
    show t' ∈ rest ↔ t' ∈ q.chunkMap.erase t
    rw [AList.mem_erase, ← h.mem_iff t', hs, List.mem_cons]
    constructor
    · intro hmem
      refine ⟨?_, Or.inr hmem⟩
      rintro rfl
      exact hnd.1 hmem
    · intro ⟨hne, hmem⟩
      exact hmem.resolve_left hne
  · intro t' c' hc'
    have hc'' : (q.chunkMap.erase t).lookup t' = some c' := hc'
    by_cases ht : t' = t
    · subst ht
      rw [AList.lookup_erase] at hc''
      cases hc''
    · rw [AList.lookup_erase_ne ht] at hc''
      exact h.tsn_eq t' c' hc''
  · show q.length - 1 = rest.length
    rw [h.length_eq, hs]
    rfl

/-- A pop counts the bytes off. -/
theorem nBytes_pop {t : U32} {q' : PayloadQueue} {c : ChunkPayloadData}
    (h : q.pop t = (q', some c)) : q'.nBytes = q.nBytes - c.userData.length := by
  unfold PayloadQueue.pop at h
  split at h
  · cases h
  · split at h
    · split at h
      · injection h with hq hc
        injection hc with hc
        rw [← hq, ← hc]
      · cases h
    · cases h

/-! ## The sender's queue -/

/-- The queue holds the `n` TSNs that follow `base`, in their order. -/
structure Window (q : PayloadQueue) (base : U32) (n : ℕ) : Prop extends q.WF where
  sorted_eq : q.sorted = tsnWindow base n

/-- The keys are the `n` TSNs that follow `base`, however they are sorted. -/
structure Spans (q : PayloadQueue) (base : U32) (n : ℕ) : Prop extends q.WF where
  mem : ∀ t, t ∈ q.chunkMap ↔ 0 < Serial.dist base t ∧ Serial.dist base t ≤ n

/-- There are no more keys than pushes. -/
def Counted (q : PayloadQueue) : Prop := q.len ≤ q.length

/-- A push counts one more. -/
theorem Counted.pushNoCheck (h : q.Counted) (p : ChunkPayloadData) : (q.pushNoCheck p).Counted := by
  show (q.chunkMap.insert p.tsn p).keys.length ≤ q.length + 1
  have hlen : q.chunkMap.keys.length ≤ q.length := h
  have := List.length_erase_le (l := q.chunkMap.keys) (a := p.tsn)
  rw [AList.keys_insert, List.length_cons]
  omega

/-- A pop counts one less. -/
theorem Counted.pop (h : q.Counted) (t : U32) : (q.pop t).1.Counted := by
  have hlen : q.chunkMap.keys.length ≤ q.length := h
  unfold PayloadQueue.pop
  split
  · exact h
  · split
    · split
      · rename_i c hc
        have hmem : t ∈ q.chunkMap.keys := by
          rw [← AList.mem_keys, ← AList.lookup_isSome, hc]
          rfl
        show (q.chunkMap.erase t).keys.length ≤ q.length - 1
        rw [AList.keys_erase, List.length_erase_of_mem hmem]
        omega
      · exact h
    · exact h

/-- The queue is empty if nothing is counted. -/
theorem Counted.isEmpty (h : q.Counted) (hlen : q.length = 0) : q.isEmpty = true := by
  unfold Counted at h
  unfold PayloadQueue.isEmpty
  rw [decide_eq_true_eq]
  omega

namespace Spans

variable {q : PayloadQueue} {base : U32} {n : ℕ}

/-- The keys are the TSNs of the window, in some order. -/
theorem keys_perm (h : q.Spans base n) (hn : n < 2 ^ 32) :
    q.chunkMap.keys.Perm (tsnWindow base n) := by
  rw [List.perm_ext_iff_of_nodup q.chunkMap.keys_nodup (tsnWindow_nodup base hn)]
  intro t
  rw [mem_tsnWindow hn, ← AList.mem_keys]
  exact h.mem t

/-- Going on from the `k`th TSN lists the rest of the window. -/
theorem tsnsFromUpTo (h : q.Spans base n) (hn : n < 2 ^ 32) {k fuel : ℕ} (hk : k ≤ n)
    (hfuel : n - k ≤ fuel) :
    q.tsnsFromUpTo fuel (base.after (k + 1)) = tsnWindow (base.after k) (n - k) := by
  induction fuel generalizing k with
  | zero =>
    rw [show n - k = 0 by omega]
    rfl
  | succ fuel ih =>
    unfold PayloadQueue.tsnsFromUpTo
    rcases Nat.lt_or_ge k n with hlt | hge
    · rw [if_pos, after_succ, ih (by omega) (by omega)]
      · obtain ⟨m, hm⟩ : ∃ m, n - k = m + 1 := ⟨n - k - 1, by omega⟩
        rw [hm, tsnWindow_succ_left, after_succ, show n - (k + 1) = m by omega]
      · rw [h.mem, dist_after base (by omega)]
        omega
    · rw [if_neg, show n - k = 0 by omega]
      · rfl
      · rw [h.mem]
        rcases Nat.lt_or_ge (k + 1) (2 ^ 32) with hlt' | hge'
        · rw [dist_after base hlt']
          omega
        · have hk' : base.after (k + 1) = base := by
            rw [show k + 1 = 2 ^ 32 by omega]
            unfold U32.after
            rw [show BitVec.ofNat 32 (2 ^ 32) = 0#32 by decide, BitVec.add_zero]
          rw [hk', Serial.dist_self]
          omega

theorem tsnsFrom_eq (h : q.Spans base n) (hn : n < 2 ^ 32) {k : ℕ} (hk : k ≤ n) :
    q.tsnsFrom (base.after (k + 1)) = tsnWindow (base.after k) (n - k) := by
  refine h.tsnsFromUpTo hn hk ?_
  have hlen := (h.keys_perm hn).length_eq
  rw [length_tsnWindow] at hlen
  omega

/-- The next TSN makes the window longer by one. -/
theorem pushNoCheck (h : q.Spans base n) (hn : n + 1 < 2 ^ 32) {p : ChunkPayloadData}
    (hp : p.tsn = base.after (n + 1)) : (q.pushNoCheck p).Spans base (n + 1) where
  toWF := by
    refine h.toWF.pushNoCheck ?_
    rw [hp, h.mem, dist_after base (by omega)]
    omega
  mem t := by
    have hdist := dist_after base (k := n + 1) hn
    show t ∈ q.chunkMap.insert p.tsn p ↔ _
    rw [AList.mem_insert, h.mem, hp]
    constructor
    · intro ht
      rcases ht with rfl | ht
      · omega
      · omega
    · intro ht
      by_cases hlast : Serial.dist base t = n + 1
      · exact Or.inl (Serial.dist_inj (hlast.trans hdist.symm))
      · exact Or.inr (by omega)

end Spans

namespace Window

variable {base : U32} {n : ℕ}

theorem new (base : U32) : Window {} base 0 where
  toWF := WF.new
  sorted_eq := rfl

/-- The length is that of the window. -/
theorem len_eq (h : q.Window base n) : q.len = n := by
  rw [h.toWF.len_eq, h.sorted_eq, length_tsnWindow]

/-- It is empty without a TSN. -/
theorem isEmpty_iff (h : q.Window base n) : q.isEmpty = true ↔ n = 0 := by
  unfold isEmpty
  rw [decide_eq_true_eq, h.len_eq]

/-- What is in the queue is what is in the window. -/
theorem mem_window (h : q.Window base n) (hn : n < 2 ^ 32) (t : U32) :
    t ∈ q.chunkMap ↔ 0 < Serial.dist base t ∧ Serial.dist base t ≤ n := by
  rw [← h.toWF.mem_iff t, h.sorted_eq, mem_tsnWindow hn]

/-- Under every TSN in the window there is a chunk. -/
theorem exists_get (h : q.Window base n) (hn : n < 2 ^ 32) {t : U32}
    (hpos : 0 < Serial.dist base t) (hle : Serial.dist base t ≤ n) :
    ∃ c, q.get t = some c ∧ c.tsn = t := by
  refine h.toWF.exists_get ?_
  rw [h.sorted_eq, mem_tsnWindow hn]
  exact ⟨hpos, hle⟩

/-- Outside it there is none. -/
theorem get_eq_none (h : q.Window base n) (hn : n < 2 ^ 32) {t : U32}
    (hout : ¬(0 < Serial.dist base t ∧ Serial.dist base t ≤ n)) : q.get t = none := by
  rw [get, AList.lookup_eq_none, h.mem_window hn]
  exact hout

/-- A chunk with the next TSN goes to the end. -/
theorem pushNoCheck (h : q.Window base n) (hn : n + 1 ≤ 2 ^ 31) {p : ChunkPayloadData}
    (hp : p.tsn = base.after (n + 1)) : (q.pushNoCheck p).Window base (n + 1) where
  toWF := by
    refine h.toWF.pushNoCheck ?_
    rw [hp, h.mem_window (by omega), dist_after base (by omega)]
    omega
  sorted_eq := by
    show StableSort.sortBy sna32lt (q.sorted ++ [p.tsn]) = _
    rw [h.sorted_eq, hp, ← tsnWindow_succ_right]
    exact sortBy_tsnWindow base hn

/-- A push leaves the other TSNs. -/
theorem get_pushNoCheck {p : ChunkPayloadData} {t : U32} (ht : t ≠ p.tsn) :
    (q.pushNoCheck p).get t = q.get t := AList.lookup_insert_ne ht

theorem get_pushNoCheck_self (p : ChunkPayloadData) : (q.pushNoCheck p).get p.tsn = some p :=
  AList.lookup_insert q.chunkMap

/-- The oldest chunk leaves it from the front. -/
theorem pop (h : q.Window base (n + 1)) : ∃ c q', q.pop (base + 1) = (q', some c) ∧
    q.get (base + 1) = some c ∧ q'.Window (base + 1) n ∧
      ∀ t, q'.get t = if t = base + 1 then none else q.get t := by
  have hsorted : q.sorted = (base + 1) :: tsnWindow (base + 1) n := by
    rw [h.sorted_eq, tsnWindow_succ_left]
  obtain ⟨c, q', hpop, hget, hsorted', hmap, hwf⟩ := h.toWF.pop_head hsorted
  refine ⟨c, q', hpop, hget, ⟨hwf, hsorted'⟩, ?_⟩
  intro t
  rw [PayloadQueue.get, hmap]
  by_cases ht : t = base + 1
  · rw [if_pos ht, ht, AList.lookup_erase]
  · rw [if_neg ht, AList.lookup_erase_ne ht]
    rfl

/-- From an empty window nothing is popped. -/
theorem pop_of_zero (h : q.Window base 0) (t : U32) : q.pop t = (q, none) := by
  refine pop_of_head?_ne ?_
  rw [h.sorted_eq]
  simp [tsnWindow]

/-- A window spans its TSNs. -/
theorem spans (h : q.Window base n) (hn : n < 2 ^ 32) : q.Spans base n where
  toWF := h.toWF
  mem := h.mem_window hn

/-- The loops over consecutive TSNs go over all that follow. -/
theorem tsnsFrom (h : q.Window base n) (hn : n < 2 ^ 32) {k : ℕ} (hk : k ≤ n) :
    q.tsnsFrom (base.after (k + 1)) = tsnWindow (base.after k) (n - k) :=
  (h.spans hn).tsnsFrom_eq hn hk

end Window

/-! ## The receiver's queue -/

/-- All TSNs lie ahead of `base`, within half of the space, and are sorted by their distance. -/
structure Ahead (q : PayloadQueue) (base : U32) : Prop extends q.WF where
  ahead : ∀ t ∈ q.sorted, 0 < Serial.dist base t ∧ Serial.dist base t ≤ 2 ^ 31
  increasing : q.sorted.Pairwise fun t t' => Serial.dist base t < Serial.dist base t'

namespace Ahead

variable {q : PayloadQueue} {base : U32}

/-- An empty queue. -/
theorem new (base : U32) : Ahead {} base where
  toWF := WF.new
  ahead t ht := by cases ht
  increasing := List.Pairwise.nil

/-- What is held lies in the half ahead of the base. -/
theorem ahead_of_mem (h : q.Ahead base) {t : U32} (ht : t ∈ q.chunkMap) :
    0 < Serial.dist base t ∧ Serial.dist base t ≤ 2 ^ 31 := h.ahead t ((h.mem_iff t).mpr ht)

/-- What `can_push` lets in. -/
theorem canPush_iff {p : ChunkPayloadData} : q.canPush p base = true ↔
    p.tsn ∉ q.chunkMap ∧ 0 < Serial.dist base p.tsn ∧ Serial.dist base p.tsn ≤ 2 ^ 31 := by
  have hlte : sna32lte p.tsn base = false ↔
      0 < Serial.dist base p.tsn ∧ Serial.dist base p.tsn ≤ 2 ^ 31 := by
    rw [← Bool.not_eq_true, sna32lte_iff]
    by_cases heq : base = p.tsn
    · rw [← heq, Serial.dist_self]
      omega
    · rw [Serial.dist_comm_of_ne heq]
      have hlt := Serial.dist_lt base p.tsn
      have hne : Serial.dist base p.tsn ≠ 0 := fun h0 => heq (Serial.dist_eq_zero.mp h0).symm
      omega
  unfold canPush
  rw [Bool.not_eq_true', Bool.or_eq_false_iff, decide_eq_false_iff_not, hlte]

/-- A TSN that can be pushed is pushed. -/
theorem push_eq {p : ChunkPayloadData} (hp : q.canPush p base = true) :
    (q.push p base).1 = q.pushNoCheck p := by
  unfold canPush at hp
  rw [Bool.not_eq_true', Bool.or_eq_false_iff, decide_eq_false_iff_not] at hp
  unfold push
  rw [if_neg]
  intro hor
  rcases hor with hmem | hlte
  · exact hp.1 hmem
  · rw [hp.2] at hlte
    cases hlte

/-- A push adds its TSN. -/
theorem mem_pushNoCheck (q : PayloadQueue) (p : ChunkPayloadData) (t : U32) :
    t ∈ (q.pushNoCheck p).chunkMap ↔ t ∈ q.chunkMap ∨ t = p.tsn := by
  show t ∈ q.chunkMap.insert p.tsn p ↔ _
  rw [AList.mem_insert]
  exact or_comm

/-- The order of the sort is that of the distances. -/
theorem pushNoCheck (h : q.Ahead base) {p : ChunkPayloadData} (hp : q.canPush p base = true) :
    (q.pushNoCheck p).Ahead base := by
  obtain ⟨hnew, hpos, hle⟩ := canPush_iff.mp hp
  have hahead : ∀ t ∈ q.sorted ++ [p.tsn], 0 < Serial.dist base t ∧ Serial.dist base t ≤ 2 ^ 31 := by
    intro t ht
    rw [List.mem_append, List.mem_singleton] at ht
    rcases ht with ht | rfl
    · exact h.ahead t ht
    · exact ⟨hpos, hle⟩
  have hranks : StableSort.RanksOn sna32lt (Serial.dist base) (q.sorted ++ [p.tsn]) := by
    intro a ha b hb
    exact sna32lt_iff_dist_lt (hahead a ha).2 (hahead b hb).2 (hahead a ha).1 (hahead b hb).1
  have hinj : ((q.sorted ++ [p.tsn]).map (Serial.dist base)).Nodup := by
    refine List.Nodup.map (fun x y => Serial.dist_inj) ?_
    refine List.nodup_append.mpr ⟨h.nodup, List.nodup_singleton _, ?_⟩
    intro a ha b hb hab
    rw [List.mem_singleton] at hb
    rw [hab, hb] at ha
    exact hnew ((h.mem_iff _).mp ha)
  refine ⟨h.toWF.pushNoCheck hnew, ?_, StableSort.sortBy_pairwise_lt hranks hinj⟩
  intro t ht
  have ht' : t ∈ StableSort.sortBy sna32lt (q.sorted ++ [p.tsn]) := ht
  rw [StableSort.mem_sortBy] at ht'
  exact hahead t ht'

theorem dist_next (base : U32) : Serial.dist base (base + 1) = 1 :=
  dist_after base (k := 1) (by omega)

/-- A base that is not at the next TSN's heels may go on. -/
theorem shift (h : q.Ahead base) (hnext : base + 1 ∉ q.chunkMap) : q.Ahead (base + 1) := by
  have hdist : ∀ t ∈ q.sorted, 0 < Serial.dist (base + 1) t ∧
      Serial.dist (base + 1) t + 1 = Serial.dist base t := by
    intro t ht
    have hpos := (h.ahead t ht).1
    have hsucc := dist_succ_of_pos hpos
    refine ⟨?_, hsucc⟩
    by_contra hzero
    have heq : t = base + 1 := Serial.dist_eq_zero.mp (by omega)
    rw [heq] at ht
    exact hnext ((h.mem_iff _).mp ht)
  refine ⟨h.toWF, ?_, ?_⟩
  · intro t ht
    have hd := hdist t ht
    have hle := (h.ahead t ht).2
    omega
  · refine h.increasing.imp_of_mem fun ht ht' hlt => ?_
    have hd := hdist _ ht
    have hd' := hdist _ ht'
    omega

/-- The next TSN is the oldest one if it is there. -/
theorem pop (h : q.Ahead base) (hnext : base + 1 ∈ q.chunkMap) :
    ∃ c q', q.pop (base + 1) = (q', some c) ∧ q'.Ahead (base + 1) ∧
      q.sorted = (base + 1) :: q'.sorted ∧
      ∀ t, t ∈ q'.chunkMap ↔ t ∈ q.chunkMap ∧ t ≠ base + 1 := by
  have hone := dist_next base
  have hmem := (h.mem_iff _).mpr hnext
  obtain ⟨first, rest, hs⟩ := List.exists_cons_of_ne_nil (List.ne_nil_of_mem hmem)
  have hsorted := h.increasing
  rw [hs, List.pairwise_cons] at hsorted
  have hfirst : first = base + 1 := by
    rw [hs, List.mem_cons] at hmem
    rcases hmem with heq | hin
    · exact heq.symm
    · have hlt := hsorted.1 _ hin
      have hpos := (h.ahead first (by rw [hs]; exact List.mem_cons_self ..)).1
      omega
  subst hfirst
  obtain ⟨c, q', hpop, _, hrest, hmap, hwf⟩ := h.toWF.pop_head hs
  have hmem' : ∀ t, t ∈ q'.chunkMap ↔ t ∈ q.chunkMap ∧ t ≠ base + 1 := by
    intro t
    rw [hmap, AList.mem_erase]
    exact and_comm
  refine ⟨c, q', hpop, ?_, by rw [hrest, hs], hmem'⟩
  have hahead : q'.Ahead base := by
    refine ⟨hwf, ?_, ?_⟩
    · intro t ht
      rw [hrest] at ht
      exact h.ahead t (by rw [hs]; exact List.mem_cons_of_mem _ ht)
    · rw [hrest]
      exact hsorted.2
  refine hahead.shift ?_
  rw [hmem']
  exact fun hboth => hboth.2 rfl

/-- The next TSN is not popped if it is not there. -/
theorem pop_of_notMem (h : q.Ahead base) (hnext : base + 1 ∉ q.chunkMap) :
    q.pop (base + 1) = (q, none) := by
  refine pop_of_head?_ne ?_
  intro hhead
  exact hnext ((h.mem_iff _).mp (List.mem_of_head? hhead))

end Ahead

/-! ## Bookkeeping -/

/-- The chunk without the sender's bookkeeping; an acknowledged one also loses its data. -/
def label (c : ChunkPayloadData) : ChunkPayloadData :=
  { c with userData := [], acked := false, missIndicator := 0, nsent := 0, retransmit := false }

/-- `q'` is `q` up to the bookkeeping of its chunks. -/
structure Touched (q q' : PayloadQueue) : Prop where
  sorted : q'.sorted = q.sorted
  length : q'.length = q.length
  get : ∀ t, (q'.get t).map label = (q.get t).map label

namespace Touched

theorem refl (q : PayloadQueue) : Touched q q := ⟨rfl, rfl, fun _ => rfl⟩

theorem trans {q₁ q₂ q₃ : PayloadQueue} (h : Touched q₁ q₂) (h' : Touched q₂ q₃) :
    Touched q₁ q₃ where
  sorted := h'.sorted.trans h.sorted
  length := h'.length.trans h.length
  get t := (h'.get t).trans (h.get t)

/-- An update of all chunks that keeps their labels. -/
theorem mapVals (q : PayloadQueue) {f : U32 → ChunkPayloadData → ChunkPayloadData} (n : ℕ)
    (hf : ∀ t c, label (f t c) = label c) :
    Touched q { q with chunkMap := q.chunkMap.mapVals f, nBytes := n } where
  sorted := rfl
  length := rfl
  get t := by
    show (((q.chunkMap.mapVals f).lookup t).map label) = _
    rw [AssocMap.lookup_mapVals, Option.map_map]
    exact Option.map_congr fun c _ => hf t c

/-- An update of one chunk that keeps its label. -/
theorem modify (q : PayloadQueue) (t : U32) {f : ChunkPayloadData → ChunkPayloadData} (n : ℕ)
    (hf : ∀ c, label (f c) = label c) :
    Touched q { q with chunkMap := q.chunkMap.modify t f, nBytes := n } := by
  refine mapVals q n fun t' c => ?_
  split
  · exact hf c
  · rfl

theorem getMut (q : PayloadQueue) (t : U32) {f : ChunkPayloadData → ChunkPayloadData}
    (hf : ∀ c, label (f c) = label c) : Touched q (q.getMut t f) := modify q t q.nBytes hf

/-- Acknowledging keeps the label. -/
theorem markAsAcked (q : PayloadQueue) (t : U32) : Touched q (q.markAsAcked t).1 := by
  unfold PayloadQueue.markAsAcked
  split
  · exact modify q t _ fun c => rfl
  · exact refl q

/-- So does marking for retransmission. -/
theorem markAllToRetransmit (q : PayloadQueue) (flags : SharedFlags) :
    Touched q (q.markAllToRetransmit flags) := by
  refine mapVals q q.nBytes fun _ c => ?_
  split <;> rfl

/-- What a label tells is the same before and after. -/
theorem map_eq (h : Touched q q') (t : U32) {β : Type} {f : ChunkPayloadData → β}
    (hf : ∀ c, f (label c) = f c) : (q'.get t).map f = (q.get t).map f := by
  have hlabel : ∀ o : Option ChunkPayloadData, (o.map label).map f = o.map f := by
    intro o
    rw [Option.map_map]
    exact Option.map_congr fun c _ => hf c
  rw [← hlabel (q'.get t), h.get t, hlabel]

/-- A chunk found afterwards was there before, with the same label. -/
theorem get_eq_some (h : Touched q q') {t : U32} {c' : ChunkPayloadData}
    (hc' : q'.get t = some c') : ∃ c, q.get t = some c ∧ label c = label c' := by
  have := h.get t
  rw [hc'] at this
  cases hc : q.get t with
  | none => rw [hc] at this; cases this
  | some c =>
    rw [hc] at this
    exact ⟨c, rfl, (Option.some.inj this).symm⟩

/-- The same TSNs are there. -/
theorem mem_iff (h : Touched q q') (t : U32) : t ∈ q'.chunkMap ↔ t ∈ q.chunkMap := by
  have := congrArg Option.isSome (h.get t)
  rw [Option.isSome_map, Option.isSome_map] at this
  rw [← AList.lookup_isSome, ← AList.lookup_isSome]
  show (q'.get t).isSome = true ↔ (q.get t).isSome = true
  rw [this]

/-- So the length is the same. -/
theorem len_eq (h : Touched q q') : q'.len = q.len := by
  refine List.Perm.length_eq ?_
  rw [List.perm_ext_iff_of_nodup q'.chunkMap.keys_nodup q.chunkMap.keys_nodup]
  exact h.mem_iff

theorem isEmpty_eq (h : Touched q q') : q'.isEmpty = q.isEmpty := by
  unfold isEmpty
  rw [h.len_eq]

theorem counted (h : Touched q q') (hq : q.Counted) : q'.Counted := by
  unfold Counted
  rw [h.len_eq, h.length]
  exact hq

/-- So what was well formed is. -/
theorem wf (h : Touched q q') (hq : q.WF) : q'.WF where
  nodup := h.sorted ▸ hq.nodup
  mem_iff t := by rw [h.sorted, h.mem_iff t, hq.mem_iff t]
  tsn_eq t c' hc' := by
    obtain ⟨c, hc, hlabel⟩ := h.get_eq_some hc'
    have htsn : (label c).tsn = (label c').tsn := congrArg ChunkPayloadData.tsn hlabel
    exact htsn.symm.trans (hq.tsn_eq t c hc)
  length_eq := by rw [h.length, h.sorted, hq.length_eq]

/-- And a window stays one. -/
theorem window (h : Touched q q') {base : U32} {n : ℕ} (hq : q.Window base n) :
    q'.Window base n where
  toWF := h.wf hq.toWF
  sorted_eq := h.sorted.trans hq.sorted_eq

end Touched

/-! ## The length -/

/-- The assertion of `len`. -/
def LengthAgrees (q : PayloadQueue) : Prop := q.length = q.len

instance (q : PayloadQueue) : Decidable q.LengthAgrees := inferInstanceAs (Decidable (_ = _))

theorem LengthAgrees.touched (h : q.LengthAgrees) (ht : q.Touched q') : q'.LengthAgrees := by
  unfold LengthAgrees
  rw [ht.len_eq, ht.length]
  exact h

/-- A pop that finds nothing changes no length. -/
theorem LengthAgrees.pop_none {t : U32} (h : q.LengthAgrees) (hpop : q.pop t = (q', none)) :
    q'.LengthAgrees := by
  unfold PayloadQueue.pop at hpop
  split at hpop
  · cases hpop
    exact h
  · split at hpop
    · split at hpop
      · cases hpop
      · cases hpop
        exact h
    · cases hpop
      exact h

/-- A pop that finds a chunk takes one off on both sides. -/
theorem LengthAgrees.pop_some {t : U32} {c : ChunkPayloadData} (h : q.LengthAgrees)
    (hpop : q.pop t = (q', some c)) : q'.LengthAgrees ∧ q'.len + 1 = q.len := by
  unfold PayloadQueue.pop at hpop
  split at hpop
  · cases hpop
  · split at hpop
    · split at hpop
      · rename_i c' hc
        cases hpop
        have hmem : t ∈ q.chunkMap.keys := by
          rw [← AList.mem_keys, ← AList.lookup_isSome, hc]
          rfl
        have hkeys : (q.chunkMap.erase t).keys.length + 1 = q.chunkMap.keys.length := by
          rw [AList.keys_erase, List.length_erase_of_mem hmem]
          have hpos := List.length_pos_of_mem hmem
          omega
        have hlength : q.length = q.chunkMap.keys.length := h
        refine ⟨?_, hkeys⟩
        show q.length - 1 = (q.chunkMap.erase t).keys.length
        omega
      · cases hpop
    · cases hpop

end PayloadQueue

end Sctp
