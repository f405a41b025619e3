import Sctp.Lib.ConsecutiveRun
import Sctp.Queue.OrderedDeliveryTheorems

/-!
# Ordered messages that arrive in pieces

The ordered messages of a stream are cut into chunks, which arrive in any order. What the queue
holds is a function of the TSNs that have been accepted and of the number of messages that have
been read: one set for each message of which something is there. So a read hands out the next
message as soon as it is whole, and nothing else.
-/

namespace Sctp

/-- A message of the stream, or the beginning of one, under the TSNs it is sent with. -/
structure IsBlock (si ssn : U16) (block : List ChunkPayloadData) : Prop where
  ne_nil : block ≠ []
  short : block.length ≤ 2 ^ 31
  consecutive : Serial.Consecutive (·.tsn) block
  beginning : ∀ i c, block[i]? = some c → (c.beginningFragment = true ↔ i = 0)
  ending : ∀ i c, block[i]? = some c → c.endingFragment = true → i + 1 = block.length
  stream : ∀ c ∈ block, c.streamIdentifier = si
  number : ∀ c ∈ block, c.streamSequenceNumber = ssn
  kind : ∀ c ∈ block, c.unordered = false
  payloadType : ∀ c ∈ block, ∀ c' ∈ block, c.payloadType = c'.payloadType

/-- The block has the end of its message. -/
def EndsMessage (block : List ChunkPayloadData) : Prop :=
  ∃ c ∈ block.getLast?, c.endingFragment = true

/-- The TSNs of the blocks are all different, and each block is of the message its place says. -/
structure InTurn (si : U16) (blocks : List (List ChunkPayloadData)) : Prop where
  isBlock : ∀ j block, blocks[j]? = some block → IsBlock si (BitVec.ofNat 16 j) block
  distinct : (blocks.flatten.map (·.tsn)).Nodup

/-- What has been accepted of a block. -/
def acceptedOf (accepted : List U32) (block : List ChunkPayloadData) : List ChunkPayloadData :=
  block.filter fun c => c.tsn ∈ accepted

/-- The whole message has been accepted. -/
def Whole (accepted : List U32) (block : List ChunkPayloadData) : Prop :=
  acceptedOf accepted block = block ∧ EndsMessage block

/-- The set of a block, if anything of it has been accepted. -/
def collected (accepted : List U32) (ssn : U16) (block : List ChunkPayloadData) : List ChunkSet :=
  match acceptedOf accepted block with
  | [] => []
  | c :: cs => [{ ssn, ppi := c.payloadType, chunks := c :: cs }]

/-- What has been accepted of a block, as a set. -/
def blockSet (accepted : List U32) (ssn : U16) (ppi : PayloadProtocolIdentifier)
    (block : List ChunkPayloadData) : ChunkSet :=
  { ssn, ppi, chunks := acceptedOf accepted block }

/-- The sets of the blocks, which are numbered from `j` on. -/
def collectFrom (accepted : List U32) : ℕ → List (List ChunkPayloadData) → List ChunkSet
  | _, [] => []
  | j, block :: blocks =>
    collected accepted (BitVec.ofNat 16 j) block ++ collectFrom accepted (j + 1) blocks

variable {accepted : List U32} {si ssn : U16} {block : List ChunkPayloadData}
  {blocks pre post : List (List ChunkPayloadData)} {c : ChunkPayloadData} {r j : ℕ}

/-! ## A block -/

theorem mem_acceptedOf : c ∈ acceptedOf accepted block ↔ c ∈ block ∧ c.tsn ∈ accepted := by
  unfold acceptedOf
  rw [List.mem_filter, decide_eq_true_eq]

/-- A block of which nothing was accepted has no set. -/
theorem collected_of_nil (h : acceptedOf accepted block = []) : collected accepted ssn block = [] := by
  unfold collected
  rw [h]

namespace IsBlock

/-- The TSNs increase, counted from the first one. -/
theorem exists_base (h : IsBlock si ssn block) : ∃ base, (∀ c ∈ block, Serial.dist base c.tsn < 2 ^ 31) ∧
    block.Pairwise fun c c' => Serial.dist base c.tsn < Serial.dist base c'.tsn := by
  obtain ⟨first, rest, rfl⟩ := List.exists_cons_of_ne_nil h.ne_nil
  have hshort := h.short
  refine ⟨first.tsn, ?_, h.consecutive.pairwise (by omega)⟩
  intro c hc
  obtain ⟨i, hi, hget⟩ := List.getElem_of_mem hc
  have hkey := h.consecutive.key_getElem? (List.getElem?_eq_some_iff.mpr ⟨hi, hget⟩)
  rw [hkey, Serial.dist_add_ofNat _ (by omega)]
  omega

/-- The set of what has been accepted. -/
theorem collected_eq (h : IsBlock si ssn block) (hc : c ∈ block) (hsome : acceptedOf accepted block ≠ []) :
    collected accepted ssn block = [blockSet accepted ssn c.payloadType block] := by
  obtain ⟨d, ds, hds⟩ := List.exists_cons_of_ne_nil hsome
  have hd : d ∈ block := by
    have hmem : d ∈ acceptedOf accepted block := by
      rw [hds]
      exact List.mem_cons_self
    exact (mem_acceptedOf.mp hmem).1
  unfold collected blockSet
  rw [hds]
  dsimp only
  rw [h.payloadType d hd c hc]

/-- It is complete exactly when it is the whole block and the block has the end of its message. -/
theorem isComplete_iff (h : IsBlock si ssn block) (ppi : PayloadProtocolIdentifier) :
    (blockSet accepted ssn ppi block).isComplete = true ↔
      acceptedOf accepted block = block ∧ EndsMessage block := by
  have hsub : (acceptedOf accepted block).Sublist block := List.filter_sublist
  have hshort := h.short
  constructor
  · intro hcomplete
    have hnumber : ∀ c ∈ acceptedOf accepted block, c.streamSequenceNumber = ssn :=
      fun c hc => h.number c (mem_acceptedOf.mp hc).1
    obtain ⟨hchain, ⟨first, hfirst, hb⟩, ⟨last, hlast, he⟩, _⟩ :=
      ChunkSet.isOrderedMessage hcomplete hnumber
    -- what is accepted first is the beginning, what is accepted last is the ending
    have hhead : block.head? = some first := by
      obtain ⟨i, hi, hget⟩ := List.getElem_of_mem (hsub.mem (List.mem_of_mem_head? hfirst))
      have hat := List.getElem?_eq_some_iff.mpr ⟨hi, hget⟩
      have hzero := (h.beginning i first hat).mp hb
      rw [hzero] at hat
      rw [List.head?_eq_getElem?]
      exact hat
    have hend : block.getLast? = some last := by
      obtain ⟨i, hi, hget⟩ := List.getElem_of_mem (hsub.mem (List.mem_of_getLast? hlast))
      have hat := List.getElem?_eq_some_iff.mpr ⟨hi, hget⟩
      have hlen := h.ending i last hat he
      rw [List.getLast?_eq_getElem?, ← hlen, Nat.add_sub_cancel]
      exact hat
    refine ⟨?_, last, hend, he⟩
    refine h.consecutive.eq_of_sublist hchain hsub ?_ ?_ (by omega)
    · rw [hhead]
      exact hfirst
    · rw [hend]
      exact hlast
  · rintro ⟨hall, last, hlast, he⟩
    unfold blockSet
    rw [hall]
    obtain ⟨first, rest, rfl⟩ := List.exists_cons_of_ne_nil h.ne_nil
    have hb := (h.beginning 0 first rfl).mpr rfl
    unfold ChunkSet.isComplete
    dsimp only
    rw [hb, hlast, Option.map_some, Option.getD_some, he, isContiguousFrom_iff.mpr h.consecutive]
    rfl

end IsBlock

/-! ## Blocks in turn -/

/-- The sets of blocks in a row. -/
theorem collectFrom_append (pre post : List (List ChunkPayloadData)) (j : ℕ) :
    collectFrom accepted j (pre ++ post) =
      collectFrom accepted j pre ++ collectFrom accepted (j + pre.length) post := by
  induction pre generalizing j with
  | nil => rfl
  | cons block pre ih =>
    rw [List.cons_append, collectFrom, collectFrom, ih, List.append_assoc, List.length_cons,
      Nat.add_assoc, Nat.add_comm 1]

/-- Only what was accepted of these blocks matters. -/
theorem collectFrom_congr {accepted' : List U32}
    (h : ∀ block ∈ blocks, acceptedOf accepted' block = acceptedOf accepted block) (j : ℕ) :
    collectFrom accepted' j blocks = collectFrom accepted j blocks := by
  induction blocks generalizing j with
  | nil => rfl
  | cons block blocks ih =>
    have hblock := h block List.mem_cons_self
    rw [collectFrom, collectFrom, ih fun b hb => h b (List.mem_cons_of_mem _ hb)]
    unfold collected
    rw [hblock]

/-- Every set is that of a block of which something has been accepted. -/
theorem mem_collectFrom {s : ChunkSet} (h : s ∈ collectFrom accepted j blocks) :
    ∃ i block, blocks[i]? = some block ∧ s.ssn = BitVec.ofNat 16 (j + i) ∧
      s.chunks = acceptedOf accepted block ∧ acceptedOf accepted block ≠ [] := by
  induction blocks generalizing j with
  | nil => cases h
  | cons block blocks ih =>
    rw [collectFrom, List.mem_append] at h
    rcases h with hfirst | hrest
    · unfold collected at hfirst
      cases hacc : acceptedOf accepted block with
      | nil =>
        rw [hacc] at hfirst
        cases hfirst
      | cons d ds =>
        rw [hacc, List.mem_singleton] at hfirst
        subst hfirst
        exact ⟨0, block, rfl, rfl, hacc.symm, by rw [hacc]; exact List.cons_ne_nil d ds⟩
    · obtain ⟨i, block', hget, hssn, hrest⟩ := ih hrest
      exact ⟨i + 1, block', hget, by rw [hssn, Nat.add_assoc, Nat.add_comm 1], hrest⟩

/-- All of what has been accepted lies within half the space of SSNs. -/
def WithinHalf (accepted : List U32) (blocks : List (List ChunkPayloadData)) : Prop :=
  ∀ i block, blocks[i]? = some block → acceptedOf accepted block ≠ [] → i < 2 ^ 15

/-- Counting on from an SSN, less than once round. -/
theorem dist_ofNat_add (r : ℕ) {i : ℕ} (hi : i < 2 ^ 16) :
    Serial.dist (BitVec.ofNat 16 r) (BitVec.ofNat 16 (r + i)) = i := by
  rw [BitVec.ofNat_add]
  exact Serial.dist_add_ofNat _ hi

/-- The sets lie in the half of the SSNs that begins at the next one. -/
theorem WithinHalf.dist_lt (h : WithinHalf accepted blocks) {s : ChunkSet}
    (hs : s ∈ collectFrom accepted r blocks) :
    Serial.dist (BitVec.ofNat 16 r) s.ssn < 2 ^ 15 := by
  obtain ⟨i, block, hget, hssn, _, hsome⟩ := mem_collectFrom hs
  have hi := h i block hget hsome
  rw [hssn, dist_ofNat_add r (by omega)]
  exact hi

/-- The SSNs of the sets increase from block to block. -/
theorem collectFrom_pairwise {k : ℕ}
    (h : ∀ i block, blocks[i]? = some block → acceptedOf accepted block ≠ [] → k + i < 2 ^ 16) :
    (collectFrom accepted (r + k) blocks).Pairwise fun s s' =>
      Serial.dist (BitVec.ofNat 16 r) s.ssn < Serial.dist (BitVec.ofNat 16 r) s'.ssn := by
  induction blocks generalizing k with
  | nil => exact List.Pairwise.nil
  | cons block blocks ih =>
    have hlater : ∀ i b, blocks[i]? = some b → acceptedOf accepted b ≠ [] → k + 1 + i < 2 ^ 16 := by
      intro i b hget hsome
      have := h (i + 1) b hget hsome
      omega
    rw [collectFrom, List.pairwise_append]
    refine ⟨?_, ih hlater, ?_⟩
    · unfold collected
      split
      · exact List.Pairwise.nil
      · exact List.pairwise_singleton _ _
    · intro s hs s' hs'
      obtain ⟨i, b, hget, hssn', _, hsome'⟩ := mem_collectFrom hs'
      have hi := hlater i b hget hsome'
      have hssn : s.ssn = BitVec.ofNat 16 (r + k) := by
        unfold collected at hs
        split at hs
        · cases hs
        · rw [List.mem_singleton] at hs
          rw [hs]
      rw [hssn, hssn', Nat.add_assoc r k 1, Nat.add_assoc r, dist_ofNat_add r (by omega),
        dist_ofNat_add r hi]
      omega

/-- The sets are in the order of their numbers. -/
theorem WithinHalf.pairwise (h : WithinHalf accepted blocks) (r : ℕ) :
    (collectFrom accepted r blocks).Pairwise fun s s' =>
      Serial.dist (BitVec.ofNat 16 r) s.ssn < Serial.dist (BitVec.ofNat 16 r) s'.ssn := by
  refine collectFrom_pairwise (k := 0) fun i block hget hsome => ?_
  have hi := h i block hget hsome
  omega

/-! ## A chunk arrives -/

/-- Only the block of the chunk gets more. -/
theorem acceptedOf_of_ne {t : U32} (h : ∀ d ∈ block, d.tsn ≠ t) :
    acceptedOf (accepted ++ [t]) block = acceptedOf accepted block := by
  unfold acceptedOf
  apply List.filter_congr
  intro d hd
  have hne := h d hd
  simp [hne]

/-- It gets the chunk. -/
theorem IsBlock.acceptedOf_perm (h : IsBlock si ssn block) (hc : c ∈ block) (hnew : c.tsn ∉ accepted) :
    (acceptedOf (accepted ++ [c.tsn]) block).Perm (acceptedOf accepted block ++ [c]) := by
  obtain ⟨base, _, hpair⟩ := h.exists_base
  have hinj : ∀ d ∈ block, ∀ d' ∈ block, d.tsn = d'.tsn → d = d' := by
    have hnodup : (block.map (·.tsn)).Nodup := by
      rw [List.Nodup, List.pairwise_map]
      refine hpair.imp fun {d d'} hlt heq => ?_
      rw [heq] at hlt
      exact Nat.lt_irrefl _ hlt
    exact fun d hd d' hd' heq => List.inj_on_of_nodup_map hnodup hd hd' heq
  obtain ⟨before, behind, rfl⟩ := List.append_of_mem hc
  have hnodup : (before ++ c :: behind).Nodup := hpair.imp fun {d d'} hlt heq => by
    rw [heq] at hlt
    exact Nat.lt_irrefl _ hlt
  have hother : ∀ d ∈ before ++ behind, d.tsn ≠ c.tsn := by
    intro d hd heq
    have hmem : d ∈ before ++ c :: behind := by
      rcases List.mem_append.mp hd with hd | hd
      · exact List.mem_append_left _ hd
      · exact List.mem_append_right _ (List.mem_cons_of_mem c hd)
    have hsame := hinj d hmem c hc heq
    subst hsame
    rw [List.nodup_middle, List.nodup_cons] at hnodup
    exact hnodup.1 hd
  have hbefore : acceptedOf (accepted ++ [c.tsn]) before = acceptedOf accepted before :=
    acceptedOf_of_ne fun d hd => hother d (List.mem_append_left behind hd)
  have hbehind : acceptedOf (accepted ++ [c.tsn]) behind = acceptedOf accepted behind :=
    acceptedOf_of_ne fun d hd => hother d (List.mem_append_right before hd)
  unfold acceptedOf at hbefore hbehind ⊢
  rw [List.filter_append, List.filter_append, List.filter_cons_of_pos (by simp),
    List.filter_cons_of_neg (by simpa using hnew), hbefore, hbehind, List.append_assoc]
  exact (List.perm_append_singleton c _).symm.append_left _

/-- The chunk finds its place in the set of its block. -/
theorem IsBlock.push_collected (h : IsBlock si ssn block) (hc : c ∈ block) (hnew : c.tsn ∉ accepted) :
    ((blockSet accepted ssn c.payloadType block).push c).1 =
      blockSet (accepted ++ [c.tsn]) ssn c.payloadType block := by
  obtain ⟨base, hnear, hpair⟩ := h.exists_base
  have hnone : (acceptedOf accepted block).any (·.tsn = c.tsn) = false := by
    rw [List.any_eq_false]
    intro d hd heq
    rw [decide_eq_true_eq] at heq
    rw [← heq] at hnew
    exact hnew (mem_acceptedOf.mp hd).2
  have hsorted : sortChunksByTsn (acceptedOf accepted block ++ [c]) =
      acceptedOf (accepted ++ [c.tsn]) block := by
    have hmem : ∀ d ∈ acceptedOf accepted block ++ [c], Serial.dist base d.tsn < 2 ^ 31 := by
      intro d hd
      rcases List.mem_append.mp hd with hd | hd
      · exact hnear d (mem_acceptedOf.mp hd).1
      · rw [List.mem_singleton] at hd
        rw [hd]
        exact hnear c hc
    have hranks : StableSort.RanksOn (fun d d' : ChunkPayloadData => sna32lt d.tsn d'.tsn)
        (fun d => Serial.dist base d.tsn) (acceptedOf accepted block ++ [c]) := by
      intro d hd d' hd'
      have hlt := hmem d hd
      have hlt' := hmem d' hd'
      have hhalf : Serial.half 32 = 2 ^ 31 := rfl
      exact Serial.lt_iff_dist_lt (by decide) (by omega) (by omega)
    exact StableSort.sortBy_eq_of_rank hranks (h.acceptedOf_perm hc hnew)
      (hpair.sublist List.filter_sublist)
  unfold ChunkSet.push blockSet
  dsimp only
  rw [hnone, if_neg Bool.false_ne_true, hsorted]

/-- A whole block stays whole. -/
theorem Whole.append (h : Whole accepted block) (t : U32) : Whole (accepted ++ [t]) block := by
  refine ⟨?_, h.2⟩
  unfold acceptedOf
  rw [List.filter_eq_self]
  intro d hd
  rw [← h.1] at hd
  exact decide_eq_true (List.mem_append_left _ (mem_acceptedOf.mp hd).2)

/-- The blocks in front of one of those that are left, and those behind it. -/
theorem exists_split (hget : blocks[j]? = some block) :
    ∃ pre post, blocks = pre ++ block :: post ∧ pre.length = j := by
  obtain ⟨hj, rfl⟩ := List.getElem?_eq_some_iff.mp hget
  refine ⟨blocks.take j, blocks.drop (j + 1), ?_, ?_⟩
  · rw [← List.drop_eq_getElem_cons hj, List.take_append_drop]
  · rw [List.length_take]
    omega

/-- A block has no TSN of another one. -/
theorem InTurn.ne_of_ne (h : InTurn si (pre ++ block :: post)) (hc : c ∈ block) :
    ∀ b ∈ pre ++ post, ∀ d ∈ b, d.tsn ≠ c.tsn := by
  intro b hb d hd heq
  have hperm : (pre ++ block :: post).Perm (block :: (pre ++ post)) := List.perm_middle
  have hdistinct := (hperm.flatten.map (·.tsn)).nodup_iff.mp h.distinct
  rw [List.flatten_cons, List.map_append, List.nodup_append] at hdistinct
  have hd' : d.tsn ∈ ((pre ++ post).flatten).map (·.tsn) :=
    List.mem_map_of_mem (List.mem_flatten_of_mem hb hd)
  exact hdistinct.2.2 c.tsn (List.mem_map_of_mem hc) d.tsn hd' heq.symm

/-- What has been accepted with a chunk of the message stays near. -/
theorem WithinHalf.push (h : WithinHalf accepted (pre ++ block :: post)) (hlen : pre.length < 2 ^ 15)
    {t : U32} (ht : ∀ b ∈ pre ++ post, ∀ d ∈ b, d.tsn ≠ t) :
    WithinHalf (accepted ++ [t]) (pre ++ block :: post) := by
  intro i b hb hsome
  by_cases hi : i = pre.length
  · omega
  · apply h i b hb
    have hmem : b ∈ pre ++ post := by
      by_cases hlt : i < pre.length
      · rw [List.getElem?_append_left hlt] at hb
        exact List.mem_append_left _ (List.mem_of_getElem? hb)
      · obtain ⟨k, hk⟩ : ∃ k, i - pre.length = k + 1 := ⟨i - pre.length - 1, by omega⟩
        rw [List.getElem?_append_right (by omega), hk, List.getElem?_cons_succ] at hb
        exact List.mem_append_right _ (List.mem_of_getElem? hb)
    rw [acceptedOf_of_ne (ht b hmem)] at hsome
    exact hsome

/-- The sets of the blocks, with what the chunk changes. -/
theorem collectFrom_push (hother : ∀ b ∈ pre ++ post, ∀ d ∈ b, d.tsn ≠ c.tsn) :
    collectFrom (accepted ++ [c.tsn]) r (pre ++ block :: post) =
      collectFrom accepted r pre ++
        (collected (accepted ++ [c.tsn]) (BitVec.ofNat 16 (r + pre.length)) block ++
          collectFrom accepted (r + pre.length + 1) post) := by
  rw [collectFrom_append, collectFrom,
    collectFrom_congr fun b hb => acceptedOf_of_ne (hother b (List.mem_append_left _ hb)),
    collectFrom_congr fun b hb => acceptedOf_of_ne (hother b (List.mem_append_right _ hb))]

namespace ReassemblyQueue

/-- Sets in front with other SSNs are passed over. -/
theorem pushOrdered_append {front sets : List ChunkSet}
    (h : ∀ s ∈ front, s.ssn ≠ c.streamSequenceNumber) :
    pushOrdered c (front ++ sets) = (pushOrdered c sets).map fun (sets, ok) => (front ++ sets, ok) := by
  induction front with
  | nil =>
    rw [List.nil_append]
    cases pushOrdered c sets <;> rfl
  | cons s front ih =>
    have hs := h s List.mem_cons_self
    rw [List.cons_append, pushOrdered, if_neg hs, ih fun s' hs' => h s' (List.mem_cons_of_mem s hs')]
    cases pushOrdered c sets <;> rfl

/-- No set has the SSN of the chunk. -/
theorem pushOrdered_none {sets : List ChunkSet} (h : ∀ s ∈ sets, s.ssn ≠ c.streamSequenceNumber) :
    pushOrdered c sets = none := by
  have happend : pushOrdered c (sets ++ []) = _ := pushOrdered_append h
  rw [List.append_nil] at happend
  exact happend

/-- `r` messages have been read, and the queue holds what has been accepted of the others. -/
structure Collects (accepted : List U32) (blocks : List (List ChunkPayloadData)) (r : ℕ)
    (q : ReassemblyQueue) : Prop where
  ordered : q.ordered = collectFrom accepted r (blocks.drop r)
  next : q.nextSsn = BitVec.ofNat 16 r
  unordered : q.unordered = []
  near : WithinHalf accepted (blocks.drop r)
  passed : ∀ j < r, ∃ block, blocks[j]? = some block ∧ Whole accepted block

variable {q : ReassemblyQueue} {d : ChunkPayloadData}

/-- Nothing was accepted yet. -/
theorem Collects.new (si : U16) : (new si).Collects [] blocks 0 := by
  have hnone : ∀ block : List ChunkPayloadData, acceptedOf [] block = [] := by
    intro block
    unfold acceptedOf
    rw [List.filter_eq_nil_iff]
    simp
  refine ⟨?_, rfl, rfl, fun i block _ hsome => absurd (hnone block) hsome,
    fun j hj => absurd hj (Nat.not_lt_zero j)⟩
  have hsets : ∀ j, collectFrom [] j blocks = [] := by
    induction blocks with
    | nil => exact fun _ => rfl
    | cons block blocks ih =>
      intro j
      rw [collectFrom, ih, collected_of_nil (hnone block)]
      rfl
  exact (hsets 0).symm

/-- What is accepted for another stream does not count. -/
theorem Collects.other (h : q.Collects accepted blocks r) {t : U32}
    (ht : ∀ block ∈ blocks, ∀ d ∈ block, d.tsn ≠ t) : q.Collects (accepted ++ [t]) blocks r := by
  have hsame : ∀ block ∈ blocks, acceptedOf (accepted ++ [t]) block = acceptedOf accepted block :=
    fun block hblock => acceptedOf_of_ne (ht block hblock)
  refine ⟨?_, h.next, h.unordered, ?_, ?_⟩
  · rw [h.ordered, collectFrom_congr fun block hblock => hsame block (List.mem_of_mem_drop hblock)]
  · intro i block hget hsome
    rw [hsame block (List.mem_of_mem_drop (List.mem_of_getElem? hget))] at hsome
    exact h.near i block hget hsome
  · intro j hj
    obtain ⟨block, hget, hall, hends⟩ := h.passed j hj
    refine ⟨block, hget, ?_, hends⟩
    rw [hsame block (List.mem_of_getElem? hget)]
    exact hall

/-- What an ordered chunk that is not behind does to the sets. -/
theorem push_of_not_behind (hsi : c.streamIdentifier = q.si) (hkind : c.unordered = false)
    (hnot : sna16lt c.streamSequenceNumber q.nextSsn = false) :
    (q.push c).1.nextSsn = q.nextSsn ∧ (q.push c).1.unordered = q.unordered ∧
      (q.push c).1.ordered = match pushOrdered c q.ordered with
        | some (sets, _) => sets
        | none => sortChunksBySsn
          (q.ordered ++ [((ChunkSet.new c.streamSequenceNumber c.payloadType).push c).1]) := by
  unfold push
  rw [if_neg (not_not.mpr hsi), if_neg (by rw [hkind]; exact Bool.false_ne_true),
    if_neg (by rw [hnot]; exact Bool.false_ne_true)]
  dsimp only
  cases pushOrdered c q.ordered with
  | none => exact ⟨rfl, rfl, rfl⟩
  | some r => exact ⟨rfl, rfl, rfl⟩

/-- Between sets with other numbers, the set of the chunk's block gets the chunk. -/
theorem sets_push {front back : List ChunkSet} {base : U16} (hblock : IsBlock si ssn block)
    (hc : c ∈ block) (hnew : c.tsn ∉ accepted) (hfront : ∀ s ∈ front, s.ssn ≠ ssn)
    (hback : ∀ s ∈ back, s.ssn ≠ ssn)
    (hnear : ∀ s ∈ front ++ (collected (accepted ++ [c.tsn]) ssn block ++ back),
      Serial.dist base s.ssn < 2 ^ 15)
    (hpair : (front ++ (collected (accepted ++ [c.tsn]) ssn block ++ back)).Pairwise fun s s' =>
      Serial.dist base s.ssn < Serial.dist base s'.ssn) :
    (match pushOrdered c (front ++ (collected accepted ssn block ++ back)) with
      | some (sets, _) => sets
      | none => sortChunksBySsn (front ++ (collected accepted ssn block ++ back) ++
          [((ChunkSet.new c.streamSequenceNumber c.payloadType).push c).1])) =
        front ++ (collected (accepted ++ [c.tsn]) ssn block ++ back) := by
  have hssn := hblock.number c hc
  have hmem : c ∈ acceptedOf (accepted ++ [c.tsn]) block :=
    mem_acceptedOf.mpr ⟨hc, List.mem_append_right _ (List.mem_singleton_self _)⟩
  have hafter := hblock.collected_eq hc (List.ne_nil_of_mem hmem)
  have hset := hblock.push_collected hc hnew
  rw [hafter, List.singleton_append] at hnear hpair ⊢
  by_cases hsome : acceptedOf accepted block = []
  · -- the first chunk of its message makes a set, which is sorted in
    have hnone : pushOrdered c (front ++ back) = none := by
      apply pushOrdered_none
      rw [hssn]
      intro s hs
      rcases List.mem_append.mp hs with hs | hs
      · exact hfront s hs
      · exact hback s hs
    have hfirst : ((ChunkSet.new c.streamSequenceNumber c.payloadType).push c).1 =
        blockSet (accepted ++ [c.tsn]) ssn c.payloadType block := by
      rw [← hset]
      unfold ChunkSet.new blockSet
      rw [hsome, hssn]
    have hperm : (front ++ blockSet (accepted ++ [c.tsn]) ssn c.payloadType block :: back).Perm
        (front ++ back ++ [blockSet (accepted ++ [c.tsn]) ssn c.payloadType block]) := by
      rw [List.append_assoc]
      exact (List.perm_append_singleton _ back).symm.append_left front
    rw [collected_of_nil hsome, List.nil_append, hnone, hfirst]
    have hranks : StableSort.RanksOn (fun s s' : ChunkSet => sna16lt s.ssn s'.ssn)
        (fun s => Serial.dist base s.ssn)
        (front ++ back ++ [blockSet (accepted ++ [c.tsn]) ssn c.payloadType block]) := by
      intro s hs s' hs'
      have hd := hnear s (hperm.mem_iff.mpr hs)
      have hd' := hnear s' (hperm.mem_iff.mpr hs')
      exact sna16lt_iff_dist_lt (by omega) (by omega)
    exact StableSort.sortBy_eq_of_rank hranks hperm hpair
  · -- its set is there already
    have hpush : pushOrdered c (front ++ blockSet accepted ssn c.payloadType block :: back) =
        some (front ++ ((blockSet accepted ssn c.payloadType block).push c).1 :: back,
          ((blockSet accepted ssn c.payloadType block).push c).2) := by
      rw [pushOrdered_append (by rw [hssn]; exact hfront), pushOrdered,
        if_pos (show (blockSet accepted ssn c.payloadType block).ssn = _ from hssn.symm)]
      rfl
    rw [hblock.collected_eq hc hsome, List.singleton_append, hpush]
    dsimp only
    rw [hset]

/-- **A new chunk of a message that is less than half the space ahead goes to its place.** -/
theorem Collects.push (h : q.Collects accepted blocks r) (hblocks : InTurn si blocks) (hsi : q.si = si)
    (hget : blocks[j]? = some block) (hc : c ∈ block) (hnew : c.tsn ∉ accepted)
    (hahead : j < r + 2 ^ 15) : (q.push c).1.Collects (accepted ++ [c.tsn]) blocks r := by
  -- the messages that have been read have been accepted as a whole
  have hr : r ≤ j := by
    by_contra hlt
    obtain ⟨b, hb, hall, _⟩ := h.passed j (by omega)
    rw [hget, Option.some.injEq] at hb
    subst hb
    rw [← hall] at hc
    exact hnew (mem_acceptedOf.mp hc).2
  obtain ⟨i, rfl⟩ := Nat.exists_eq_add_of_le hr
  have hblock := hblocks.isBlock _ block hget
  rw [← List.getElem?_drop] at hget
  obtain ⟨pre, post, hsplit, hlen⟩ := exists_split hget
  have hturn : InTurn si (blocks.take r ++ pre ++ block :: post) := by
    rw [List.append_assoc, ← hsplit, List.take_append_drop]
    exact hblocks
  have hother : ∀ b ∈ pre ++ post, ∀ d ∈ b, d.tsn ≠ c.tsn := by
    intro b hb
    apply hturn.ne_of_ne hc
    rw [List.append_assoc]
    exact List.mem_append_right _ hb
  have hnear := h.near
  rw [hsplit] at hnear
  have hnear' := hnear.push (by omega) hother
  have htarget : collectFrom (accepted ++ [c.tsn]) r (pre ++ block :: post) = _ :=
    collectFrom_push hother
  rw [hlen] at htarget
  -- the number of the chunk is not behind, and no other set has it
  have hssn := hblock.number c hc
  have hdist : Serial.dist q.nextSsn c.streamSequenceNumber = i := by
    rw [h.next, hssn]
    exact dist_ofNat_add r (by omega)
  have hnot : sna16lt c.streamSequenceNumber q.nextSsn = false := by
    have hself : Serial.dist q.nextSsn q.nextSsn = 0 := Serial.dist_self _
    have hlt : sna16lt c.streamSequenceNumber q.nextSsn = true ↔
        Serial.dist q.nextSsn c.streamSequenceNumber < Serial.dist q.nextSsn q.nextSsn :=
      sna16lt_iff_dist_lt (by omega) (by omega)
    rw [← Bool.not_eq_true, hlt]
    omega
  have hne : ∀ {k}, k < 2 ^ 15 → k ≠ i → (BitVec.ofNat 16 (r + k) : U16) ≠ BitVec.ofNat 16 (r + i) := by
    intro k hk hki heq
    have hsame := congrArg (Serial.dist (BitVec.ofNat 16 r)) heq
    rw [dist_ofNat_add r (by omega), dist_ofNat_add r (by omega)] at hsame
    exact hki hsame
  have hfront : ∀ s ∈ collectFrom accepted r pre, s.ssn ≠ BitVec.ofNat 16 (r + i) := by
    intro s hs
    obtain ⟨k, b, hb, hk, _⟩ := mem_collectFrom hs
    have hlt := (List.getElem?_eq_some_iff.mp hb).1
    rw [hk]
    exact hne (by omega) (by omega)
  have hback : ∀ s ∈ collectFrom accepted (r + i + 1) post, s.ssn ≠ BitVec.ofNat 16 (r + i) := by
    intro s hs
    obtain ⟨k, b, hb, hk, _, hsome⟩ := mem_collectFrom hs
    have hat : (pre ++ block :: post)[i + 1 + k]? = some b := by
      rw [List.getElem?_append_right (by omega), show i + 1 + k - pre.length = k + 1 by omega,
        List.getElem?_cons_succ]
      exact hb
    have hlt := hnear _ b hat hsome
    rw [hk, show r + i + 1 + k = r + (i + 1 + k) by omega]
    exact hne hlt (by omega)
  have hdist' : ∀ s ∈ collectFrom (accepted ++ [c.tsn]) r (pre ++ block :: post),
      Serial.dist (BitVec.ofNat 16 r) s.ssn < 2 ^ 15 := fun s hs => hnear'.dist_lt hs
  have hpair := hnear'.pairwise r
  rw [htarget] at hdist' hpair
  have hsets := sets_push hblock hc hnew hfront hback hdist' hpair
  obtain ⟨hnext, hunordered, hordered⟩ :=
    push_of_not_behind ((hblock.stream c hc).trans hsi.symm) (hblock.kind c hc) hnot
  have hbefore : q.ordered = collectFrom accepted r pre ++
      (collected accepted (BitVec.ofNat 16 (r + i)) block ++ collectFrom accepted (r + i + 1) post) := by
    rw [h.ordered, hsplit, collectFrom_append, collectFrom, hlen]
  rw [← hbefore] at hsets
  refine ⟨?_, hnext.trans h.next, hunordered.trans h.unordered, ?_, ?_⟩
  · rw [hsplit, htarget, hordered]
    exact hsets
  · rw [hsplit]
    exact hnear'
  · intro k hk
    obtain ⟨b, hb, hwhole⟩ := h.passed k hk
    exact ⟨b, hb, hwhole.append c.tsn⟩

/-- The set of the next message, if anything of it is there, comes first. -/
theorem Collects.ordered_cons (h : q.Collects accepted blocks r) (hget : blocks[r]? = some block) :
    q.ordered = collected accepted (BitVec.ofNat 16 r) block ++
      collectFrom accepted (r + 1) (blocks.drop (r + 1)) := by
  obtain ⟨hr, rfl⟩ := List.getElem?_eq_some_iff.mp hget
  rw [h.ordered, List.drop_eq_getElem_cons hr, collectFrom]

/-- **When the next message is whole, a read takes it.** -/
theorem Collects.takes (h : q.Collects accepted blocks r) (hblocks : InTurn si blocks)
    (hget : blocks[r]? = some block) (hwhole : Whole accepted block) (hc : c ∈ block) :
    ∃ q', q.takeReadable = (q', some { ssn := BitVec.ofNat 16 r, ppi := c.payloadType, chunks := block }) ∧
      q'.Collects accepted blocks (r + 1) := by
  have hblock := hblocks.isBlock r block hget
  have hset : blockSet accepted (BitVec.ofNat 16 r) c.payloadType block =
      { ssn := BitVec.ofNat 16 r, ppi := c.payloadType, chunks := block } := by
    unfold blockSet
    rw [hwhole.1]
  have hordered := h.ordered_cons hget
  have hne : acceptedOf accepted block ≠ [] := by
    rw [hwhole.1]
    exact hblock.ne_nil
  rw [hblock.collected_eq hc hne, List.singleton_append] at hordered
  have hcomplete := (hblock.isComplete_iff c.payloadType).mpr hwhole
  have hgt : sna16gt (BitVec.ofNat 16 r) q.nextSsn = false := by
    rw [h.next, ← Bool.not_eq_true, sna16gt_iff, Serial.dist_self]
    decide
  refine ⟨{ q with nextSsn := q.nextSsn + 1, ordered := collectFrom accepted (r + 1) (blocks.drop (r + 1)) },
    ?_, rfl, ?_, h.unordered, ?_, ?_⟩
  · unfold takeReadable
    rw [h.unordered, hordered]
    dsimp only
    rw [hcomplete, Bool.not_true, if_neg Bool.false_ne_true, hset]
    dsimp only
    rw [hgt, if_neg Bool.false_ne_true, if_pos h.next.symm]
  · show q.nextSsn + 1 = _
    rw [h.next, BitVec.ofNat_add]
    rfl
  · intro i b hb hsome
    rw [List.getElem?_drop, Nat.add_assoc, ← List.getElem?_drop] at hb
    have hi := h.near (1 + i) b hb hsome
    omega
  · intro j hj
    by_cases hjr : j < r
    · exact h.passed j hjr
    · rw [show j = r by omega]
      exact ⟨block, hget, hwhole⟩

/-- **As long as the next message is not whole, a read finds nothing to take.** -/
theorem Collects.waits (h : q.Collects accepted blocks r) (hblocks : InTurn si blocks)
    (hnot : ∀ block, blocks[r]? = some block → ¬ Whole accepted block) : q.takeReadable = (q, none) := by
  unfold takeReadable
  rw [h.unordered]
  dsimp only
  cases hordered : q.ordered with
  | nil => rfl
  | cons cset rest =>
    dsimp only
    have hmem : cset ∈ collectFrom accepted r (blocks.drop r) := by
      rw [← h.ordered, hordered]
      exact List.mem_cons_self
    obtain ⟨i, block, hget, hssn, hchunks, hsome⟩ := mem_collectFrom hmem
    have hi := h.near i block hget hsome
    rw [List.getElem?_drop] at hget
    cases i with
    | zero =>
      -- what is there of the next message is not all of it
      have hcomplete : cset.isComplete = false := by
        have hset : cset = blockSet accepted (BitVec.ofNat 16 r) cset.ppi block := by
          unfold blockSet
          rw [← hchunks, ← Nat.add_zero r, ← hssn]
        rw [← Bool.not_eq_true, hset, (hblocks.isBlock r block hget).isComplete_iff]
        exact hnot block hget
      rw [hcomplete, Bool.not_false, if_pos rfl]
    | succ i =>
      have hgt : sna16gt cset.ssn q.nextSsn = true := by
        have hdist : Serial.dist q.nextSsn cset.ssn = i + 1 := by
          rw [h.next, hssn]
          exact dist_ofNat_add r (by omega)
        have hne : q.nextSsn ≠ cset.ssn := by
          intro heq
          rw [heq, Serial.dist_self] at hdist
          omega
        rw [sna16gt_iff, Serial.dist_comm_of_ne hne, hdist]
        omega
      rw [hgt, if_pos rfl, ite_self]

/-- Taking bytes off the count changes nothing else. -/
theorem Collects.subtractNumBytes (h : q.Collects accepted blocks r) (nBytes : ℕ) :
    (q.subtractNumBytes nBytes).Collects accepted blocks r :=
  ⟨h.ordered, h.next, h.unordered, h.near, h.passed⟩

/-- A read into a buffer that is large enough gives the next message, if it is whole. -/
theorem Collects.read_of_whole (h : q.Collects accepted blocks r) (hblocks : InTurn si blocks)
    (hget : blocks[r]? = some block) (hwhole : Whole accepted block) (hc : c ∈ block) {bufLen : ℕ}
    (hlen : chunksBytes block ≤ bufLen) :
    (q.read bufLen).2 = .ok (chunksData block, c.payloadType) ∧
      (q.read bufLen).1.Collects accepted blocks (r + 1) := by
  obtain ⟨q', htake, hcollects⟩ := h.takes hblocks hget hwhole hc
  have hcopy := copyChunks_eq (List.length_nil.trans_le (Nat.zero_le bufLen)) block
  rw [List.length_nil, Nat.zero_add, if_pos hlen, List.nil_append] at hcopy
  constructor
  · unfold read
    rw [htake]
    dsimp only
    rw [hcopy]
    rfl
  · rw [read_fst, htake]
    exact hcollects.subtractNumBytes _

/-- If it is not, there is nothing to read. -/
theorem Collects.read_of_not_whole (h : q.Collects accepted blocks r) (hblocks : InTurn si blocks)
    (hnot : ∀ block, blocks[r]? = some block → ¬ Whole accepted block) (bufLen : ℕ) :
    q.read bufLen = (q, .error .errTryAgain) := by
  unfold read
  rw [h.waits hblocks hnot]

end ReassemblyQueue

end Sctp
