import Sctp.Association.DeliverySenderTheorems
import Sctp.Queue.InTurnTheorems

/-!
# The blocks of a stream's messages

What has been sent of a stream, cut where its messages end. As they arrive, the blocks are of the
kind that a reassembly queue collects in turn.
-/

namespace Sctp

open Blocks (CutOff Agrees)

/-- The chunk as it arrives, without the sender's notes. -/
def ChunkPayloadData.arriving (c : ChunkPayloadData) : ChunkPayloadData where
  unordered := c.unordered
  beginningFragment := c.beginningFragment
  endingFragment := c.endingFragment
  immediateSack := c.immediateSack
  tsn := c.tsn
  streamIdentifier := c.streamIdentifier
  streamSequenceNumber := c.streamSequenceNumber
  payloadType := c.payloadType
  userData := c.userData

/-! ## Messages -/

namespace Message

variable {m : Message} {si : U16} {k : ℕ}

theorem Proper.data_of_isOf (h : m.Proper) (hof : m.isOf si = true) : ∀ c ∈ m.chunks, c.userData ≠ [] := by
  rcases h with hdata | ⟨hone, _⟩
  · exact hdata
  · -- the one chunk is the one with data
    obtain ⟨c, hc⟩ := List.length_eq_one_iff.mp hone
    unfold isOf at hof
    rw [hc, List.any_cons, List.any_nil, Bool.or_false, Bool.and_eq_true] at hof
    intro d hd
    rw [hc, List.mem_singleton] at hd
    rw [hd]
    simpa using hof.2

theorem Proper.data_of_two (h : m.Proper) (hk : 0 < k) (hlt : k < m.chunks.length) :
    ∀ c ∈ m.chunks, c.userData ≠ [] := by
  rcases h with hdata | ⟨hone, _⟩
  · exact hdata
  · omega

theorem filter_data {l : List ChunkPayloadData} (h : ∀ c ∈ l, c.userData ≠ []) :
    l.filter (fun c => !c.userData.isEmpty) = l := by
  rw [List.filter_eq_self]
  intro c hc
  simpa using h c hc

theorem any_filter_data (m : Message) (si : U16) :
    (m.chunks.filter fun c => !c.userData.isEmpty).any (fun c => decide (c.streamIdentifier = si)) =
      m.isOf si := by
  unfold isOf
  rw [List.any_filter]
  congr 1
  funext c
  exact Bool.and_comm _ _

/-- Of messages, those of the stream have data for it. -/
theorem filter_any_data {done : List Message} (h : ∀ m ∈ done, m.Pushed) :
    ((done.map (·.chunks)).map (List.filter fun c => !c.userData.isEmpty)).filter
        (·.any fun c => decide (c.streamIdentifier = si)) =
      (done.filter (·.isOf si)).map (·.chunks) := by
  induction done with
  | nil => rfl
  | cons m done ih =>
    rw [List.map_cons, List.map_cons, List.filter_cons, any_filter_data, List.filter_cons,
      ih fun m' hm' => h m' (List.mem_cons_of_mem _ hm')]
    split
    · rename_i hof
      rw [filter_data ((h m List.mem_cons_self).proper.data_of_isOf hof), List.map_cons]
    · rfl

/-- A beginning of a message is of the stream if the message is. -/
theorem Pushed.any_take (h : m.Pushed) (hk : 0 < k) (hlt : k < m.chunks.length) :
    (m.chunks.take k).any (fun c => decide (c.streamIdentifier = si)) = m.isOf si := by
  have hdata := h.proper.data_of_two hk hlt
  have hfirst : m.chunks[0] ∈ m.chunks.take k := List.mem_take_iff_getElem.mpr ⟨0, by omega, rfl⟩
  rw [Bool.eq_iff_iff, List.any_eq_true]
  unfold isOf
  rw [List.any_eq_true]
  constructor
  · rintro ⟨c, hc, hsi⟩
    have hmem := List.mem_of_mem_take hc
    exact ⟨c, hmem, by simpa using ⟨of_decide_eq_true hsi, hdata c hmem⟩⟩
  · rintro ⟨c, hc, hboth⟩
    rw [Bool.and_eq_true] at hboth
    refine ⟨_, hfirst, ?_⟩
    rw [decide_eq_true_eq, h.stream _ (List.mem_of_mem_take hfirst) c hc]
    exact of_decide_eq_true hboth.1

end Message

namespace SendLog

open AssociationInternal PendingQueue

variable {si : U16} {maxLen : ℕ} {first : U32} {s : SendLog} {all : Bool → List Message}
  {done : List Message} {current : Option (Message × ℕ)} {popped : List ChunkPayloadData}
  {blocks : List (List ChunkPayloadData)}

/-- The blocks of the stream, one for each message that has been sent, at least in part. -/
structure SentIn (si : U16) (s : SendLog) (blocks : List (List ChunkPayloadData)) : Prop where
  flatten : blocks.flatten = s.sentOf si
  consecutive : ∀ b ∈ blocks, Serial.Consecutive (·.tsn) b
  cutOff : CutOff (blocks.map (·.map (·.unsent))) (s.messages.map (·.chunks))
  all : s.association.pendingQueue.peek = none →
    blocks.map (·.map (·.unsent)) = s.messages.map (·.chunks)

theorem Records.consecutive (h : Records si maxLen first s) :
    Serial.Consecutive (·.tsn) s.assigned := by
  unfold Serial.Consecutive
  rw [List.isChain_iff_getElem]
  intro i hi
  have hthis := h.tsns i _ (List.getElem?_eq_getElem (by omega))
  have hnext := h.tsns (i + 1) _ (List.getElem?_eq_getElem hi)
  show s.assigned[i + 1].tsn = s.assigned[i].tsn + 1
  rw [hthis, hnext]
  exact (after_succ first i).symm

/-- The messages of the stream are those of which something has been popped, and those that wait. -/
theorem messages_eq {waiting : Bool → List Message}
    (hwaiting : ∀ u, all u = (begunMessages done current).filter (·.unordered = u) ++ waiting u)
    (hall : Pushes si s.messages all) : s.messages.map (·.chunks) =
      ((begunMessages done current).filter (·.isOf si)).map (·.chunks) ++
        ((waiting false).filter (·.isOf si)).map (·.chunks) := by
  -- none of the stream's messages is unordered
  have hordered : (begunMessages done current).filter (fun m => m.isOf si && m.unordered = false) =
      (begunMessages done current).filter (·.isOf si) := by
    apply List.filter_congr
    intro m hm
    cases hu : m.unordered with
    | false => exact Bool.and_true _
    | true =>
      have hmem : m ∈ all true := by
        rw [hwaiting]
        exact List.mem_append_left _ (List.mem_filter.mpr ⟨hm, decide_eq_true hu⟩)
      rw [hall.unordered m hmem]
      rfl
  rw [← hall.ordered, hwaiting false, List.filter_append, List.filter_filter, hordered,
    List.map_append]

/-- What has been popped, cut where its messages end, without the markers. -/
def poppedBlocks (done : List Message) (current : Option (Message × ℕ)) :
    List (List ChunkPayloadData) :=
  (done.map (·.chunks) ++ [begun current]).map (List.filter fun c => !c.userData.isEmpty)

/-- What has been popped of messages of the stream are messages of the stream, up to one of which
only a beginning has been popped. -/
theorem cutOff_popped {q : PendingQueue} (htells : q.Tells all popped done current)
    (hall : Pushes si s.messages all) :
    CutOff ((poppedBlocks done current).filter (·.any fun c => decide (c.streamIdentifier = si)))
      (s.messages.map (·.chunks)) := by
  obtain ⟨waiting, hholds, hwaiting⟩ := htells.waits
  have hpushed : ∀ m ∈ begunMessages done current, m.Pushed :=
    fun m hm => hall.pushed _ m (htells.mem_all hm)
  rw [messages_eq hwaiting hall]
  apply CutOff.whole_append
  unfold begunMessages poppedBlocks
  rw [List.map_append, List.filter_append, List.filter_append, List.map_append,
    Message.filter_any_data fun m hm => hpushed m (List.mem_append_left _ hm)]
  apply CutOff.append
  cases current with
  | none => exact CutOff.nil _
  | some mk =>
    obtain ⟨m, k⟩ := mk
    obtain ⟨hk, hlt⟩ := hholds.current m k rfl
    have hm := hpushed m (List.mem_append_right _ (List.mem_singleton_self _))
    show CutOff ([(m.chunks.take k).filter _].filter _) (([m].filter (·.isOf si)).map _)
    rw [Message.filter_data fun c hc =>
        hm.proper.data_of_two hk hlt c (List.mem_of_mem_take hc),
      List.filter_singleton, hm.any_take hk hlt, List.filter_singleton]
    cases m.isOf si with
    | false => exact CutOff.nil _
    | true =>
      refine CutOff.part (List.take_prefix _ _) ?_ []
      rw [ne_eq, List.take_eq_nil_iff]
      rintro (rfl | hnil)
      · omega
      · exact m.isMessage.ne_nil hnil

/-- Once nothing is left to pop, they are all messages of the stream. -/
theorem popped_eq {q : PendingQueue} (htells : q.Tells all popped done current)
    (hall : Pushes si s.messages all) (hpeek : q.peek = none) :
    (poppedBlocks done current).filter (·.any fun c => decide (c.streamIdentifier = si)) =
      s.messages.map (·.chunks) := by
  obtain ⟨waiting, hholds, hwaiting⟩ := htells.waits
  have hpushed : ∀ m ∈ begunMessages done current, m.Pushed :=
    fun m hm => hall.pushed _ m (htells.mem_all hm)
  obtain ⟨rfl, hnil⟩ := hholds.eq_nil_of_peek hpeek
  rw [messages_eq hwaiting hall, hnil, List.filter_nil, List.map_nil, List.append_nil]
  unfold begunMessages poppedBlocks
  rw [List.map_append, List.filter_append,
    Message.filter_any_data fun m hm => hpushed m (List.mem_append_left _ hm)]
  show _ ++ [] = ((done ++ []).filter _).map _
  rw [List.append_nil, List.append_nil]

theorem Records.exists_blocks (h : Records si maxLen first s) : ∃ blocks, SentIn si s blocks := by
  obtain ⟨all, popped, done, current, htells, hall, hpopped⟩ := h.pops.history
  have himages : s.assigned.map (·.unsent) = (poppedBlocks done current).flatten := by
    unfold poppedBlocks
    rw [hpopped, htells.popped, List.flatMap_def, ← List.filter_flatten, List.flatten_append,
      List.flatten_singleton]
  obtain ⟨blocks, hflatten, hmap⟩ := Blocks.exists_of_map_eq himages
  -- the chunks of a block are of one message
  have hagrees : ∀ b ∈ blocks, Agrees (fun c => decide (c.streamIdentifier = si)) b := by
    intro b hb c hc c' hc'
    have hmem : b.map (·.unsent) ∈ poppedBlocks done current := by
      rw [← hmap]
      exact List.mem_map_of_mem hb
    obtain ⟨l, hl, hfilter⟩ := List.mem_map.mp hmem
    have hblock : ∀ d ∈ b, d.unsent ∈ l := by
      intro d hd
      apply List.mem_of_mem_filter (p := fun c => !c.userData.isEmpty)
      rw [hfilter]
      exact List.mem_map_of_mem hd
    obtain ⟨m, hm, hin⟩ := subset_of_block hl (hblock c hc)
    have hunsent : ∀ d ∈ b, d.unsent ∈ m.chunks := fun d hd => hin _ (hblock d hd)
    have hsame := (hall.pushed _ m (htells.mem_all hm)).stream _ (hunsent c hc) _ (hunsent c' hc')
    have hid : c.streamIdentifier = c'.streamIdentifier := hsame
    exact congrArg (fun id => decide (id = si)) hid
  have hfilter : (blocks.filter (·.any fun c => decide (c.streamIdentifier = si))).map
      (·.map (·.unsent)) = (poppedBlocks done current).filter
        (·.any fun c => decide (c.streamIdentifier = si)) := by
    rw [← hmap, List.filter_map]
    congr 1
    apply List.filter_congr
    intro b _
    show b.any _ = (b.map _).any _
    rw [List.any_map]
    rfl
  refine ⟨blocks.filter (·.any fun c => decide (c.streamIdentifier = si)), ?_, ?_, ?_, ?_⟩
  · rw [← Blocks.filter_flatten hagrees, hflatten]
    rfl
  · intro b hb
    have hinfix := List.infix_of_mem_flatten (List.mem_of_mem_filter hb)
    rw [hflatten] at hinfix
    exact h.consecutive.infix hinfix
  · rw [hfilter]
    exact cutOff_popped htells hall
  · intro hpeek
    rw [hfilter]
    exact popped_eq htells hall hpeek

/-! ## As they arrive -/

/-- The blocks as they arrive. -/
def arrivingBlocks (blocks : List (List ChunkPayloadData)) : List (List ChunkPayloadData) :=
  blocks.map (·.map (·.arriving))

theorem flatten_arrivingBlocks (blocks : List (List ChunkPayloadData)) :
    (arrivingBlocks blocks).flatten = blocks.flatten.map (·.arriving) := List.map_flatten.symm

/-- The message that a block is of, in full or in part. -/
theorem SentIn.message (hsent : SentIn si s blocks) (h : Records si maxLen first s) {j : ℕ}
    {b : List ChunkPayloadData} (hb : blocks[j]? = some b) :
    ∃ w, s.messages[j]? = some w ∧ w.HasNumber si maxLen j ∧ b.map (·.unsent) <+: w.chunks := by
  obtain ⟨m, hm, hbegin⟩ := hsent.cutOff.getElem? (j := j) (b := b.map (·.unsent))
    (by rw [List.getElem?_map, hb]; rfl)
  rw [List.getElem?_map] at hm
  obtain ⟨w, hw, rfl⟩ := Option.map_eq_some_iff.mp hm
  exact ⟨w, hw, h.messages j w hw, hbegin⟩

theorem SentIn.ne_nil (hsent : SentIn si s blocks) (h : Records si maxLen first s)
    {b : List ChunkPayloadData} (hb : b ∈ blocks) : b ≠ [] := by
  have hne : ∀ m ∈ s.messages.map (·.chunks), m ≠ [] := by
    intro m hm
    obtain ⟨w, hw, rfl⟩ := List.mem_map.mp hm
    obtain ⟨j, hj⟩ := List.mem_iff_getElem?.mp hw
    obtain ⟨header, hfragments, _⟩ := (h.messages j w hj).fragments
    exact hfragments.ne_nil
  have hmap := hsent.cutOff.ne_nil hne (b.map (·.unsent)) (List.mem_map_of_mem hb)
  exact fun hnil => hmap (by rw [hnil]; rfl)

/-- The chunk of a message at a place of a block of it. -/
theorem getElem?_of_begins {b chunks : List ChunkPayloadData} (h : b.map (·.unsent) <+: chunks) {i : ℕ}
    {c : ChunkPayloadData} (hc : b[i]? = some c) : chunks[i]? = some c.unsent := by
  obtain ⟨rest, rfl⟩ := h
  have hi := (List.getElem?_eq_some_iff.mp hc).1
  rw [List.getElem?_append_left (by rw [List.length_map]; exact hi), List.getElem?_map, hc]
  rfl

theorem SentIn.isBlock (hsent : SentIn si s blocks) (h : Records si maxLen first s)
    (hfew : s.assigned.length < 2 ^ 31) {j : ℕ} {b : List ChunkPayloadData} (hb : blocks[j]? = some b) :
    IsBlock si (BitVec.ofNat 16 j) (b.map (·.arriving)) := by
  obtain ⟨w, _, ⟨⟨header, hfragments, hsi, hnumber, hkind, hppi⟩, _⟩, hbegin⟩ := hsent.message h hb
  have hmem := List.mem_of_getElem? hb
  have hheader : ∀ c ∈ b, c.unsent.header = header := by
    intro c hc
    exact hfragments.header_eq _ (hbegin.subset (List.mem_map_of_mem hc))
  have hcommon : ∀ {β : Type} (f : ChunkPayloadData → β),
      (∀ c : ChunkPayloadData, f c.unsent.header = f c.arriving) →
        ∀ d ∈ b.map (·.arriving), f d = f header := by
    intro β f hf d hd
    obtain ⟨c, hc, rfl⟩ := List.mem_map.mp hd
    rw [← hf c, hheader c hc]
  refine ⟨?_, ?_, ?_, ?_, ?_, ?_, ?_, ?_, ?_⟩
  · rw [ne_eq, List.map_eq_nil_iff]
    exact hsent.ne_nil h hmem
  · have hsub : b.Sublist s.assigned := by
      have hin := (List.infix_of_mem_flatten hmem).sublist
      rw [hsent.flatten] at hin
      exact hin.trans List.filter_sublist
    have hle := hsub.length_le
    rw [List.length_map]
    omega
  · exact (List.isChain_map _).mpr (hsent.consecutive b hmem)
  · intro i c hc
    rw [List.getElem?_map] at hc
    obtain ⟨d, hd, rfl⟩ := Option.map_eq_some_iff.mp hc
    have hbegins := hfragments.beginning i d.unsent (getElem?_of_begins hbegin hd)
    rw [and_iff_right rfl] at hbegins
    exact hbegins
  · intro i c hc hend
    rw [List.getElem?_map] at hc
    obtain ⟨d, hd, rfl⟩ := Option.map_eq_some_iff.mp hc
    have hends := (hfragments.ending i d.unsent (getElem?_of_begins hbegin hd)).mp hend
    have hlen := hbegin.length_le
    have hi := (List.getElem?_eq_some_iff.mp hd).1
    rw [List.length_map] at hlen ⊢
    omega
  · exact fun d hd => (hcommon (·.streamIdentifier) (fun _ => rfl) d hd).trans hsi
  · exact fun d hd => (hcommon (·.streamSequenceNumber) (fun _ => rfl) d hd).trans hnumber
  · exact fun d hd => (hcommon (·.unordered) (fun _ => rfl) d hd).trans hkind
  · intro d hd d' hd'
    exact (hcommon (·.payloadType) (fun _ => rfl) d hd).trans
      (hcommon (·.payloadType) (fun _ => rfl) d' hd').symm

/-- Fewer than 2^31 chunks have different TSNs. -/
theorem Records.nodup (h : Records si maxLen first s) (hfew : s.assigned.length < 2 ^ 31) :
    (s.assigned.map (·.tsn)).Nodup := by
  rw [List.nodup_iff_pairwise_ne, List.pairwise_map, List.pairwise_iff_getElem]
  intro i j hi hj hij heq
  rw [h.tsns i _ (List.getElem?_eq_getElem hi), h.tsns j _ (List.getElem?_eq_getElem hj)] at heq
  have hdist := congrArg (Serial.dist first) heq
  rw [dist_after first (by omega), dist_after first (by omega)] at hdist
  omega

/-- **The blocks arrive in turn**: each carries the number of its place. -/
theorem SentIn.inTurn (hsent : SentIn si s blocks) (h : Records si maxLen first s)
    (hfew : s.assigned.length < 2 ^ 31) : InTurn si (arrivingBlocks blocks) where
  isBlock j b hb := by
    unfold arrivingBlocks at hb
    rw [List.getElem?_map] at hb
    obtain ⟨b', hb', rfl⟩ := Option.map_eq_some_iff.mp hb
    exact hsent.isBlock h hfew hb'
  distinct := by
    rw [flatten_arrivingBlocks, hsent.flatten, List.map_map]
    have hsub : ((s.sentOf si).map (·.tsn)).Sublist (s.assigned.map (·.tsn)) :=
      List.filter_sublist.map _
    exact (h.nodup hfew).sublist hsub

/-! ## Whole messages -/

theorem chunksData_map_arriving (b : List ChunkPayloadData) :
    chunksData (b.map (·.arriving)) = chunksData (b.map (·.unsent)) := by
  unfold chunksData
  rw [List.flatMap_map, List.flatMap_map]
  rfl

/-- A block with the end of its message is all of it. -/
theorem SentIn.whole (hsent : SentIn si s blocks) (h : Records si maxLen first s) {j : ℕ}
    {b : List ChunkPayloadData} (hb : blocks[j]? = some b)
    (hends : EndsMessage (b.map (·.arriving))) : ∃ w, s.messages[j]? = some w ∧
      b.map (·.unsent) = w.chunks ∧ w.HasNumber si maxLen j := by
  obtain ⟨w, hw, hnumber, hbegin⟩ := hsent.message h hb
  obtain ⟨header, hfragments, _⟩ := hnumber.fragments
  refine ⟨w, hw, hbegin.eq_of_length ?_, hnumber⟩
  obtain ⟨c, hc, hend⟩ := hends
  have hlast : (b.map (·.arriving)).getLast? = some c := hc
  rw [List.getLast?_eq_getElem?, List.getElem?_map] at hlast
  obtain ⟨d, hd, rfl⟩ := Option.map_eq_some_iff.mp hlast
  have hlen := (hfragments.ending _ d.unsent (getElem?_of_begins hbegin hd)).mp hend
  have hi := (List.getElem?_eq_some_iff.mp hd).1
  rw [List.length_map] at hlen hi ⊢
  omega

/-- What a whole block says is what has been written. -/
theorem SentIn.content (hsent : SentIn si s blocks) (h : Records si maxLen first s) {j : ℕ}
    {b : List ChunkPayloadData} (hb : (arrivingBlocks blocks)[j]? = some b) (hends : EndsMessage b)
    {c : ChunkPayloadData} (hc : c ∈ b) : ∃ w, s.messages[j]? = some w ∧
      (chunksData b, c.payloadType) = w.content ∧ w.data.length ≤ maxLen := by
  unfold arrivingBlocks at hb
  rw [List.getElem?_map] at hb
  obtain ⟨b', hb', rfl⟩ := Option.map_eq_some_iff.mp hb
  obtain ⟨w, hw, hchunks, ⟨⟨header, hfragments, _, _, _, hppi⟩, hlen⟩⟩ := hsent.whole h hb' hends
  refine ⟨w, hw, ?_, hlen⟩
  obtain ⟨d, hd, rfl⟩ := List.mem_map.mp hc
  have hheader := hfragments.header_eq d.unsent (by rw [← hchunks]; exact List.mem_map_of_mem hd)
  have hpayload : d.payloadType = header.payloadType := (congrArg ChunkPayloadData.payloadType hheader :)
  rw [chunksData_map_arriving, hchunks, hfragments.data_eq]
  unfold WrittenMessage.content
  rw [← hppi, ← hpayload]
  rfl

/-! ## Up to a chunk -/

/-- A block that is all of its message has the end of it. -/
theorem SentIn.endsMessage (h : Records si maxLen first s) {j : ℕ} {b : List ChunkPayloadData}
    (hall : (s.messages.map (·.chunks))[j]? = some (b.map (·.unsent))) :
    EndsMessage (b.map (·.arriving)) := by
  rw [List.getElem?_map] at hall
  obtain ⟨w, hw, hchunks⟩ := Option.map_eq_some_iff.mp hall
  obtain ⟨header, hfragments, _⟩ := (h.messages j w hw).fragments
  rw [hchunks] at hfragments
  have hne : b ≠ [] := fun hnil => hfragments.ne_nil (by rw [hnil]; rfl)
  obtain ⟨c, hc⟩ := Option.ne_none_iff_exists'.mp (mt List.getLast?_eq_none_iff.mp hne)
  refine ⟨c.arriving, by rw [List.getLast?_map, hc]; rfl, ?_⟩
  rw [List.getLast?_eq_getElem?] at hc
  have hat : (b.map (·.unsent))[b.length - 1]? = some c.unsent := by rw [List.getElem?_map, hc]; rfl
  have hpos := List.length_pos_of_ne_nil hne
  refine (hfragments.ending _ c.unsent hat).mpr ?_
  rw [List.length_map]
  omega

/-- All blocks in front of a block were whole when the first chunk of it was sent. -/
theorem SentIn.le_wholeBefore (hsent : SentIn si s blocks) (h : Records si maxLen first s)
    (hfew : s.assigned.length < 2 ^ 31) {i j : ℕ} {c : ChunkPayloadData} {b : List ChunkPayloadData}
    (hc : s.assigned[i]? = some c) (hb : blocks[j]? = some b) (hmem : c ∈ b) :
    j ≤ s.wholeBefore si i := by
  obtain ⟨pre, post, hsplit, hlen⟩ := exists_split hb
  obtain ⟨front, back, rfl⟩ := List.append_of_mem hmem
  obtain ⟨hi, hat⟩ := List.getElem?_eq_some_iff.mp hc
  -- the chunk is at one place of what has been sent of the stream
  have hsi : c.streamIdentifier = si := by
    have hin : c ∈ s.sentOf si := by
      rw [← hsent.flatten]
      exact List.mem_flatten_of_mem (List.mem_of_getElem? hb) hmem
    exact of_decide_eq_true (List.mem_filter.mp hin).2
  have hassigned : s.assigned = s.assigned.take i ++ c :: s.assigned.drop (i + 1) := by
    rw [← hat, ← List.drop_eq_getElem_cons hi, List.take_append_drop]
  have hsame : (s.assigned.take i).filter (·.streamIdentifier = si) ++
      c :: (s.assigned.drop (i + 1)).filter (·.streamIdentifier = si) =
        (pre.flatten ++ front) ++ c :: (back ++ post.flatten) := by
    have hflatten := hsent.flatten
    unfold sentOf at hflatten
    rw [hassigned, List.filter_append, List.filter_cons_of_pos (by simpa using hsi), hsplit] at hflatten
    rw [← hflatten]
    simp
  have hnodup := (h.nodup hfew).of_map
  rw [hassigned, List.nodup_middle, List.nodup_cons, List.mem_append, not_or] at hnodup
  have hfront := (List.append_cons_inj_of_notMem
    (fun hin => hnodup.1.1 (List.mem_of_mem_filter hin))
    (fun hin => hnodup.1.2 (List.mem_of_mem_filter hin))).mp hsame
  have hends : ∀ b' ∈ pre, ∃ d ∈ b', d.endingFragment = true := by
    intro b' hb'
    obtain ⟨k, hk, hget⟩ := List.getElem_of_mem hb'
    have hblock : blocks[k]? = some b' := by
      rw [hsplit, List.getElem?_append_left hk, List.getElem?_eq_getElem hk, hget]
    have hlast : k + 1 < (blocks.map (·.map (·.unsent))).length := by
      rw [List.length_map, hsplit, List.length_append, List.length_cons]
      omega
    obtain ⟨d, hd, hend⟩ := endsMessage h
      (hsent.cutOff.getElem?_of_lt (by rw [List.getElem?_map, hblock]; rfl) hlast)
    obtain ⟨d', hd', rfl⟩ := List.mem_map.mp (List.mem_of_getLast? hd)
    exact ⟨d', hd', hend⟩
  have hcount : pre.length ≤ (pre.flatten.filter (·.endingFragment)).length :=
    Blocks.length_le_filter hends
  have hwhole : s.wholeBefore si i =
      (((s.assigned.take i).filter (·.streamIdentifier = si)).filter (·.endingFragment)).length := by
    unfold wholeBefore
    rw [List.filter_filter]
    congr 1
    apply List.filter_congr
    intro d _
    exact Bool.and_comm _ _
  rw [hwhole, hfront.1, List.filter_append, List.length_append]
  omega

/-- What is carried is a chunk that has been given a TSN. -/
theorem Records.exists_arriving (h : Records si maxLen first s) {d : ChunkPayloadData}
    (hd : s.Carries d) : ∃ (i : ℕ) (c : ChunkPayloadData), s.assigned[i]? = some c ∧ c.arriving = d := by
  obtain ⟨p, hp, c, hc, hdata, hwire⟩ := hd
  cases c with
  | payloadData c =>
    obtain ⟨c', hc', hcontents⟩ := h.packets p hp c hc
    obtain ⟨i, hi⟩ := List.mem_iff_getElem?.mp hc'
    refine ⟨i, c', hi, ?_⟩
    have hsame : c'.arriving = c.arriving := (congrArg ChunkPayloadData.arriving hcontents :)
    rw [hsame]
    exact Chunk.payloadData.inj hwire
  | _ => cases hdata

end SendLog

end Sctp
