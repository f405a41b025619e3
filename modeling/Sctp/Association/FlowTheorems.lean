import Sctp.Association.SenderTheorems
import Sctp.Queue.PendingQueueTheorems
import Sctp.StreamTheorems

/-!
# Messages on their way into flight

The fragments of a message share two flag cells that no other message has. They are pushed
together and go into flight one behind the other, so that at most one message, the one that
is being popped, is in flight with only some of its fragments.
-/

namespace Sctp

/-! ## The cells of a message -/

/-- `x` is the first of two cells that were allocated together. -/
def IsPair (flags : SharedFlags) (x : ℕ) : Prop := x % 2 = 0 ∧ x + 1 < flags.length

namespace Message

/-- The address of the flag `abandoned` of a message. -/
def cell (m : Message) : ℕ := (m.chunks.head?.map (·.abandoned)).getD 0

/-- The chunks share two cells, allocated one after the other. -/
def Shares (m : Message) : Prop :=
  ∀ c ∈ m.chunks, c.abandoned = m.cell ∧ c.allInflight = m.cell + 1

/-- The chunks are fragments with data, or there is only one chunk. -/
def Sendable (m : Message) : Prop := (∀ c ∈ m.chunks, c.userData ≠ []) ∨ m.chunks.length = 1

/-- What is known of a message of which not all chunks are in flight. -/
structure Unsent (m : Message) (flags : SharedFlags) : Prop where
  shares : m.Shares
  sendable : m.Sendable
  pair : IsPair flags m.cell
  unset : flags.load (m.cell + 1) = false

end Message

/-- The messages of which not all chunks have been popped. -/
def pendingMessages (current : Option (Message × ℕ)) (waiting : Bool → List Message) :
    List Message :=
  (current.map Prod.fst).toList ++ (waiting true ++ waiting false)

theorem mem_pendingMessages {current : Option (Message × ℕ)} {waiting : Bool → List Message}
    {u : Bool} {m : Message} (h : m ∈ waiting u) : m ∈ pendingMessages current waiting := by
  unfold pendingMessages
  cases u <;> simp [h]

/-- A message joins those of its kind at the end, -/
theorem pendingMessages_push (current : Option (Message × ℕ)) (waiting : Bool → List Message)
    (m : Message) (u : Bool) :
    (pendingMessages current (Function.update waiting u (waiting u ++ [m]))).Perm
      (m :: pendingMessages current waiting) := by
  unfold pendingMessages
  generalize (current.map Prod.fst).toList = cur
  cases u with
  | true =>
    rw [Function.update_self, Function.update_of_ne (by simp)]
    have hlist : cur ++ (waiting true ++ [m] ++ waiting false) =
        (cur ++ waiting true) ++ m :: waiting false := by simp
    rw [hlist, ← List.append_assoc]
    exact List.perm_middle
  | false =>
    rw [Function.update_self, Function.update_of_ne (by simp)]
    have hlist : cur ++ (waiting true ++ (waiting false ++ [m])) =
        (cur ++ (waiting true ++ waiting false)) ++ [m] := by simp
    rw [hlist]
    exact List.perm_append_singleton m _

/-- and leaves them from the front. -/
theorem pendingMessages_start {waiting : Bool → List Message} {m : Message} {u : Bool}
    {ms : List Message} (h : waiting u = m :: ms) (k : ℕ) :
    (pendingMessages (some (m, k)) (Function.update waiting u ms)).Perm
      (pendingMessages none waiting) := by
  unfold pendingMessages
  cases u with
  | true =>
    rw [Function.update_self, Function.update_of_ne (by simp), h]
    exact List.Perm.refl _
  | false =>
    rw [Function.update_self, Function.update_of_ne (by simp), h]
    show (m :: (waiting true ++ ms)).Perm (waiting true ++ m :: ms)
    exact List.perm_middle.symm

theorem mem_of_mem_update {waiting : Bool → List Message} {m m' : Message} {u v : Bool}
    {ms : List Message} (h : waiting u = m :: ms) (hm' : m' ∈ Function.update waiting u ms v) :
    m' ∈ waiting v := by
  by_cases hu : v = u
  · subst hu
    rw [Function.update_self] at hm'
    rw [h]
    exact List.mem_cons_of_mem _ hm'
  · rwa [Function.update_of_ne hu] at hm'

/-- Taking a chunk of a message adds no message. -/
theorem pendingMessages_after (m : Message) (k : ℕ) (waiting : Bool → List Message) :
    (pendingMessages (PendingQueue.after m k) waiting).Sublist
      (pendingMessages (some (m, k)) waiting) := by
  unfold pendingMessages PendingQueue.after
  split
  · exact List.Sublist.refl _
  · exact List.sublist_append_right _ _

/-- Flags are only raised, and none of the odd cells (`all_inflight`) changes. -/
structure Raised (flags flags' : SharedFlags) : Prop where
  length : flags'.length = flags.length
  mono : ∀ x, flags.load x = true → flags'.load x = true
  odd : ∀ x : ℕ, x % 2 = 1 → flags'.load x = flags.load x

theorem Raised.refl (flags : SharedFlags) : Raised flags flags := ⟨rfl, fun _ => id, fun _ _ => rfl⟩

theorem Raised.of_eq {flags flags' : SharedFlags} (h : flags' = flags) : Raised flags flags' := by
  rw [h]
  exact Raised.refl flags

theorem Raised.unsent {flags flags' : SharedFlags} (h : Raised flags flags') {m : Message}
    (hm : m.Unsent flags) : m.Unsent flags' where
  shares := hm.shares
  sendable := hm.sendable
  pair := by
    have hpair := hm.pair
    unfold IsPair at hpair ⊢
    rwa [h.length]
  unset := by
    have heven := hm.pair.1
    rw [h.odd (m.cell + 1) (by omega)]
    exact hm.unset

/-- Abandoning a message raises its flag and no other. -/
theorem Raised.store {flags : SharedFlags} {x : ℕ} (hx : x % 2 = 0) :
    Raised flags (flags.store x true) where
  length := SharedFlags.length_store ..
  mono y hy := SharedFlags.load_store_true hy
  odd y hy := by
    refine SharedFlags.load_store_ne ?_ true
    intro hxy
    subst hxy
    omega

namespace SharedFlags

theorem load_false_of_le {flags : SharedFlags} {x : SharedFlag} (h : flags.length ≤ x) :
    flags.load x = false := by
  unfold load
  rw [List.getD_eq_getElem?_getD, List.getElem?_eq_none h]
  rfl

/-- New cells are not set. -/
theorem load_alloc (flags : SharedFlags) (x : SharedFlag) :
    SharedFlags.load (flags ++ [false, false]) x = flags.load x := by
  by_cases hx : x < flags.length
  · exact load_append hx _
  · rw [load_false_of_le (Nat.le_of_not_lt hx)]
    unfold load
    rw [List.getD_eq_getElem?_getD, List.getElem?_append_right (Nat.le_of_not_lt hx)]
    generalize x - flags.length = d
    match d with
    | 0 => rfl
    | 1 => rfl
    | _ + 2 => rfl

end SharedFlags

theorem IsPair.alloc {flags : SharedFlags} {x : ℕ} (h : IsPair flags x) :
    IsPair (flags ++ [false, false]) x := by
  unfold IsPair at h ⊢
  rw [List.length_append]
  omega

theorem Message.Unsent.alloc {flags : SharedFlags} {m : Message} (h : m.Unsent flags) :
    m.Unsent (flags ++ [false, false]) where
  shares := h.shares
  sendable := h.sendable
  pair := h.pair.alloc
  unset := by
    rw [SharedFlags.load_alloc]
    exact h.unset

/-- The flags after a chunk has gone into flight: of the cells `all_inflight` only that of its
message may change, when the chunk ends the message. -/
theorem flags_of_move {flags flags' : SharedFlags} {c : ChunkPayloadData} {x : ℕ}
    (hcell : c.abandoned = x ∧ c.allInflight = x + 1) (hx : x % 2 = 0)
    (hflags : flags' = c.setAllInflight flags ∨
      flags' = c.setAbandoned (c.setAllInflight flags) true) :
    flags'.length = flags.length ∧ (∀ y, flags.load y = true → flags'.load y = true) ∧
      ∀ y : ℕ, y % 2 = 1 → (c.endingFragment = true → y ≠ x + 1) →
        flags'.load y = flags.load y := by
  have hall : (c.setAllInflight flags).length = flags.length ∧
      (∀ y, flags.load y = true → (c.setAllInflight flags).load y = true) ∧
      ∀ y : ℕ, (c.endingFragment = true → y ≠ x + 1) →
        (c.setAllInflight flags).load y = flags.load y := by
    unfold ChunkPayloadData.setAllInflight
    split
    · rename_i hend
      refine ⟨SharedFlags.length_store .., fun y => SharedFlags.load_store_true, ?_⟩
      intro y hy
      rw [hcell.2]
      exact SharedFlags.load_store_ne (hy hend) true
    · exact ⟨rfl, fun y => id, fun y _ => rfl⟩
  rcases hflags with rfl | rfl
  · exact ⟨hall.1, hall.2.1, fun y _ hy => hall.2.2 y hy⟩
  · have hraised : Raised (c.setAllInflight flags)
        (c.setAbandoned (c.setAllInflight flags) true) := by
      unfold ChunkPayloadData.setAbandoned
      rw [hcell.1]
      exact Raised.store hx
    refine ⟨hraised.length.trans hall.1, fun y hy => hraised.mono y (hall.2.1 y hy), ?_⟩
    intro y hodd hy
    rw [hraised.odd y hodd]
    exact hall.2.2 y hy

namespace AssociationInternal

variable {a a' : AssociationInternal} {n : ℕ} {current : Option (Message × ℕ)}
  {waiting : Bool → List Message}

/-! ## The chunks in flight by their position -/

/-- The cell of the chunk in flight `j` behind the ack point. -/
def cellAt (a : AssociationInternal) (j : ℕ) : ℕ :=
  ((a.inflightQueue.get (a.cumulativeTsnAckPoint.after j)).map (·.abandoned)).getD 0

/-- Whether that chunk is the last fragment of its message. -/
def endsAt (a : AssociationInternal) (j : ℕ) : Bool :=
  ((a.inflightQueue.get (a.cumulativeTsnAckPoint.after j)).map (·.endingFragment)).getD false

/-- Every outstanding number has its chunk. -/
theorem Sending.chunkAt (h : a.Sending n) (hn : n < 2 ^ 31) {j : ℕ} (hj : 0 < j) (hjn : j ≤ n) :
    ∃ c, a.inflightQueue.get (a.cumulativeTsnAckPoint.after j) = some c ∧
      a.cellAt j = c.abandoned ∧ a.endsAt j = c.endingFragment := by
  have hdist := dist_after a.cumulativeTsnAckPoint (k := j) (by omega)
  obtain ⟨c, hc, _⟩ := h.window.exists_get (t := a.cumulativeTsnAckPoint.after j) (by omega)
    (by omega) (by omega)
  exact ⟨c, hc, by rw [cellAt, hc]; rfl, by rw [endsAt, hc]; rfl⟩

/-- Notes do not touch the cells. -/
theorem at_touched (hq : a.inflightQueue.Touched a'.inflightQueue)
    (hcum : a'.cumulativeTsnAckPoint = a.cumulativeTsnAckPoint) (j : ℕ) :
    a'.cellAt j = a.cellAt j ∧ a'.endsAt j = a.endsAt j := by
  unfold cellAt endsAt
  rw [hcum, hq.map_eq _ fun _ => rfl, hq.map_eq _ fun _ => rfl]
  exact ⟨rfl, rfl⟩

/-- A chunk that goes into flight leaves the others where they were. -/
theorem Sending.at_move (h : a.Sending n) (hn : n + 1 < 2 ^ 31) {c : ChunkPayloadData} {now : ℕ}
    (hcum : a'.cumulativeTsnAckPoint = a.cumulativeTsnAckPoint)
    (hin : a'.inflightQueue = a.inflightQueue.pushNoCheck (numbered c a.myNextTsn now)) {j : ℕ}
    (hj : j ≤ n) : a'.cellAt j = a.cellAt j ∧ a'.endsAt j = a.endsAt j := by
  have hne : a.cumulativeTsnAckPoint.after j ≠ a.myNextTsn := by
    intro heq
    have h1 := dist_after a.cumulativeTsnAckPoint (k := j) (by omega)
    have h2 := dist_after a.cumulativeTsnAckPoint (k := n + 1) (by omega)
    rw [heq, h.next] at h1
    omega
  have hget : a'.inflightQueue.get (a.cumulativeTsnAckPoint.after j) =
      a.inflightQueue.get (a.cumulativeTsnAckPoint.after j) := by
    rw [hin]
    exact PayloadQueue.Window.get_pushNoCheck hne
  unfold cellAt endsAt
  rw [hcum, hget]
  exact ⟨rfl, rfl⟩

/-- The chunk itself is the last one in flight. -/
theorem Sending.at_newest (h : a.Sending n) {c : ChunkPayloadData} {now : ℕ}
    (hcum : a'.cumulativeTsnAckPoint = a.cumulativeTsnAckPoint)
    (hin : a'.inflightQueue = a.inflightQueue.pushNoCheck (numbered c a.myNextTsn now)) :
    a'.cellAt (n + 1) = c.abandoned ∧ a'.endsAt (n + 1) = c.endingFragment := by
  have hget : a'.inflightQueue.get (a.cumulativeTsnAckPoint.after (n + 1)) =
      some (numbered c a.myNextTsn now) := by
    rw [hin, ← h.next]
    exact PayloadQueue.Window.get_pushNoCheck_self (numbered c a.myNextTsn now)
  unfold cellAt endsAt
  rw [hcum, hget]
  exact ⟨rfl, rfl⟩

theorem get_move {c c' : ChunkPayloadData} {now : ℕ}
    (hin : a'.inflightQueue = a.inflightQueue.pushNoCheck (numbered c a.myNextTsn now)) {t : U32}
    (hc' : a'.inflightQueue.get t = some c') :
    c' = numbered c a.myNextTsn now ∨ a.inflightQueue.get t = some c' := by
  rw [hin] at hc'
  by_cases ht : t = a.myNextTsn
  · have hself := PayloadQueue.Window.get_pushNoCheck_self (q := a.inflightQueue)
      (numbered c a.myNextTsn now)
    rw [ht] at hc'
    exact Or.inl (Option.some.inj (hc'.symm.trans hself))
  · right
    rwa [PayloadQueue.Window.get_pushNoCheck ht] at hc'

/-- A SACK moves those that stay in flight to the front. -/
theorem Sending.at_popped (h : a'.Sending n) (hn : n < 2 ^ 31) {d : ℕ}
    (hcum : a'.cumulativeTsnAckPoint = a.cumulativeTsnAckPoint.after d)
    (hlabel : ∀ t c', a'.inflightQueue.get t = some c' →
      ∃ c, a.inflightQueue.get t = some c ∧ PayloadQueue.label c = PayloadQueue.label c') {j : ℕ}
    (hj : 0 < j) (hjn : j ≤ n) :
    a'.cellAt j = a.cellAt (d + j) ∧ a'.endsAt j = a.endsAt (d + j) := by
  obtain ⟨c', hc', hcell', hends'⟩ := h.chunkAt hn hj hjn
  obtain ⟨c, hc, hcl⟩ := hlabel _ c' hc'
  rw [hcum, after_add] at hc
  rw [hcell', hends']
  unfold cellAt endsAt
  rw [hc]
  exact ⟨(congrArg ChunkPayloadData.abandoned hcl :).symm,
    (congrArg ChunkPayloadData.endingFragment hcl :).symm⟩

/-- What is pending: whole messages and the rest of one, each with cells of its own. -/
structure Backlog (a : AssociationInternal) (current : Option (Message × ℕ))
    (waiting : Bool → List Message) : Prop where
  holds : a.pendingQueue.Holds current waiting
  even : a.flags.length % 2 = 0
  unsent : ∀ m ∈ pendingMessages current waiting, m.Unsent a.flags
  nodup : ((pendingMessages current waiting).map Message.cell).Nodup

/-- Chunk `k` of `m` is the next one to be popped, and `waiting'` waits behind it. -/
def Heads (m : Message) (k : ℕ) (current : Option (Message × ℕ))
    (waiting waiting' : Bool → List Message) : Prop :=
  (current = some (m, k) ∧ waiting' = waiting) ∨
    (current = none ∧ k = 0 ∧ ∃ ms, waiting m.unordered = m :: ms ∧
      waiting' = Function.update waiting m.unordered ms)

/-- The chunk at the head and what waits behind it are what was pending. -/
theorem Heads.perm {m : Message} {k : ℕ} {waiting' : Bool → List Message}
    (h : Heads m k current waiting waiting') :
    (pendingMessages (some (m, k)) waiting').Perm (pendingMessages current waiting) := by
  rcases h with ⟨rfl, rfl⟩ | ⟨rfl, _, ms, hw, rfl⟩
  · exact List.Perm.refl _
  · exact pendingMessages_start hw k

theorem Heads.mem {m : Message} {k : ℕ} {waiting' : Bool → List Message}
    (h : Heads m k current waiting waiting') : m ∈ pendingMessages current waiting :=
  h.perm.mem_iff.mp (List.mem_cons_self ..)

theorem Heads.waiting_subset {m m' : Message} {k : ℕ} {waiting' : Bool → List Message}
    (h : Heads m k current waiting waiting') {u : Bool} (hm' : m' ∈ waiting' u) :
    m' ∈ waiting u := by
  rcases h with ⟨rfl, rfl⟩ | ⟨rfl, _, ms, hw, rfl⟩
  · exact hm'
  · exact mem_of_mem_update hw hm'

/-- The messages behind the one that is popped have other cells. -/
theorem Backlog.cell_ne (h : a.Backlog current waiting) {m m' : Message} {k : ℕ}
    {waiting' : Bool → List Message} (hheads : Heads m k current waiting waiting')
    (hm' : m' ∈ waiting' true ++ waiting' false) : m'.cell ≠ m.cell := by
  have hnodup := (hheads.perm.map Message.cell).nodup_iff.mpr h.nodup
  have hcons : ((m :: (waiting' true ++ waiting' false)).map Message.cell).Nodup := hnodup
  rw [List.map_cons, List.nodup_cons] at hcons
  intro heq
  exact hcons.1 (heq ▸ List.mem_map_of_mem hm')

/-- What is pending after a chunk has been popped and its flags are raised. -/
theorem Backlog.move (h : a.Backlog current waiting) {m : Message} {k : ℕ} {c : ChunkPayloadData}
    {waiting' : Bool → List Message} (hheads : Heads m k current waiting waiting')
    (hget : m.chunks[k]? = some c) (hq : a'.pendingQueue.Holds (PendingQueue.after m k) waiting')
    (hflags : a'.flags = c.setAllInflight a.flags ∨
      a'.flags = c.setAbandoned (c.setAllInflight a.flags) true) :
    a'.Backlog (PendingQueue.after m k) waiting' := by
  have hunsent := h.unsent m hheads.mem
  have hcell := hunsent.shares c (List.mem_of_getElem? hget)
  obtain ⟨hlen, hmono, hodd⟩ := flags_of_move hcell hunsent.pair.1 hflags
  have hsub := pendingMessages_after m k waiting'
  refine ⟨hq, ?_, ?_, ?_⟩
  · rw [hlen]
    exact h.even
  · intro m' hm'
    have hm := hheads.perm.mem_iff.mp (hsub.subset hm')
    have hold := h.unsent m' hm
    refine ⟨hold.shares, hold.sendable, ?_, ?_⟩
    · have hpair := hold.pair
      unfold IsPair at hpair ⊢
      rwa [hlen]
    · have heven := hold.pair.1
      rw [hodd (m'.cell + 1) (by omega) ?_]
      · exact hold.unset
      · -- a message that ends is not pending any more
        intro hend heq
        have hafter : PendingQueue.after m k = none := by
          have hlast := (m.isMessage.ending k c hget).mp hend
          exact if_neg (by omega)
        rw [hafter] at hm'
        exact h.cell_ne hheads hm' (by omega)
  · exact ((hheads.perm.map _).nodup_iff.mpr h.nodup).sublist (hsub.map _)

/-- Messages go into flight one behind the other: chunks in flight with the same cell follow
each other and only the last one may end the message, and a message whose last chunk in
flight does not end it is the one that is being popped. -/
structure Flow (a : AssociationInternal) (n : ℕ) (current : Option (Message × ℕ))
    (waiting : Bool → List Message) : Prop extends a.Sending n, a.Backlog current waiting where
  cells : ∀ t c, a.inflightQueue.get t = some c →
    c.allInflight = c.abandoned + 1 ∧ IsPair a.flags c.abandoned
  fresh : ∀ t c, a.inflightQueue.get t = some c → ∀ u, ∀ m ∈ waiting u, m.cell ≠ c.abandoned
  together : ∀ i l, 0 < i → i < l → l ≤ n → a.cellAt i = a.cellAt l →
    ∀ j, i ≤ j → j < l → a.cellAt j = a.cellAt i ∧ a.endsAt j = false
  follows : ∀ j, 0 < j → j < n → a.endsAt j = false → a.cellAt (j + 1) = a.cellAt j
  open_ : 0 < n → a.endsAt n = false → ∃ m k, current = some (m, k) ∧ m.cell = a.cellAt n
  last : ∀ m k, current = some (m, k) → ∀ i, 0 < i → i ≤ n → a.cellAt i = m.cell →
    a.cellAt n = m.cell ∧ a.endsAt n = false

namespace Flow

/-- Bookkeeping of the chunks and raised flags do not matter. -/
theorem touch (h : a.Flow n current waiting) (hq : a.inflightQueue.Touched a'.inflightQueue)
    (hcum : a'.cumulativeTsnAckPoint = a.cumulativeTsnAckPoint) (hnext : a'.myNextTsn = a.myNextTsn)
    (hpending : a'.pendingQueue = a.pendingQueue) (hraised : Raised a.flags a'.flags) :
    a'.Flow n current waiting := by
  have hcell : ∀ j, a'.cellAt j = a.cellAt j := fun j => (at_touched hq hcum j).1
  have hends : ∀ j, a'.endsAt j = a.endsAt j := fun j => (at_touched hq hcum j).2
  have hlabel : ∀ t c', a'.inflightQueue.get t = some c' → ∃ c, a.inflightQueue.get t = some c ∧
      c.abandoned = c'.abandoned ∧ c.allInflight = c'.allInflight := by
    intro t c' hc'
    obtain ⟨c, hc, hl⟩ := hq.get_eq_some hc'
    exact ⟨c, hc, (congrArg ChunkPayloadData.abandoned hl :),
      (congrArg ChunkPayloadData.allInflight hl :)⟩
  refine ⟨h.toSending.congr hq hcum hnext, ⟨?_, ?_, ?_, h.nodup⟩, ?_, ?_, ?_, ?_, ?_, ?_⟩
  · rw [hpending]
    exact h.holds
  · rw [hraised.length]
    exact h.even
  · intro m hm
    exact hraised.unsent (h.unsent m hm)
  · intro t c' hc'
    obtain ⟨c, hc, hab, hall⟩ := hlabel t c' hc'
    have hpair := h.cells t c hc
    unfold IsPair at hpair ⊢
    rw [← hab, ← hall, hraised.length]
    exact hpair
  · intro t c' hc' u m hm
    obtain ⟨c, hc, hab, _⟩ := hlabel t c' hc'
    rw [← hab]
    exact h.fresh t c hc u m hm
  · simp only [hcell, hends]
    exact h.together
  · simp only [hcell, hends]
    exact h.follows
  · simp only [hcell, hends]
    exact h.open_
  · simp only [hcell, hends]
    exact h.last

/-- New cells do not matter. -/
theorem alloc (h : a.Flow n current waiting) (objects : List Stream) :
    Flow { a with flags := a.flags ++ [false, false], objects } n current waiting where
  toSending := ⟨h.window, h.toSending.next⟩
  holds := h.holds
  even := by
    have := h.even
    show (a.flags ++ [false, false]).length % 2 = 0
    rw [List.length_append]
    show (a.flags.length + 2) % 2 = 0
    omega
  unsent m hm := (h.unsent m hm).alloc
  nodup := h.nodup
  cells t c hc := by
    have hcell := h.cells t c hc
    exact ⟨hcell.1, hcell.2.alloc⟩
  fresh := h.fresh
  together := h.together
  follows := h.follows
  open_ := h.open_
  last := h.last

/-- A message is pushed that has new cells. -/
theorem push (h : a.Flow n current waiting) {m : Message} (hcell : m.cell = a.flags.length)
    (hshares : m.Shares) (hsend : m.Sendable) (objects : List Stream) :
    Flow { a with
      flags := a.flags ++ [false, false]
      pendingQueue := m.chunks.foldl PendingQueue.push a.pendingQueue
      objects } n current
      (Function.update waiting m.unordered (waiting m.unordered ++ [m])) := by
  have halloc := h.alloc objects
  have hlt : ∀ m' ∈ pendingMessages current waiting, m'.cell ≠ m.cell := by
    intro m' hm'
    have hpair := (h.unsent m' hm').pair.2
    omega
  have hperm := pendingMessages_push current waiting m m.unordered
  have hunsent : m.Unsent (a.flags ++ [false, false]) := by
    refine ⟨hshares, hsend, ?_, ?_⟩
    · have heven := h.even
      unfold IsPair
      rw [List.length_append, hcell]
      exact ⟨heven, Nat.lt_succ_self _⟩
    · rw [SharedFlags.load_alloc, hcell]
      exact SharedFlags.load_false_of_le (Nat.le_succ _)
  refine ⟨⟨h.window, h.toSending.next⟩, ⟨h.holds.push m, halloc.even, ?_, ?_⟩, halloc.cells, ?_,
    h.together, h.follows, h.open_, h.last⟩
  · intro m' hm'
    rw [hperm.mem_iff, List.mem_cons] at hm'
    rcases hm' with rfl | hm'
    · exact hunsent
    · exact halloc.unsent m' hm'
  · rw [(hperm.map _).nodup_iff, List.map_cons, List.nodup_cons]
    refine ⟨?_, h.nodup⟩
    intro hmem
    obtain ⟨m', hm', heq⟩ := List.mem_map.mp hmem
    exact hlt m' hm' heq
  · intro t c hc u m' hm'
    by_cases hu : u = m.unordered
    · subst hu
      rw [Function.update_self, List.mem_append, List.mem_singleton] at hm'
      rcases hm' with hm' | rfl
      · exact h.fresh t c hc _ m' hm'
      · have hpair := (h.cells t c hc).2.2
        intro heq
        rw [← heq] at hpair
        omega
    · rw [Function.update_of_ne hu] at hm'
      exact h.fresh t c hc u m' hm'

/-- An end-of-stream marker is popped and does not go into flight. -/
theorem drop (h : a.Flow n current waiting) {c : ChunkPayloadData}
    (hpeek : a.pendingQueue.peek = some c) (hc : c.userData = []) :
    ∃ waiting', Flow { a with
      pendingQueue := (a.pendingQueue.pop c.beginningFragment c.unordered).1 } n none waiting' := by
  obtain ⟨m, k, q', hget, hpop, hcases⟩ := h.holds.pop hpeek
  have hmem := List.mem_of_getElem? hget
  rw [hpop]
  rcases hcases with ⟨hcur, hholds⟩ | ⟨hcur, hk, ms, hw, hholds⟩
  · -- a fragment of a message of more than one has data
    exfalso
    have hcurrent := h.holds.current m k hcur
    have hm : m ∈ pendingMessages current waiting := by
      rw [hcur]
      exact List.mem_cons_self ..
    rcases (h.unsent m hm).sendable with hdata | hone
    · exact hdata c hmem hc
    · omega
  · subst hcur
    subst hk
    have hm : m ∈ waiting m.unordered := by
      rw [hw]
      exact List.mem_cons_self ..
    have hone : m.chunks.length = 1 := by
      rcases (h.unsent m (mem_pendingMessages hm)).sendable with hdata | hone
      · exact absurd hc (hdata c hmem)
      · exact hone
    have hafter : PendingQueue.after m 0 = none := if_neg (by omega)
    rw [hafter] at hholds
    have hsub : (pendingMessages none (Function.update waiting m.unordered ms)).Sublist
        (pendingMessages (some (m, 0)) (Function.update waiting m.unordered ms)) :=
      List.sublist_append_right _ _
    have hperm := pendingMessages_start hw 0
    refine ⟨_, ⟨h.window, h.toSending.next⟩, ⟨hholds, h.even, ?_, ?_⟩, h.cells, ?_, h.together,
      h.follows, ?_, ?_⟩
    · intro m' hm'
      exact h.unsent m' (hperm.mem_iff.mp (hsub.subset hm'))
    · exact ((hperm.map _).nodup_iff.mpr h.nodup).sublist (hsub.map _)
    · intro t c' hc' u m' hm'
      exact h.fresh t c' hc' u m' (mem_of_mem_update hw hm')
    · intro hn hends
      obtain ⟨_, _, hnone, _⟩ := h.open_ hn hends
      cases hnone
    · intro m' k' hnone
      cases hnone

section Move

variable {m : Message} {k : ℕ} {waiting' : Bool → List Message}

/-- If the message that is popped has chunks in flight, the last one in flight is one of them,
and others of it are to come. -/
theorem last_of_heads (h : a.Flow n current waiting) (hn : n < 2 ^ 31)
    (hheads : Heads m k current waiting waiting') {i : ℕ} (hi : 0 < i) (hin : i ≤ n)
    (heq : a.cellAt i = m.cell) : a.cellAt n = m.cell ∧ a.endsAt n = false := by
  obtain ⟨ci, hci, hcelli, _⟩ := h.toSending.chunkAt hn hi hin
  rcases hheads with ⟨hcur, _⟩ | ⟨_, _, ms, hw, _⟩
  · exact h.last m k hcur i hi hin heq
  · -- a message that still waits has a cell that none in flight has
    have hmem : m ∈ waiting m.unordered := by
      rw [hw]
      exact List.mem_cons_self ..
    exact absurd (heq.symm.trans hcelli) (h.fresh _ ci hci m.unordered m hmem)

variable (hold : ∀ j, j ≤ n → a'.cellAt j = a.cellAt j ∧ a'.endsAt j = a.endsAt j)
  (hnew : a'.cellAt (n + 1) = m.cell)
include hold hnew

/-- The chunks of a message stay together as the next chunk goes into flight, -/
theorem together_move (h : a.Flow n current waiting) (hn : n < 2 ^ 31)
    (hheads : Heads m k current waiting waiting') {i l : ℕ} (hi : 0 < i) (hil : i < l)
    (hl : l ≤ n + 1) (heq : a'.cellAt i = a'.cellAt l) {j : ℕ} (hij : i ≤ j) (hjl : j < l) :
    a'.cellAt j = a'.cellAt i ∧ a'.endsAt j = false := by
  rw [(hold i (by omega)).1] at heq ⊢
  rw [(hold j (by omega)).1, (hold j (by omega)).2]
  rcases Nat.lt_or_ge n l with hlast | hl'
  · -- `l` is the new chunk: its message is the one that was being popped
    have hl' : l = n + 1 := by omega
    rw [hl', hnew] at heq
    have hlast' := h.last_of_heads hn hheads hi (by omega) heq
    rcases Nat.lt_or_ge j n with hjn | hjn
    · exact h.together i n hi (by omega) (Nat.le_refl n) (heq.trans hlast'.1.symm) j hij hjn
    · have hjn' : j = n := by omega
      rw [hjn', heq]
      exact hlast'
  · rw [(hold l hl').1] at heq
    exact h.together i l hi hil hl' heq j hij hjl

/-- and behind one that does not end its message comes the next of the same message. -/
theorem follows_move (h : a.Flow n current waiting)
    (hheads : Heads m k current waiting waiting') {j : ℕ} (hj : 0 < j) (hjn : j < n + 1)
    (hends : a'.endsAt j = false) : a'.cellAt (j + 1) = a'.cellAt j := by
  rw [(hold j (by omega)).2] at hends
  rcases Nat.lt_or_ge j n with hlt | hge
  · rw [(hold j (by omega)).1, (hold (j + 1) (by omega)).1]
    exact h.follows j hj hlt hends
  · have hjn' : j = n := by omega
    subst hjn'
    obtain ⟨m', k', hcur, hm'⟩ := h.open_ hj hends
    rw [hnew, (hold j (Nat.le_refl j)).1, ← hm']
    rcases hheads with ⟨hcur', _⟩ | ⟨hcur', _⟩
    · rw [hcur] at hcur'
      cases hcur'
      rfl
    · rw [hcur] at hcur'
      cases hcur'

end Move

/-- A chunk goes into flight. -/
theorem move (h : a.Flow n current waiting) (hn : n + 1 < 2 ^ 31) {m : Message} {k : ℕ}
    {c : ChunkPayloadData} {waiting' : Bool → List Message} {now : ℕ}
    (hheads : Heads m k current waiting waiting') (hget : m.chunks[k]? = some c)
    (hq : a'.pendingQueue.Holds (PendingQueue.after m k) waiting')
    (hflags : a'.flags = c.setAllInflight a.flags ∨
      a'.flags = c.setAbandoned (c.setAllInflight a.flags) true)
    (hcum : a'.cumulativeTsnAckPoint = a.cumulativeTsnAckPoint)
    (hnext : a'.myNextTsn = a.myNextTsn + 1)
    (hin : a'.inflightQueue = a.inflightQueue.pushNoCheck (numbered c a.myNextTsn now)) :
    a'.Flow (n + 1) (PendingQueue.after m k) waiting' := by
  have hunsent := h.unsent m hheads.mem
  have hcell := hunsent.shares c (List.mem_of_getElem? hget)
  obtain ⟨hlen, _, _⟩ := flags_of_move hcell hunsent.pair.1 hflags
  have hafter := PendingQueue.Holds.ending_iff hget
  have hsending : a'.Sending (n + 1) := by
    refine ⟨?_, ?_⟩
    · rw [hin, hcum]
      exact h.window.pushNoCheck (by omega) h.toSending.next
    · rw [hcum, hnext, h.toSending.next, after_succ]
  -- the new chunk is the last one in flight, the others are where they were
  have hold : ∀ j, j ≤ n → a'.cellAt j = a.cellAt j ∧ a'.endsAt j = a.endsAt j :=
    fun j => h.toSending.at_move hn hcum hin
  obtain ⟨hnew, hends'⟩ := h.toSending.at_newest hcum hin
  rw [hcell.1] at hnew
  refine ⟨hsending, h.toBacklog.move hheads hget hq hflags, ?_, ?_, ?_, ?_, ?_, ?_⟩
  · intro t c' hc'
    unfold IsPair
    rw [hlen]
    rcases get_move hin hc' with rfl | hc'
    · have hpair := hunsent.pair
      unfold IsPair at hpair
      show c.allInflight = c.abandoned + 1 ∧ c.abandoned % 2 = 0 ∧
        c.abandoned + 1 < a.flags.length
      rw [hcell.1, hcell.2]
      exact ⟨rfl, hpair⟩
    · exact h.cells t c' hc'
  · intro t c' hc' u m' hm'
    rcases get_move hin hc' with rfl | hc'
    · show m'.cell ≠ c.abandoned
      rw [hcell.1]
      refine h.cell_ne hheads ?_
      cases u <;> simp [hm']
    · exact h.fresh t c' hc' u m' (hheads.waiting_subset hm')
  · exact fun i l hi hil hl heq j => together_move hold hnew h (by omega) hheads hi hil hl heq
  · exact fun j => follows_move hold hnew h hheads
  · intro _ hends
    rw [hends'] at hends
    exact ⟨m, k + 1, if_pos (hafter.mp hends), hnew.symm⟩
  · intro m' k' hcur i _ _ _
    unfold PendingQueue.after at hcur
    split at hcur
    · rename_i hlt
      injection hcur with hmk
      injection hmk with hmm
      subst hmm
      rw [hnew, hends']
      exact ⟨rfl, hafter.mpr hlt⟩
    · cases hcur

/-- Chunks that a SACK acknowledges leave from the front. -/
theorem popped (h : a.Flow n current waiting) (hn : n < 2 ^ 31) {d : ℕ} (hd : d ≤ n)
    (hwindow : a'.inflightQueue.Window (a.cumulativeTsnAckPoint.after d) (n - d))
    (hcum : a'.cumulativeTsnAckPoint = a.cumulativeTsnAckPoint.after d)
    (hlabel : ∀ t c', a'.inflightQueue.get t = some c' →
      ∃ c, a.inflightQueue.get t = some c ∧ PayloadQueue.label c = PayloadQueue.label c')
    (hnext : a'.myNextTsn = a.myNextTsn) (hpending : a'.pendingQueue = a.pendingQueue)
    (hflags : a'.flags = a.flags) : a'.Flow (n - d) current waiting := by
  have hsending : a'.Sending (n - d) := by
    refine ⟨by rw [hcum]; exact hwindow, ?_⟩
    rw [hnext, hcum, after_add, h.toSending.next]
    congr 1
    omega
  have hpos : ∀ j, 0 < j → j ≤ n - d → a'.cellAt j = a.cellAt (d + j) ∧
      a'.endsAt j = a.endsAt (d + j) := fun j => hsending.at_popped (by omega) hcum hlabel
  refine ⟨hsending, ⟨?_, ?_, ?_, h.nodup⟩, ?_, ?_, ?_, ?_, ?_, ?_⟩
  · rw [hpending]
    exact h.holds
  · rw [hflags]
    exact h.even
  · rw [hflags]
    exact h.unsent
  · intro t c' hc'
    obtain ⟨c, hc, hcl⟩ := hlabel t c' hc'
    have hab : c.abandoned = c'.abandoned := (congrArg ChunkPayloadData.abandoned hcl :)
    have hall : c.allInflight = c'.allInflight := (congrArg ChunkPayloadData.allInflight hcl :)
    rw [← hab, ← hall, hflags]
    exact h.cells t c hc
  · intro t c' hc' u m hm
    obtain ⟨c, hc, hcl⟩ := hlabel t c' hc'
    have hab : c.abandoned = c'.abandoned := (congrArg ChunkPayloadData.abandoned hcl :)
    rw [← hab]
    exact h.fresh t c hc u m hm
  · intro i l hi hil hl heq j hij hjl
    rw [(hpos i hi (by omega)).1, (hpos l (by omega) hl).1] at heq
    rw [(hpos i hi (by omega)).1, (hpos j (by omega) (by omega)).1,
      (hpos j (by omega) (by omega)).2]
    exact h.together (d + i) (d + l) (by omega) (by omega) (by omega) heq (d + j) (by omega)
      (by omega)
  · intro j hj hjn hends
    rw [(hpos j hj (by omega)).2] at hends
    rw [(hpos j hj (by omega)).1, (hpos (j + 1) (by omega) (by omega)).1]
    exact h.follows (d + j) (by omega) (by omega) hends
  · intro hpos' hends
    rw [(hpos _ hpos' (Nat.le_refl _)).2, Nat.add_sub_cancel' hd] at hends
    obtain ⟨m, k, hcur, hm⟩ := h.open_ (by omega) hends
    refine ⟨m, k, hcur, ?_⟩
    rw [hm, (hpos _ hpos' (Nat.le_refl _)).1, Nat.add_sub_cancel' hd]
  · intro m k hcur i hi hin heq
    rw [(hpos i hi hin).1] at heq
    rw [(hpos _ (by omega) (Nat.le_refl _)).1, (hpos _ (by omega) (Nat.le_refl _)).2,
      Nat.add_sub_cancel' hd]
    exact h.last m k hcur (d + i) (by omega) (by omega) heq

end Flow

end AssociationInternal

end Sctp
