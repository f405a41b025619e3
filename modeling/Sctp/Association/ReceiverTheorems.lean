import Sctp.Association.Receiver
import Sctp.Association.Sender
import Sctp.Association.StreamFrameTheorems
import Sctp.Queue.PayloadQueueTheorems

/-!
# The receiver takes every TSN once

Behind the payload queue stands a receive window: `peer_last_tsn` and the TSNs held beyond
it. Whatever arrives, an operation takes at most one new TSN in and slides the window on.
-/

namespace Sctp

open ReceiveWindow (Slides)

namespace PayloadQueue

/-! ## The window of a queue -/

/-- The TSNs received beyond a point. -/
def receiveWindow (q : PayloadQueue) (point : U32) : ReceiveWindow.Window 32 :=
  { point, held := { t | t ∈ q.chunkMap } }

/-- The chunk goes into the window. -/
theorem Ahead.slides_push {q : PayloadQueue} {point : U32} (h : q.Ahead point)
    {p : ChunkPayloadData} (hp : q.canPush p point = true) :
    Slides (q.receiveWindow point) ((q.push p point).1.receiveWindow point) [p.tsn] 0 := by
  obtain ⟨hnew, hpos, hle⟩ := canPush_iff.mp hp
  rw [push_eq hp]
  have hmem : ∀ t, t ∈ q.chunkMap ∨ t ∈ [p.tsn] →
      0 < Serial.dist point t ∧ Serial.dist point t ≤ 2 ^ 31 := by
    intro t ht
    rw [List.mem_singleton] at ht
    rcases ht with ht | rfl
    · exact h.ahead_of_mem ht
    · exact ⟨hpos, hle⟩
  have hpoint : point = point + BitVec.ofNat 32 0 := by simp
  refine ⟨List.nodup_singleton _, ?_, fun t ht => (hmem t ht).2, Nat.zero_le _, hpoint, ?_⟩
  · intro t ht
    rw [List.mem_singleton] at ht
    subst ht
    exact ⟨hnew, hpos⟩
  · intro t
    show t ∈ (q.pushNoCheck p).chunkMap ↔ _
    rw [mem_pushNoCheck, ← List.mem_singleton]
    exact ⟨fun ht => ⟨ht, (hmem t ht).1⟩, fun ht => ht.1⟩

/-- A pop of the TSN after the point, whether it is there or not, lets the point go on. -/
theorem Ahead.slides_pop {q : PayloadQueue} {point : U32} (h : q.Ahead point) :
    (q.pop (point + 1)).1.Ahead (point + 1) ∧
      Slides (q.receiveWindow point) ((q.pop (point + 1)).1.receiveWindow (point + 1)) [] 1 := by
  have hkey : (q.pop (point + 1)).1.Ahead (point + 1) ∧
      ∀ t, t ∈ (q.pop (point + 1)).1.chunkMap ↔ t ∈ q.chunkMap ∧ t ≠ point + 1 := by
    by_cases hnext : point + 1 ∈ q.chunkMap
    · obtain ⟨c, q', hpop, hahead, _, hmem⟩ := h.pop hnext
      rw [hpop]
      exact ⟨hahead, hmem⟩
    · rw [h.pop_of_notMem hnext]
      refine ⟨h.shift hnext, fun t => ⟨fun ht => ⟨ht, ?_⟩, fun ht => ht.1⟩⟩
      intro heq
      rw [heq] at ht
      exact hnext ht
  refine ⟨hkey.1, List.nodup_nil, fun t ht => absurd ht List.not_mem_nil, ?_, ?_, rfl, ?_⟩
  · rintro t (ht | ht)
    · exact (h.ahead_of_mem ht).2
    · exact absurd ht List.not_mem_nil
  · decide
  · intro t
    show t ∈ (q.pop (point + 1)).1.chunkMap ↔ _
    rw [hkey.2]
    have hone := Ahead.dist_next point
    constructor
    · rintro ⟨ht, hne⟩
      refine ⟨Or.inl ht, ?_⟩
      have hpos := (h.ahead_of_mem ht).1
      have hne' : Serial.dist point t ≠ 1 := fun heq => hne (Serial.dist_inj (heq.trans hone.symm))
      show 1 < Serial.dist point t
      omega
    · rintro ⟨ht | ht, hlt⟩
      · refine ⟨ht, fun heq => ?_⟩
        rw [heq] at hlt
        exact absurd (hone ▸ hlt) (lt_irrefl _)
      · exact absurd ht List.not_mem_nil

end PayloadQueue

namespace AssociationInternal

variable {a a' : AssociationInternal}

/-! ## What operations on streams leave alone -/

/-- The association without its streams and the bookkeeping of their resets. -/
def apartFromStreams (a : AssociationInternal) : AssociationInternal :=
  { a with
    streams := ∅
    objects := []
    acceptCh := none
    reconfigs := ∅
    reconfigRequests := ∅
    treconfig := {} }

theorem apartFromStreams_ignoresStreams : IgnoresStreams apartFromStreams := fun _ _ _ _ => rfl

theorem apartFromStreams_ignoresRequests : IgnoresRequests apartFromStreams := fun _ _ => rfl

/-- The streams and the requests are all that a look at the requests changes. -/
theorem apartFromStreams_recheckReconfigRequests (a : AssociationInternal) :
    a.recheckReconfigRequests.1.apartFromStreams = a.apartFromStreams :=
  apartFromStreams_ignoresStreams.recheckReconfigRequests apartFromStreams_ignoresRequests a

/-- A reset parameter touches nothing but the streams and the requests. -/
@[simp] theorem apartFromStreams_handleReconfigParam (a : AssociationInternal) (raw : Param) :
    (a.handleReconfigParam raw).1.apartFromStreams = a.apartFromStreams := by
  unfold handleReconfigParam
  split
  · exact apartFromStreams_ignoresStreams.resetStreamsIfAny apartFromStreams_ignoresRequests _ _
  · dsimp only
    split <;> rfl
  · rfl

theorem handleReconfigParam?_fst (a : AssociationInternal) (raw : Option Param) :
    (a.handleReconfigParam? raw).1 =
      match raw with
      | none => a
      | some raw => (a.handleReconfigParam raw).1 := by
  unfold handleReconfigParam?
  cases raw with
  | none => rfl
  | some raw =>
    dsimp only
    split <;> simp_all

/-- The parameters are handled one after the other, up to the first error. -/
theorem handleReconfig_fst (a : AssociationInternal) (c : ChunkReconfig) :
    (a.handleReconfig c).1 =
      match a.handleReconfigParam? c.paramA with
      | (a', .ok _) => (a'.handleReconfigParam? c.paramB).1
      | (a', .error _) => a' := by
  unfold handleReconfig
  split
  · rename_i heq
    rw [heq]
  · rename_i heq
    rw [heq]
    dsimp only
    split <;> simp_all

/-- What every parameter keeps, a RECONFIG chunk keeps. -/
theorem handleReconfig_invariant {I : AssociationInternal → Prop} {c : ChunkReconfig}
    (hparam : ∀ a raw, c.paramA = some raw ∨ c.paramB = some raw → I a →
      I (a.handleReconfigParam raw).1) (h : I a) : I (a.handleReconfig c).1 := by
  have hopt : ∀ a raw, c.paramA = raw ∨ c.paramB = raw → I a → I (a.handleReconfigParam? raw).1 := by
    intro a raw hraw ha
    rw [handleReconfigParam?_fst]
    cases raw with
    | none => exact ha
    | some raw => exact hparam a raw hraw ha
  have hA := hopt a c.paramA (Or.inl rfl) h
  have hB := hopt _ c.paramB (Or.inr rfl) hA
  rw [handleReconfig_fst]
  revert hA hB
  generalize a.handleReconfigParam? c.paramA = r
  obtain ⟨a', e | packets⟩ := r
  · exact fun hA _ => hA
  · exact fun _ hB => hB

@[simp] theorem apartFromStreams_handleReconfig (a : AssociationInternal) (c : ChunkReconfig) :
    (a.handleReconfig c).1.apartFromStreams = a.apartFromStreams :=
  handleReconfig_invariant (I := fun b => b.apartFromStreams = a.apartFromStreams)
    (fun b raw _ hb => (apartFromStreams_handleReconfigParam b raw).trans hb) rfl

/-- The two loops over streams of `handle_forward_tsn`. -/
def forwardStreams (a : AssociationInternal) (c : ChunkForwardTsn) : AssociationInternal :=
  let a := c.streams.foldl
    (fun a forwarded => a.modifyStream forwarded.identifier fun s =>
      (s.handleForwardTsnForOrdered forwarded.sequence).1) a
  a.streams.keys.foldl
    (fun a si => a.modifyStream si fun s =>
      (s.handleForwardTsnForUnordered c.newCumulativeTsn).1) a

/-- What operations on streams keep, the two loops keep. -/
theorem forwardStreams_invariant {I : AssociationInternal → Prop} (c : ChunkForwardTsn)
    (hordered : ∀ a, ∀ e ∈ c.streams, I a →
      I (a.modifyStream e.identifier fun s => (s.handleForwardTsnForOrdered e.sequence).1))
    (hunordered : ∀ a si, I a →
      I (a.modifyStream si fun s => (s.handleForwardTsnForUnordered c.newCumulativeTsn).1))
    (h : I a) : I (a.forwardStreams c) := by
  have hfirst : I (Runs.run (fun a (e : ChunkForwardTsnStream) =>
      a.modifyStream e.identifier fun s => (s.handleForwardTsnForOrdered e.sequence).1)
        a c.streams) :=
    Runs.run_invariant_along (P := fun _ e => e ∈ c.streams) hordered h
      (Runs.along_of_forall a fun _ he => he)
  have hsecond : ∀ (b : AssociationInternal) (ids : List U16), I b →
      I (Runs.run (fun a (si : U16) =>
        a.modifyStream si fun s => (s.handleForwardTsnForUnordered c.newCumulativeTsn).1) b ids) :=
    fun b ids hb => Runs.run_invariant (fun a si => hunordered a si) hb ids
  exact hsecond _ _ hfirst

/-- What ignores the streams ignores a FORWARD TSN to them. -/
theorem IgnoresStreams.forwardStreams {β : Type*} {f : AssociationInternal → β}
    (hf : IgnoresStreams f) (a : AssociationInternal) (c : ChunkForwardTsn) :
    f (a.forwardStreams c) = f a :=
  forwardStreams_invariant (I := fun b => f b = f a) c
    (fun b e _ hb => (hf.modifyStream b e.identifier _).trans hb)
    (fun b si hb => (hf.modifyStream b si _).trans hb) rfl

/-- A FORWARD TSN that is not out of date moves the point, goes over the streams, and ends as
DATA does. -/
theorem handleForwardTsn_of_ahead {c : ChunkForwardTsn} (huse : a.useForwardTsn = true)
    (hahead : sna32lte c.newCumulativeTsn a.peerLastTsn = false) :
    a.handleForwardTsn c =
      ({ a with
        payloadQueue := (forwardPeerLastTsn c.newCumulativeTsn a.payloadQueue a.peerLastTsn).1
        peerLastTsn := (forwardPeerLastTsn c.newCumulativeTsn a.payloadQueue a.peerLastTsn).2
        }.forwardStreams c).handlePeerLastTsnAndAcknowledgement false := by
  unfold handleForwardTsn
  rw [if_neg (by rw [huse]; simp), if_neg (by rw [hahead]; exact Bool.false_ne_true)]
  rfl

/-- Any other leaves everything but the acknowledgements. -/
theorem handleForwardTsn_of_behind {c : ChunkForwardTsn}
    (h : a.useForwardTsn = false ∨ sna32lte c.newCumulativeTsn a.peerLastTsn = true) :
    (a.handleForwardTsn c).1 = a ∨
      (a.handleForwardTsn c).1 =
        { a with ackState := .immediate, ackTimer := a.ackTimer.stop } := by
  unfold handleForwardTsn
  rcases h with h | h
  · rw [if_pos (by rw [h]; rfl)]
    exact Or.inl rfl
  · by_cases huse : (!a.useForwardTsn) = true
    · rw [if_pos huse]
      exact Or.inl rfl
    · rw [if_neg huse, if_pos h]
      exact Or.inr rfl

/-- A FORWARD TSN is passed over, or it is in use and ahead of the point. -/
theorem forwardTsn_cases (a : AssociationInternal) (c : ChunkForwardTsn) :
    (a.useForwardTsn = false ∨ sna32lte c.newCumulativeTsn a.peerLastTsn = true) ∨
      a.useForwardTsn = true ∧ sna32lte c.newCumulativeTsn a.peerLastTsn = false := by
  cases a.useForwardTsn <;> cases sna32lte c.newCumulativeTsn a.peerLastTsn <;> simp

/-- The association without its streams and without the receive window. -/
def apartFromReceiving (a : AssociationInternal) : AssociationInternal :=
  { a.apartFromStreams with payloadQueue := {}, peerLastTsn := 0 }

/-- Moving `peer_last_tsn` on may reset streams, and touches nothing else. -/
theorem apartFromReceiving_advancePeerLastTsn (fuel : ℕ) (a : AssociationInternal)
    (reply : List Packet) :
    (advancePeerLastTsn fuel a reply).1.apartFromReceiving = a.apartFromReceiving := by
  induction fuel generalizing a reply with
  | zero => rfl
  | succ fuel ih =>
    unfold advancePeerLastTsn
    split
    · rfl
    · rename_i q c hpop
      have hrecheck := apartFromStreams_recheckReconfigRequests
        { a with payloadQueue := q, peerLastTsn := a.peerLastTsn + 1 }
      exact (ih _ _).trans (congrArg apartFromReceiving hrecheck :)

/-- The part of the state the receive window lies in. -/
def received (a : AssociationInternal) : PayloadQueue × U32 := (a.payloadQueue, a.peerLastTsn)

theorem received_of_apartFromStreams (h : a'.apartFromStreams = a.apartFromStreams) :
    a'.received = a.received := (congrArg received h :)

theorem received_ignoresStreams : IgnoresStreams received := fun _ _ _ _ => rfl

theorem received_ignoresTriggers : IgnoresTriggers received := fun _ _ _ => rfl

/-! ## The loops that move `peer_last_tsn` -/

/-- The window of the association. -/
def receiveWindow (a : AssociationInternal) : ReceiveWindow.Window 32 :=
  a.payloadQueue.receiveWindow a.peerLastTsn

theorem receiveWindow_of_received (h : a'.received = a.received) :
    a'.receiveWindow = a.receiveWindow :=
  congrArg (fun x : PayloadQueue × U32 => x.1.receiveWindow x.2) h

/-- Between two operations: the queue lies ahead of `peer_last_tsn`, and not directly. -/
structure Receiving (a : AssociationInternal) : Prop where
  queue : a.payloadQueue.Ahead a.peerLastTsn
  next_missing : a.peerLastTsn + 1 ∉ a.payloadQueue.chunkMap

theorem Receiving.of_received (h : a.Receiving) (ha : a'.received = a.received) :
    a'.Receiving := by
  have hq : a'.payloadQueue = a.payloadQueue := congrArg Prod.fst ha
  have hp : a'.peerLastTsn = a.peerLastTsn := congrArg Prod.snd ha
  exact ⟨by rw [hq, hp]; exact h.queue, by rw [hq, hp]; exact h.next_missing⟩

theorem Receiving.new (h : a.payloadQueue = {}) : a.Receiving where
  queue := by rw [h]; exact PayloadQueue.Ahead.new _
  next_missing := by rw [h]; exact AList.notMem_empty _

/-- What is held lies ahead of the point, within half a round. -/
theorem receiveWindow_near (h : a.payloadQueue.Ahead a.peerLastTsn) :
    ∀ t ∈ a.receiveWindow.held, 0 < Serial.dist a.receiveWindow.point t ∧
      Serial.dist a.receiveWindow.point t ≤ Serial.half 32 :=
  fun _ ht => h.ahead_of_mem ht

/-- `Slides` over `bound` at most: the point stays behind what was held. -/
def SlidesUpTo (bound : ℕ) (a a' : AssociationInternal) : Prop :=
  ∃ k ≤ bound, Slides a.receiveWindow a'.receiveWindow [] k

/-- The loop stops before the first TSN that is missing. It ends because every round takes
a TSN out of the queue. -/
theorem advancePeerLastTsn_slides (fuel : ℕ) (a : AssociationInternal) (reply : List Packet)
    (h : a.payloadQueue.Ahead a.peerLastTsn) (hfuel : a.payloadQueue.sorted.length ≤ fuel)
    {bound : ℕ} (hbound : bound ≤ 2 ^ 31)
    (hheld : ∀ t ∈ a.payloadQueue.chunkMap, Serial.dist a.peerLastTsn t ≤ bound) :
    (advancePeerLastTsn fuel a reply).1.Receiving ∧
      SlidesUpTo bound a (advancePeerLastTsn fuel a reply).1 := by
  induction fuel generalizing a reply bound with
  | zero =>
    have hempty : a.payloadQueue.sorted = [] := List.eq_nil_of_length_eq_zero (by omega)
    have hnext : a.peerLastTsn + 1 ∉ a.payloadQueue.chunkMap := by
      rw [← h.mem_iff, hempty]
      exact List.not_mem_nil
    exact ⟨⟨h, hnext⟩, 0, Nat.zero_le _, Slides.refl _ (receiveWindow_near h)⟩
  | succ fuel ih =>
    unfold advancePeerLastTsn
    by_cases hnext : a.peerLastTsn + 1 ∈ a.payloadQueue.chunkMap
    · obtain ⟨c, q, hpop, hahead, hsorted, hmem⟩ := h.pop hnext
      have hslides := h.slides_pop.2
      rw [hpop] at hslides
      rw [hpop]
      dsimp only
      have hone := PayloadQueue.Ahead.dist_next a.peerLastTsn
      have hpos : 1 ≤ bound := by
        have := hheld _ hnext
        omega
      have hrecheck := received_of_apartFromStreams (apartFromStreams_recheckReconfigRequests
        { a with payloadQueue := q, peerLastTsn := a.peerLastTsn + 1 })
      revert hrecheck
      generalize recheckReconfigRequests
        { a with payloadQueue := q, peerLastTsn := a.peerLastTsn + 1 } = r
      intro hrecheck
      have hq : r.1.payloadQueue = q := congrArg Prod.fst hrecheck
      have hp : r.1.peerLastTsn = a.peerLastTsn + 1 := congrArg Prod.snd hrecheck
      have hwindow : r.1.receiveWindow = q.receiveWindow (a.peerLastTsn + 1) :=
        receiveWindow_of_received hrecheck
      have hlen : q.sorted.length ≤ fuel := by
        rw [hsorted, List.length_cons] at hfuel
        omega
      have hheld' : ∀ t ∈ q.chunkMap, Serial.dist (a.peerLastTsn + 1) t ≤ bound - 1 := by
        intro t ht
        have hle := hheld t ((hmem t).mp ht).1
        have hsucc := dist_succ_of_pos (h.ahead_of_mem ((hmem t).mp ht).1).1
        omega
      obtain ⟨hreceiving, k, hk, hslides'⟩ := ih r.1 (reply ++ r.2) (by rw [hq, hp]; exact hahead)
        (by rw [hq]; exact hlen) (by omega : bound - 1 ≤ 2 ^ 31)
        (by rw [hq, hp]; exact hheld')
      refine ⟨hreceiving, 1 + k, by omega, ?_⟩
      rw [hwindow] at hslides'
      exact hslides.trans (by decide) hslides' (show 1 + k ≤ 2 ^ 31 by omega)
    · rw [h.pop_of_notMem hnext]
      exact ⟨⟨h, hnext⟩, 0, Nat.zero_le _, Slides.refl _ (receiveWindow_near h)⟩

/-- The common end of `handle_data` and `handle_forward_tsn`. -/
theorem handlePeerLastTsnAndAcknowledgement_slides (sackImmediately : Bool)
    (h : a.payloadQueue.Ahead a.peerLastTsn) {bound : ℕ} (hbound : bound ≤ 2 ^ 31)
    (hheld : ∀ t ∈ a.payloadQueue.chunkMap, Serial.dist a.peerLastTsn t ≤ bound) :
    (a.handlePeerLastTsnAndAcknowledgement sackImmediately).1.Receiving ∧
      SlidesUpTo bound a (a.handlePeerLastTsnAndAcknowledgement sackImmediately).1 := by
  obtain ⟨hreceiving, k, hk, hslides⟩ :=
    advancePeerLastTsn_slides a.payloadQueue.sorted.length a [] h (le_refl _) hbound hheld
  have hack := received_ignoresTriggers.triggerAck (advancePeerLastTsn a.payloadQueue.sorted.length a []).1
    sackImmediately
  refine ⟨hreceiving.of_received hack, k, hk, ?_⟩
  have hwindow := receiveWindow_of_received hack
  show Slides a.receiveWindow ((advancePeerLastTsn a.payloadQueue.sorted.length a []).1.triggerAck
    sackImmediately).receiveWindow [] k
  rw [hwindow]
  exact hslides

/-- The loop over the TSNs a FORWARD TSN skips goes as far as it says, if that is ahead. -/
theorem forwardPeerLastTsn_slides (newCumulativeTsn : U32) (q : PayloadQueue) (point : U32)
    (h : q.Ahead point) :
    (forwardPeerLastTsn newCumulativeTsn q point).1.Ahead
        (forwardPeerLastTsn newCumulativeTsn q point).2 ∧
      Slides (q.receiveWindow point) ((forwardPeerLastTsn newCumulativeTsn q point).1.receiveWindow
          (forwardPeerLastTsn newCumulativeTsn q point).2) []
        (if sna32lt point newCumulativeTsn then Serial.dist point newCumulativeTsn else 0) := by
  induction q, point using forwardPeerLastTsn.induct newCumulativeTsn with
  | case1 q point hlt ih =>
    obtain ⟨hahead, hslides⟩ := h.slides_pop
    obtain ⟨hahead', hslides'⟩ := ih hahead
    rw [forwardPeerLastTsn, if_pos hlt, if_pos hlt]
    refine ⟨hahead', ?_⟩
    have hdist := (sna32lt_iff _ _).mp hlt
    have hsucc := dist_succ_of_pos hdist.1
    have hrest : (if sna32lt (point + 1) newCumulativeTsn then
        Serial.dist (point + 1) newCumulativeTsn else 0) + 1 = Serial.dist point newCumulativeTsn := by
      split
      · exact hsucc
      · rename_i hstop
        rw [sna32lt_iff] at hstop
        omega
    rw [← hrest, Nat.add_comm]
    exact hslides.trans (by decide) hslides' (by
      show _ ≤ 2 ^ 31
      omega)
  | case2 q point hstop =>
    rw [forwardPeerLastTsn, if_neg hstop, if_neg hstop]
    exact ⟨h, Slides.refl _ fun t ht => h.ahead_of_mem ht⟩

/-! ## Operations -/

/-- What one operation does to the window. -/
def StepSlides (a a' : AssociationInternal) (taken : List U32) : Prop :=
  a'.Receiving ∧ ∃ k, Slides a.receiveWindow a'.receiveWindow taken k

/-- Where nothing was received the window does not slide. -/
theorem Receiving.stepSlides_of_received (h : a.Receiving) (ha : a'.received = a.received) :
    StepSlides a a' [] := by
  refine ⟨h.of_received ha, 0, ?_⟩
  rw [receiveWindow_of_received ha]
  exact Slides.refl _ (receiveWindow_near h.queue)

/-- Acknowledging after a first step that leaves the queue ahead of the point. -/
theorem stepSlides_acknowledgement {taken : List U32} {k : ℕ} (sackImmediately : Bool)
    (h : a'.payloadQueue.Ahead a'.peerLastTsn)
    (hslides : Slides a.receiveWindow a'.receiveWindow taken k) :
    StepSlides a (a'.handlePeerLastTsnAndAcknowledgement sackImmediately).1 taken := by
  have hk : k ≤ 2 ^ 31 := hslides.le_half
  have hheld : ∀ t ∈ a'.payloadQueue.chunkMap, Serial.dist a'.peerLastTsn t ≤ 2 ^ 31 - k := by
    intro t ht
    obtain ⟨hin, hlt⟩ := (hslides.mem_held t).mp ht
    have hdist := hslides.dist_held (by decide) (Nat.le_of_lt hlt)
    have hnear : Serial.dist a.receiveWindow.point t ≤ 2 ^ 31 := hslides.near t hin
    show Serial.dist a'.receiveWindow.point t ≤ _
    omega
  obtain ⟨hreceiving, l, hl, hslides'⟩ :=
    handlePeerLastTsnAndAcknowledgement_slides sackImmediately h (by omega) hheld
  exact ⟨hreceiving, k + l, hslides.trans (by decide) hslides' (show k + l ≤ 2 ^ 31 by omega)⟩

/-- A DATA chunk that is handed to its stream: the chunk goes into the payload queue. -/
theorem handleData_of_handsOver {d : ChunkPayloadData} (h : a.handsOver d = true) :
    ∃ r, (a.getOrCreateStream d.streamIdentifier).2 = some r ∧
      a.handleData d =
        ((({ (a.getOrCreateStream d.streamIdentifier).1 with
            payloadQueue := (a.payloadQueue.push d a.peerLastTsn).1 }).modifyStream
          d.streamIdentifier fun s => (s.handleData d).1).handlePeerLastTsnAndAcknowledgement
            d.immediateSack) := by
  have hframe := received_ignoresStreams.getOrCreateStream a d.streamIdentifier
  unfold handsOver at h
  rw [Bool.and_eq_true] at h
  unfold handleData
  rw [if_pos h.1]
  revert h hframe
  generalize a.getOrCreateStream d.streamIdentifier = g
  obtain ⟨a₁, r⟩ := g
  intro h hframe
  cases r with
  | none => exact absurd h.2 Bool.false_ne_true
  | some r =>
    have hq : a₁.payloadQueue = a.payloadQueue := congrArg Prod.fst hframe
    have hp : a₁.peerLastTsn = a.peerLastTsn := congrArg Prod.snd hframe
    refine ⟨r, rfl, ?_⟩
    dsimp only
    rw [if_pos h.2, hq, hp]

/-- Any other DATA chunk leaves the queue as it is. -/
theorem handleData_of_not_handsOver {d : ChunkPayloadData} (h : a.handsOver d = false) :
    ∃ a₁, a₁.received = a.received ∧ (a₁ = a ∨ a₁ = (a.getOrCreateStream d.streamIdentifier).1) ∧
      ((a.handleData d).1 = a₁ ∨
        a.handleData d = a₁.handlePeerLastTsnAndAcknowledgement d.immediateSack) := by
  have hframe := received_ignoresStreams.getOrCreateStream a d.streamIdentifier
  unfold handsOver at h
  rw [Bool.and_eq_false_iff] at h
  unfold handleData
  by_cases hpush : a.payloadQueue.canPush d a.peerLastTsn = true
  · rw [if_pos hpush]
    have h' := h.resolve_left (by rw [hpush]; exact Bool.noConfusion)
    refine ⟨(a.getOrCreateStream d.streamIdentifier).1, hframe, Or.inr rfl, ?_⟩
    revert h' hframe
    generalize a.getOrCreateStream d.streamIdentifier = g
    obtain ⟨a₁, r⟩ := g
    intro hframe h'
    cases r with
    | none => exact Or.inl rfl
    | some r =>
      right
      dsimp only at h' ⊢
      rw [if_neg (by rw [h']; exact Bool.false_ne_true)]
  · rw [if_neg hpush]
    exact ⟨a, rfl, Or.inl rfl, Or.inr rfl⟩

/-- A DATA chunk slides the window, and is counted if it was handed over. -/
theorem Receiving.handleData (h : a.Receiving) (d : ChunkPayloadData) :
    StepSlides a (a.handleData d).1 (if a.handsOver d then [d.tsn] else []) := by
  by_cases hover : a.handsOver d = true
  · rw [if_pos hover]
    obtain ⟨r, _, heq⟩ := handleData_of_handsOver hover
    have hpush : a.payloadQueue.canPush d a.peerLastTsn = true := by
      unfold handsOver at hover
      rw [Bool.and_eq_true] at hover
      exact hover.1
    have hframe := received_ignoresStreams.getOrCreateStream a d.streamIdentifier
    have hstream := received_ignoresStreams.modifyStream
      { (a.getOrCreateStream d.streamIdentifier).1 with
        payloadQueue := (a.payloadQueue.push d a.peerLastTsn).1 } d.streamIdentifier
      (fun s => (s.handleData d).1)
    rw [heq]
    revert hstream
    generalize ({ (a.getOrCreateStream d.streamIdentifier).1 with
        payloadQueue := (a.payloadQueue.push d a.peerLastTsn).1 }).modifyStream d.streamIdentifier
      (fun s => (s.handleData d).1) = a₂
    intro hstream
    have hq : a₂.payloadQueue = (a.payloadQueue.push d a.peerLastTsn).1 := congrArg Prod.fst hstream
    have hp : a₂.peerLastTsn = a.peerLastTsn :=
      (congrArg Prod.snd hstream).trans (congrArg Prod.snd hframe :)
    refine stepSlides_acknowledgement (k := 0) d.immediateSack ?_ ?_
    · rw [hq, hp, PayloadQueue.Ahead.push_eq hpush]
      exact h.queue.pushNoCheck hpush
    · unfold receiveWindow
      rw [hq, hp]
      exact h.queue.slides_push hpush
  · have hnot : a.handsOver d = false := by simpa using hover
    rw [if_neg hover]
    obtain ⟨a₁, hframe, _, heq | heq⟩ := handleData_of_not_handsOver hnot
    · rw [heq]
      exact h.stepSlides_of_received hframe
    · rw [heq]
      obtain ⟨hreceiving, k, hslides⟩ := h.stepSlides_of_received hframe
      exact stepSlides_acknowledgement d.immediateSack hreceiving.queue hslides

/-- A FORWARD TSN slides the window and hands nothing over. -/
theorem Receiving.handleForwardTsn (h : a.Receiving) (c : ChunkForwardTsn) :
    StepSlides a (a.handleForwardTsn c).1 [] := by
  rcases forwardTsn_cases a c with hbehind | ⟨huse, hahead⟩
  · rcases handleForwardTsn_of_behind hbehind with heq | heq
    · rw [heq]
      exact h.stepSlides_of_received rfl
    · rw [heq]
      exact h.stepSlides_of_received rfl
  · rw [handleForwardTsn_of_ahead huse hahead]
    obtain ⟨hahead', hslides⟩ := forwardPeerLastTsn_slides c.newCumulativeTsn a.payloadQueue
      a.peerLastTsn h.queue
    revert hahead' hslides
    generalize forwardPeerLastTsn c.newCumulativeTsn a.payloadQueue a.peerLastTsn = r
    intro hahead' hslides
    have h₃ := received_ignoresStreams.forwardStreams
      { a with payloadQueue := r.1, peerLastTsn := r.2 } c
    revert h₃
    generalize forwardStreams _ _ = a₃
    intro h₃
    have hq : a₃.payloadQueue = r.1 := congrArg Prod.fst h₃
    have hp : a₃.peerLastTsn = r.2 := congrArg Prod.snd h₃
    refine stepSlides_acknowledgement false (by rw [hq, hp]; exact hahead') (by
      unfold receiveWindow
      rw [hq, hp]
      exact hslides)

/-- Every operation keeps the invariant and slides the window. -/
theorem Receiving.step (h : a.Receiving) (op : ReceiverOp) :
    StepSlides a (a.receiverStep op) (a.handedOver op) := by
  cases op with
  | data d => exact h.handleData d
  | forwardTsn c => exact h.handleForwardTsn c
  | reconfig c =>
    exact h.stepSlides_of_received (received_of_apartFromStreams (apartFromStreams_handleReconfig a c))
  | accept =>
    exact h.stepSlides_of_received (received_ignoresStreams.acceptStream a)
  | read si bufLen =>
    exact h.stepSlides_of_received
      (received_ignoresStreams.modifyStream a si _)

/-! ## Runs -/

theorem Receiving.holdsAhead (h : a.Receiving) : a.HoldsAhead where
  ahead t ht := by
    obtain ⟨hpos, hle⟩ := h.queue.ahead_of_mem ht
    have hone := PayloadQueue.Ahead.dist_next a.peerLastTsn
    have hne : Serial.dist a.peerLastTsn t ≠ 1 := by
      intro heq
      rw [Serial.dist_inj (heq.trans hone.symm)] at ht
      exact h.next_missing ht
    have hback : Serial.dist t a.peerLastTsn = 2 ^ 32 - Serial.dist a.peerLastTsn t := by
      apply Serial.dist_comm_of_ne
      intro heq
      rw [heq, Serial.dist_self] at hpos
      exact absurd hpos (lt_irrefl 0)
    refine ⟨?_, by omega, hle⟩
    rw [← Bool.not_eq_true, sna32lte_iff]
    omega
  next_missing := h.next_missing

/-- The point moves as far as the window slides. -/
theorem dist_point_of_slides {taken : List U32} {k : ℕ}
    (h : Slides a.receiveWindow a'.receiveWindow taken k) :
    Serial.dist a.peerLastTsn a'.peerLastTsn = k :=
  h.dist_point (by decide)

/-- No step moves the point back. -/
theorem Receiving.keepsPoint (h : a.Receiving) (op : ReceiverOp) : a.KeepsPoint op := by
  obtain ⟨_, k, hslides⟩ := h.step op
  have hdist := dist_point_of_slides hslides
  have hk : k ≤ 2 ^ 31 := hslides.le_half
  refine ⟨?_, by unfold advance; rw [hdist]; exact hk⟩
  rw [← Bool.not_eq_true, sna32lt_iff]
  by_cases heq : a.peerLastTsn = (a.receiverStep op).peerLastTsn
  · rw [← heq, Serial.dist_self]
    omega
  · rw [Serial.dist_comm_of_ne heq]
    omega

/-- Whatever arrives from an empty payload queue on: the TSNs held lie ahead of
`peer_last_tsn` with a gap, `peer_last_tsn` never goes back, and in any stretch of the run
in which it advances by less than 2^31 no TSN is handed to a stream twice. -/
theorem receivesOnce_of_run (a : AssociationInternal) (h : a.payloadQueue = {})
    (ops ops' : List ReceiverOp) :
    (Runs.run receiverStep a ops).HoldsAhead ∧ Runs.Along receiverStep KeepsPoint a ops ∧
      ((Runs.outputs receiverStep advance (Runs.run receiverStep a ops) ops').sum < 2 ^ 31 →
        (Runs.outputs receiverStep handedOver (Runs.run receiverStep a ops) ops').flatten.Nodup) := by
  have hstart : a.Receiving := Receiving.new h
  have hstep : ∀ (a : AssociationInternal) (op : ReceiverOp), a.Receiving →
      (a.receiverStep op).Receiving := fun a op ha => (ha.step op).1
  have hrun : (Runs.run receiverStep a ops).Receiving := Runs.run_invariant hstep hstart ops
  refine ⟨hrun.holdsAhead, ?_, ?_⟩
  · exact Runs.along_of_invariant (P := fun _ _ => True) (fun a op _ ha => hstep a op ha)
      (fun a op _ ha => ha.keepsPoint op) hstart (Runs.along_true a ops)
  · intro hsum
    have hslides : ∀ (a : AssociationInternal) (op : ReceiverOp), a.Receiving →
        Slides a.receiveWindow (a.receiverStep op).receiveWindow (a.handedOver op)
          (a.advance op) := by
      intro a op ha
      obtain ⟨_, k, hslides⟩ := ha.step op
      have hk : a.advance op = k := dist_point_of_slides hslides
      rw [hk]
      exact hslides
    exact ReceiveWindow.taken_at_most_once (by decide) hstep hslides hrun hsum

/-- Chunks around the wrap of the TSNs: out of order, again, and from far ahead. -/
theorem receivesOnce_hostileRun :
    let a := { justEstablished with peerLastTsn := 0xfffffffe }
    let chunk (tsn : U32) : ReceiverOp :=
      .data { tsn, beginningFragment := true, endingFragment := true, userData := [1] }
    let ops := [chunk 1, chunk 0x7ffffffe, chunk 0xffffffff, chunk 0x7fffffff]
    let ops' := [chunk 1, chunk 0, chunk 0, chunk 2, .forwardTsn { newCumulativeTsn := 5, streams := [] },
      chunk 4, chunk 0x7ffffffe]
    (Runs.run receiverStep a ops).HoldsAhead ∧
      (Runs.outputs receiverStep handedOver (Runs.run receiverStep a ops) ops').flatten.Nodup := by
  intro a chunk ops ops'
  have h := receivesOnce_of_run a rfl ops ops'
  exact ⟨h.1, h.2.2 (by decide +kernel)⟩

end AssociationInternal

end Sctp
