import Sctp.Queue.PendingOrderTheorems
import Sctp.Queue.ReassemblyRuns
import Sctp.Association.GatherTheorems

/-!
# New data and the two windows

`pop_pending_data_chunks_to_send` takes chunks out of the pending queue up to one that fits
neither window; a single chunk may probe a window that is closed.
-/

namespace Sctp

namespace PendingQueue

variable {q q' : PendingQueue} {c : ChunkPayloadData} {out : List ChunkPayloadData}

/-- Whole messages and markers are pushed, and what is peeked is popped. -/
inductive Filled : PendingQueue → Prop
  | empty : Filled {}
  | push {q : PendingQueue} (h : Filled q) (m : Message) (hm : m.Proper) :
      Filled (m.chunks.foldl PendingQueue.push q)
  | pop {q : PendingQueue} {c : ChunkPayloadData} (h : Filled q) (hpeek : q.peek = some c) :
      Filled (q.pop c.beginningFragment c.unordered).1

theorem Filled.orderly (h : q.Filled) : q.Orderly := by
  induction h with
  | empty => exact Orderly.new
  | push h m hm ih => exact ih.push hm
  | pop h hpeek ih =>
    obtain ⟨u, q', hpop, ho, _⟩ := ih.pop hpeek
    rw [hpop]
    exact ho

theorem Counted.pushes (h : q.Counted) (chunks : List ChunkPayloadData) :
    (chunks.foldl PendingQueue.push q).Counted := by
  induction chunks generalizing q with
  | nil => exact h
  | cons c chunks ih => exact ih (h.push c)

theorem Filled.counted (h : q.Filled) : q.Counted := by
  induction h with
  | empty => exact Counted.new
  | push h m hm ih => exact ih.pushes m.chunks
  | pop h hpeek ih => exact ih.pop _ _

/-- The chunks come out one after the other, each peeked and then popped with its flags. -/
inductive Gives : PendingQueue → List ChunkPayloadData → PendingQueue → Prop
  | nil (q : PendingQueue) : Gives q [] q
  | snoc {q q₁ q₂ : PendingQueue} {out : List ChunkPayloadData} {c : ChunkPayloadData}
      (h : Gives q out q₁) (hpeek : q₁.peek = some c)
      (hpop : q₁.pop c.beginningFragment c.unordered = (q₂, some c)) : Gives q (out ++ [c]) q₂

/-- What comes out of each queue is what lay in front of what is left. -/
theorem Gives.inOrder (h : q.Gives out q') (hq : q.Counted) :
    q'.Counted ∧ ∀ u, queueOf q u = out.filter (·.unordered = u) ++ queueOf q' u := by
  induction h with
  | nil => exact ⟨hq, fun u => rfl⟩
  | snoc h hpeek hpop ih =>
    rename_i q₁ q₂ out c
    obtain ⟨hq₁, hfilter⟩ := ih
    rcases q₁.pop_cases c.beginningFragment c.unordered with heq | ⟨q₃, v, d, heq, ht⟩
    · rw [hpop] at heq
      cases heq
    · rw [hpop] at heq
      have hsame : q₂ = q₃ ∧ c = d := by
        injection heq with hq hc
        exact ⟨hq, Option.some.inj hc⟩
      obtain ⟨rfl, rfl⟩ := hsame
      obtain ⟨hkind, hq₂⟩ := hq₁.takes ht
      refine ⟨hq₂, fun u => ?_⟩
      rw [hfilter u, ht.filter hkind u, List.filter_append, List.append_assoc]

end PendingQueue

namespace AssociationInternal

open PendingQueue (queueOf)

variable {a b : AssociationInternal} {now : ℕ} {out chunks : List ChunkPayloadData} {sis : List U16}

/-- The chunk is too large for the congestion window or for that of the peer. -/
def DoesNotFit (a : AssociationInternal) (c : ChunkPayloadData) : Prop :=
  a.inflightQueue.getNumBytes + c.userData.length > a.cwnd.toNat ∨
    c.userData.length > a.rwnd.toNat

/-- Nothing is pending, or a chunk with data that does not fit. -/
def Blocked (a : AssociationInternal) : Prop :=
  ∀ c, a.pendingQueue.peek = some c → c.userData ≠ [] ∧ a.DoesNotFit c

/-- What has been taken out: the chunks with data go into flight with the next TSNs, and the
markers are reported. -/
structure TakesOut (a b : AssociationInternal) (now : ℕ) (out chunks : List ChunkPayloadData)
    (sis : List U16) : Prop extends Moves a b chunks where
  gives : a.pendingQueue.Gives out b.pendingQueue
  numbered : chunks = (out.filter fun c => !c.userData.isEmpty).mapIdx fun i c =>
    AssociationInternal.numbered c (a.myNextTsn.after i) now
  reported : sis = (out.filter fun c => c.userData.isEmpty).map (·.streamIdentifier)

/-- Both windows are respected. -/
structure FitsWindows (a b : AssociationInternal) (chunks : List ChunkPayloadData) : Prop where
  rwnd : b.rwnd.toNat + chunksBytes chunks = a.rwnd.toNat
  cwnd : chunks ≠ [] → b.inflightQueue.getNumBytes ≤ a.cwnd.toNat

theorem TakesOut.refl (a : AssociationInternal) (now : ℕ) : TakesOut a a now [] [] [] where
  toMoves := Moves.refl a
  gives := PendingQueue.Gives.nil _
  numbered := rfl
  reported := rfl

theorem FitsWindows.refl (a : AssociationInternal) : FitsWindows a a [] where
  rwnd := rfl
  cwnd h := absurd rfl h

/-- A marker goes. -/
theorem TakesOut.drop (h : TakesOut a b now out chunks sis) {c : ChunkPayloadData}
    {q : PendingQueue} (hpeek : b.pendingQueue.peek = some c)
    (hpop : b.pendingQueue.pop c.beginningFragment c.unordered = (q, some c))
    (hempty : c.userData = []) :
    TakesOut a { b with pendingQueue := q } now (out ++ [c]) chunks
      (sis ++ [c.streamIdentifier]) where
  toMoves := h.toMoves.congr q b.rwnd
  gives := h.gives.snoc hpeek hpop
  numbered := by
    rw [h.numbered, List.filter_append, List.filter_cons_of_neg (by simp [hempty]),
      List.filter_nil, List.append_nil]
  reported := by
    rw [h.reported, List.filter_append, List.filter_cons_of_pos (by simp [hempty]),
      List.filter_nil, List.map_append, List.map_singleton]

/-- A chunk with data goes into flight. -/
theorem TakesOut.move (h : TakesOut a b now out chunks sis) {c : ChunkPayloadData}
    {q : PendingQueue} (hpeek : b.pendingQueue.peek = some c)
    (hpop : b.pendingQueue.pop c.beginningFragment c.unordered = (q, some c))
    (hdata : c.userData ≠ []) (rwnd : U32) (flags : SharedFlags) :
    TakesOut a { b with
        pendingQueue := q
        rwnd
        flags
        myNextTsn := b.myNextTsn + 1
        inflightQueue :=
          b.inflightQueue.pushNoCheck (AssociationInternal.numbered c b.myNextTsn now) }
      now (out ++ [c]) (chunks ++ [AssociationInternal.numbered c b.myNextTsn now]) sis where
  toMoves := h.toMoves.move c now q rwnd flags
  gives := h.gives.snoc hpeek hpop
  numbered := by
    have hnext : b.myNextTsn = a.myNextTsn.after chunks.length := (congrArg myNextTsn h.frame :)
    have hlen : chunks.length = (out.filter fun c => !c.userData.isEmpty).length := by
      rw [h.numbered, List.length_mapIdx]
    rw [List.filter_append, List.filter_cons_of_pos (by simp [hdata]), List.filter_nil,
      List.mapIdx_concat, ← hlen, ← hnext]
    congr 1
    exact h.numbered
  reported := by
    rw [h.reported, List.filter_append, List.filter_cons_of_neg (by simp [hdata]),
      List.filter_nil, List.append_nil]

/-- A chunk that fits makes the peer's window smaller by what it brings into flight. -/
theorem FitsWindows.move (h : FitsWindows a b chunks) (hcwnd : b.cwnd = a.cwnd)
    {c : ChunkPayloadData} (hfits : ¬ b.DoesNotFit c) (q : PendingQueue) (flags : SharedFlags) :
    FitsWindows a { b with
        pendingQueue := q
        rwnd := b.rwnd - BitVec.ofNat 32 c.userData.length
        flags
        myNextTsn := b.myNextTsn + 1
        inflightQueue :=
          b.inflightQueue.pushNoCheck (AssociationInternal.numbered c b.myNextTsn now) }
      (chunks ++ [AssociationInternal.numbered c b.myNextTsn now]) where
  rwnd := by
    -- the guard `user_data_len as u32 > self.rwnd` keeps the subtraction from wrapping
    unfold DoesNotFit at hfits
    have hlt := b.rwnd.isLt
    have hlen : (BitVec.ofNat 32 c.userData.length).toNat = c.userData.length := by
      rw [BitVec.toNat_ofNat]
      exact Nat.mod_eq_of_lt (by omega)
    have hsub : (b.rwnd - BitVec.ofNat 32 c.userData.length).toNat =
        b.rwnd.toNat - c.userData.length := by
      have hle : BitVec.ofNat 32 c.userData.length ≤ b.rwnd := by
        rw [BitVec.le_def, hlen]
        omega
      rw [BitVec.toNat_sub_of_le hle, hlen]
    have hbytes : chunksBytes (chunks ++ [AssociationInternal.numbered c b.myNextTsn now]) =
        chunksBytes chunks + c.userData.length := by
      unfold chunksBytes
      rw [List.map_append, List.sum_append, List.map_singleton, List.sum_singleton]
      rfl
    have hrwnd := h.rwnd
    show (b.rwnd - BitVec.ofNat 32 c.userData.length).toNat + _ = _
    rw [hsub, hbytes]
    omega
  cwnd _ := by
    unfold DoesNotFit at hfits
    show b.inflightQueue.getNumBytes + c.userData.length ≤ a.cwnd.toNat
    rw [← hcwnd]
    omega

/-! ## The loop and the probe -/

theorem Moves.cwnd (h : Moves a b chunks) : b.cwnd = a.cwnd :=
  (congrArg AssociationInternal.cwnd h.frame :)

theorem popPendingLoop_takesOut (fuel : ℕ) (h : TakesOut a b now out chunks sis)
    (hw : FitsWindows a b chunks) (ho : b.pendingQueue.Orderly)
    (hfuel : b.pendingQueue.chunkCount ≤ fuel) :
    let r := popPendingLoop now fuel b chunks sis
    ∃ out', TakesOut a r.1 now out' r.2.1 r.2.2 ∧ FitsWindows a r.1 r.2.1 ∧
      r.1.pendingQueue.Orderly ∧ r.1.Blocked := by
  induction fuel generalizing b chunks sis out with
  | zero =>
    refine ⟨out, h, hw, ho, ?_⟩
    intro c hpeek
    -- with no rounds left there is nothing left to peek at, since each round takes one out
    obtain ⟨u, q, _, _, hpops⟩ := ho.pop hpeek
    have hone := hpops.chunkCount
    omega
  | succ fuel ih =>
    rw [popPendingLoop]
    split
    · rename_i hnone
      refine ⟨out, h, hw, ho, ?_⟩
      intro c hpeek
      rw [hnone] at hpeek
      cases hpeek
    · rename_i c hpeek
      dsimp only
      obtain ⟨u, q, hpop, ho', hpops⟩ := ho.pop hpeek
      have hone := hpops.chunkCount
      have hcount : q.chunkCount ≤ fuel := by omega
      split
      · rename_i hlen
        -- an end of stream is dropped and the loop goes on
        have hempty : c.userData = [] := List.length_eq_zero_iff.mp hlen
        rw [hpop]
        exact ih (h.drop hpeek hpop hempty) ⟨hw.rwnd, hw.cwnd⟩ ho' hcount
      · rename_i hlen
        have hdata : c.userData ≠ [] := fun h0 => hlen (by rw [h0]; rfl)
        -- the loop ends at the first chunk that does not fit
        have hstay : b.DoesNotFit c → b.Blocked := by
          intro hnot c' hpeek'
          rw [hpeek] at hpeek'
          cases hpeek'
          exact ⟨hdata, hnot⟩
        split
        · rename_i hlarge
          exact ⟨out, h, hw, ho, hstay (Or.inl hlarge)⟩
        · rename_i hcwnd
          split
          · rename_i hlarge
            exact ⟨out, h, hw, ho, hstay (Or.inr hlarge)⟩
          · rename_i hrwnd
            have hfits : ¬ b.DoesNotFit c := fun hnot => hnot.elim hcwnd hrwnd
            obtain ⟨flags, _, heq⟩ := movePending_of_some
              (a := { b with rwnd := b.rwnd - BitVec.ofNat 32 c.userData.length }) now hpop
            rw [heq]
            exact ih (h.move hpeek hpop hdata _ flags) (hw.move h.toMoves.cwnd hfits q flags) ho'
              hcount

/-- What a call comes to: data within the windows, a probe of a closed window, or nothing. -/
inductive WithinWindows (a b : AssociationInternal) : List ChunkPayloadData → Prop
  | data {chunks : List ChunkPayloadData} (hne : chunks ≠ []) (hfits : FitsWindows a b chunks)
      (hblocked : b.Blocked) : WithinWindows a b chunks
  | probe {c : ChunkPayloadData} (hempty : a.inflightQueue.isEmpty = true) (hrwnd : b.rwnd = a.rwnd)
      (hdata : c.userData ≠ []) (hnot : a.DoesNotFit c) : WithinWindows a b [c]
  | nothing (hflight : b.inflightQueue = a.inflightQueue) (hrwnd : b.rwnd = a.rwnd)
      (hblocked : b.Blocked)
      (hwaits : a.inflightQueue.isEmpty = true → b.pendingQueue.peek = none) :
      WithinWindows a b []

theorem zeroWindowProbe_takesOut (h : TakesOut a b now out chunks sis)
    (hw : FitsWindows a b chunks) (ho : b.pendingQueue.Orderly) (hblocked : b.Blocked) :
    let r := b.zeroWindowProbe now chunks
    ∃ out', TakesOut a r.1 now out' r.2 sis ∧ WithinWindows a r.1 r.2 := by
  unfold zeroWindowProbe
  by_cases hchunks : chunks = []
  · subst hchunks
    have hrwnd : b.rwnd = a.rwnd := BitVec.eq_of_toNat_eq hw.rwnd
    have hflight : b.inflightQueue = a.inflightQueue := (congrArg inflightQueue h.frame :)
    by_cases hempty : b.inflightQueue.isEmpty = true
    · rw [if_pos ⟨rfl, hempty⟩]
      rw [hflight] at hempty
      split
      · rename_i hnone
        exact ⟨out, h, .nothing hflight hrwnd hblocked fun _ => hnone⟩
      · rename_i c hpeek
        -- the probe is not taken off `rwnd`
        obtain ⟨hdata, hnot⟩ := hblocked c hpeek
        obtain ⟨u, q, hpop, _, _⟩ := ho.pop hpeek
        obtain ⟨flags, _, heq⟩ := movePending_of_some (a := b) now hpop
        rw [heq]
        refine ⟨_, h.move hpeek hpop hdata b.rwnd flags, .probe hempty hrwnd hdata ?_⟩
        unfold DoesNotFit at hnot ⊢
        rw [hflight, h.toMoves.cwnd, hrwnd] at hnot
        exact hnot
    · rw [if_neg fun hboth => hempty hboth.2]
      rw [hflight] at hempty
      exact ⟨out, h, .nothing hflight hrwnd hblocked fun hcon => absurd hcon hempty⟩
  · rw [if_neg fun hboth => hchunks hboth.1]
    exact ⟨out, h, .data hchunks hw hblocked⟩

/-- **New data respects both windows**, for every content of the pending queue that whole
messages and markers lead to. -/
theorem popPending_withinWindows (hfilled : a.pendingQueue.Filled) (now : ℕ) :
    let r := a.popPendingDataChunksToSend now
    ∃ out, TakesOut a r.1 now out r.2.1 r.2.2 ∧ WithinWindows a r.1 r.2.1 ∧
      ∀ u, queueOf a.pendingQueue u =
        out.filter (·.unordered = u) ++ queueOf r.1.pendingQueue u := by
  have hcounted := hfilled.counted
  have hresult : let r := a.popPendingDataChunksToSend now
      ∃ out, TakesOut a r.1 now out r.2.1 r.2.2 ∧ WithinWindows a r.1 r.2.1 := by
    unfold popPendingDataChunksToSend
    split
    · rename_i hlen
      have hnone : a.pendingQueue.peek = none := by
        by_contra hsome
        obtain ⟨c, hpeek⟩ := Option.ne_none_iff_exists'.mp hsome
        obtain ⟨u, q, _, _, hpops⟩ := hfilled.orderly.pop hpeek
        have hone := hpops.chunkCount
        have hzero : a.pendingQueue.queueLen = 0 := hlen
        rw [hcounted.len] at hzero
        omega
      refine ⟨[], TakesOut.refl a now, .nothing rfl rfl ?_ fun _ => hnone⟩
      intro c hpeek
      rw [hnone] at hpeek
      cases hpeek
    · have hrounds : a.pendingQueue.chunkCount ≤ a.popPendingRounds := Nat.le_add_right _ _
      obtain ⟨out, h, hw, ho, hblocked⟩ := popPendingLoop_takesOut a.popPendingRounds
        (TakesOut.refl a now) (FitsWindows.refl a) hfilled.orderly hrounds
      generalize popPendingLoop now a.popPendingRounds a [] [] = r at h hw ho hblocked ⊢
      obtain ⟨b, chunks, sis⟩ := r
      exact zeroWindowProbe_takesOut h hw ho hblocked
  obtain ⟨out, h, hwithin⟩ := hresult
  exact ⟨out, h, hwithin, (h.gives.inOrder hcounted).2⟩

/-- An end-of-stream marker. -/
def streamEnd (si : U16) : Message where
  chunks := [{ streamIdentifier := si, beginningFragment := true, endingFragment := true }]
  unordered := false
  isMessage := by
    refine ⟨by simp, by simp, ?_, ?_⟩
    · intro i c hc
      match i with
      | 0 => simp at hc; simp [← hc]
      | i + 1 => simp at hc
    · intro i c hc
      match i with
      | 0 => simp at hc; simp [← hc]
      | i + 1 => simp at hc

/-- A message of two fragments and the end of its stream, with room for one byte. -/
def oneByteOfRoom : AssociationInternal :=
  { cwnd := 9
    rwnd := 1
    myNextTsn := 4294967295
    pendingQueue :=
      (streamEnd 0).chunks.foldl PendingQueue.push ((twoFragments [1]).chunks.foldl .push {}) }

theorem popPending_oneByteOfRoom :
    let r := oneByteOfRoom.popPendingDataChunksToSend 0
    ∃ out, TakesOut oneByteOfRoom r.1 0 out r.2.1 r.2.2 ∧ WithinWindows oneByteOfRoom r.1 r.2.1 ∧
      ∀ u, queueOf oneByteOfRoom.pendingQueue u =
        out.filter (·.unordered = u) ++ queueOf r.1.pendingQueue u := by
  have htwo : (twoFragments [1]).Proper := Or.inl (by decide)
  have hend : (streamEnd 0).Proper := Or.inr ⟨rfl, rfl⟩
  exact popPending_withinWindows ((PendingQueue.Filled.empty.push _ htwo).push _ hend) 0

end AssociationInternal

end Sctp
