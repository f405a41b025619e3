import Sctp.Association.GatherTheorems
import Sctp.Association.SendingLoop

/-!
# The sending loop ends

A round takes a chunk out of the pending queue, or, when the pop is refused, some of the peer's
window. A pop is only refused for a chunk with data.
-/

namespace Sctp

namespace PendingQueue

variable {q q' : PendingQueue} {c : ChunkPayloadData}

/-- The chunks lie in the queue of their kind, and those without data begin a message. -/
def InPlace (q : PendingQueue) : Prop :=
  ∀ u, ∀ c ∈ queueOf q u, c.unordered = u ∧ (c.userData = [] → c.beginningFragment = true)

theorem InPlace.new : InPlace {} := by
  intro u c hc
  cases u <;> exact absurd hc List.not_mem_nil

theorem InPlace.push (h : q.InPlace) (hc : c.IsPushed) : (q.push c).InPlace := by
  intro u d hd
  rw [queueOf_push] at hd
  by_cases hu : c.unordered = u
  · rw [if_pos hu, List.mem_append, List.mem_singleton] at hd
    rcases hd with hd | rfl
    · exact h u d hd
    · refine ⟨hu, fun hempty => ?_⟩
      rcases hc with hdata | hmarker
      · exact absurd hempty hdata
      · exact hmarker.1
  · rw [if_neg hu] at hd
    exact h u d hd

/-- A pop takes chunks out and puts none in. -/
theorem mem_of_mem_pop {b u v : Bool} (hc : c ∈ queueOf (q.pop b u).1 v) : c ∈ queueOf q v := by
  have heach : q.Each fun c => c ∈ queueOf q true ∨ c ∈ queueOf q false := by
    intro w d hd
    cases w with
    | true => exact Or.inl hd
    | false => exact Or.inr hd
  have hfront : ∀ w, queueOf (q.popFront w).1 v <:+ queueOf q v := by
    intro w
    cases w <;> cases v <;> first | exact List.tail_suffix _ | exact List.suffix_rfl
  have haccount : ∀ (r : PendingQueue) popped, queueOf (r.account popped) v = queueOf r v := by
    intro r popped
    cases popped <;> rfl
  unfold PendingQueue.pop at hc
  split at hc
  · -- a message is being popped: its queue loses its front
    rw [haccount] at hc
    apply (hfront q.unorderedIsSelected).subset
    revert hc
    generalize q.popFront q.unorderedIsSelected = r
    obtain ⟨r, _ | d⟩ := r
    · exact id
    · dsimp only
      split <;> exact id
  · split at hc
    · -- a fragment that begins no message is refused
      exact hc
    · rw [haccount] at hc
      apply (hfront u).subset
      revert hc
      generalize q.popFront u = r
      obtain ⟨r, _ | d⟩ := r
      · exact id
      · dsimp only
        split <;> exact id

theorem InPlace.pop (h : q.InPlace) (b u : Bool) : (q.pop b u).1.InPlace :=
  fun v c hc => h v c (mem_of_mem_pop hc)

theorem Written.inPlace (h : q.Written) : q.InPlace := by
  induction h with
  | new => exact InPlace.new
  | push _ hc ih => exact ih.push hc
  | pop _ b u ih => exact ih.pop b u

/-- What is peeked is at the front of the queue that `pop` looks into. -/
theorem InPlace.front_of_peek (h : q.InPlace) (hpeek : q.peek = some c) :
    ∃ rest, queueOf q (source q c) = c :: rest := by
  have hhead : (queueOf q (source q c)).head? = some c := by
    unfold PendingQueue.peek at hpeek
    unfold source
    by_cases hsel : q.selected = true
    · rw [if_pos hsel] at hpeek ⊢
      by_cases hun : q.unorderedIsSelected = true
      · rw [if_pos hun] at hpeek
        rw [hun]
        exact hpeek
      · rw [if_neg hun] at hpeek
        rw [Bool.not_eq_true] at hun
        rw [hun]
        exact hpeek
    · rw [if_neg hsel] at hpeek ⊢
      split at hpeek
      · -- nothing is selected, and an unordered chunk waits
        rename_i d hd
        cases hpeek
        rw [(h true c (List.mem_of_head? hd)).1]
        exact hd
      · rw [(h false c (List.mem_of_head? hpeek)).1]
        exact hpeek
  exact ⟨_, (List.head?_eq_some_iff.mp hhead).choose_spec⟩

/-- A pop with the flags of what is peeked takes it, unless it is refused. -/
theorem InPlace.pop_of_peek (h : q.InPlace) (hpeek : q.peek = some c) :
    (∃ q', q.pop c.beginningFragment c.unordered = (q', some c) ∧
      q'.chunkCount + 1 = q.chunkCount) ∨
    c.beginningFragment = false ∧ q.pop c.beginningFragment c.unordered = (q, none) := by
  obtain ⟨rest, hfront⟩ := h.front_of_peek hpeek
  by_cases hb : q.selected = false → c.beginningFragment = true
  · obtain ⟨q', hpop, hrest, hother, _⟩ := pop_eq hfront hb
    refine Or.inl ⟨q', hpop, ?_⟩
    have hlen := congrArg List.length hfront
    rw [← hrest, List.length_cons] at hlen
    unfold chunkCount
    cases hsource : source q c with
    | true =>
      rw [hsource] at hlen hother
      rw [Bool.not_true] at hother
      rw [hother]
      omega
    | false =>
      rw [hsource] at hlen hother
      rw [Bool.not_false] at hother
      rw [hother]
      omega
  · -- nothing is selected, and the chunk begins no message
    push Not at hb
    have hbegin : c.beginningFragment = false := by simpa using hb.2
    refine Or.inr ⟨hbegin, ?_⟩
    unfold PendingQueue.pop
    rw [hb.1, hbegin]
    rfl

end PendingQueue

namespace AssociationInternal

variable {a : AssociationInternal} {s s' : PopState} {now : ℕ}

theorem popPendingRounds_eq (a : AssociationInternal) :
    a.popPendingRounds = a.pendingQueue.chunkCount + a.rwnd.toNat := rfl

theorem toNat_sub_ofNat {x : U32} {n : ℕ} (h : n ≤ x.toNat) :
    (x - BitVec.ofNat 32 n).toNat = x.toNat - n := by
  have hlt := x.isLt
  rw [BitVec.toNat_sub_of_le, BitVec.toNat_ofNat, Nat.mod_eq_of_lt (by omega)]
  rw [BitVec.le_def, BitVec.toNat_ofNat, Nat.mod_eq_of_lt (by omega)]
  exact h

/-- **What a round does**: it uses up a chunk or a part of the window. -/
theorem popPendingRound_decreases (h : s.1.pendingQueue.InPlace)
    (hround : popPendingRound now s = some s') :
    s'.1.pendingQueue.InPlace ∧ s'.1.popPendingRounds < s.1.popPendingRounds := by
  unfold popPendingRound at hround
  split at hround
  · cases hround
  · rename_i c hpeek
    dsimp only at hround
    have hkept := h.pop c.beginningFragment c.unordered
    split at hround
    · -- a marker begins a message, so its pop is not refused
      rename_i hlen
      have hmarker : c.beginningFragment = true := by
        obtain ⟨rest, hfront⟩ := h.front_of_peek hpeek
        have hmem : c ∈ PendingQueue.queueOf s.1.pendingQueue
            (PendingQueue.source s.1.pendingQueue c) := by
          rw [hfront]
          exact List.mem_cons_self
        exact (h _ c hmem).2 (List.length_eq_zero_iff.mp hlen)
      rcases h.pop_of_peek hpeek with ⟨q', hpop, hcount⟩ | ⟨hbegin, _⟩
      · cases hround
        rw [hpop] at hkept ⊢
        refine ⟨hkept, ?_⟩
        rw [popPendingRounds_eq, popPendingRounds_eq]
        show q'.chunkCount + s.1.rwnd.toNat < _
        omega
      · rw [hmarker] at hbegin
        cases hbegin
    · rename_i hlen
      split at hround
      · cases hround
      · split at hround
        · cases hround
        · rename_i hrwnd
          have hwindow := toNat_sub_ofNat (Nat.not_lt.mp hrwnd)
          rcases h.pop_of_peek hpeek with ⟨q', hpop, hcount⟩ | ⟨_, hpop⟩
          · obtain ⟨flags, _, heq⟩ := movePending_of_some (a := { s.1 with
              rwnd := s.1.rwnd - BitVec.ofNat 32 c.userData.length }) now hpop
            rw [hpop] at hkept
            rw [heq] at hround
            cases hround
            refine ⟨hkept, ?_⟩
            rw [popPendingRounds_eq, popPendingRounds_eq]
            show q'.chunkCount + (s.1.rwnd - BitVec.ofNat 32 c.userData.length).toNat < _
            omega
          · -- the chunk stays, and the window is charged for it
            rw [movePending_of_none (a := { s.1 with
              rwnd := s.1.rwnd - BitVec.ofNat 32 c.userData.length }) hpop] at hround
            cases hround
            refine ⟨h, ?_⟩
            rw [popPendingRounds_eq, popPendingRounds_eq]
            show s.1.pendingQueue.chunkCount +
              (s.1.rwnd - BitVec.ofNat 32 c.userData.length).toNat < _
            omega

/-- The loop of `pop_pending_data_chunks_to_send` goes round by round. -/
theorem popPendingLoop_succ (now fuel : ℕ) (s : PopState) :
    popPendingLoop now (fuel + 1) s.1 s.2.1 s.2.2 =
      match popPendingRound now s with
      | none => s
      | some s' => popPendingLoop now fuel s'.1 s'.2.1 s'.2.2 := by
  obtain ⟨a, chunks, sisToReset⟩ := s
  rw [popPendingLoop]
  unfold popPendingRound
  dsimp only
  cases a.pendingQueue.peek with
  | none => rfl
  | some c =>
    dsimp only
    by_cases hlen : c.userData.length = 0
    · rw [if_pos hlen, if_pos hlen]
    · rw [if_neg hlen, if_neg hlen]
      by_cases hcwnd : a.inflightQueue.getNumBytes + c.userData.length > a.cwnd.toNat
      · rw [if_pos hcwnd, if_pos hcwnd]
      · rw [if_neg hcwnd, if_neg hcwnd]
        by_cases hrwnd : c.userData.length > a.rwnd.toNat
        · rw [if_pos hrwnd, if_pos hrwnd]
        · rw [if_neg hrwnd, if_neg hrwnd]

/-- Enough fuel gives what the rounds come to. -/
theorem popPendingLoop_of_after {n fuel : ℕ} (hafter : popPendingAfter now n s = some s')
    (hends : popPendingRound now s' = none) (hfuel : n ≤ fuel) :
    popPendingLoop now fuel s.1 s.2.1 s.2.2 = s' := by
  induction n generalizing s fuel with
  | zero =>
    cases hafter
    cases fuel with
    | zero => rfl
    | succ fuel => rw [popPendingLoop_succ, hends]
  | succ n ih =>
    obtain ⟨fuel, rfl⟩ : ∃ k, fuel = k + 1 := ⟨fuel - 1, by omega⟩
    obtain ⟨s₁, hround, hrest⟩ := Option.bind_eq_some_iff.mp hafter
    rw [popPendingLoop_succ, hround]
    exact ih hrest (Nat.le_of_succ_le_succ hfuel)

/-- **The sending loop ends** after at most as many rounds as chunks wait and bytes fit into the
peer's window. -/
theorem popPendingLoop_ends (h : a.pendingQueue.Written) (now : ℕ)
    (chunks : List ChunkPayloadData) (sisToReset : List U16) :
    ∃ n ≤ a.popPendingRounds, ∃ s,
      popPendingAfter now n (a, chunks, sisToReset) = some s ∧ popPendingRound now s = none ∧
        ∀ fuel ≥ n, popPendingLoop now fuel a chunks sisToReset = s := by
  -- by induction on the bound, which every round lowers
  have hrounds : ∀ (k : ℕ) (s : PopState), s.1.pendingQueue.InPlace → s.1.popPendingRounds ≤ k →
      ∃ n ≤ k, ∃ s', popPendingAfter now n s = some s' ∧ popPendingRound now s' = none := by
    intro k
    induction k with
    | zero =>
      intro s hs hk
      cases hround : popPendingRound now s with
      | none => exact ⟨0, le_refl 0, s, rfl, hround⟩
      | some s' =>
        have hless := (popPendingRound_decreases hs hround).2
        omega
    | succ k ih =>
      intro s hs hk
      cases hround : popPendingRound now s with
      | none => exact ⟨0, Nat.zero_le _, s, rfl, hround⟩
      | some s₁ =>
        obtain ⟨hs₁, hless⟩ := popPendingRound_decreases hs hround
        obtain ⟨n, hn, s', hafter, hends⟩ := ih s₁ hs₁ (by omega)
        refine ⟨n + 1, Nat.succ_le_succ hn, s', ?_, hends⟩
        show (popPendingRound now s).bind (popPendingAfter now n) = some s'
        rw [hround]
        exact hafter
  obtain ⟨n, hn, s, hafter, hends⟩ := hrounds _ (a, chunks, sisToReset) h.inPlace (le_refl _)
  exact ⟨n, hn, s, hafter, hends, fun _ hfuel => popPendingLoop_of_after hafter hends hfuel⟩

/-- Behind a fragment that does not begin its message lie a whole message and a marker. -/
def stuckQueue : PendingQueue :=
  (((({} : PendingQueue).push { userData := [1] }).push
    { userData := [2, 3], beginningFragment := true, endingFragment := true }).push
      (Stream.eosMarker 4 0 1))

theorem popPendingLoop_stuckQueue :
    let a := { justEstablished with pendingQueue := stuckQueue, cwnd := 9, rwnd := 5 }
    ∃ n ≤ a.popPendingRounds, ∃ s,
      popPendingAfter 0 n (a, [], []) = some s ∧ popPendingRound 0 s = none ∧
        ∀ fuel ≥ n, popPendingLoop 0 fuel a [] [] = s := by
  refine popPendingLoop_ends ?_ 0 [] []
  refine ((PendingQueue.Written.new.push ?_).push ?_).push ?_
  · exact Or.inl (by decide)
  · exact Or.inl (by decide)
  · exact Or.inr ⟨rfl, rfl, rfl⟩

end AssociationInternal

end Sctp
