import Sctp.Queue.WritersTheorems
import Sctp.Queue.MarkerTheorems

/-!
# What comes out of the pending queue

Chunks of one kind leave in the order in which they were pushed, and the counters go along,
whatever the flags of a pop are. That messages stay whole needs their fragments in a row.
-/

namespace Sctp

namespace PendingQueue

variable {q q' : PendingQueue} {v : Bool} {c : ChunkPayloadData}

/-- The user bytes that wait. -/
def byteCount (q : PendingQueue) : ℕ :=
  ((queueOf q true ++ queueOf q false).map (·.userData.length)).sum

/-- Every chunk lies in the queue of its kind, and both counters are right. -/
structure Counted (q : PendingQueue) : Prop where
  kind : ∀ u, ∀ c ∈ queueOf q u, c.unordered = u
  len : q.queueLen = q.chunkCount
  bytes : q.nBytes = q.byteCount

theorem Counted.new : Counted {} where
  kind u c hc := by cases u <;> cases hc
  len := rfl
  bytes := rfl

/-- A push counts one more. -/
theorem queueLen_push (q : PendingQueue) (c : ChunkPayloadData) :
    (q.push c).queueLen = q.queueLen + 1 := by
  unfold PendingQueue.push
  cases c.unordered <;> rfl

/-- And the bytes of the chunk. -/
theorem nBytes_push (q : PendingQueue) (c : ChunkPayloadData) :
    (q.push c).nBytes = q.nBytes + c.userData.length := by
  unfold PendingQueue.push
  cases c.unordered <;> rfl

/-- The counters stay true with a push. -/
theorem Counted.push (h : q.Counted) (c : ChunkPayloadData) : (q.push c).Counted := by
  obtain ⟨hkind, hlen, hbytes⟩ := h
  refine ⟨?_, ?_, ?_⟩
  · intro u c' hc'
    rw [queueOf_push] at hc'
    split at hc'
    · rename_i hu
      rw [List.mem_append, List.mem_singleton] at hc'
      rcases hc' with hold | rfl
      · exact hkind u c' hold
      · exact hu
    · exact hkind u c' hc'
  · rw [queueLen_push]
    unfold chunkCount at hlen ⊢
    rw [queueOf_push, queueOf_push]
    cases c.unordered with
    | true =>
      rw [if_pos rfl, if_neg Bool.noConfusion, List.length_append, List.length_singleton]
      omega
    | false =>
      rw [if_neg Bool.noConfusion, if_pos rfl, List.length_append, List.length_singleton]
      omega
  · rw [nBytes_push]
    unfold byteCount at hbytes ⊢
    rw [queueOf_push, queueOf_push]
    cases c.unordered with
    | true =>
      rw [if_pos rfl, if_neg Bool.noConfusion]
      simp only [List.map_append, List.sum_append, List.map_singleton, List.sum_singleton] at hbytes ⊢
      omega
    | false =>
      rw [if_neg Bool.noConfusion, if_pos rfl]
      simp only [List.map_append, List.sum_append, List.map_singleton, List.sum_singleton] at hbytes ⊢
      omega

/-- The front of queue `v` is taken out, with what it counts. -/
structure Takes (q q' : PendingQueue) (v : Bool) (c : ChunkPayloadData) : Prop where
  front : queueOf q v = c :: queueOf q' v
  other : queueOf q' (!v) = queueOf q (!v)
  len : q'.queueLen = q.queueLen - 1
  bytes : q'.nBytes = q.nBytes - c.userData.length

/-- Popping from the front finds nothing, or takes the first chunk and counts it off. -/
theorem popFront_cases (q : PendingQueue) (v : Bool) :
    q.popFront v = (q, none) ∨
      ∃ q' c, q.popFront v = (q', some c) ∧ ∀ selected unorderedIsSelected,
        q.Takes ({ q' with selected, unorderedIsSelected }.account (some c)) v c := by
  cases v with
  | true =>
    unfold popFront
    rw [if_pos rfl]
    cases hq : q.unorderedQueue with
    | nil =>
      have hsame : { q with unorderedQueue := [] } = q := by rw [← hq]
      left
      rw [List.tail_nil, hsame]
      rfl
    | cons c rest => exact Or.inr ⟨_, c, rfl, fun _ _ => ⟨hq, rfl, rfl, rfl⟩⟩
  | false =>
    unfold popFront
    rw [if_neg Bool.false_ne_true]
    cases hq : q.orderedQueue with
    | nil =>
      have hsame : { q with orderedQueue := [] } = q := by rw [← hq]
      left
      rw [List.tail_nil, hsame]
      rfl
    | cons c rest => exact Or.inr ⟨_, c, rfl, fun _ _ => ⟨hq, rfl, rfl, rfl⟩⟩

/-- A pop takes the front of one of the queues, or nothing. -/
theorem pop_cases (q : PendingQueue) (b u : Bool) :
    q.pop b u = (q, none) ∨ ∃ q' v c, q.pop b u = (q', some c) ∧ q.Takes q' v c := by
  unfold pop
  split
  · rcases q.popFront_cases q.unorderedIsSelected with heq | ⟨q', c, heq, htakes⟩
    · rw [heq]
      exact Or.inl rfl
    · rw [heq]
      right
      refine ⟨_, q.unorderedIsSelected, c, rfl, ?_⟩
      dsimp only
      split <;> exact htakes _ _
  · split
    · exact Or.inl rfl
    · rcases q.popFront_cases u with heq | ⟨q', c, heq, htakes⟩
      · rw [heq]
        exact Or.inl rfl
      · rw [heq]
        right
        refine ⟨_, u, c, rfl, ?_⟩
        dsimp only
        split <;> exact htakes _ _

/-- What is taken comes before what is left, kind by kind. -/
theorem Takes.filter (h : q.Takes q' v c) (hkind : c.unordered = v) (u : Bool) :
    queueOf q u = [c].filter (·.unordered = u) ++ queueOf q' u := by
  by_cases hu : v = u
  · subst hu
    rw [List.filter_cons_of_pos (by simpa using hkind), List.filter_nil, h.front]
    rfl
  · have hnot : u = !v := Bool.eq_not_of_ne (Ne.symm hu)
    rw [List.filter_cons_of_neg (by simpa [hkind] using hu), List.filter_nil, hnot, h.other]
    rfl

/-- And the counters stay true. -/
theorem Counted.takes (h : q.Counted) (ht : q.Takes q' v c) : c.unordered = v ∧ q'.Counted := by
  obtain ⟨hkind, hlen, hbytes⟩ := h
  have hc : c.unordered = v := by
    refine hkind v c ?_
    rw [ht.front]
    exact List.mem_cons_self
  have hfilter := ht.filter hc
  refine ⟨hc, ?_, ?_, ?_⟩
  · intro u c' hc'
    refine hkind u c' ?_
    rw [hfilter u]
    exact List.mem_append_right _ hc'
  · rw [ht.len, hlen]
    unfold chunkCount
    rw [hfilter true, hfilter false, List.length_append, List.length_append]
    cases hu : c.unordered
    · simp [hu]
      omega
    · simp [hu]
      omega
  · rw [ht.bytes, hbytes]
    unfold byteCount
    rw [hfilter true, hfilter false]
    cases hu : c.unordered
    · simp [hu]
      omega
    · simp [hu]

/-- **A pop keeps the counters true**, whatever it is called with. -/
theorem Counted.pop (h : q.Counted) (b u : Bool) : (q.pop b u).1.Counted := by
  rcases q.pop_cases b u with heq | ⟨q', v, c, heq, ht⟩
  · rw [heq]
    exact h
  · rw [heq]
    exact (h.takes ht).2

end PendingQueue

namespace PendingSystem

open PendingQueue (queueOf queueOf_push)

/-- The chunk that an event brings into the queue. -/
def pushedChunk (s : PendingSystem) : Event → Option ChunkPayloadData
  | .push i => s.writers[i]?.bind fun w => w.message.chunks[w.pushed]?
  | _ => none

/-- The chunks that a run brings into the queue. -/
def pushed (s : PendingSystem) (es : List Event) : List ChunkPayloadData :=
  (Runs.outputs step pushedChunk s es).reduceOption

/-- What has been pushed leaves as whole messages, each kind in its order, and the rest is in
the queue. -/
structure HandsOut (pushed : List ChunkPayloadData) (s : PendingSystem) : Prop where
  atomic : s.Atomic
  inOrder : ∀ u, pushed.filter (·.unordered = u) =
    s.sent.filter (·.unordered = u) ++ queueOf s.queue u
  counted : s.queue.Counted

theorem pushedChunk_push (s : PendingSystem) (i : ℕ) :
    s.pushedChunk (.push i) = s.writers[i]?.bind fun w => w.message.chunks[w.pushed]? := rfl

/-- A push of a task that has nothing left to push does nothing. -/
theorem pushNext_eq (s : PendingSystem) (i : ℕ) :
    (s.pushedChunk (.push i) = none ∧ s.pushNext i = s) ∨
      ∃ c writers, s.pushedChunk (.push i) = some c ∧
        s.pushNext i = { s with queue := s.queue.push c, writers } := by
  rw [pushedChunk_push]
  unfold pushNext
  cases hw : s.writers[i]? with
  | none =>
    left
    exact ⟨rfl, rfl⟩
  | some w =>
    cases hc : w.message.chunks[w.pushed]? with
    | none =>
      left
      dsimp only [Option.bind_some]
      rw [hc]
      exact ⟨rfl, rfl⟩
    | some c =>
      right
      refine ⟨c, s.writers.set i { w with pushed := w.pushed + 1 }, ?_⟩
      dsimp only [Option.bind_some]
      rw [hc]
      exact ⟨rfl, rfl⟩

/-- What an event pushes goes behind what is there, what it pops comes from the front. -/
theorem filter_step (s : PendingSystem) (h : s.queue.Counted) (e : Event) (u : Bool) :
    s.sent.filter (·.unordered = u) ++ queueOf s.queue u ++
        (s.pushedChunk e).toList.filter (·.unordered = u) =
      (s.step e).sent.filter (·.unordered = u) ++ queueOf (s.step e).queue u := by
  cases e with
  | start m => exact List.append_nil _
  | peek => exact List.append_nil _
  | push i =>
    rcases s.pushNext_eq i with ⟨hpushed, hs⟩ | ⟨c, writers, hpushed, hs⟩
    · rw [step, hs, hpushed]
      exact List.append_nil _
    · rw [step, hs, hpushed]
      show _ = s.sent.filter (·.unordered = u) ++ queueOf (s.queue.push c) u
      rw [queueOf_push, List.append_assoc]
      congr 1
      -- the other queue is as it was
      by_cases hu : c.unordered = u
      · rw [if_pos hu]
        simp [hu]
      · rw [if_neg hu]
        simp [hu]
  | pop =>
    show _ ++ [] = _
    rw [List.append_nil]
    cases hpk : s.peeked with
    | none =>
      rw [step, popPeeked, hpk]
    | some c =>
      have hstep : s.step .pop =
          { s with
            queue := (s.queue.pop c.beginningFragment c.unordered).1
            peeked := none
            popped := s.popped ++ [(c, (s.queue.pop c.beginningFragment c.unordered).2)] } := by
        rw [step, popPeeked, hpk]
      have hsent : (s.step .pop).sent =
          s.sent ++ (s.queue.pop c.beginningFragment c.unordered).2.toList := by
        rw [hstep, sent, sent, List.filterMap_append]
        cases (s.queue.pop c.beginningFragment c.unordered).2 <;> rfl
      rw [hsent, hstep]
      -- a pop that fails leaves the queue alone, one that succeeds takes the front
      rcases s.queue.pop_cases c.beginningFragment c.unordered with heq | ⟨q', v, d, heq, ht⟩
      · rw [heq]
        show _ = (s.sent ++ []).filter _ ++ _
        rw [List.append_nil]
      · rw [heq, List.filter_append, List.append_assoc]
        congr 1
        exact ht.filter (h.takes ht).1 u

/-- Every event keeps the counters true. -/
theorem counted_step (s : PendingSystem) (e : Event) (h : s.queue.Counted) :
    (s.step e).queue.Counted := by
  cases e with
  | start m => exact h
  | peek => exact h
  | push i =>
    rcases s.pushNext_eq i with ⟨_, hs⟩ | ⟨c, writers, _, hs⟩
    · rw [step, hs]
      exact h
    · rw [step, hs]
      exact h.push c
  | pop =>
    rw [step, popPeeked]
    split
    · exact h
    · exact h.pop _ _

/-- **Over a run** what is sent and what is queued are what was there and what was pushed, kind by
kind and in order. -/
theorem filter_run {s : PendingSystem} (h : s.queue.Counted) (es : List Event) (u : Bool) :
    s.sent.filter (·.unordered = u) ++ queueOf s.queue u ++
        (s.pushed es).filter (·.unordered = u) =
      (Runs.run step s es).sent.filter (·.unordered = u) ++ queueOf (Runs.run step s es).queue u := by
  induction es generalizing s with
  | nil => exact List.append_nil _
  | cons e es ih =>
    have hcons : s.pushed (e :: es) = (s.pushedChunk e).toList ++ (s.step e).pushed es := by
      show (s.pushedChunk e :: Runs.outputs step pushedChunk (s.step e) es).reduceOption = _
      cases s.pushedChunk e <;> rfl
    rw [hcons, List.filter_append, ← List.append_assoc, filter_step s h e u]
    exact ih (counted_step s e h)

/-- **Whole messages in order**: whatever is pushed between peeking and popping, as long as no
writer pushes while another one is half-way through a message of the same kind. -/
theorem handsOut_of_pushesAlone {es : List Event} (hes : Runs.Along step PushesAlone {} es) :
    HandsOut (pushed {} es) (Runs.run step {} es) where
  atomic := by
    obtain ⟨done, cur, h⟩ := Runs.run_invariant_along (I := fun s => ∃ done cur, Inv s done cur)
      (fun s e he ⟨_, _, h⟩ => h.step he) ⟨[], [], inv_init⟩ hes
    exact h.atomic
  inOrder u := by
    have hrun := filter_run (s := {}) PendingQueue.Counted.new es u
    rw [← hrun]
    cases u <;> rfl
  counted := Runs.run_invariant (I := fun s : PendingSystem => s.queue.Counted) counted_step
    PendingQueue.Counted.new es

/-- A message of one unordered chunk. -/
def unorderedOne : Message where
  chunks := [{ unordered := true, beginningFragment := true, endingFragment := true, userData := [3] }]
  unordered := true
  isMessage := by
    refine ⟨by simp, by simp, ?_, ?_⟩
    · intro i c hc
      match i with
      | 0 => simp at hc; simp [← hc]
      | i + 1 => simp at hc
    · intro i c hc
      match i with
      | 0 => simp at hc; simp [← hc]
      | i + 1 => simp at hc

/-- The unordered message is pushed between the fragments of an ordered one and between a peek
and its pop. -/
def writesBetween : List Event :=
  [.start (twoFragments [1]), .start unorderedOne, .push 0, .peek, .push 1, .pop, .peek, .push 0,
    .peek, .pop, .peek, .pop]

theorem handsOut_writesBetween :
    HandsOut (pushed {} writesBetween) (Runs.run step {} writesBetween) :=
  handsOut_of_pushesAlone (by decide)

end PendingSystem

end Sctp
