import Sctp.Queue.Writers

/-!
# What the pending queue holds

A pop takes the chunk at the front of one of the two queues. When messages are pushed whole,
the queue holds the rest of the message that is being popped and whole messages behind it.
-/

namespace Sctp

/-! ## Messages -/

namespace IsMessage

variable {u : Bool} {chunks : List ChunkPayloadData}

/-- Only the last chunk of a message is an ending fragment. -/
theorem eq_append (h : IsMessage u chunks) :
    ∃ init last, chunks = init ++ [last] ∧ last.endingFragment = true ∧
      ∀ c ∈ init, c.endingFragment = false := by
  obtain ⟨init, last, rfl⟩ : ∃ init last, chunks = init ++ [last] :=
    ⟨_, _, (List.dropLast_append_getLast h.ne_nil).symm⟩
  refine ⟨init, last, rfl, ?_, ?_⟩
  · exact (h.ending init.length last (by simp)).mpr (by simp)
  · intro c hc
    obtain ⟨i, hi, rfl⟩ := List.getElem_of_mem hc
    have hget : (init ++ [last])[i]? = some init[i] := by
      rw [List.getElem?_append_left hi, List.getElem?_eq_getElem hi]
    by_contra hend
    have := (h.ending i _ hget).mp (by simpa using hend)
    simp only [List.length_append, List.length_singleton] at this
    omega

/-- No chunk before the last is an ending fragment. -/
theorem not_ending_of_mem_take (h : IsMessage u chunks) {n : ℕ} (hn : n < chunks.length)
    {c : ChunkPayloadData} (hc : c ∈ chunks.take n) : c.endingFragment = false := by
  obtain ⟨i, hi, hget⟩ := List.mem_take_iff_getElem.mp hc
  by_contra hend
  have := (h.ending i c (by rw [List.getElem?_eq_getElem (by omega), hget])).mp (by simpa using hend)
  omega

/-- A message begins with its beginning fragment. -/
theorem beginning_head (h : IsMessage u chunks) {c : ChunkPayloadData} {rest : List ChunkPayloadData}
    (hc : chunks = c :: rest) : c.beginningFragment = true :=
  (h.beginning 0 c (by rw [hc, List.getElem?_cons_zero])).mpr rfl

end IsMessage

namespace PendingQueue

/-- The queue for chunks of the one kind. -/
def queueOf (q : PendingQueue) (u : Bool) : List ChunkPayloadData :=
  if u then q.unorderedQueue else q.orderedQueue

/-! ## What each operation does to the queues -/

/-- A push goes to the end of the queue of its kind. -/
theorem queueOf_push (q : PendingQueue) (c : ChunkPayloadData) (u : Bool) :
    queueOf (q.push c) u = if c.unordered = u then queueOf q u ++ [c] else queueOf q u := by
  unfold PendingQueue.push queueOf
  cases c.unordered <;> cases u <;> rfl

/-- What is in a queue after a push. -/
theorem mem_queueOf_push {q : PendingQueue} {c c' : ChunkPayloadData} {u : Bool}
    (hc' : c' ∈ queueOf (q.push c) u) : c' ∈ queueOf q u ∨ c' = c := by
  rw [queueOf_push] at hc'
  split at hc'
  · rwa [List.mem_append, List.mem_singleton] at hc'
  · exact Or.inl hc'

@[simp] theorem selected_push (q : PendingQueue) (c : ChunkPayloadData) :
    (q.push c).selected = q.selected := by
  unfold PendingQueue.push
  cases c.unordered <;> rfl

@[simp] theorem unorderedIsSelected_push (q : PendingQueue) (c : ChunkPayloadData) :
    (q.push c).unorderedIsSelected = q.unorderedIsSelected := by
  unfold PendingQueue.push
  cases c.unordered <;> rfl

/-- The queue `pop` looks into when it is given the flags of `c`. -/
def source (q : PendingQueue) (c : ChunkPayloadData) : Bool :=
  if q.selected then q.unorderedIsSelected else c.unordered

/-- Popping from a queue that is not empty takes its first chunk. -/
theorem popFront_eq {q : PendingQueue} {u : Bool} {c : ChunkPayloadData}
    {rest : List ChunkPayloadData} (hq : queueOf q u = c :: rest) :
    ∃ q', q.popFront u = (q', some c) ∧ queueOf q' u = rest ∧ queueOf q' (!u) = queueOf q (!u) ∧
      q'.selected = q.selected ∧ q'.unorderedIsSelected = q.unorderedIsSelected := by
  refine ⟨(q.popFront u).1, ?_⟩
  cases u with
  | true =>
    have hq' : q.unorderedQueue = c :: rest := hq
    simp [popFront, queueOf, hq']
  | false =>
    have hq' : q.orderedQueue = c :: rest := hq
    simp [popFront, queueOf, hq']

/-- A pop with the flags of the chunk at the front gives that chunk, and what is selected
afterwards is the queue with the rest of its message. -/
theorem pop_eq {q : PendingQueue} {c : ChunkPayloadData} {rest : List ChunkPayloadData}
    (hq : queueOf q (source q c) = c :: rest)
    (hb : q.selected = false → c.beginningFragment = true) :
    ∃ q', q.pop c.beginningFragment c.unordered = (q', some c) ∧
      queueOf q' (source q c) = rest ∧ queueOf q' (!source q c) = queueOf q (!source q c) ∧
      q'.selected = !c.endingFragment ∧
      (c.endingFragment = false → q'.unorderedIsSelected = source q c) := by
  obtain ⟨q₁, hfront, hrest, hother, hsel₁, his₁⟩ := popFront_eq hq
  cases hsel : q.selected with
  | true =>
    have hsource : source q c = q.unorderedIsSelected := by rw [source, if_pos hsel]
    rw [hsource] at hfront hrest hother ⊢
    cases hend : c.endingFragment with
    | true =>
      refine ⟨{ q₁ with selected := false }.account (some c), ?_, hrest, hother, rfl, ?_⟩
      · simp [PendingQueue.pop, hsel, hfront, hend]
      · intro h
        cases h
    | false =>
      refine ⟨q₁.account (some c), ?_, hrest, hother, hsel₁.trans hsel, fun _ => his₁⟩
      simp [PendingQueue.pop, hsel, hfront, hend]
  | false =>
    have hsource : source q c = c.unordered := by rw [source, if_neg (by simp [hsel])]
    rw [hsource] at hfront hrest hother ⊢
    cases hend : c.endingFragment with
    | true =>
      refine ⟨q₁.account (some c), ?_, hrest, hother, hsel₁.trans hsel, ?_⟩
      · simp [PendingQueue.pop, hsel, hfront, hend, hb hsel]
      · intro h
        cases h
    | false =>
      refine ⟨{ q₁ with selected := true, unorderedIsSelected := c.unordered }.account (some c),
        ?_, hrest, hother, rfl, fun _ => rfl⟩
      simp [PendingQueue.pop, hsel, hfront, hend, hb hsel]

/-! ## Whole messages -/

/-- The chunks of a message go to the end of the queue of its kind. -/
theorem push_foldl (q : PendingQueue) {u : Bool} {chunks : List ChunkPayloadData}
    (h : ∀ c ∈ chunks, c.unordered = u) :
    (∀ v, queueOf (chunks.foldl push q) v = if u = v then queueOf q v ++ chunks else queueOf q v) ∧
      (chunks.foldl push q).selected = q.selected ∧
      (chunks.foldl push q).unorderedIsSelected = q.unorderedIsSelected := by
  induction chunks generalizing q with
  | nil =>
    refine ⟨?_, rfl, rfl⟩
    intro v
    split
    · exact (List.append_nil _).symm
    · rfl
  | cons c chunks ih =>
    have hc := h c (List.mem_cons_self ..)
    obtain ⟨hq, hsel, his⟩ := ih (q.push c) fun c' hc' => h c' (List.mem_cons_of_mem _ hc')
    refine ⟨?_, ?_, ?_⟩
    · intro v
      rw [List.foldl_cons, hq v, queueOf_push, hc]
      by_cases huv : u = v
      · rw [if_pos huv, if_pos huv, if_pos huv, List.append_assoc]
        rfl
      · rw [if_neg huv, if_neg huv, if_neg huv]
    · rw [List.foldl_cons, hsel, selected_push]
    · rw [List.foldl_cons, his, unorderedIsSelected_push]

/-- What is left to pop of the message of which some chunks have been popped. -/
def remaining : Option (Message × ℕ) → List ChunkPayloadData
  | some (m, k) => m.chunks.drop k
  | none => []

/-- The message that is being popped once `k + 1` chunks of it are gone. -/
def after (m : Message) (k : ℕ) : Option (Message × ℕ) :=
  if k + 1 < m.chunks.length then some (m, k + 1) else none

/-- `current` is the message that is being popped, with the number of chunks that are gone,
and `waiting` are the messages of each kind behind it. -/
structure Holds (q : PendingQueue) (current : Option (Message × ℕ)) (waiting : Bool → List Message) :
    Prop where
  queue : ∀ u, queueOf q u = (if q.unorderedIsSelected = u then remaining current else []) ++
    (waiting u).flatMap (·.chunks)
  kind : ∀ u, ∀ m ∈ waiting u, m.unordered = u
  selected : q.selected = current.isSome
  current : ∀ m k, current = some (m, k) → 0 < k ∧ k < m.chunks.length

namespace Holds

variable {q : PendingQueue} {current : Option (Message × ℕ)} {waiting : Bool → List Message}

/-- An empty queue. -/
theorem new : Holds {} none fun _ => [] where
  queue u := by cases u <;> rfl
  kind u m hm := by cases hm
  selected := rfl
  current m k h := by cases h

/-- A message is queued behind the others of its kind. -/
theorem push (h : q.Holds current waiting) (m : Message) :
    Holds (m.chunks.foldl PendingQueue.push q) current
      (Function.update waiting m.unordered (waiting m.unordered ++ [m])) := by
  obtain ⟨hq, hsel, his⟩ := push_foldl q m.isMessage.kind
  refine ⟨?_, ?_, ?_, h.current⟩
  · intro u
    rw [hq u, his, h.queue u]
    by_cases hu : m.unordered = u
    · subst hu
      rw [if_pos rfl, Function.update_self, List.flatMap_append, List.append_assoc]
      simp
    · rw [if_neg hu, Function.update_of_ne (Ne.symm hu)]
  · intro u m' hm'
    by_cases hu : u = m.unordered
    · subst hu
      rw [Function.update_self, List.mem_append, List.mem_singleton] at hm'
      rcases hm' with hm' | rfl
      · exact h.kind _ m' hm'
      · rfl
    · rw [Function.update_of_ne hu] at hm'
      exact h.kind u m' hm'
  · rw [hsel, h.selected]

/-- The front of a queue of whole messages. -/
theorem front (h : q.Holds none waiting) {u : Bool} {c : ChunkPayloadData}
    {rest : List ChunkPayloadData} (hq : queueOf q u = c :: rest) :
    ∃ m ms, waiting u = m :: ms ∧ m.unordered = u ∧ m.chunks[0]? = some c ∧
      rest = m.chunks.drop 1 ++ ms.flatMap (·.chunks) := by
  have hu := h.queue u
  rw [hq] at hu
  have hu' : c :: rest = (waiting u).flatMap (·.chunks) := by
    rw [hu]
    split <;> rfl
  cases hw : waiting u with
  | nil =>
    rw [hw] at hu'
    cases hu'
  | cons m ms =>
    have hkind := h.kind u m (by rw [hw]; exact List.mem_cons_self ..)
    rw [hw, List.flatMap_cons] at hu'
    cases hm : m.chunks with
    | nil => exact absurd hm m.isMessage.ne_nil
    | cons c' chunks =>
      rw [hm, List.cons_append] at hu'
      injection hu' with hc hrest
      exact ⟨m, ms, rfl, hkind, by rw [hm, hc]; rfl, by rw [hm, hrest]; rfl⟩

/-- All fragments but the last are not ending ones. -/
theorem ending_iff {m : Message} {k : ℕ} {c : ChunkPayloadData} (hc : m.chunks[k]? = some c) :
    c.endingFragment = false ↔ k + 1 < m.chunks.length := by
  have hlt := (List.getElem?_eq_some_iff.mp hc).1
  have hend := m.isMessage.ending k c hc
  rw [← Bool.not_eq_true, hend]
  omega

/-- What a pop of chunk `k` of `m` leaves, when the rest of `m` is at the front of queue `v`. -/
theorem of_popped {q' : PendingQueue} {m : Message} {k : ℕ} {c : ChunkPayloadData} {v : Bool}
    (hc : m.chunks[k]? = some c)
    (hrest : queueOf q' v = m.chunks.drop (k + 1) ++ (waiting v).flatMap (·.chunks))
    (hother : queueOf q' (!v) = (waiting (!v)).flatMap (·.chunks))
    (hkind : ∀ u, ∀ m ∈ waiting u, m.unordered = u) (hsel : q'.selected = !c.endingFragment)
    (his : c.endingFragment = false → q'.unorderedIsSelected = v) :
    q'.Holds (after m k) waiting := by
  have hend := ending_iff hc
  unfold after
  by_cases hlt : k + 1 < m.chunks.length
  · rw [if_pos hlt]
    have hcend := hend.mpr hlt
    refine ⟨?_, hkind, ?_, ?_⟩
    · intro u
      rw [his hcend]
      by_cases hu : v = u
      · subst hu
        rw [if_pos rfl]
        exact hrest
      · rw [if_neg hu, Bool.eq_not_of_ne (Ne.symm hu)]
        exact hother
    · rw [hsel, hcend]
      rfl
    · intro m' k' h
      injection h with h
      injection h with hm hk
      subst hm
      subst hk
      exact ⟨Nat.succ_pos k, hlt⟩
  · rw [if_neg hlt]
    have hcend : c.endingFragment = true := by
      by_contra hne
      exact hlt (hend.mp (by simpa using hne))
    rw [List.drop_eq_nil_of_le (by omega), List.nil_append] at hrest
    refine ⟨?_, hkind, ?_, ?_⟩
    · intro u
      rw [remaining, ite_self, List.nil_append]
      by_cases hu : u = v
      · rw [hu]
        exact hrest
      · rw [Bool.eq_not_of_ne hu]
        exact hother
    · rw [hsel, hcend]
      rfl
    · intro m' k' h
      cases h

/-- The chunk that is peeked is at the front of the queue `pop` looks into. -/
theorem front_of_peek (h : q.Holds current waiting) {c : ChunkPayloadData}
    (hpeek : q.peek = some c) :
    ∃ rest, queueOf q (source q c) = c :: rest := by
  cases hsel : q.selected with
  | true =>
    have hhead : (queueOf q q.unorderedIsSelected).head? = some c := by
      rw [← hpeek]
      unfold peek queueOf
      rw [if_pos hsel]
      split <;> rfl
    rw [source, if_pos hsel]
    exact List.head?_eq_some_iff.mp hhead
  | false =>
    have hcurrent : current = none := by
      have hsome := h.selected
      rw [hsel] at hsome
      exact Option.isSome_eq_false_iff.mp hsome.symm |> Option.isNone_iff_eq_none.mp
    subst hcurrent
    have hkind : ∀ u, (queueOf q u).head? = some c → c.unordered = u := by
      intro u hhead
      obtain ⟨rest, hq⟩ := List.head?_eq_some_iff.mp hhead
      obtain ⟨m, ms, _, hu, hm, _⟩ := h.front hq
      rw [← hu]
      exact m.isMessage.kind c (List.mem_of_getElem? hm)
    rw [source, if_neg (by simp [hsel])]
    unfold peek at hpeek
    rw [hsel, if_neg (by simp)] at hpeek
    have hhead : ∃ u, (queueOf q u).head? = some c := by
      cases hun : q.unorderedQueue.head? with
      | some c' =>
        rw [hun] at hpeek
        exact ⟨true, hun.trans hpeek⟩
      | none =>
        rw [hun] at hpeek
        exact ⟨false, hpeek⟩
    obtain ⟨u, hu⟩ := hhead
    rw [hkind u hu]
    exact List.head?_eq_some_iff.mp hu

/-- A chunk that is peeked is popped with its flags, and it is the next one of the message
that is being popped or the first one of a message. -/
theorem pop (h : q.Holds current waiting) {c : ChunkPayloadData} (hpeek : q.peek = some c) :
    ∃ m k q', m.chunks[k]? = some c ∧ q.pop c.beginningFragment c.unordered = (q', some c) ∧
      ((current = some (m, k) ∧ q'.Holds (after m k) waiting) ∨
        (current = none ∧ k = 0 ∧ ∃ ms, waiting m.unordered = m :: ms ∧
          q'.Holds (after m k) (Function.update waiting m.unordered ms))) := by
  obtain ⟨front, hfront⟩ := h.front_of_peek hpeek
  cases hcur : current with
  | some mk =>
    -- the message that is being popped goes on
    obtain ⟨m, k⟩ := mk
    rw [hcur] at h
    obtain ⟨hk, hlt⟩ := h.current m k rfl
    have hsel : q.selected = true := h.selected
    have hsource : source q c = q.unorderedIsSelected := by rw [source, if_pos hsel]
    have hqueue := h.queue q.unorderedIsSelected
    rw [if_pos rfl, remaining, List.drop_eq_getElem_cons hlt, List.cons_append] at hqueue
    have hc : c = m.chunks[k] := by
      rw [hsource, hqueue] at hfront
      exact (List.cons.inj hfront).1.symm
    rw [← hc] at hqueue
    have hget : m.chunks[k]? = some c := by rw [hc]; exact List.getElem?_eq_getElem hlt
    obtain ⟨q', hpop, hrest, hother, hsel', his'⟩ := pop_eq (q := q) (c := c)
      (by rw [hsource]; exact hqueue) (by rw [hsel]; exact nofun)
    rw [hsource] at hrest hother his'
    refine ⟨m, k, q', hget, hpop, Or.inl ⟨rfl, of_popped hget hrest ?_ h.kind hsel' his'⟩⟩
    rw [hother, h.queue, if_neg (by simp)]
    rfl
  | none =>
    -- a message of the kind of the chunk begins
    rw [hcur] at h
    have hsel : q.selected = false := h.selected
    have hsource : source q c = c.unordered := by rw [source, if_neg (by simp [hsel])]
    rw [hsource] at hfront
    obtain ⟨m, ms, hw, hu, hm, hrest₀⟩ := h.front hfront
    have hb := (m.isMessage.beginning 0 c hm).mpr rfl
    obtain ⟨q', hpop, hrest, hother, hsel', his'⟩ := pop_eq (q := q) (c := c)
      (by rw [hsource]; exact hfront) fun _ => hb
    rw [hsource] at hrest hother his'
    rw [← hu] at hrest hother his' hw
    refine ⟨m, 0, q', hm, hpop, Or.inr ⟨rfl, rfl, ms, hw, of_popped hm ?_ ?_ ?_ hsel' his'⟩⟩
    · rw [Function.update_self, hrest, hrest₀]
    · rw [Function.update_of_ne (by simp), hother, h.queue]
      rw [remaining, ite_self, List.nil_append]
    · intro u m' hm'
      by_cases hne : u = m.unordered
      · subst hne
        rw [Function.update_self] at hm'
        exact h.kind _ m' (by rw [hw]; exact List.mem_cons_of_mem _ hm')
      · rw [Function.update_of_ne hne] at hm'
        exact h.kind u m' hm'

end Holds

end PendingQueue

end Sctp
