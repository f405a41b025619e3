import Sctp.Queue.PendingQueueTheorems
import Sctp.Association.NewDataTheorems

/-!
# What has been popped of the messages that were pushed

The history of a pending queue that whole messages are pushed to: what has been popped are whole
messages and the beginning of one more, and with those that wait they are the messages of each kind
in the order of their pushes.
-/

namespace Sctp

namespace PendingQueue

variable {q q' : PendingQueue} {c : ChunkPayloadData} {out popped : List ChunkPayloadData}
  {all : Bool → List Message} {done : List Message} {current : Option (Message × ℕ)}

/-- What has been popped of the message that is being popped. -/
def begun : Option (Message × ℕ) → List ChunkPayloadData
  | some (m, k) => m.chunks.take k
  | none => []

/-- The messages of which something has been popped. -/
def begunMessages (done : List Message) (current : Option (Message × ℕ)) : List Message :=
  done ++ (current.map (·.1)).toList

/-- `all` are the messages of each kind that have been pushed, and `popped` is what has been popped:
the messages of `done` and the beginning of `current`. -/
structure Tells (q : PendingQueue) (all : Bool → List Message) (popped : List ChunkPayloadData)
    (done : List Message) (current : Option (Message × ℕ)) : Prop where
  waits : ∃ waiting, q.Holds current waiting ∧
    ∀ u, all u = (begunMessages done current).filter (·.unordered = u) ++ waiting u
  popped : popped = done.flatMap (·.chunks) ++ begun current

/-- A queue that has nothing to hand out holds no messages. -/
theorem Holds.eq_nil_of_peek {waiting : Bool → List Message} (h : q.Holds current waiting)
    (hpeek : q.peek = none) : current = none ∧ ∀ u, waiting u = [] := by
  have hempty : current = none → (∀ u, queueOf q u = []) → ∀ u, waiting u = [] := by
    intro hcurrent hnil u
    have hqueue := h.queue u
    rw [hnil, hcurrent] at hqueue
    have hchunks := (List.append_eq_nil_iff.mp hqueue.symm).2
    rw [List.flatMap_eq_nil_iff] at hchunks
    rw [List.eq_nil_iff_forall_not_mem]
    exact fun m hm => m.isMessage.ne_nil (hchunks m hm)
  unfold peek at hpeek
  cases hcurrent : current with
  | none =>
    have hselected : q.selected = false := by
      rw [h.selected, hcurrent]
      rfl
    refine ⟨rfl, hempty hcurrent fun u => ?_⟩
    rw [hselected, if_neg Bool.false_ne_true] at hpeek
    cases hun : q.unorderedQueue.head? with
    | some c =>
      rw [hun] at hpeek
      cases hpeek
    | none =>
      rw [hun] at hpeek
      cases u with
      | true => exact List.head?_eq_none_iff.mp hun
      | false => exact List.head?_eq_none_iff.mp hpeek
  | some mk =>
    -- the rest of the message is at the front
    obtain ⟨m, k⟩ := mk
    have hselected : q.selected = true := by
      rw [h.selected, hcurrent]
      rfl
    rw [hselected, if_pos rfl] at hpeek
    have hnil : queueOf q q.unorderedIsSelected = [] := by
      unfold queueOf
      split at hpeek
      · rename_i hun
        rw [if_pos hun]
        exact List.head?_eq_none_iff.mp hpeek
      · rename_i hor
        rw [if_neg hor]
        exact List.head?_eq_none_iff.mp hpeek
    have hqueue := h.queue q.unorderedIsSelected
    rw [hnil, if_pos rfl, hcurrent] at hqueue
    have hrest : m.chunks.drop k = [] := (List.append_eq_nil_iff.mp hqueue.symm).1
    have hk := (h.current m k hcurrent).2
    rw [List.drop_eq_nil_iff] at hrest
    omega

/-- At the start nothing was pushed or popped. -/
theorem Tells.new : Tells {} (fun _ => []) [] [] none where
  waits := ⟨_, Holds.new, fun _ => rfl⟩
  popped := rfl

/-- A message is pushed whole. -/
theorem Tells.push (h : q.Tells all popped done current) (m : Message) :
    (m.chunks.foldl PendingQueue.push q).Tells
      (Function.update all m.unordered (all m.unordered ++ [m])) popped done current where
  waits := by
    obtain ⟨waiting, hholds, hall⟩ := h.waits
    refine ⟨_, hholds.push m, fun u => ?_⟩
    by_cases hu : u = m.unordered
    · rw [hu, Function.update_self, Function.update_self, hall, List.append_assoc]
    · rw [Function.update_of_ne hu, Function.update_of_ne hu, hall]
  popped := h.popped

/-- The messages that are whole once chunk `k` of a message has been popped. -/
def closed (m : Message) (k : ℕ) : List Message := if k + 1 < m.chunks.length then [] else [m]

/-- The fragments up to the one popped are those of a closed message, or of the one begun. -/
theorem closed_begun {m : Message} {k : ℕ} (hc : m.chunks[k]? = some c) :
    (closed m k).flatMap (·.chunks) ++ begun (after m k) = m.chunks.take k ++ [c] := by
  obtain ⟨hk, rfl⟩ := List.getElem?_eq_some_iff.mp hc
  rw [List.take_append_getElem hk]
  unfold closed after
  split
  · rfl
  · rw [List.take_of_length_le (by omega)]
    exact (List.append_nil _).trans (List.append_nil _)

/-- A message that is begun or closed is the last one begun. -/
theorem begunMessages_after (done : List Message) (m : Message) (k : ℕ) :
    begunMessages (done ++ closed m k) (after m k) = done ++ [m] := by
  unfold begunMessages closed after
  split
  · rw [List.append_nil]
    rfl
  · exact List.append_nil _

/-- **A pop goes on** with the message begun, or begins the next one. -/
theorem Tells.pop (h : q.Tells all popped done current) (hpeek : q.peek = some c)
    (hpop : q.pop c.beginningFragment c.unordered = (q', some c)) :
    ∃ done' current', q'.Tells all (popped ++ [c]) done' current' := by
  obtain ⟨waiting, hholds, hall⟩ := h.waits
  obtain ⟨m, k, q'', hc, hpop', hcases⟩ := hholds.pop hpeek
  rw [hpop] at hpop'
  have hsame : q' = q'' := congrArg Prod.fst hpop'
  subst hsame
  refine ⟨done ++ closed m k, after m k, ?_, ?_⟩
  · rcases hcases with ⟨hcur, hafter⟩ | ⟨hcur, _, ms, hwaiting, hafter⟩
    · -- the message goes on
      refine ⟨waiting, hafter, fun u => ?_⟩
      rw [begunMessages_after, hall, hcur]
      rfl
    · -- a message that waited begins
      refine ⟨_, hafter, fun u => ?_⟩
      rw [begunMessages_after, hall, hcur]
      unfold begunMessages
      rw [Option.map_none, Option.toList_none, List.append_nil, List.filter_append]
      by_cases hu : u = m.unordered
      · rw [hu, Function.update_self, hwaiting, List.filter_singleton,
          decide_eq_true rfl, cond_true, List.append_assoc, List.singleton_append]
      · rw [Function.update_of_ne hu, List.filter_cons_of_neg (by simpa using Ne.symm hu),
          List.filter_nil, List.append_nil]
  · rw [List.flatMap_append, List.append_assoc, closed_begun hc, h.popped]
    rcases hcases with ⟨hcur, _⟩ | ⟨hcur, hk, _⟩
    · rw [hcur, begun, List.append_assoc]
    · rw [hcur, hk, begun, List.take_zero, List.append_nil, List.nil_append]

/-- A message of which something has been popped has been pushed. -/
theorem Tells.mem_all (h : q.Tells all popped done current) {m : Message}
    (hm : m ∈ begunMessages done current) : m ∈ all m.unordered := by
  obtain ⟨waiting, _, hall⟩ := h.waits
  rw [hall]
  exact List.mem_append_left _ (List.mem_filter.mpr ⟨hm, decide_eq_true rfl⟩)

/-- What has been popped of a message is of the message. -/
theorem subset_of_block {l : List ChunkPayloadData}
    (hl : l ∈ done.map (·.chunks) ++ [begun current]) (hc : c ∈ l) :
    ∃ m ∈ begunMessages done current, ∀ d ∈ l, d ∈ m.chunks := by
  rcases List.mem_append.mp hl with hdone | hbegun
  · obtain ⟨m, hm, rfl⟩ := List.mem_map.mp hdone
    exact ⟨m, List.mem_append_left _ hm, fun _ hd => hd⟩
  · rw [List.mem_singleton.mp hbegun] at hc ⊢
    cases current with
    | none => exact absurd hc List.not_mem_nil
    | some mk =>
      exact ⟨mk.1, List.mem_append_right _ (List.mem_singleton_self _),
        fun _ hd => List.mem_of_mem_take hd⟩

/-- What was popped is of a message that was begun. -/
theorem Tells.mem_popped (h : q.Tells all popped done current) (hc : c ∈ popped) :
    ∃ m ∈ begunMessages done current, c ∈ m.chunks := by
  rw [h.popped, List.flatMap_def, ← List.flatten_singleton (l := begun current),
    ← List.flatten_append] at hc
  obtain ⟨l, hl, hcl⟩ := List.mem_flatten.mp hc
  obtain ⟨m, hm, hin⟩ := subset_of_block hl hcl
  exact ⟨m, hm, hin c hcl⟩

/-- The chunks of a round of the write loop. -/
theorem Tells.gives (h : q.Tells all popped done current) (hgives : q.Gives out q') :
    ∃ done' current', q'.Tells all (popped ++ out) done' current' := by
  induction hgives with
  | nil =>
    rw [List.append_nil]
    exact ⟨done, current, h⟩
  | snoc _ hpeek hpop ih =>
    obtain ⟨_, _, hbefore⟩ := ih
    rw [← List.append_assoc]
    exact hbefore.pop hpeek hpop

end PendingQueue

end Sctp
