import Sctp.Queue.PendingQueueTheorems
import Sctp.Lib.Runs

/-!
# Message atomicity of the pending queue

`pop` takes the fragments of a message in a row from one of the two queues, so it relies on
them lying there in a row. That holds as long as no two writers are half-way through
messages of the same kind. Otherwise messages mix, and a fragment that is left over is
never popped.
-/

namespace Sctp

/-- Two splits of a list at its first element with `p` are the same split. -/
theorem append_cons_inj {α : Type} {p : α → Bool} {l₁ l₂ r₁ r₂ : List α} {a b : α}
    (h : l₁ ++ a :: r₁ = l₂ ++ b :: r₂) (h₁ : ∀ x ∈ l₁, p x = false) (ha : p a = true)
    (h₂ : ∀ x ∈ l₂, p x = false) (hb : p b = true) : l₁ = l₂ ∧ a = b ∧ r₁ = r₂ := by
  induction l₁ generalizing l₂ with
  | nil =>
    cases l₂ with
    | nil =>
      simp only [List.nil_append, List.cons.injEq] at h
      exact ⟨rfl, h.1, h.2⟩
    | cons y l₂ =>
      simp only [List.nil_append, List.cons_append, List.cons.injEq] at h
      rw [h.1, h₂ y (List.mem_cons_self ..)] at ha
      cases ha
  | cons x l₁ ih =>
    cases l₂ with
    | nil =>
      simp only [List.nil_append, List.cons_append, List.cons.injEq] at h
      rw [← h.1, h₁ x (List.mem_cons_self ..)] at hb
      cases hb
    | cons y l₂ =>
      simp only [List.cons_append, List.cons.injEq] at h
      obtain ⟨hl, hab, hr⟩ := ih h.2 (fun z hz => h₁ z (List.mem_cons_of_mem _ hz))
        (fun z hz => h₂ z (List.mem_cons_of_mem _ hz))
      exact ⟨by rw [h.1, hl], hab, hr⟩

/-! ## The queues hold whole messages and at most the beginning of one -/

namespace PendingSystem

open PendingQueue (queueOf source queueOf_push selected_push unorderedIsSelected_push pop_eq)

/-- `chunks` is what the writer that is half-way through a message of kind `u` has pushed of
it, or nothing when there is no such writer. -/
def OpenPart (writers : List Writer) (u : Bool) (chunks : List ChunkPayloadData) : Prop :=
  (chunks = [] ∧ ∀ w ∈ writers, w.HalfWay → w.message.unordered ≠ u) ∨
    ∃ w ∈ writers, w.HalfWay ∧ w.message.unordered = u ∧
      chunks = w.message.chunks.take w.pushed

/-- After `cur`, which has been popped, the chunks of kind `u` go on with the rest of its
message, whole messages, and then the open part. -/
def Framed (s : PendingSystem) (u : Bool) (cur : List ChunkPayloadData) : Prop :=
  ∃ (whole : List Message) (part : List ChunkPayloadData),
    cur ++ queueOf s.queue u = whole.flatMap (·.chunks) ++ part ∧
      (∀ m ∈ whole, m ∈ s.messages ∧ m.unordered = u) ∧ OpenPart s.writers u part

/-- A message that is half pushed has not ended. -/
theorem OpenPart.not_ending {writers : List Writer} {u : Bool} {part : List ChunkPayloadData}
    (h : OpenPart writers u part) {c : ChunkPayloadData} (hc : c ∈ part) :
    c.endingFragment = false := by
  rcases h with ⟨rfl, _⟩ | ⟨w, _, hw, _, rfl⟩
  · cases hc
  · exact w.message.isMessage.not_ending_of_mem_take hw.2 hc

/-- What is pushed of a message is an initial part of it. -/
theorem OpenPart.prefix {s : PendingSystem} {u : Bool} {part : List ChunkPayloadData}
    (h : OpenPart s.writers u part) (hne : part ≠ []) : ∃ m ∈ s.messages, part <+: m.chunks := by
  rcases h with ⟨rfl, _⟩ | ⟨w, hw, _, _, rfl⟩
  · exact absurd rfl hne
  · exact ⟨w.message, List.mem_map_of_mem hw, List.take_prefix _ _⟩

/-- The next chunk of a queue carries on with the message begun. -/
theorem Framed.next {s : PendingSystem} {u : Bool} {cur rest : List ChunkPayloadData}
    {c : ChunkPayloadData} (h : Framed s u cur) (hcur : ∀ x ∈ cur, x.endingFragment = false)
    (hq : queueOf s.queue u = c :: rest) (hend : c.endingFragment = true) :
    ∃ (m : Message) (whole : List Message) (part : List ChunkPayloadData),
      m ∈ s.messages ∧ m.chunks = cur ++ [c] ∧ rest = whole.flatMap (·.chunks) ++ part ∧
        (∀ m' ∈ whole, m' ∈ s.messages ∧ m'.unordered = u) ∧ OpenPart s.writers u part := by
  obtain ⟨whole, part, heq, hwhole, hpart⟩ := h
  rw [hq] at heq
  cases whole with
  | nil =>
    -- the open part has no ending fragment
    have hc : c ∈ part := by
      rw [List.flatMap_nil, List.nil_append] at heq
      rw [← heq]
      simp
    rw [hpart.not_ending hc] at hend
    cases hend
  | cons m whole =>
    obtain ⟨init, last, hm, hlast, hinit⟩ := m.isMessage.eq_append
    rw [List.flatMap_cons, hm, List.append_assoc, List.append_assoc, List.singleton_append] at heq
    obtain ⟨rfl, rfl, hrest⟩ := append_cons_inj heq hcur hend hinit hlast
    refine ⟨m, whole, part, (hwhole m (List.mem_cons_self ..)).1, hm, hrest, ?_, hpart⟩
    intro m' hm'
    exact hwhole m' (List.mem_cons_of_mem _ hm')

/-- What has been popped of the current message is the beginning of one. -/
theorem Framed.cur_prefix {s : PendingSystem} {u : Bool} {cur : List ChunkPayloadData}
    (h : Framed s u cur) (hcur : ∀ x ∈ cur, x.endingFragment = false) (hne : cur ≠ []) :
    ∃ m ∈ s.messages, cur <+: m.chunks := by
  obtain ⟨whole, part, heq, hwhole, hpart⟩ := h
  cases whole with
  | nil =>
    have hpre : cur <+: part := ⟨_, by simpa using heq⟩
    obtain ⟨m, hm, hp⟩ := hpart.prefix fun h0 => hne (List.prefix_nil.mp (h0 ▸ hpre))
    exact ⟨m, hm, hpre.trans hp⟩
  | cons m whole =>
    refine ⟨m, (hwhole m (List.mem_cons_self ..)).1, ?_⟩
    obtain ⟨init, last, hm, hlast, hinit⟩ := m.isMessage.eq_append
    rw [List.flatMap_cons, List.append_assoc] at heq
    rcases List.append_eq_append_iff.mp heq with ⟨rest, hrest, _⟩ | ⟨rest, hrest, _⟩
    · exact ⟨rest, hrest.symm⟩
    · -- the message ends inside `cur`
      have hl : last ∈ cur := by
        rw [hrest, hm]
        simp
      rw [hcur last hl] at hlast
      cases hlast

/-- With nothing begun, a queue starts with the first chunk of a message. -/
theorem Framed.beginning {s : PendingSystem} {u : Bool} {rest : List ChunkPayloadData}
    {c : ChunkPayloadData} (h : Framed s u []) (hq : queueOf s.queue u = c :: rest) :
    c.beginningFragment = true ∧ c.unordered = u := by
  obtain ⟨whole, part, heq, hwhole, hpart⟩ := h
  rw [List.nil_append, hq] at heq
  have hfirst : ∃ m : Message, m.unordered = u ∧ ∃ rest', m.chunks = c :: rest' := by
    cases whole with
    | nil =>
      rcases hpart with ⟨rfl, _⟩ | ⟨w, _, _, hu, rfl⟩
      · cases heq
      · refine ⟨w.message, hu, ?_⟩
        rw [List.flatMap_nil, List.nil_append] at heq
        cases hm : w.message.chunks with
        | nil => rw [hm, List.take_nil] at heq; cases heq
        | cons c' rest' =>
          cases hp : w.pushed with
          | zero => rw [hp, List.take_zero] at heq; cases heq
          | succ n =>
            rw [hm, hp, List.take_succ_cons] at heq
            exact ⟨rest', by rw [(List.cons.inj heq).1]⟩
    | cons m whole =>
      refine ⟨m, (hwhole m (List.mem_cons_self ..)).2, ?_⟩
      cases hm : m.chunks with
      | nil => exact absurd hm m.isMessage.ne_nil
      | cons c' rest' =>
        rw [List.flatMap_cons, hm, List.cons_append] at heq
        exact ⟨rest', by rw [(List.cons.inj heq).1]⟩
  obtain ⟨m, hu, rest', hm⟩ := hfirst
  refine ⟨m.isMessage.beginning_head hm, ?_⟩
  rw [← hu]
  exact m.isMessage.kind c (by rw [hm]; exact List.mem_cons_self ..)

/-! ## Writers -/

/-- One writer has gone on. -/
theorem mem_set_writers {writers : List Writer} {i : ℕ} {w w' x : Writer}
    (hi : writers[i]? = some w) :
    x ∈ writers.set i w' ↔ x = w' ∨ ∃ j, j ≠ i ∧ writers[j]? = some x := by
  have hlt : i < writers.length := (List.getElem?_eq_some_iff.mp hi).1
  constructor
  · intro hx
    obtain ⟨j, hj⟩ := List.mem_iff_getElem?.mp hx
    by_cases hji : i = j
    · subst hji
      rw [List.getElem?_set_self hlt] at hj
      exact Or.inl (Option.some.inj hj).symm
    · rw [List.getElem?_set_ne hji] at hj
      exact Or.inr ⟨j, fun h => hji h.symm, hj⟩
  · intro hx
    rcases hx with rfl | ⟨j, hji, hj⟩
    · exact List.mem_iff_getElem?.mpr ⟨i, List.getElem?_set_self hlt⟩
    · exact List.mem_iff_getElem?.mpr ⟨j, by rw [List.getElem?_set_ne (fun h => hji h.symm), hj]⟩

/-- A push by a writer of the other kind leaves the open part as it is. -/
theorem OpenPart.set_of_ne {writers : List Writer} {i : ℕ} {w w' : Writer} {u : Bool}
    {part : List ChunkPayloadData} (h : OpenPart writers u part) (hi : writers[i]? = some w)
    (hw : w.message.unordered ≠ u) (hw' : w'.message = w.message) :
    OpenPart (writers.set i w') u part := by
  rcases h with ⟨hpart, hnone⟩ | ⟨x, hx, hhalf, hu, hpart⟩
  · refine Or.inl ⟨hpart, ?_⟩
    intro x hx hhalf
    rcases (mem_set_writers hi).mp hx with rfl | ⟨j, _, hj⟩
    · rwa [hw']
    · exact hnone x (List.mem_of_getElem? hj) hhalf
  · refine Or.inr ⟨x, ?_, hhalf, hu, hpart⟩
    obtain ⟨j, hj⟩ := List.mem_iff_getElem?.mp hx
    refine (mem_set_writers hi).mpr (Or.inr ⟨j, ?_, hj⟩)
    intro hji
    rw [hji, hi] at hj
    exact hw (Option.some.inj hj ▸ hu)

/-- When it pushes alone, the open part is what the writer has pushed. -/
theorem OpenPart.eq_take {writers : List Writer} {i : ℕ} {w : Writer}
    {part : List ChunkPayloadData} (h : OpenPart writers w.message.unordered part)
    (hi : writers[i]? = some w) (hmore : w.pushed < w.message.chunks.length)
    (halone : ∀ j w', writers[j]? = some w' → j ≠ i → w'.HalfWay →
      w'.message.unordered ≠ w.message.unordered) :
    part = w.message.chunks.take w.pushed := by
  rcases h with ⟨rfl, hnone⟩ | ⟨x, hx, hhalf, hu, rfl⟩
  · have hzero : w.pushed = 0 := by
      by_contra hpos
      exact hnone w (List.mem_of_getElem? hi) ⟨Nat.pos_of_ne_zero hpos, hmore⟩ rfl
    rw [hzero, List.take_zero]
  · obtain ⟨j, hj⟩ := List.mem_iff_getElem?.mp hx
    by_cases hji : j = i
    · rw [hji, hi] at hj
      rw [Option.some.inj hj]
    · exact absurd hu (halone j x hj hji hhalf)

/-- What a push does, if the writer has a chunk left. -/
theorem pushNext_cases (s : PendingSystem) (i : ℕ) :
    s.pushNext i = s ∨ ∃ w c, s.writers[i]? = some w ∧ w.message.chunks[w.pushed]? = some c ∧
      s.pushNext i =
        { s with
          queue := s.queue.push c
          writers := s.writers.set i { w with pushed := w.pushed + 1 } } := by
  unfold pushNext
  split
  · exact Or.inl rfl
  · rename_i w hi
    split
    · exact Or.inl rfl
    · rename_i c hc
      exact Or.inr ⟨w, c, hi, hc, rfl⟩

/-- Pushing starts no message. -/
theorem messages_pushNext (s : PendingSystem) (i : ℕ) : (s.pushNext i).messages = s.messages := by
  rcases pushNext_cases s i with h | ⟨w, c, hi, _, h⟩
  · rw [h]
  · have hlt : i < s.writers.length := (List.getElem?_eq_some_iff.mp hi).1
    rw [h, messages, messages, List.map_set]
    refine List.ext_getElem? fun j => ?_
    by_cases hj : i = j
    · subst hj
      rw [List.getElem?_set_self (by simpa using hlt), List.getElem?_map, hi]
      rfl
    · rw [List.getElem?_set_ne hj]

/-- Who pushes alone has nobody else half way with the same kind. -/
theorem PushesAlone.unordered_ne {s : PendingSystem} {i j : ℕ} {w w' : Writer}
    (h : s.PushesAlone (.push i)) (hi : s.writers[i]? = some w) (hj : s.writers[j]? = some w')
    (hji : j ≠ i) (hhalf : w'.HalfWay) : w'.message.unordered ≠ w.message.unordered :=
  h j (List.getElem?_eq_some_iff.mp hj).1 hji w hi w' hj hhalf

/-- A push that is made alone keeps the queues framed. -/
theorem Framed.pushNext {s : PendingSystem} {i : ℕ} (halone : s.PushesAlone (.push i)) {u : Bool}
    {cur : List ChunkPayloadData} (h : Framed s u cur) : Framed (s.pushNext i) u cur := by
  obtain ⟨whole, part, heq, hwhole, hpart⟩ := h
  unfold Framed
  rw [messages_pushNext]
  rcases pushNext_cases s i with hs | ⟨w, c, hi, hc, hs⟩
  · rw [hs]
    exact ⟨whole, part, heq, hwhole, hpart⟩
  · rw [hs]
    have hmore : w.pushed < w.message.chunks.length := (List.getElem?_eq_some_iff.mp hc).1
    have hkind : c.unordered = w.message.unordered :=
      w.message.isMessage.kind c (List.mem_of_getElem? hc)
    by_cases hu : w.message.unordered = u
    · subst hu
      have hqueue : cur ++ queueOf (s.queue.push c) w.message.unordered =
          whole.flatMap (·.chunks) ++ w.message.chunks.take (w.pushed + 1) := by
        rw [queueOf_push, if_pos hkind, ← List.append_assoc, heq,
          hpart.eq_take hi hmore fun j w' hj => halone.unordered_ne hi hj, List.append_assoc, List.take_add_one, hc]
        rfl
      by_cases hlast : w.pushed + 1 = w.message.chunks.length
      · -- the message is complete
        refine ⟨whole ++ [w.message], [], ?_, ?_, Or.inl ⟨rfl, ?_⟩⟩
        · rw [hqueue, hlast, List.take_length]
          simp
        · intro m hm
          rcases List.mem_append.mp hm with hm | hm
          · exact hwhole m hm
          · rw [List.mem_singleton] at hm
            subst hm
            exact ⟨List.mem_map_of_mem (List.mem_of_getElem? hi), rfl⟩
        · intro x hx hhalf
          rcases (mem_set_writers hi).mp hx with rfl | ⟨j, hji, hj⟩
          · exact absurd hhalf.2 (by dsimp only; omega)
          · exact halone.unordered_ne hi hj hji hhalf
      · refine ⟨whole, _, hqueue, hwhole, Or.inr ⟨{ w with pushed := w.pushed + 1 }, ?_, ?_, rfl, rfl⟩⟩
        · exact (mem_set_writers hi).mpr (Or.inl rfl)
        · exact ⟨Nat.succ_pos _, by dsimp only; omega⟩
    · refine ⟨whole, part, ?_, hwhole, hpart.set_of_ne hi hu rfl⟩
      rw [queueOf_push, if_neg (hkind ▸ hu)]
      exact heq

/-- A message that is started is not pushed yet. -/
theorem Framed.start {s : PendingSystem} {u : Bool} {cur : List ChunkPayloadData}
    (h : Framed s u cur) (m : Message) : Framed (s.step (.start m)) u cur := by
  obtain ⟨whole, part, heq, hwhole, hpart⟩ := h
  refine ⟨whole, part, heq, ?_, ?_⟩
  · intro m' hm'
    refine ⟨?_, (hwhole m' hm').2⟩
    simp only [step, messages, List.map_append, List.mem_append]
    exact Or.inl (hwhole m' hm').1
  · rcases hpart with ⟨rfl, hnone⟩ | ⟨w, hw, hrest⟩
    · refine Or.inl ⟨rfl, ?_⟩
      intro w hw hhalf
      rcases List.mem_append.mp hw with hw | hw
      · exact hnone w hw hhalf
      · rw [List.mem_singleton] at hw
        subst hw
        exact absurd hhalf.1 (Nat.lt_irrefl 0)
    · exact Or.inr ⟨w, List.mem_append_left _ hw, hrest⟩

/-! ## The invariant of the system -/

/-- The chunks sent so far are the messages `done` and then `cur`, the fragments popped of
the message that is selected. -/
structure Inv (s : PendingSystem) (done : List Message) (cur : List ChunkPayloadData) : Prop where
  sent : s.sent = done.flatMap (·.chunks) ++ cur
  done_mem : ∀ m ∈ done, m ∈ s.messages
  popped : ∀ e ∈ s.popped, e.2 = some e.1
  selected : s.queue.selected = true ↔ cur ≠ []
  not_ending : ∀ c ∈ cur, c.endingFragment = false
  framed : ∀ u, Framed s u (if s.queue.unorderedIsSelected = u then cur else [])
  peeked : ∀ c, s.peeked = some c → (queueOf s.queue (source s.queue c)).head? = some c ∧
    (s.queue.selected = false → c.beginningFragment = true)

/-- Nothing is selected between messages. -/
theorem Inv.cur_eq_nil {s : PendingSystem} {done : List Message} {cur : List ChunkPayloadData}
    (h : Inv s done cur) (hsel : s.queue.selected = false) : cur = [] := by
  by_contra hne
  rw [h.selected.mpr hne] at hsel
  cases hsel

/-- The part of the current message is found in the queue a pop looks into. -/
theorem Inv.framed_source {s : PendingSystem} {done : List Message} {cur : List ChunkPayloadData}
    (h : Inv s done cur) (c : ChunkPayloadData) :
    Framed s (source s.queue c) cur ∧ Framed s (!source s.queue c) [] := by
  cases hsel : s.queue.selected with
  | true =>
    have hsource : source s.queue c = s.queue.unorderedIsSelected := by rw [source, if_pos hsel]
    rw [hsource]
    have h1 := h.framed s.queue.unorderedIsSelected
    have h2 := h.framed (!s.queue.unorderedIsSelected)
    rw [if_pos rfl] at h1
    rw [if_neg (by simp)] at h2
    exact ⟨h1, h2⟩
  | false =>
    have hcur := h.cur_eq_nil hsel
    subst hcur
    have hall : ∀ u, Framed s u [] := fun u => by simpa using h.framed u
    exact ⟨hall _, hall _⟩

/-- A start changes nothing in the queues. -/
theorem Inv.start {s : PendingSystem} {done : List Message} {cur : List ChunkPayloadData}
    (h : Inv s done cur) (m : Message) : Inv (s.step (.start m)) done cur where
  sent := h.sent
  done_mem := by
    intro m' hm'
    simp only [step, messages, List.map_append, List.mem_append]
    exact Or.inl (h.done_mem m' hm')
  popped := h.popped
  selected := h.selected
  not_ending := h.not_ending
  framed u := (h.framed u).start m
  peeked := h.peeked

/-- A push by a task that pushes alone. -/
theorem Inv.push {s : PendingSystem} {done : List Message} {cur : List ChunkPayloadData}
    (h : Inv s done cur) {i : ℕ} (halone : s.PushesAlone (.push i)) :
    Inv (s.step (.push i)) done cur := by
  have hmessages := messages_pushNext s i
  have hframed : ∀ u, Framed (s.pushNext i) u (if s.queue.unorderedIsSelected = u then cur else []) :=
    fun u => (h.framed u).pushNext halone
  rcases pushNext_cases s i with hs | ⟨w, c, hi, hc, hs⟩
  · rw [step, hs]
    exact h
  · rw [hs] at hmessages hframed
    rw [step, hs]
    refine ⟨h.sent, ?_, h.popped, ?_, h.not_ending, ?_, ?_⟩
    · rw [hmessages]
      exact h.done_mem
    · rw [selected_push]
      exact h.selected
    · intro u
      simpa only [unorderedIsSelected_push] using hframed u
    · intro c' hc'
      obtain ⟨hhead, hb⟩ := h.peeked c' hc'
      refine ⟨?_, by simpa only [selected_push] using hb⟩
      have hsource : source (s.queue.push c) c' = source s.queue c' := by
        simp only [source, selected_push, unorderedIsSelected_push]
      dsimp only
      rw [hsource, queueOf_push]
      -- a push leaves the front of a queue where it is
      split
      · rw [List.head?_append, hhead]
        rfl
      · exact hhead

/-- Peeking selects nothing. -/
theorem Inv.peek {s : PendingSystem} {done : List Message} {cur : List ChunkPayloadData}
    (h : Inv s done cur) : Inv (s.step .peek) done cur := by
  refine ⟨h.sent, h.done_mem, h.popped, h.selected, h.not_ending, h.framed, ?_⟩
  intro c hc
  have hc : s.queue.peek = some c := hc
  show (queueOf s.queue (source s.queue c)).head? = some c ∧ _
  cases hsel : s.queue.selected with
  | true =>
    refine ⟨?_, fun h => by rw [step, hsel] at h; cases h⟩
    rw [source, if_pos hsel]
    rw [PendingQueue.peek, if_pos hsel] at hc
    cases hu : s.queue.unorderedIsSelected <;> simp_all [queueOf]
  | false =>
    have hcur := h.cur_eq_nil hsel
    subst hcur
    -- between messages the front of either queue begins one
    have hfront : ∀ u, (queueOf s.queue u).head? = some c →
        c.beginningFragment = true ∧ c.unordered = u := by
      intro u hu
      obtain ⟨rest, hrest⟩ := List.head?_eq_some_iff.mp hu
      have hframed : Framed s u [] := by simpa using h.framed u
      exact hframed.beginning hrest
    rw [source, if_neg (by simp [hsel])]
    rw [PendingQueue.peek, if_neg (by simp [hsel])] at hc
    cases hun : s.queue.unorderedQueue.head? with
    | some c' =>
      rw [hun] at hc
      have hc' : c' = c := Option.some.inj hc
      rw [hc'] at hun
      obtain ⟨hb, hu⟩ := hfront true hun
      rw [hu]
      exact ⟨hun, fun _ => hb⟩
    | none =>
      rw [hun] at hc
      obtain ⟨hb, hu⟩ := hfront false hc
      rw [hu]
      exact ⟨hc, fun _ => hb⟩

/-- **A pop** takes the next chunk of the message that is selected, or selects one. -/
theorem Inv.pop {s : PendingSystem} {done : List Message} {cur : List ChunkPayloadData}
    (h : Inv s done cur) : ∃ done' cur', Inv (s.step .pop) done' cur' := by
  cases hpk : s.peeked with
  | none =>
    refine ⟨done, cur, ?_⟩
    rw [step, popPeeked, hpk]
    exact h
  | some c =>
    obtain ⟨hhead, hb⟩ := h.peeked c hpk
    obtain ⟨rest, hq⟩ := List.head?_eq_some_iff.mp hhead
    obtain ⟨q', hpop, hrest, hother, hsel', his'⟩ := pop_eq hq hb
    obtain ⟨hf, hf'⟩ := h.framed_source c
    have hstep : s.step .pop =
        { s with queue := q', peeked := none, popped := s.popped ++ [(c, some c)] } := by
      rw [step, popPeeked, hpk]
      dsimp only
      rw [hpop]
    have hsent : (s.step .pop).sent = s.sent ++ [c] := by
      rw [hstep, PendingSystem.sent, PendingSystem.sent, List.filterMap_append]
      rfl
    have hpopped : ∀ e ∈ (s.step .pop).popped, e.2 = some e.1 := by
      rw [hstep]
      intro e he
      rcases List.mem_append.mp he with he | he
      · exact h.popped e he
      · rw [List.mem_singleton] at he
        rw [he]
    -- the other queue is untouched
    have hframed' : Framed (s.step .pop) (!source s.queue c) [] := by
      obtain ⟨whole, part, heq, hw, hp⟩ := hf'
      rw [hstep]
      exact ⟨whole, part, by rw [← heq, hother], hw, hp⟩
    have hkinds : ∀ {P : Bool → Prop}, P (source s.queue c) → P (!source s.queue c) → ∀ u, P u := by
      intro P h1 h2 u
      by_cases hu : u = source s.queue c
      · rwa [hu]
      · rwa [Bool.eq_not_of_ne hu]
    cases hend : c.endingFragment with
    | true =>
      obtain ⟨m, whole, part, hm, hchunks, hrest', hwhole, hpart⟩ := hf.next h.not_ending hq hend
      have hframed : Framed (s.step .pop) (source s.queue c) [] := by
        rw [hstep]
        exact ⟨whole, part, by rw [List.nil_append, hrest, hrest'], hwhole, hpart⟩
      refine ⟨done ++ [m], [], ?_, ?_, hpopped, ?_, ?_, ?_, ?_⟩
      · rw [hsent, h.sent, List.flatMap_append, List.append_assoc, ← hchunks]
        simp
      · intro m' hm'
        rw [hstep]
        rcases List.mem_append.mp hm' with hm' | hm'
        · exact h.done_mem m' hm'
        · rw [List.mem_singleton] at hm'
          rwa [hm']
      · rw [hstep]
        simp [hsel', hend]
      · intro c' hc'
        cases hc'
      · intro u
        rw [ite_self]
        exact hkinds (P := fun u => Framed (s.step .pop) u []) hframed hframed' u
      · rw [hstep]
        intro c' hc'
        cases hc'
    | false =>
      have hframed : Framed (s.step .pop) (source s.queue c) (cur ++ [c]) := by
        obtain ⟨whole, part, heq, hw, hp⟩ := hf
        rw [hstep]
        refine ⟨whole, part, ?_, hw, hp⟩
        rw [List.append_assoc, hrest, List.singleton_append, ← hq]
        exact heq
      have his : (s.step .pop).queue.unorderedIsSelected = source s.queue c := by
        rw [hstep]
        exact his' hend
      refine ⟨done, cur ++ [c], ?_, ?_, hpopped, ?_, ?_, ?_, ?_⟩
      · rw [hsent, h.sent, List.append_assoc]
      · rw [hstep]
        exact h.done_mem
      · rw [hstep]
        simp [hsel', hend]
      · intro c' hc'
        rcases List.mem_append.mp hc' with hc' | hc'
        · exact h.not_ending c' hc'
        · rw [List.mem_singleton] at hc'
          rwa [hc']
      · rw [his]
        refine hkinds ?_ ?_
        · rw [if_pos rfl]
          exact hframed
        · rw [if_neg (by simp)]
          exact hframed'
      · rw [hstep]
        intro c' hc'
        cases hc'

/-- What one event keeps, if it is not a push into a message another writer has begun. -/
theorem Inv.step {s : PendingSystem} {done : List Message} {cur : List ChunkPayloadData}
    (h : Inv s done cur) {e : Event} (he : s.PushesAlone e) :
    ∃ done' cur', Inv (s.step e) done' cur' := by
  cases e with
  | start m => exact ⟨done, cur, h.start m⟩
  | push i => exact ⟨done, cur, h.push he⟩
  | peek => exact ⟨done, cur, h.peek⟩
  | pop => exact h.pop

/-- At the start nothing is written. -/
theorem inv_init : Inv {} [] [] where
  sent := rfl
  done_mem := by intro m hm; cases hm
  popped := by intro e he; cases he
  selected := by decide
  not_ending := by intro c hc; cases hc
  framed u := by
    refine ⟨[], [], by cases u <;> rfl, ?_, Or.inl ⟨rfl, ?_⟩⟩
    · intro m hm
      cases hm
    · intro w hw
      cases hw
  peeked := by intro c hc; cases hc

/-- What is popped comes message by message. -/
theorem Inv.atomic {s : PendingSystem} {done : List Message} {cur : List ChunkPayloadData}
    (h : Inv s done cur) : s.Atomic := by
  refine ⟨h.popped, done, cur, h.sent, h.done_mem, ?_⟩
  by_cases hcur : cur = []
  · exact Or.inl hcur
  · have hf := h.framed s.queue.unorderedIsSelected
    rw [if_pos rfl] at hf
    exact Or.inr (hf.cur_prefix h.not_ending hcur)

/-- **Message atomicity**: in every run in which no writer pushes while another one is
half-way through a message of the same kind, messages leave the queue whole and every pop
gives the chunk that was peeked. -/
theorem atomic_of_pushesAlone (es : List Event) (hes : Runs.Along step PushesAlone {} es) :
    (Runs.run step {} es).Atomic := by
  have hinv : ∃ done cur, Inv (Runs.run step {} es) done cur :=
    Runs.run_invariant_along (I := fun s => ∃ done cur, Inv s done cur)
      (fun s e he ⟨_, _, h⟩ => h.step he) ⟨[], [], inv_init⟩ hes
  obtain ⟨done, cur, h⟩ := hinv
  exact h.atomic

end PendingSystem

/-! ## Two writers that interleave -/

/-- A message of two ordered fragments. -/
def twoFragments (payload : Bytes) : Message where
  chunks :=
    [{ beginningFragment := true, userData := payload },
      { endingFragment := true, userData := payload }]
  unordered := false
  isMessage := by
    refine ⟨by simp, by simp, ?_, ?_⟩
    · intro i c hc
      match i with
      | 0 | 1 => simp at hc; simp [← hc]
      | i + 2 => simp at hc
    · intro i c hc
      match i with
      | 0 | 1 => simp at hc; simp [← hc]
      | i + 2 => simp at hc

/-- Two tasks write such a message each, one after the other, while the write loop pops. -/
def writesInTurn : List PendingSystem.Event :=
  [.start (twoFragments [1]), .start (twoFragments [2]), .push 0, .peek, .push 0, .pop, .push 1,
    .peek, .pop, .peek, .push 1, .pop]

theorem PendingSystem.atomic_writesInTurn :
    (Runs.run PendingSystem.step {} writesInTurn).Atomic :=
  PendingSystem.atomic_of_pushesAlone writesInTurn (by decide)

/-- Two tasks write such a message each, and push in turn; then the write loop pops until
the queue gives nothing more. -/
def interleavedWrites : List PendingSystem.Event :=
  [.start (twoFragments [1]), .start (twoFragments [2]), .push 0, .push 1, .push 0, .push 1,
    .peek, .pop, .peek, .pop, .peek, .pop, .peek, .pop]

/-- The second fragment of the second message is peeked but not popped: it stays at the
front of the queue for good. -/
theorem PendingSystem.not_atomic_interleavedWrites :
    ¬ (Runs.run PendingSystem.step {} interleavedWrites).Atomic := by
  intro h
  have hpop := h.1 ({ endingFragment := true, userData := [2] }, none) (by decide)
  cases hpop

end Sctp
