import Sctp.Queue.PendingQueueTheorems

/-!
# End-of-stream markers in the pending queue

A marker has no data and is ordered. It leaves the queue after everything that was pushed for
its stream before it, because an unordered chunk goes first.
-/

namespace Sctp

/-- Every chunk has data, or the message is a marker. -/
def Message.Proper (m : Message) : Prop :=
  (∀ c ∈ m.chunks, c.userData ≠ []) ∨ m.chunks.length = 1 ∧ m.unordered = false

/-- A chunk of a proper message that is not the first one has data. -/
theorem Message.Proper.data {m : Message} (hm : m.Proper) {k : ℕ} {c : ChunkPayloadData}
    (hk : 0 < k) (hc : m.chunks[k]? = some c) : c.userData ≠ [] := by
  rcases hm with hdata | ⟨hone, _⟩
  · exact hdata c (List.mem_of_getElem? hc)
  · have hlt := (List.getElem?_eq_some_iff.mp hc).1
    omega

namespace PendingQueue

variable {q q' : PendingQueue} {c : ChunkPayloadData} {u : Bool} {si : U16}

/-- Whole messages and markers have been pushed. -/
def Orderly (q : PendingQueue) : Prop :=
  ∃ current waiting, q.Holds current waiting ∧ (∀ m k, current = some (m, k) → m.Proper) ∧
    ∀ u, ∀ m ∈ waiting u, m.Proper

/-- The pop of `c` leaves `q'`; a marker is popped when no unordered chunk is left. -/
structure Pops (q q' : PendingQueue) (u : Bool) (c : ChunkPayloadData) : Prop where
  front : queueOf q u = c :: queueOf q' u
  other : queueOf q' (!u) = queueOf q (!u)
  marker : c.userData = [] → u = false ∧ queueOf q true = []

/-- The chunks that wait. -/
def chunkCount (q : PendingQueue) : ℕ := (queueOf q true).length + (queueOf q false).length

/-- A pop takes one chunk out. -/
theorem Pops.chunkCount (h : Pops q q' u c) : q'.chunkCount + 1 = q.chunkCount := by
  have hfront := congrArg List.length h.front
  have hother := congrArg List.length h.other
  rw [List.length_cons] at hfront
  unfold PendingQueue.chunkCount
  cases u with
  | true =>
    rw [Bool.not_true] at hother
    omega
  | false =>
    rw [Bool.not_false] at hother
    omega

/-- An empty queue. -/
theorem Orderly.new : Orderly {} :=
  ⟨none, fun _ => [], Holds.new, fun _ _ h => (by cases h), fun _ _ hm => absurd hm List.not_mem_nil⟩

/-- A message goes behind the others of its kind. -/
theorem Orderly.push (h : q.Orderly) {m : Message} (hm : m.Proper) :
    (m.chunks.foldl PendingQueue.push q).Orderly := by
  obtain ⟨current, waiting, hholds, hcurrent, hwaiting⟩ := h
  refine ⟨current, _, hholds.push m, hcurrent, ?_⟩
  intro u m' hm'
  by_cases hu : u = m.unordered
  · subst hu
    rw [Function.update_self, List.mem_append, List.mem_singleton] at hm'
    rcases hm' with hm' | rfl
    · exact hwaiting _ m' hm'
    · exact hm
  · rw [Function.update_of_ne hu] at hm'
    exact hwaiting u m' hm'

/-- **What is peeked at is popped**, and the queue stays orderly. -/
theorem Orderly.pop (h : q.Orderly) (hpeek : q.peek = some c) :
    ∃ u q', q.pop c.beginningFragment c.unordered = (q', some c) ∧ q'.Orderly ∧ Pops q q' u c := by
  obtain ⟨current, waiting, hholds, hcurrent, hwaiting⟩ := h
  obtain ⟨rest, hfront⟩ := hholds.front_of_peek hpeek
  obtain ⟨m, k, q', hget, hpop, hcases⟩ := hholds.pop hpeek
  have hbegin : q.selected = false → c.beginningFragment = true := by
    intro hsel
    rcases hcases with ⟨rfl, _⟩ | ⟨_, rfl, _⟩
    · rw [hholds.selected] at hsel
      cases hsel
    · exact (m.isMessage.beginning 0 c hget).mpr rfl
  obtain ⟨q'', hpop', hrest, hother, _, _⟩ := pop_eq hfront hbegin
  have hsame : q'' = q' := congrArg Prod.fst (hpop'.symm.trans hpop)
  subst hsame
  refine ⟨source q c, q'', hpop, ?_, ?_, hother, ?_⟩
  · -- what is left of the current message belongs to the same message
    have hafter : ∀ m' k', after m k = some (m', k') → m' = m := by
      intro m' k' hm'
      unfold after at hm'
      split at hm'
      · injection hm' with hm'
        exact (congrArg Prod.fst hm').symm
      · cases hm'
    rcases hcases with ⟨hsome, hleft⟩ | ⟨_, _, ms, hms, hleft⟩
    · refine ⟨_, _, hleft, ?_, hwaiting⟩
      intro m' k' hm'
      rw [hafter m' k' hm']
      exact hcurrent m k hsome
    · have hsub : ∀ m' ∈ ms, m' ∈ waiting m.unordered := by
        intro m' hm'
        rw [hms]
        exact List.mem_cons_of_mem _ hm'
      refine ⟨_, _, hleft, ?_, ?_⟩
      · intro m' k' hm'
        rw [hafter m' k' hm']
        exact hwaiting m.unordered m (by rw [hms]; exact List.mem_cons_self)
      · intro u m' hm'
        by_cases hu : u = m.unordered
        · subst hu
          rw [Function.update_self] at hm'
          exact hwaiting _ m' (hsub m' hm')
        · rw [Function.update_of_ne hu] at hm'
          exact hwaiting u m' hm'
  · rw [hfront, hrest]
  · intro hempty
    rcases hcases with ⟨hsome, _⟩ | ⟨hnone, rfl, ms, hms, _⟩
    · -- a message that has been begun consists of data
      exact absurd hempty ((hcurrent m k hsome).data (hholds.current m k hsome).1 hget)
    · -- the marker is peeked with nothing selected, so no unordered chunk is there
      have hm := hwaiting m.unordered m (by rw [hms]; exact List.mem_cons_self)
      have hkind : c.unordered = false := by
        rcases hm with hdata | ⟨_, hordered⟩
        · exact absurd hempty (hdata c (List.mem_of_getElem? hget))
        · rw [m.isMessage.kind c (List.mem_of_getElem? hget), hordered]
      have hsel : q.selected = false := by rw [hholds.selected, hnone]; rfl
      refine ⟨by rw [source, if_neg (by simp [hsel]), hkind], ?_⟩
      cases hq : queueOf q true with
      | nil => rfl
      | cons c' rest' =>
        have hhead : q.unorderedQueue.head? = some c' := by
          show (queueOf q true).head? = some c'
          rw [hq]
          rfl
        unfold peek at hpeek
        rw [hsel, if_neg (by simp), hhead] at hpeek
        have hcc : c' = c := Option.some.inj hpeek
        subst hnone
        -- otherwise the unordered chunk would have been peeked
        obtain ⟨m', _, _, hu', hget', _⟩ := hholds.front hq
        have hkind' := m'.isMessage.kind c' (List.mem_of_getElem? hget')
        rw [hu', hcc, hkind] at hkind'
        cases hkind'

/-! ## One stream in the queue -/

/-- A marker of stream `si` is pending. -/
def Marked (si : U16) (q : PendingQueue) : Prop :=
  ∃ c ∈ queueOf q false, c.streamIdentifier = si ∧ c.userData = []

/-- No chunk of stream `si` is pending. -/
def Drained (si : U16) (q : PendingQueue) : Prop :=
  ∀ u, ∀ c ∈ queueOf q u, c.streamIdentifier ≠ si

/-- Behind a marker of stream `si` there is no chunk of the stream. -/
def Sealed (si : U16) (q : PendingQueue) : Prop :=
  ∀ before marker behind, queueOf q false = before ++ marker :: behind →
    marker.streamIdentifier = si → marker.userData = [] →
      ∀ c ∈ behind, c.streamIdentifier ≠ si

/-- What is in a queue after a pop was in it before. -/
theorem Pops.mem (h : Pops q q' u c) {v : Bool} {c' : ChunkPayloadData}
    (hc' : c' ∈ queueOf q' v) : c' ∈ queueOf q v := by
  by_cases hv : v = u
  · subst hv
    rw [h.front]
    exact List.mem_cons_of_mem _ hc'
  · have hnot : v = !u := Bool.eq_not_of_ne hv
    subst hnot
    rw [h.other] at hc'
    exact hc'

/-- A stream with nothing left to send stays so. -/
theorem Drained.pop (h : q.Drained si) (hp : Pops q q' u c) : q'.Drained si :=
  fun v c' hc' => h v c' (hp.mem hc')

/-- A pop leaves nothing behind a marker. -/
theorem Sealed.pop (h : q.Sealed si) (hp : Pops q q' u c) : q'.Sealed si := by
  intro before marker behind hq
  cases u with
  | false =>
    refine h (c :: before) marker behind ?_
    rw [hp.front, hq]
    rfl
  | true =>
    refine h before marker behind ?_
    rw [← hq]
    exact hp.other.symm

/-- Once the marker is popped, nothing of the stream is left. -/
theorem Sealed.drained (h : q.Sealed si) (hp : Pops q q' u c) (hsi : c.streamIdentifier = si)
    (hempty : c.userData = []) : q'.Drained si := by
  obtain ⟨rfl, hnone⟩ := hp.marker hempty
  intro v c' hc'
  cases v with
  | true =>
    have hother : queueOf q' true = queueOf q true := hp.other
    rw [hother, hnone] at hc'
    exact absurd hc' List.not_mem_nil
  | false => exact h [] c _ hp.front hsi hempty c' hc'

/-- A marker that is there after a pop was there before. -/
theorem Marked.of_pop (hp : Pops q q' u c) (h : q'.Marked si) : q.Marked si := by
  obtain ⟨m, hm, hsi, hempty⟩ := h
  exact ⟨m, hp.mem hm, hsi, hempty⟩

/-! ### Pushing -/

/-- A push of data does not make a marker. -/
theorem Marked.of_push (hc : c.streamIdentifier = si → c.userData ≠ [])
    (h : (q.push c).Marked si) : q.Marked si := by
  obtain ⟨m, hm, hsi, hempty⟩ := h
  rcases mem_queueOf_push hm with hm | rfl
  · exact ⟨m, hm, hsi, hempty⟩
  · exact absurd hempty (hc hsi)

/-- A push behind a marker is harmless if it brings no chunk of the stream. -/
theorem Sealed.push (h : q.Sealed si) (hc : q.Marked si → c.streamIdentifier ≠ si) :
    (q.push c).Sealed si := by
  intro before marker behind hq hsi hempty
  have hpush := queueOf_push q c false
  split at hpush
  · rw [hpush] at hq
    rcases List.append_eq_append_iff.mp hq with ⟨between, rfl, htail⟩ | ⟨between, hbefore, htail⟩
    · -- the marker is the chunk that is pushed
      intro c' hc'
      have hlen := congrArg List.length htail
      simp only [List.length_append, List.length_cons, List.length_nil] at hlen
      have hnil : behind = [] := List.eq_nil_of_length_eq_zero (by omega)
      rw [hnil] at hc'
      exact absurd hc' List.not_mem_nil
    · cases between with
      | nil =>
        intro c' hc'
        rw [List.nil_append] at htail
        injection htail with _ hnil
        rw [hnil] at hc'
        exact absurd hc' List.not_mem_nil
      | cons m between =>
        injection htail with hm htail
        subst hm
        have hbehind : behind = between ++ [c] := htail
        intro c' hc'
        rw [hbehind, List.mem_append, List.mem_singleton] at hc'
        have hmarked : q.Marked si :=
          ⟨marker, by rw [hbefore]; exact List.mem_append_right _ List.mem_cons_self, hsi, hempty⟩
        rcases hc' with hc' | rfl
        · exact h before marker between hbefore hsi hempty c' hc'
        · exact hc hmarked
  · rw [hpush] at hq
    exact h before marker behind hq hsi hempty

end PendingQueue

end Sctp
