import Sctp.Association.ResetOnceTheorems

/-!
# Reading across a reset

A stream that has been reset is not read any more, whatever is left in its queue.
-/

namespace Sctp

namespace AssociationInternal

variable {a a' : AssociationInternal}

/-! ## Streams that are open -/

/-- A stream is open as long as it is registered, under one identifier. -/
structure StreamsOpen (a : AssociationInternal) : Prop where
  injective : ∀ si si' r, a.streams.lookup si = some r → a.streams.lookup si' = some r → si = si'
  isOpen : ∀ si r, a.streams.lookup si = some r →
    ∃ s, a.objects[r]? = some s ∧ s.readShutdown = false
  isShut : ∀ (r : StreamRef) s, a.objects[r]? = some s → ¬ a.Registered r → s.readShutdown = true

theorem StreamsOpen.new (hstreams : a.streams = ∅) (hobjects : a.objects = []) : a.StreamsOpen := by
  have hnone : ∀ si, a.streams.lookup si = none := by
    intro si
    rw [hstreams]
    exact AList.lookup_empty si
  refine ⟨?_, ?_, ?_⟩
  · intro si si' r hr
    rw [hnone] at hr
    cases hr
  · intro si r hr
    rw [hnone] at hr
    cases hr
  · intro r s hs
    rw [hobjects] at hs
    cases hs

/-- What is not registered in `a` is as it was, and not registered, in `b`. -/
def LeavesReset (a b : AssociationInternal) : Prop :=
  ∀ (r : StreamRef) s, a.objects[r]? = some s → ¬ a.Registered r →
    b.objects[r]? = some s ∧ ¬ b.Registered r

/-- A change to a registered object is none to the others. -/
theorem getElem?_modify_of_not_registered {l : List Stream} {si : U16} {r r' : StreamRef}
    (h : a.streams.lookup si = some r) (hr' : ¬ a.Registered r') (f : Stream → Stream) :
    (l.modify r f)[r']? = l[r']? := by
  rw [List.getElem?_modify_ne]
  intro hsame
  exact hr' ⟨si, hsame ▸ h⟩

theorem streamsOpen_unregister (h : a.StreamsOpen) (si : U16) :
    (a.unregisterStream si).StreamsOpen := by
  cases hlookup : a.streams.lookup si with
  | none =>
    rw [unregisterStream_of_none hlookup]
    exact h
  | some r =>
    have hbefore : ∀ {si' r'}, (a.unregisterStream si).streams.lookup si' = some r' →
        si' ≠ si ∧ a.streams.lookup si' = some r' := by
      intro si' r' hr'
      rw [lookup_unregisterStream] at hr'
      split at hr'
      · cases hr'
      · rename_i hne
        exact ⟨hne, hr'⟩
    have hobjects : (a.unregisterStream si).objects = a.objects.modify r fun s =>
        { s with readShutdown := true, writeShutdown := true } := by
      rw [unregisterStream_eq hlookup]
    refine ⟨?_, ?_, ?_⟩
    · intro si₁ si₂ r' h₁ h₂
      exact h.injective si₁ si₂ r' (hbefore h₁).2 (hbefore h₂).2
    · intro si' r' hr'
      obtain ⟨hne, hr'⟩ := hbefore hr'
      have hother : r ≠ r' := by
        intro hsame
        rw [hsame] at hlookup
        exact hne (h.injective si' si r' hr' hlookup)
      rw [hobjects, List.getElem?_modify_ne _ _ hother]
      exact h.isOpen si' r' hr'
    · intro r' s hs hgone
      rw [hobjects] at hs
      by_cases hsame : r = r'
      · subst hsame
        rw [List.getElem?_modify_eq] at hs
        obtain ⟨s₀, _, rfl⟩ := Option.map_eq_some_iff.mp hs
        rfl
      · rw [List.getElem?_modify_ne _ _ hsame] at hs
        apply h.isShut r' s hs
        rintro ⟨si', hr'⟩
        refine hgone ⟨si', ?_⟩
        rw [lookup_unregisterStream, if_neg]
        · exact hr'
        · intro heq
          rw [heq, hlookup, Option.some.injEq] at hr'
          exact hsame hr'

theorem streamsOpen_modify (h : a.StreamsOpen) (si : U16) {f : Stream → Stream}
    (hf : ∀ s, (f s).readShutdown = s.readShutdown) : (a.modifyStream si f).StreamsOpen := by
  cases hlookup : a.streams.lookup si with
  | none =>
    rw [modifyStream_of_none hlookup]
    exact h
  | some r =>
    rw [modifyStream_eq hlookup]
    refine ⟨h.injective, ?_, ?_⟩
    · intro si' r' hr'
      obtain ⟨s, hs, hopen⟩ := h.isOpen si' r' hr'
      show ∃ s, (a.objects.modify r f)[r']? = some s ∧ _
      rw [List.getElem?_modify, hs]
      refine ⟨_, rfl, ?_⟩
      split
      · exact (hf s).trans hopen
      · exact hopen
    · intro r' s hs hgone
      have hstay : (a.objects.modify r f)[r']? = a.objects[r']? :=
        getElem?_modify_of_not_registered hlookup hgone f
      exact h.isShut r' s (hstay.symm.trans hs) hgone

theorem lookup_register {si si' : U16} {r : StreamRef} {n : StreamRef}
    (h : (a.streams.insert si n).lookup si' = some r) :
    si' = si ∧ r = n ∨ si' ≠ si ∧ a.streams.lookup si' = some r := by
  by_cases hsame : si' = si
  · rw [hsame, AList.lookup_insert, Option.some.injEq] at h
    exact Or.inl ⟨hsame, h.symm⟩
  · rw [AList.lookup_insert_ne hsame] at h
    exact Or.inr ⟨hsame, h⟩

theorem StreamsOpen.lt_length (h : a.StreamsOpen) {si : U16} {r : StreamRef}
    (hr : a.streams.lookup si = some r) : r < a.objects.length := by
  obtain ⟨s, hs, _⟩ := h.isOpen si r hr
  exact (List.getElem?_eq_some_iff.mp hs).1

theorem streamsOpen_register (h : a.StreamsOpen) {si : U16} {s : Stream}
    (hnone : a.streams.lookup si = none) (hopen : s.readShutdown = false) :
    StreamsOpen
      { a with streams := a.streams.insert si a.objects.length, objects := a.objects ++ [s] } where
  injective si₁ si₂ r h₁ h₂ := by
    rcases lookup_register h₁ with ⟨hsi₁, hr₁⟩ | ⟨_, h₁⟩
    · rcases lookup_register h₂ with ⟨hsi₂, _⟩ | ⟨_, h₂⟩
      · exact hsi₁.trans hsi₂.symm
      · have hlt := h.lt_length h₂
        rw [hr₁] at hlt
        exact absurd hlt (lt_irrefl _)
    · rcases lookup_register h₂ with ⟨_, hr₂⟩ | ⟨_, h₂⟩
      · have hlt := h.lt_length h₁
        rw [hr₂] at hlt
        exact absurd hlt (lt_irrefl _)
      · exact h.injective si₁ si₂ r h₁ h₂
  isOpen si' r hr := by
    show ∃ s', (a.objects ++ [s])[r]? = some s' ∧ _
    rcases lookup_register hr with ⟨_, hnew⟩ | ⟨_, hold⟩
    · rw [hnew]
      exact ⟨s, List.getElem?_concat_length, hopen⟩
    · rw [List.getElem?_append_left (h.lt_length hold)]
      exact h.isOpen si' r hold
  isShut r s' hs hgone := by
    have hlt : r < a.objects.length := by
      by_contra hge
      have hin : r < (a.objects ++ [s]).length := (List.getElem?_eq_some_iff.mp hs).1
      rw [List.length_append, List.length_singleton] at hin
      have hlast : r = a.objects.length := Nat.le_antisymm (Nat.le_of_lt_succ hin) (Nat.le_of_not_lt hge)
      exact hgone ⟨si, hlast ▸ AList.lookup_insert _⟩
    have hs' : (a.objects ++ [s])[r]? = some s' := hs
    rw [List.getElem?_append_left hlt] at hs'
    apply h.isShut r s' hs'
    rintro ⟨si', hr⟩
    refine hgone ⟨si', ?_⟩
    refine (AList.lookup_insert_ne ?_).trans hr
    intro heq
    rw [heq, hnone] at hr
    cases hr

theorem ofStreams_streamsOpen : OfStreams StreamsOpen where
  congr htable h := by
    have hstreams := congrArg Prod.fst htable
    have hobjects := congrArg Prod.snd htable
    dsimp only [streamTable] at hstreams hobjects
    refine ⟨?_, ?_, ?_⟩
    · rw [hstreams]
      exact h.injective
    · rw [hstreams, hobjects]
      exact h.isOpen
    · unfold Registered
      rw [hstreams, hobjects]
      exact h.isShut
  unregister _ si h := streamsOpen_unregister h si
  modify _ si _ hf h := streamsOpen_modify h si hf
  register _ _ _ hnone hopen h := streamsOpen_register h hnone hopen

/-- What is not registered stays as it is, whatever happens to the streams. -/
theorem ofStreams_leavesReset (a : AssociationInternal) :
    OfStreams fun b => b.StreamsOpen ∧ LeavesReset a b where
  congr htable h := by
    refine ⟨ofStreams_streamsOpen.congr htable h.1, ?_⟩
    have hstreams := congrArg Prod.fst htable
    have hobjects := congrArg Prod.snd htable
    dsimp only [streamTable] at hstreams hobjects
    intro r s hs hgone
    unfold Registered
    rw [hstreams, hobjects]
    exact h.2 r s hs hgone
  unregister b si h := by
    refine ⟨streamsOpen_unregister h.1 si, ?_⟩
    intro r s hs hgone
    obtain ⟨hs', hgone'⟩ := h.2 r s hs hgone
    cases hlookup : b.streams.lookup si with
    | none =>
      rw [unregisterStream_of_none hlookup]
      exact ⟨hs', hgone'⟩
    | some r' =>
      refine ⟨?_, ?_⟩
      · rw [unregisterStream_eq hlookup]
        exact (getElem?_modify_of_not_registered hlookup hgone' _).trans hs'
      · rintro ⟨si', hr⟩
        rw [lookup_unregisterStream] at hr
        split at hr
        · cases hr
        · exact hgone' ⟨si', hr⟩
  modify b si f hf h := by
    refine ⟨streamsOpen_modify h.1 si hf, ?_⟩
    intro r s hs hgone
    obtain ⟨hs', hgone'⟩ := h.2 r s hs hgone
    cases hlookup : b.streams.lookup si with
    | none =>
      rw [modifyStream_of_none hlookup]
      exact ⟨hs', hgone'⟩
    | some r' =>
      rw [modifyStream_eq hlookup]
      exact ⟨(getElem?_modify_of_not_registered hlookup hgone' _).trans hs', hgone'⟩
  register b si s₀ hnone hopen h := by
    refine ⟨streamsOpen_register h.1 hnone hopen, ?_⟩
    intro r s hs hgone
    obtain ⟨hs', hgone'⟩ := h.2 r s hs hgone
    have hlt : r < b.objects.length := (List.getElem?_eq_some_iff.mp hs').1
    refine ⟨(List.getElem?_append_left hlt).trans hs', ?_⟩
    rintro ⟨si', hr⟩
    rcases lookup_register hr with ⟨_, hnew⟩ | ⟨_, hold⟩
    · rw [hnew] at hlt
      exact absurd hlt (lt_irrefl _)
    · exact hgone' ⟨si', hold⟩

/-- A read is one of a registered stream, or of one that is shut and stays as it is. -/
theorem readSctp_cases (h : a.StreamsOpen) (r : StreamRef) (n : ℕ) :
    (a.readSctp r n).1 = a ∨
      ∃ si, a.streams.lookup si = some r ∧
        (a.readSctp r n).1 = a.modifyStream si fun s => (s.readSctp n).1 := by
  unfold readSctp
  cases hs : a.objects[r]? with
  | none => exact Or.inl rfl
  | some s =>
    dsimp only
    by_cases hregistered : a.Registered r
    · obtain ⟨si, hsi⟩ := hregistered
      right
      refine ⟨si, hsi, ?_⟩
      have hset : a.objects.set r (s.readSctp n).1 =
          a.objects.modify r fun s => (s.readSctp n).1 := by
        apply List.ext_getElem?
        intro i
        rw [List.getElem?_modify, List.getElem?_set]
        by_cases hi : r = i
        · subst hi
          rw [if_pos rfl, hs]
          simp [(List.getElem?_eq_some_iff.mp hs).1]
        · rw [if_neg hi]
          simp [hi]
      rw [modifyStream_eq hsi, hset]
    · left
      have hshut := h.isShut r s hs hregistered
      have hstay : (s.readSctp n).1 = s := by
        unfold Stream.readSctp
        rw [if_pos hshut]
      have hset : a.objects.set r s = a.objects := by
        apply List.ext_getElem?
        intro i
        rw [List.getElem?_set]
        by_cases hi : r = i
        · subst hi
          rw [if_pos rfl, if_pos (List.getElem?_eq_some_iff.mp hs).1, hs]
        · rw [if_neg hi]
      rw [hstay, hset]

theorem OfStreams.readSctp {I : AssociationInternal → Prop} (hI : OfStreams I)
    (hopen : ∀ a, I a → a.StreamsOpen) (r : StreamRef) (n : ℕ) (h : I a) :
    I (a.readSctp r n).1 := by
  rcases readSctp_cases (hopen a h) r n with heq | ⟨si, _, heq⟩
  · rw [heq]
    exact h
  · rw [heq]
    apply hI.modify _ _ _ _ h
    intro s
    unfold Stream.readSctp
    split
    · rfl
    · split <;> rfl

theorem StreamsOpen.readsUntilReset (h : a.StreamsOpen) (op : StreamOp) : a.ReadsUntilReset op := by
  unfold ReadsUntilReset
  split
  · rename_i r n
    intro s hs
    have hanswer : (a.readSctp r n).2 = (s.readSctp n).2 := by
      unfold readSctp
      rw [hs]
    rw [hanswer]
    constructor
    · rintro ⟨si, hsi⟩
      obtain ⟨s', hs', hopen⟩ := h.isOpen si r hsi
      rw [hs, Option.some.injEq] at hs'
      subst hs'
      unfold Stream.readSctp answerOfQueue
      rw [if_neg (by rw [hopen]; exact Bool.false_ne_true)]
      rcases s.reassemblyQueue.read n with ⟨q, e | message⟩
      · cases e <;> rfl
      · rfl
    · intro hgone
      unfold Stream.readSctp
      rw [if_pos (h.isShut r s hs hgone)]
  · trivial

theorem StreamsOpen.streamStep (h : a.StreamsOpen) (op : StreamOp) :
    (a.streamStep op).StreamsOpen :=
  ofStreams_streamsOpen.streamStep
    (fun _ r n ha => ofStreams_streamsOpen.readSctp (fun _ hb => hb) r n ha) op h

theorem StreamsOpen.leavesUnread (h : a.StreamsOpen) (op : StreamOp) : a.LeavesUnread op := by
  have hstep := (ofStreams_leavesReset a).streamStep
    (fun _ r n hb => (ofStreams_leavesReset a).readSctp (fun _ hb => hb.1) r n hb) op
    ⟨h, fun _ _ hs hgone => ⟨hs, hgone⟩⟩
  exact hstep.2

/-- A reset shuts its streams, and leaves what is queued for reading. -/
theorem reassemblyQueue_resetStreamsIfAny (p : ParamOutgoingResetRequest) (r : StreamRef) :
    (a.resetStreamsIfAny p).1.objects[r]?.map (·.reassemblyQueue) =
      a.objects[r]?.map (·.reassemblyQueue) :=
  (shedding_reassemblyQueue a r).resetStreamsIfAny p rfl

/-- In every run of an association with no stream yet: a stream is read from its reassembly
queue until it is reset; a reset leaves that queue, but every read after it reports the end of
the stream, and the queue stays as it is. -/
theorem readsUntilReset_of_run (a : AssociationInternal) (hstreams : a.streams = ∅)
    (hobjects : a.objects = []) (ops : List StreamOp) :
    Runs.Along streamStep ReadsUntilReset a ops ∧ Runs.Along streamStep LeavesUnread a ops ∧
      ∀ (p : ParamOutgoingResetRequest) (r : StreamRef),
        ((Runs.run streamStep a ops).resetStreamsIfAny p).1.objects[r]?.map (·.reassemblyQueue) =
          (Runs.run streamStep a ops).objects[r]?.map (·.reassemblyQueue) := by
  have hstart : a.StreamsOpen := StreamsOpen.new hstreams hobjects
  have hstep : ∀ (s : AssociationInternal) op, True → s.StreamsOpen → (s.streamStep op).StreamsOpen :=
    fun s op _ hs => hs.streamStep op
  refine ⟨?_, ?_, fun p r => reassemblyQueue_resetStreamsIfAny p r⟩
  · exact Runs.along_of_invariant (P := fun _ _ => True) hstep
      (fun s op _ hs => hs.readsUntilReset op) hstart (Runs.along_true a ops)
  · exact Runs.along_of_invariant (P := fun _ _ => True) hstep
      (fun s op _ hs => hs.leavesUnread op) hstart (Runs.along_true a ops)

/-- The first message of stream 3. -/
def firstOfThree : StreamOp :=
  .receive (.data
    { tsn := 1, streamIdentifier := 3, beginningFragment := true, endingFragment := true
      userData := [1] })

/-- A message is read, and then the stream is reset and read again. -/
theorem readsUntilReset_readFirst :
    let ops := [firstOfThree, .readSctp 0 100, resetArrives, .readSctp 0 100]
    Runs.Along streamStep ReadsUntilReset justEstablished ops ∧
      Runs.Along streamStep LeavesUnread justEstablished ops :=
  have h := readsUntilReset_of_run justEstablished rfl rfl
    [firstOfThree, .readSctp 0 100, resetArrives, .readSctp 0 100]
  ⟨h.1, h.2.1⟩

/-- The stream is reset before its message is read. -/
theorem not_readAfterReset :
    ¬ ∀ (a : AssociationInternal), a.streams = ∅ → a.objects = [] →
      ∀ (ops : List StreamOp) (c : ChunkReconfig) (r : StreamRef) (n : ℕ) (s : Stream),
        (Runs.run streamStep a ops).objects[r]? = some s →
          (Runs.run streamStep a ops).Registered r → s.reassemblyQueue.isReadable = true →
            (((Runs.run streamStep a ops).streamStep (.receive (.reconfig c))).readSctp r n).2 =
              answerOfQueue s n := by
  intro h
  let b := Runs.run streamStep justEstablished [firstOfThree]
  have hrun := h justEstablished rfl rfl [firstOfThree]
    { paramA := some (.outgoingResetRequest resetThree) } 0 100 _
    (List.getElem?_eq_getElem (by decide +kernel : 0 < b.objects.length))
    ⟨3, by decide +kernel⟩ (by decide +kernel)
  exact absurd hrun (by decide +kernel)

end AssociationInternal

end Sctp
