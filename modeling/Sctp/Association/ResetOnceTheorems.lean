import Sctp.Association.StreamTableTheorems
import Sctp.Association.Sender

/-!
# Requests that arrive again

Nothing remembers that a request has been performed, so a copy of it is performed again.
-/

namespace Sctp

namespace AssociationInternal

variable {a a' : AssociationInternal}

/-! ## Until a request is performed -/

/-- None of the streams the request names is registered. -/
def NoneRegistered (p : ParamOutgoingResetRequest) (a : AssociationInternal) : Prop :=
  ∀ si ∈ p.streamIdentifiers, a.streams.lookup si = none

theorem shedding_noneRegistered (p : ParamOutgoingResetRequest) : Shedding (NoneRegistered p) where
  congr htable h si hsi := by
    have hstreams := congrArg Prod.fst htable
    dsimp only [streamTable] at hstreams
    rw [hstreams]
    exact h si hsi
  unregister a si h si' hsi' := by
    rw [lookup_unregisterStream, h si' hsi', ite_self]

theorem noneRegistered_of_due {p : ParamOutgoingResetRequest}
    (h : sna32lte p.senderLastTsn a.peerLastTsn = true) :
    NoneRegistered p (a.resetStreamsIfAny p).1 := by
  rw [resetStreamsIfAny_of_due h]
  intro si hsi
  show (p.streamIdentifiers.foldl unregisterStream a).streams.lookup si = none
  rw [lookup_unregisterStreams, if_pos hsi]

/-- A request that is kept stays so until its streams are unregistered. -/
def KeptUntilPerformed (p : ParamOutgoingResetRequest) (a : AssociationInternal) : Prop :=
  a.KeptByNumber ∧ (a.Keeps p ∨ NoneRegistered p a)

theorem keptUntilPerformed_recheck {p : ParamOutgoingResetRequest} (h : KeptUntilPerformed p a) :
    KeptUntilPerformed p a.recheckReconfigRequests.1 := by
  refine ⟨h.1.recheck, ?_⟩
  rcases h.2 with hkeeps | hnone
  · by_cases hdue : sna32lte p.senderLastTsn a.peerLastTsn = true
    · right
      have hround : ∀ (l : List ParamOutgoingResetRequest) (s : AssociationInternal × List Packet),
          sna32lte p.senderLastTsn s.1.peerLastTsn = true → NoneRegistered p s.1 ∨ p ∈ l →
            NoneRegistered p (l.foldl (fun (s : AssociationInternal × List Packet) rstReq =>
              ((s.1.resetStreamsIfAny rstReq).1, s.2 ++ [(s.1.resetStreamsIfAny rstReq).2])) s).1 := by
        intro l
        induction l with
        | nil =>
          rintro s _ (hnone | hmem)
          · exact hnone
          · exact absurd hmem List.not_mem_nil
        | cons q l ih =>
          intro s hs hnone
          rw [List.foldl_cons]
          apply ih
          · dsimp only
            rw [peerLastTsn_resetStreamsIfAny]
            exact hs
          · rcases hnone with hnone | hmem
            · exact Or.inl ((shedding_noneRegistered p).resetStreamsIfAny q hnone)
            · rcases List.mem_cons.mp hmem with rfl | hmem
              · exact Or.inl (noneRegistered_of_due hs)
              · exact Or.inr hmem
      exact hround a.reconfigRequests.values (a, []) hdue
        (Or.inr (AssocMap.mem_values_of_lookup hkeeps))
    · exact Or.inl ((reconfigRequests_recheck h.1 _ p).mpr ⟨hkeeps, by simpa using hdue⟩)
  · exact Or.inr ((shedding_noneRegistered p).recheck hnone)

theorem lasting_keptUntilPerformed (p : ParamOutgoingResetRequest) :
    Lasting (KeptUntilPerformed p) where
  congr htable hrequests h := by
    refine ⟨h.1.congr hrequests, ?_⟩
    rcases h.2 with hkeeps | hnone
    · left
      unfold Keeps
      rw [hrequests]
      exact hkeeps
    · exact Or.inr ((shedding_noneRegistered p).congr htable hnone)
  modify a si f _ h := by
    refine ⟨h.1.congr (reconfigRequests_ignoresStreams.modifyStream a si f), ?_⟩
    rcases h.2 with hkeeps | hnone
    · left
      unfold Keeps
      rw [reconfigRequests_ignoresStreams.modifyStream]
      exact hkeeps
    · right
      intro si' hsi'
      rw [streams_modifyStream]
      exact hnone si' hsi'
  recheck _ h := keptUntilPerformed_recheck h

/-- A request that comes again, or another one, keeps it until its streams are unregistered. -/
theorem KeptUntilPerformed.handleReconfigParam {p : ParamOutgoingResetRequest}
    (h : KeptUntilPerformed p a) {raw : Param}
    (hone : ∀ q, raw = .outgoingResetRequest q →
      q.reconfigRequestSequenceNumber = p.reconfigRequestSequenceNumber → q = p) :
    KeptUntilPerformed p (a.handleReconfigParam raw).1 := by
  refine ⟨h.1.handleReconfigParam raw, ?_⟩
  rcases h.2 with hkeeps | hnone
  · by_cases hrequest : ∃ q, raw = .outgoingResetRequest q
    · obtain ⟨q, rfl⟩ := hrequest
      by_cases hnumber : q.reconfigRequestSequenceNumber = p.reconfigRequestSequenceNumber
      · have hsame := hone q rfl hnumber
        subst hsame
        rcases handleReconfigParam_request a q with ⟨hdue, heq⟩ | ⟨hnot, heq⟩
        · right
          rw [heq]
          intro si hsi
          show (q.streamIdentifiers.foldl unregisterStream a).streams.lookup si = none
          rw [lookup_unregisterStreams, if_pos hsi]
        · left
          rw [heq]
          exact AList.lookup_insert _
      · left
        rcases handleReconfigParam_request a q with ⟨_, heq⟩ | ⟨_, heq⟩
        · rw [heq]
          exact (AList.lookup_erase_ne fun h => hnumber h.symm).trans hkeeps
        · rw [heq]
          exact (AList.lookup_insert_ne fun h => hnumber h.symm).trans hkeeps
    · left
      unfold Keeps
      rw [(handleReconfigParam_other (not_exists.mp hrequest)).1]
      exact hkeeps
  · exact Or.inr ((shedding_noneRegistered p).handleReconfigParam raw hnone)

/-- The operation that performs a request leaves none of its streams registered. -/
theorem noneRegistered_of_performs {p : ParamOutgoingResetRequest} {op : StreamOp}
    (h : a.KeptByNumber) (hone : NumbersOne p op) (hperforms : a.Performs p op) :
    NoneRegistered p (a.streamStep op) := by
  rcases hperforms with ⟨c, rfl, e, he, hrequest, hdue⟩ | ⟨hkeeps, hgone⟩
  · apply (shedding_noneRegistered p).handleReconfig he
    rw [hrequest]
    rcases handleReconfigParam_request e.1 p with ⟨_, heq⟩ | ⟨hnot, _⟩
    · rw [heq]
      intro si hsi
      show (p.streamIdentifiers.foldl unregisterStream e.1).streams.lookup si = none
      rw [lookup_unregisterStreams, if_pos hsi]
    · rw [hdue] at hnot
      cases hnot
  · have hstart : KeptUntilPerformed p a := ⟨h, Or.inl hkeeps⟩
    have hkept : ∀ b : AssociationInternal, b.reconfigRequests = a.reconfigRequests →
        KeptUntilPerformed p b := by
      intro b hb
      refine ⟨h.congr hb, Or.inl ?_⟩
      unfold Keeps
      rw [hb]
      exact hkeeps
    have hend : KeptUntilPerformed p (a.streamStep op) := by
      cases op with
      | receive op =>
        cases op with
        | data d =>
          obtain ⟨b, hb, heq | heq⟩ := handleData_takesIn a d
          · show KeptUntilPerformed p (a.handleData d).1
            rw [heq]
            exact hkept b hb.reconfigRequests
          · show KeptUntilPerformed p (a.handleData d).1
            rw [heq]
            exact (lasting_keptUntilPerformed p).acknowledgement _ (hkept b hb.reconfigRequests)
        | forwardTsn c => exact (lasting_keptUntilPerformed p).handleForwardTsn c hstart
        | reconfig c =>
          apply handleReconfig_invariant _ hstart
          intro b raw hraw hb
          apply hb.handleReconfigParam
          intro q hq
          subst hq
          exact hone q hraw
        | accept => exact hkept _ (reconfigRequests_ignoresStreams.acceptStream a)
        | read si n => exact hkept _ (reconfigRequests_ignoresStreams.modifyStream a si _)
      | openStream si ppi => exact hkept _ (reconfigRequests_openStream a si ppi)
      | readSctp r n => exact hkept _ (reconfigRequests_readSctp a r n)
    exact hend.2.resolve_left hgone

/-! ## After a request has been performed -/

/-- The streams the request names are objects from number `since` on. -/
def NewOnly (p : ParamOutgoingResetRequest) (since : ℕ) (a : AssociationInternal) : Prop :=
  since ≤ a.objects.length ∧
    ∀ si ∈ p.streamIdentifiers, ∀ r, a.streams.lookup si = some r → since ≤ r

theorem ofStreams_newOnly (p : ParamOutgoingResetRequest) (since : ℕ) :
    OfStreams (NewOnly p since) where
  congr htable h := by
    have hstreams := congrArg Prod.fst htable
    have hobjects := congrArg Prod.snd htable
    dsimp only [streamTable] at hstreams hobjects
    unfold NewOnly
    rw [hstreams, hobjects]
    exact h
  unregister a si h := by
    refine ⟨by rw [length_objects_unregisterStream]; exact h.1, ?_⟩
    intro si' hsi' r hr
    rw [lookup_unregisterStream] at hr
    split at hr
    · cases hr
    · exact h.2 si' hsi' r hr
  modify a si f _ h := by
    refine ⟨by rw [length_objects_modifyStream]; exact h.1, ?_⟩
    rw [streams_modifyStream]
    exact h.2
  register a si s _ _ h := by
    refine ⟨?_, ?_⟩
    · show since ≤ (a.objects ++ [s]).length
      rw [List.length_append]
      exact le_trans h.1 (Nat.le_add_right _ _)
    · intro si' hsi' r hr
      by_cases hsame : si' = si
      · rw [hsame, show AList.lookup si (a.streams.insert si a.objects.length) = _ from
          AList.lookup_insert _, Option.some.injEq] at hr
        rw [← hr]
        exact h.1
      · rw [show AList.lookup si' (a.streams.insert si a.objects.length) = _ from
          AList.lookup_insert_ne hsame] at hr
        exact h.2 si' hsi' r hr

theorem NewOnly.readSctp {p : ParamOutgoingResetRequest} {since : ℕ} (h : NewOnly p since a)
    (r : StreamRef) (n : ℕ) : NewOnly p since (a.readSctp r n).1 := by
  unfold AssociationInternal.readSctp
  split
  · exact h
  · refine ⟨?_, h.2⟩
    show since ≤ (a.objects.set r _).length
    rw [List.length_set]
    exact h.1

/-- When only new streams are registered, sparing them is finding none. -/
theorem NewOnly.sparesNewStreams_iff {p : ParamOutgoingResetRequest} {since : ℕ}
    (h : NewOnly p since a) (op : StreamOp) :
    SparesNewStreams p since a op ↔ FindsNoStream p a op := by
  unfold SparesNewStreams FindsNoStream
  split
  · rename_i c
    constructor
    · intro hspares e he hrequest hdue si hsi
      have hnew := (ofStreams_newOnly p since).handled he h
      cases hlookup : e.1.streams.lookup si with
      | none => rfl
      | some r =>
        have hstays := hspares e he hrequest si r hlookup (hnew.2 si hsi r hlookup)
        rw [hrequest] at hstays
        rcases handleReconfigParam_request e.1 p with ⟨_, heq⟩ | ⟨hnot, _⟩
        · rw [heq, show AList.lookup si (p.streamIdentifiers.foldl unregisterStream e.1).streams = _
            from lookup_unregisterStreams _ _ _, if_pos hsi] at hstays
          cases hstays
        · rw [hdue] at hnot
          cases hnot
    · intro hnone e he hrequest si r hlookup _
      rw [hrequest]
      rcases handleReconfigParam_request e.1 p with ⟨hdue, heq⟩ | ⟨_, heq⟩
      · have hunlisted : si ∉ p.streamIdentifiers := by
          intro hsi
          rw [hnone e he hrequest hdue si hsi] at hlookup
          cases hlookup
        rw [heq, show AList.lookup si (p.streamIdentifiers.foldl unregisterStream e.1).streams = _
          from lookup_unregisterStreams _ _ _, if_neg hunlisted]
        exact hlookup
      · rw [heq]
        exact hlookup
  · exact Iff.rfl

/-- After a request has been performed, copies of it that come later spare the streams created
since exactly if each finds none of the streams it names registered. -/
theorem sparesNewStreams_iff_findsNoStream (p : ParamOutgoingResetRequest)
    (a : AssociationInternal) (h : a.reconfigRequests = ∅) (ops ops' : List StreamOp) (op : StreamOp)
    (hone : ∀ op' ∈ ops ++ op :: ops', NumbersOne p op')
    (hperforms : (Runs.run streamStep a ops).Performs p op) :
    Runs.Along streamStep (SparesNewStreams p (Runs.run streamStep a (ops ++ [op])).objects.length)
        (Runs.run streamStep a (ops ++ [op])) ops' ↔
      Runs.Along streamStep (FindsNoStream p) (Runs.run streamStep a (ops ++ [op])) ops' := by
  have hstart : a.KeptByNumber := by
    intro k q hq
    rw [h, AList.lookup_empty] at hq
    cases hq
  have hkept : (Runs.run streamStep a ops).KeptByNumber :=
    Runs.run_invariant (I := KeptByNumber) (fun _ op ha => ha.streamStep op) hstart ops
  have hgone := noneRegistered_of_performs hkept (hone op (by simp)) hperforms
  rw [Runs.run_append]
  generalize (Runs.run streamStep a ops) = b at hgone hperforms
  show Runs.Along streamStep (SparesNewStreams p (b.streamStep op).objects.length)
      (b.streamStep op) ops' ↔ Runs.Along streamStep (FindsNoStream p) (b.streamStep op) ops'
  generalize b.streamStep op = b' at hgone
  have hnew : NewOnly p b'.objects.length b' := by
    refine ⟨le_refl _, fun si hsi r hr => ?_⟩
    rw [hgone si hsi] at hr
    cases hr
  exact Runs.along_iff_of_invariant (R := fun _ _ => True) (I := NewOnly p b'.objects.length)
    (fun s op' _ _ hs => (ofStreams_newOnly p _).streamStep (fun _ r n ha => ha.readSctp r n) op' hs)
    (fun _ op' _ hs => hs.sparesNewStreams_iff op') hnew (Runs.along_true _ ops')

/-- The request to reset stream 3. -/
def resetThree : ParamOutgoingResetRequest :=
  { reconfigRequestSequenceNumber := 7, senderLastTsn := 0, streamIdentifiers := [3] }

/-- The request arrives. -/
def resetArrives : StreamOp := .receive (.reconfig { paramA := some (.outgoingResetRequest resetThree) })

theorem numbersOne_resetThree {ops : List StreamOp}
    (h : ∀ op ∈ ops, op = resetArrives ∨ op = .openStream 3 .binary) :
    ∀ op ∈ ops, NumbersOne resetThree op := by
  intro op hop
  rcases h op hop with rfl | rfl
  · intro q hq _
    rcases hq with hq | hq
    · cases hq
      rfl
    · cases hq
  · trivial

theorem performs_resetThree :
    (Runs.run streamStep justEstablished [.openStream 3 .binary]).Performs resetThree resetArrives :=
  Or.inl ⟨_, rfl, _, List.mem_cons_self, rfl, by decide +kernel⟩

/-- A copy that comes before the stream is opened again. -/
theorem sparesNewStreams_beforeReopening :
    Runs.Along streamStep (SparesNewStreams resetThree 1)
      (Runs.run streamStep justEstablished [.openStream 3 .binary, resetArrives])
      [resetArrives, .openStream 3 .binary] := by
  apply (sparesNewStreams_iff_findsNoStream resetThree justEstablished rfl [.openStream 3 .binary]
    [resetArrives, .openStream 3 .binary] resetArrives
    (numbersOne_resetThree (by simp)) performs_resetThree).mpr
  refine ⟨?_, trivial, trivial⟩
  intro e he _ _ si hsi
  rw [List.mem_singleton.mp hsi]
  rcases mem_handledParams he with ⟨hsame, _⟩ | ⟨_, _, hnone⟩
  · rw [hsame]
    decide +kernel
  · cases hnone

/-- A copy that comes after the stream has been opened again. -/
theorem not_sparesNewStreams_afterReopening :
    ¬ ∀ (p : ParamOutgoingResetRequest) (a : AssociationInternal), a.reconfigRequests = ∅ →
      ∀ (ops ops' : List StreamOp) (op : StreamOp), (∀ op' ∈ ops ++ op :: ops', NumbersOne p op') →
        (Runs.run streamStep a ops).Performs p op →
          Runs.Along streamStep
            (SparesNewStreams p (Runs.run streamStep a (ops ++ [op])).objects.length)
            (Runs.run streamStep a (ops ++ [op])) ops' := by
  intro h
  have hrun := h resetThree justEstablished rfl [.openStream 3 .binary]
    [.openStream 3 .binary, resetArrives] resetArrives
    (numbersOne_resetThree (by simp)) performs_resetThree
  have hlast := hrun.2.1 _ List.mem_cons_self rfl 3 1 (by decide +kernel) (by decide +kernel)
  exact absurd hlast (by decide +kernel)

end AssociationInternal

end Sctp
