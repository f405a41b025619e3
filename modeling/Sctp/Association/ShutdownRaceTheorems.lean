import Sctp.Association.ShutdownRace
import Sctp.Association.InboundTheorems

/-!
# When a shutdown is forgotten

A SACK that was begun in the state Established does not start the shutdown exchange, whatever it
leaves in flight. The call of `shutdown` must not count on it.
-/

namespace Sctp

namespace AssociationInternal

variable {a a' : AssociationInternal}

/-! ## What handling a SACK leaves alone -/

/-- What the race is about. -/
def raced (a : AssociationInternal) : AssociationState × PayloadQueue := (a.state, a.inflightQueue)

theorem raced_of_quiet (h : Quiet a a') : a'.raced = a.raced := by
  unfold raced
  rw [show a'.state = a.state from (congrArg state h.frame :), h.inflightQueue]

theorem raced_applySack (a : AssociationInternal) (d : ChunkSelectiveAck) (b : BytesAcked) :
    (a.applySack d b).raced = a.raced := by
  have hstreams : IgnoresStreams raced := fun _ _ _ _ => rfl
  have hpoint : (if sna32lt a.cumulativeTsnAckPoint d.cumulativeTsnAck then
      { a with cumulativeTsnAckPoint := d.cumulativeTsnAck }.onCumulativeTsnAckPointAdvanced b.total
    else a).raced = a.raced := by
    split
    · have hquiet := onCumulativeTsnAckPointAdvanced_quiet
        { a with cumulativeTsnAckPoint := d.cumulativeTsnAck } b.total
      exact (raced_of_quiet hquiet).trans rfl
    · rfl
  exact (hstreams.releaseBuffers _ b.entries).trans hpoint

theorem state_close (a : AssociationInternal) : a.close.state = .closed := by
  have hstreams : IgnoresStreams state := fun _ _ _ _ => rfl
  unfold close
  split
  · exact hstreams.unregisterStreams _ _
  · rename_i hclosed
    exact not_not.mp hclosed

theorem inflightQueue_close (a : AssociationInternal) : a.close.inflightQueue = a.inflightQueue := by
  have hstreams : IgnoresStreams inflightQueue := fun _ _ _ _ => rfl
  unfold close
  split
  · exact hstreams.unregisterStreams _ _
  · rfl

end AssociationInternal

/-! ## Undisturbed runs -/

namespace ShutdownRace

/-- Undisturbed, the steps of the call are `shutdown`. -/
theorem run_shutdown (a : AssociationInternal) :
    Runs.run step { association := a } [.call, .call, .call, .call, .call] =
        { association := a.shutdown.1 } ∨
      Runs.run step { association := a } [.call, .call, .call] =
        { association := a.shutdown.1 } := by
  unfold AssociationInternal.shutdown
  by_cases hstate : a.state = .established
  · rw [if_neg (not_not.mpr hstate)]
    dsimp only
    -- nothing in flight: the SHUTDOWN is asked for at once; otherwise the SACKs see to it
    by_cases hlength : (a.setState .shutdownPending).inflightQueue.length = 0
    · left
      rw [if_pos hlength]
      have hnone : a.inflightQueue.length = 0 := hlength
      simp [Runs.run, step, callStep, hstate, hnone, AssociationInternal.setState]
    · right
      rw [if_neg hlength]
      have hsome : a.inflightQueue.length ≠ 0 := hlength
      simp [Runs.run, step, callStep, hstate, hsome, AssociationInternal.setState]
  · left
    rw [if_pos hstate]
    simp [Runs.run, step, callStep, hstate]

/-- What the handler leaves, once it has an answer. -/
def answered {α : Type} (r : AssociationInternal × Except Error α) (call : ShutdownCall) :
    ShutdownRace :=
  match r with
  | (a, .ok _) => { association := a, call }
  | (a, .error _) => { association := a.close, call }

theorem run_popping (state : AssociationState) (now : ℕ) (d : ChunkSelectiveAck)
    (call : ShutdownCall) (i : U32) (a : AssociationInternal) (b : AssociationInternal.BytesAcked) :
    ∃ k, Runs.run step { association := a, call, sack := .popping state now d i b }
        (List.replicate k .sack) =
      match AssociationInternal.popAcked now d.cumulativeTsnAck i a b with
      | (a', .ok b') => { association := a', call, sack := .popped state now d b' }
      | (a', .error _) => { association := a'.close, call } := by
  induction i, a, b using AssociationInternal.popAcked.induct now d.cumulativeTsnAck with
  | case1 i a b hlte q hpop =>
    refine ⟨1, ?_⟩
    -- the chunk is missing, and the association closes
    rw [AssociationInternal.popAcked, if_pos hlte, hpop]
    simp [Runs.run, step, sackStep, hlte, hpop, fail]
  | case2 i a b hlte q c hpop a₁ err hack =>
    refine ⟨1, ?_⟩
    rw [AssociationInternal.popAcked, if_pos hlte, hpop]
    simp [Runs.run, step, sackStep, hlte, hpop, hack, fail]
  | case3 i a b hlte q c hpop a₁ b₁ hack ih =>
    obtain ⟨k, hk⟩ := ih
    refine ⟨k + 1, ?_⟩
    rw [AssociationInternal.popAcked, if_pos hlte, hpop]
    dsimp only
    rw [hack, ← hk, List.replicate_succ, Runs.run_cons]
    -- one round, then those of the rest
    simp [step, sackStep, hlte, hpop, hack]
  | case4 i a b hlte =>
    refine ⟨1, ?_⟩
    rw [AssociationInternal.popAcked, if_neg hlte]
    simp [Runs.run, step, sackStep, hlte]

theorem run_popped (state : AssociationState) (now : ℕ) (d : ChunkSelectiveAck)
    (call : ShutdownCall) (a : AssociationInternal) (b : AssociationInternal.BytesAcked) :
    ∃ k, Runs.run step { association := a, call, sack := .popped state now d b }
        (List.replicate k .sack) =
      match AssociationInternal.ackGaps now a b d.cumulativeTsnAck
        (AssociationInternal.gapTsns d) with
      | (a', .error _) => { association := a'.close, call }
      | (a', .ok (b', htna)) =>
        match (a'.applySack d b').processFastRetransmission d.cumulativeTsnAck htna
          (sna32lt a'.cumulativeTsnAckPoint d.cumulativeTsnAck) with
        | (a', .error _) => { association := a'.close, call }
        | (a', .ok ()) => { association := a'.raiseAckPoint.postprocessSack state, call } := by
  rcases hgaps : AssociationInternal.ackGaps now a b d.cumulativeTsnAck
    (AssociationInternal.gapTsns d) with ⟨a', e | ⟨b', htna⟩⟩
  · refine ⟨1, ?_⟩
    simp [Runs.run, step, sackStep, hgaps, fail]
  · rcases hfast : (a'.applySack d b').processFastRetransmission d.cumulativeTsnAck htna
      (sna32lt a'.cumulativeTsnAckPoint d.cumulativeTsnAck) with ⟨a'', e | u⟩
    · refine ⟨1, ?_⟩
      simp [Runs.run, step, sackStep, hgaps, hfast, fail]
    · refine ⟨2, ?_⟩
      simp [Runs.run, step, sackStep, List.replicate, hgaps, hfast]

/-- Undisturbed, the steps of the handler are `handle_sack`. -/
theorem run_sack (a : AssociationInternal) (call : ShutdownCall) (now : ℕ)
    (d : ChunkSelectiveAck) :
    ∃ k, Runs.run step { association := a, call }
      (.sackArrives now d :: List.replicate k .sack) = answered (a.handleSack now d) call := by
  unfold AssociationInternal.handleSack
  dsimp only
  split
  · rename_i hstate
    refine ⟨0, ?_⟩
    simp [Runs.run, step, sackArrives, hstate, answered]
  · rename_i hstate
    split
    · rename_i hgt
      refine ⟨0, ?_⟩
      simp [Runs.run, step, sackArrives, hstate, hgt, answered]
    · rename_i hgt
      -- the rounds of popping come first, then the two steps of the rest
      have hstart : step { association := a, call } (.sackArrives now d) =
          { association := a, call,
            sack := .popping a.state now d (a.cumulativeTsnAckPoint + 1) ∅ } := by
        simp [step, sackArrives, hstate, hgt]
      obtain ⟨k, hk⟩ := run_popping a.state now d call (a.cumulativeTsnAckPoint + 1) a ∅
      have hframe := AssociationInternal.frame_popAcked now d.cumulativeTsnAck
        (a.cumulativeTsnAckPoint + 1) a ∅
      unfold AssociationInternal.processSelectiveAck
      generalize AssociationInternal.popAcked now d.cumulativeTsnAck
        (a.cumulativeTsnAckPoint + 1) a ∅ = r at hk hframe ⊢
      obtain ⟨a₁, e | b₁⟩ := r
      · refine ⟨k, ?_⟩
        rw [Runs.run_cons, hstart, hk]
        rfl
      · obtain ⟨m, hm⟩ := run_popped a.state now d call a₁ b₁
        have hgaps := (AssociationInternal.ackGaps_touched now a₁ b₁ d.cumulativeTsnAck
          (AssociationInternal.gapTsns d)).1
        refine ⟨k + m, ?_⟩
        rw [Runs.run_cons, hstart, List.replicate_add, Runs.run_append, hk]
        dsimp only
        rw [hm]
        generalize AssociationInternal.ackGaps now a₁ b₁ d.cumulativeTsnAck
          (AssociationInternal.gapTsns d) = r at hgaps ⊢
        obtain ⟨a₂, e | ⟨b₂, htna⟩⟩ := r
        · rfl
        · have hpoint : a₂.cumulativeTsnAckPoint = a.cumulativeTsnAckPoint :=
            (congrArg AssociationInternal.cumulativeTsnAckPoint (hgaps.trans hframe) :)
          dsimp only
          rw [hpoint]
          generalize (a₂.applySack d b₂).processFastRetransmission d.cumulativeTsnAck htna
            (sna32lt a.cumulativeTsnAckPoint d.cumulativeTsnAck) = r
          obtain ⟨a₃, e | u⟩ := r
          · rfl
          · rfl

end ShutdownRace

/-! ## The invariant -/

/-- The handler will leave something in flight, or it has read ShutdownPending. -/
def SackHandler.Leaves (n : ℕ) : SackHandler → Prop
  | .idle => n ≠ 0
  | .popping state _ d i _ => state = .shutdownPending ∨ roundsLeft i d.cumulativeTsnAck ≠ n
  | .popped state _ _ _ | .processed state => state = .shutdownPending ∨ n ≠ 0

namespace ShutdownRace

variable {s : ShutdownRace}

/-- In ShutdownPending, the call has yet to look what is in flight, or it is about to send the
SHUTDOWN, or the handlers of SACKs see to it. -/
structure Aware (s : ShutdownRace) : Prop where
  agrees : s.association.inflightQueue.LengthAgrees
  pending : s.association.state = .shutdownPending →
    s.call = .stored ∨ s.call = .drained ∨ s.call = .asked ∨
      SackHandler.Leaves s.association.inflightQueue.len s.sack

theorem Aware.remembered (h : s.Aware) : s.Remembered := by
  intro hcall hsack hstate
  unfold PayloadQueue.isEmpty
  rcases h.pending hstate with hc | hc | hc | hleaves
  · rw [hcall] at hc
    cases hc
  · rw [hcall] at hc
    cases hc
  · rw [hcall] at hc
    cases hc
  · cases hs : s.sack with
    | idle =>
      rw [hs] at hleaves
      exact decide_eq_false hleaves
    | _ =>
      rw [hs] at hsack
      cases hsack

theorem Aware.callStep (h : s.Aware) (hop : s.ReadsAware .call) : s.callStep.Aware := by
  unfold ShutdownRace.callStep
  dsimp only
  split
  · split
    · rename_i hstate
      refine ⟨h.agrees, fun hpending => ?_⟩
      rw [show s.association.state = .shutdownPending from hpending] at hstate
      cases hstate
    · exact h
  · exact ⟨h.agrees, fun _ => Or.inl rfl⟩
  · rename_i hcall
    split
    · exact ⟨h.agrees, fun _ => Or.inr (Or.inl rfl)⟩
    · rename_i hlength
      refine ⟨h.agrees, fun _ => Or.inr (Or.inr (Or.inr ?_))⟩
      -- `shutdown` has found chunks in flight, and the handler does not drain them unaware
      have hnone := hop hcall hlength
      have hlen : s.association.inflightQueue.len ≠ 0 := by
        rw [← h.agrees]
        exact hlength
      show SackHandler.Leaves s.association.inflightQueue.len s.sack
      unfold DrainsUnaware at hnone
      cases hs : s.sack with
      | idle => exact hlen
      | popping state now d i b =>
        rw [hs] at hnone
        exact Classical.or_iff_not_imp_left.mpr fun hstate hsame => hnone ⟨hstate, hsame⟩
      | popped state now d b => exact Or.inr hlen
      | processed state => exact Or.inr hlen
  · exact ⟨h.agrees, fun _ => Or.inr (Or.inr (Or.inl rfl))⟩
  · exact ⟨h.agrees, fun hpending => AssociationState.noConfusion hpending⟩

theorem Aware.sackArrives (h : s.Aware) (now : ℕ) (d : ChunkSelectiveAck) :
    (s.sackArrives now d).Aware := by
  unfold ShutdownRace.sackArrives
  dsimp only
  split
  · split
    · exact h
    · split
      · exact h
      · exact ⟨h.agrees, fun hpending => Or.inr (Or.inr (Or.inr (Or.inl hpending)))⟩
  · exact h

theorem Aware.fail {a : AssociationInternal} (h : a.inflightQueue.LengthAgrees) :
    (s.fail a).Aware := by
  unfold ShutdownRace.fail
  refine ⟨?_, fun hpending => ?_⟩
  · show a.close.inflightQueue.LengthAgrees
    rw [AssociationInternal.inflightQueue_close]
    exact h
  · have hclosed := AssociationInternal.state_close a
    rw [show a.close.state = .shutdownPending from hpending] at hclosed
    cases hclosed

/-- The handler goes on; what is in flight has been reduced as it was to be. -/
theorem Aware.goOn (h : s.Aware) {a : AssociationInternal} {sack : SackHandler}
    (hstate : a.state = s.association.state) (hagrees : a.inflightQueue.LengthAgrees)
    (hleaves : SackHandler.Leaves s.association.inflightQueue.len s.sack →
      SackHandler.Leaves a.inflightQueue.len sack) :
    { s with association := a, sack }.Aware := by
  refine ⟨hagrees, fun hpending => ?_⟩
  rcases h.pending (hstate.symm.trans hpending) with hcall | hcall | hcall | hsack
  · exact Or.inl hcall
  · exact Or.inr (Or.inl hcall)
  · exact Or.inr (Or.inr (Or.inl hcall))
  · exact Or.inr (Or.inr (Or.inr (hleaves hsack)))

/-- A round of popping takes one chunk out and leaves one round less. -/
theorem Aware.popping (h : s.Aware) {state : AssociationState} {now : ℕ} {d : ChunkSelectiveAck}
    {i : U32} {b : AssociationInternal.BytesAcked} (hs : s.sack = .popping state now d i b) :
    s.sackStep.Aware := by
  unfold ShutdownRace.sackStep
  rw [hs]
  dsimp only
  split
  · rename_i hlte
    split
    · rename_i q hpop
      exact Aware.fail (h.agrees.pop_none hpop)
    · rename_i q c hpop
      obtain ⟨hagrees, hlen⟩ := h.agrees.pop_some hpop
      have hack := AssociationInternal.raced_of_quiet
        (AssociationInternal.quiet_ackPopped { s.association with inflightQueue := q } now i c b)
      generalize { s.association with inflightQueue := q }.ackPopped now i c b = r at hack ⊢
      obtain ⟨a, e | b'⟩ := r
      · apply Aware.fail
        rw [show a.inflightQueue = q from congrArg Prod.snd hack]
        exact hagrees
      · have hexit := AssociationInternal.raced_of_quiet
          (AssociationInternal.quiet_exitFastRecovery a c)
        have hqueue : (a.exitFastRecovery c).inflightQueue = q :=
          congrArg Prod.snd (hexit.trans hack)
        apply h.goOn (congrArg Prod.fst (hexit.trans hack))
        · rw [hqueue]
          exact hagrees
        · -- the queue and the rounds that are left become shorter by one together
          rw [hs, hqueue]
          intro hleaves
          have hrounds := roundsLeft_succ hlte
          exact hleaves.imp_right fun hne => by omega
  · rename_i hlte
    apply h.goOn rfl h.agrees
    rw [hs]
    intro hleaves
    -- no round is left
    refine hleaves.imp_right fun hne hzero => hne ?_
    rw [hzero]
    exact if_neg hlte

/-- The rest of the handler takes nothing out. -/
theorem Aware.popped (h : s.Aware) {state : AssociationState} {now : ℕ} {d : ChunkSelectiveAck}
    {b : AssociationInternal.BytesAcked} (hs : s.sack = .popped state now d b) :
    s.sackStep.Aware := by
  unfold ShutdownRace.sackStep
  rw [hs]
  dsimp only
  have hgaps := AssociationInternal.ackGaps_touched now s.association b d.cumulativeTsnAck
    (AssociationInternal.gapTsns d)
  generalize AssociationInternal.ackGaps now s.association b d.cumulativeTsnAck
    (AssociationInternal.gapTsns d) = r at hgaps ⊢
  obtain ⟨a, e | ⟨b', htna⟩⟩ := r
  · exact Aware.fail (h.agrees.touched hgaps.2.1)
  · dsimp only
    have happly := AssociationInternal.raced_applySack a d b'
    have htouches := AssociationInternal.touches_processFastRetransmission (a.applySack d b')
      d.cumulativeTsnAck htna (sna32lt a.cumulativeTsnAckPoint d.cumulativeTsnAck)
    have htouched : s.association.inflightQueue.Touched (a.applySack d b').inflightQueue := by
      rw [show (a.applySack d b').inflightQueue = a.inflightQueue from congrArg Prod.snd happly]
      exact hgaps.2.1
    have hstate : (a.applySack d b').state = s.association.state :=
      (congrArg Prod.fst happly).trans (congrArg AssociationInternal.state hgaps.1 :)
    generalize (a.applySack d b').processFastRetransmission d.cumulativeTsnAck htna
      (sna32lt a.cumulativeTsnAckPoint d.cumulativeTsnAck) = r at htouches ⊢
    obtain ⟨a', e | u⟩ := r
    · exact Aware.fail (h.agrees.touched (htouched.trans htouches.touched))
    · have hraise := AssociationInternal.raced_of_quiet
        (AssociationInternal.quiet_raiseAckPoint a')
      have hall : s.association.inflightQueue.Touched a'.raiseAckPoint.inflightQueue := by
        rw [show a'.raiseAckPoint.inflightQueue = a'.inflightQueue from congrArg Prod.snd hraise]
        exact htouched.trans htouches.touched
      apply h.goOn
      · have hfast : a'.state = (a.applySack d b').state :=
          (congrArg AssociationInternal.state htouches.frame :)
        exact (congrArg Prod.fst hraise).trans (hfast.trans hstate)
      · exact h.agrees.touched hall
      · rw [hs, hall.len_eq]
        exact id

/-- Still in ShutdownPending, `postprocess_sack` has not read ShutdownPending. -/
theorem state_of_pending {a : AssociationInternal} {state : AssociationState}
    (hempty : a.inflightQueue.isEmpty = true)
    (hpending : (a.postprocessSack state).state = .shutdownPending) :
    state ≠ .shutdownPending ∧ a.state = .shutdownPending := by
  constructor
  · rintro rfl
    have hsent : (a.postprocessSack .shutdownPending).state = .shutdownSent := by
      unfold AssociationInternal.postprocessSack
      rw [hempty]
      rfl
    rw [hpending] at hsent
    cases hsent
  · by_contra hother
    have hkept : (a.postprocessSack state).state ≠ .shutdownPending := by
      unfold AssociationInternal.postprocessSack
      split_ifs
      · exact hother
      · exact fun hno => AssociationState.noConfusion hno
      · exact fun hno => AssociationState.noConfusion hno
      · exact hother
    exact hkept hpending

/-- The end of the handler, which sends the SHUTDOWN if it has read ShutdownPending. -/
theorem Aware.processed (h : s.Aware) {state : AssociationState} (hs : s.sack = .processed state) :
    s.sackStep.Aware := by
  unfold ShutdownRace.sackStep
  rw [hs]
  dsimp only
  by_cases hempty : s.association.inflightQueue.isEmpty = true
  · have hnone : s.association.inflightQueue.len = 0 := of_decide_eq_true hempty
    have hqueue := AssociationInternal.postprocessSack_inflightQueue s.association state
    refine ⟨?_, fun hpending => ?_⟩
    · show (s.association.postprocessSack state).inflightQueue.LengthAgrees
      rw [hqueue]
      exact h.agrees
    · obtain ⟨hread, hstate⟩ := state_of_pending hempty hpending
      -- the handler leaves nothing, so the call is still on its way
      rcases h.pending hstate with hcall | hcall | hcall | hleaves
      · exact Or.inl hcall
      · exact Or.inr (Or.inl hcall)
      · exact Or.inr (Or.inr (Or.inl hcall))
      · rw [hs] at hleaves
        rcases hleaves with heq | hne
        · exact absurd heq hread
        · exact absurd hnone hne
  · have hsome : s.association.inflightQueue.len ≠ 0 := fun h0 => hempty (decide_eq_true h0)
    unfold AssociationInternal.postprocessSack
    rw [if_pos (by simpa using hempty)]
    exact h.goOn rfl h.agrees fun _ => hsome

theorem Aware.sackStep (h : s.Aware) : s.sackStep.Aware := by
  cases hs : s.sack with
  | idle =>
    unfold ShutdownRace.sackStep
    rw [hs]
    exact h
  | popping state now d i b => exact h.popping hs
  | popped state now d b => exact h.popped hs
  | processed state => exact h.processed hs

theorem Aware.step (h : s.Aware) {op : ShutdownRaceOp} (hop : s.ReadsAware op) :
    (s.step op).Aware := by
  cases op with
  | call => exact h.callStep hop
  | sackArrives now d => exact h.sackArrives now d
  | sack => exact h.sackStep

/-- **A shutdown request is remembered** in every run in which `shutdown` reads aware. -/
theorem remembered_of_run {a : AssociationInternal} (hagrees : a.inflightQueue.LengthAgrees)
    (hstart : a.state = .shutdownPending → a.inflightQueue.isEmpty = false)
    {ops : List ShutdownRaceOp} (hops : Runs.Along step ReadsAware { association := a } ops) :
    (Runs.run step { association := a } ops).Remembered := by
  have haware : Aware { association := a } := by
    refine ⟨hagrees, fun hpending => Or.inr (Or.inr (Or.inr ?_))⟩
    have hsome := hstart hpending
    intro hzero
    unfold PayloadQueue.isEmpty at hsome
    rw [show a.inflightQueue.len = 0 from hzero] at hsome
    cases hsome
  exact (Runs.run_invariant_along (I := Aware) (fun _ _ hop h => h.step hop) haware hops).remembered

/-- One chunk is in flight. -/
def oneInFlight : AssociationInternal :=
  Runs.run AssociationInternal.senderStep AssociationInternal.justEstablished
    [.openStream 1 .binary, .write 0 [7] .binary, .gather 0]

/-- The SACK that acknowledges it. -/
def ackOne : ChunkSelectiveAck :=
  { cumulativeTsnAck := 0xffffffff
    advertisedReceiverWindowCredit := 4096
    gapAckBlocks := []
    duplicateTsn := [] }

/-- The call runs to its end before the SACK arrives. -/
theorem remembered_inTurn :
    (Runs.run step { association := oneInFlight }
      [.call, .call, .call, .sackArrives 1 ackOne, .sack, .sack, .sack, .sack]).Remembered :=
  remembered_of_run (by decide +kernel) (by decide +kernel) (by decide +kernel)

/-- The SACK arrives before the call, and its chunks are popped after it. -/
theorem not_remembered_straddled :
    ¬ (Runs.run step { association := oneInFlight }
      [.sackArrives 1 ackOne, .call, .call, .call, .sack, .sack, .sack, .sack]).Remembered := by
  decide +kernel

end ShutdownRace

end Sctp
