import Sctp.Association.SenderCallTheorems
import Sctp.Association.ReleaseTheorems

/-!
# Fast recovery can be left

Fast recovery ends when the chunk of its exit point is popped, and only then. The exit point
is a TSN that a gap block of the SACK acknowledges, so it is in flight, and the SACK that moves
the ack point over it pops it.
-/

namespace Sctp

namespace AssociationInternal

variable {a a' : AssociationInternal} {now : ℕ}

/-! ## The state of fast recovery -/

/-- Whether the association is in fast recovery, and where that ends. -/
def recovery (a : AssociationInternal) : Bool × U32 := (a.inFastRecovery, a.fastRecoverExitPoint)

/-- In fast recovery the exit point is outstanding: in flight, behind the ack point and before
the next TSN. -/
def ExitOutstanding (a : AssociationInternal) : Prop :=
  a.inFastRecovery = true →
    a.fastRecoverExitPoint ∈ a.inflightQueue.chunkMap ∧
      sna32lt a.cumulativeTsnAckPoint a.fastRecoverExitPoint = true ∧
      sna32lt a.fastRecoverExitPoint a.myNextTsn = true

/-- The SACK is looked at, and moves the ack point to the exit point or past it. -/
def ReachesExit (a : AssociationInternal) (d : ChunkSelectiveAck) : Prop :=
  a.readsSack d = true ∧
    Serial.dist a.cumulativeTsnAckPoint a.fastRecoverExitPoint ≤
      Serial.dist a.cumulativeTsnAckPoint d.cumulativeTsnAck

instance (a : AssociationInternal) (d : ChunkSelectiveAck) : Decidable (a.ReachesExit d) :=
  inferInstanceAs (Decidable (_ ∧ _))

/-- The exit point is in flight while it is needed. -/
def ExitInFlight (a : AssociationInternal) : Prop :=
  a.inFastRecovery = true → a.fastRecoverExitPoint ∈ a.inflightQueue.chunkMap

theorem ExitInFlight.congr (h : a.ExitInFlight) (hrecovery : a'.recovery = a.recovery)
    (hmem : ∀ t, t ∈ a.inflightQueue.chunkMap → t ∈ a'.inflightQueue.chunkMap) :
    a'.ExitInFlight := by
  intro hin
  have hpoint : a'.fastRecoverExitPoint = a.fastRecoverExitPoint := (congrArg Prod.snd hrecovery :)
  rw [hpoint]
  exact hmem _ (h ((congrArg Prod.fst hrecovery :).symm.trans hin))

/-- What is in flight lies between the ack point and the next TSN. -/
theorem ExitInFlight.outstanding {n : ℕ} (h : a.ExitInFlight) (hs : a.Sending n) (hn : n < 2 ^ 31) :
    a.ExitOutstanding := by
  intro hin
  have hmem := h hin
  refine ⟨hmem, ?_, ?_⟩
  · rw [hs.window.mem_window (by omega)] at hmem
    rw [sna32lt_iff]
    omega
  · rw [hs.window.mem_window (by omega)] at hmem
    have hnext : Serial.dist a.cumulativeTsnAckPoint a.myNextTsn = n + 1 := by
      rw [hs.next, dist_after _ (by omega)]
    have hdist : Serial.dist a.fastRecoverExitPoint a.myNextTsn =
        Serial.dist a.cumulativeTsnAckPoint a.myNextTsn -
          Serial.dist a.cumulativeTsnAckPoint a.fastRecoverExitPoint :=
      Serial.dist_sub (by omega)
    rw [sna32lt_iff]
    omega

/-! ## The chunks the cumulative TSN acknowledges -/

theorem recovery_measureRtt (a : AssociationInternal) (now since : ℕ) :
    (a.measureRtt now since).1.recovery = a.recovery := by
  unfold measureRtt
  split <;> rfl

theorem recovery_ackPopped (a : AssociationInternal) (now : ℕ) (i : U32) (c : ChunkPayloadData)
    (b : BytesAcked) : (a.ackPopped now i c b).1.recovery = a.recovery := by
  unfold ackPopped
  split
  · rfl
  · dsimp only
    have hstop : (if i = a.cumulativeTsnAckPoint + 1 then { a with t3rtx := a.t3rtx.stop }
        else a).recovery = a.recovery := by
      split <;> rfl
    generalize (if i = a.cumulativeTsnAckPoint + 1 then { a with t3rtx := a.t3rtx.stop } else a)
      = a₁ at hstop ⊢
    split
    · have hmeasure := recovery_measureRtt a₁ now c.since
      split <;> (rename_i heq; rw [heq] at hmeasure; exact hmeasure.trans hstop)
    · exact hstop

theorem exitFastRecovery_recovery (a : AssociationInternal) (c : ChunkPayloadData) :
    (a.exitFastRecovery c).fastRecoverExitPoint = a.fastRecoverExitPoint ∧
      ((a.exitFastRecovery c).inFastRecovery = true ↔
        a.inFastRecovery = true ∧ c.tsn ≠ a.fastRecoverExitPoint) := by
  unfold exitFastRecovery
  split
  · rename_i hexit
    simp [hexit.2]
  · rename_i hexit
    refine ⟨rfl, ?_⟩
    constructor
    · intro hin
      exact ⟨hin, fun heq => hexit ⟨hin, heq⟩⟩
    · exact And.left

/-- Fast recovery goes on over the pops if and only if its exit point is not among them. -/
theorem popAcked_recovery {e base : U32} {b b' : BytesAcked} {n : ℕ}
    (hq : a.inflightQueue.Window base n) (he : Serial.dist base e < 2 ^ 31)
    (h : popAcked now e (base + 1) a b = (a', .ok b')) :
    a'.fastRecoverExitPoint = a.fastRecoverExitPoint ∧
      (a'.inFastRecovery = true ↔ a.inFastRecovery = true ∧
        ¬ (0 < Serial.dist base a.fastRecoverExitPoint ∧
          Serial.dist base a.fastRecoverExitPoint ≤ Serial.dist base e)) := by
  induction hd : Serial.dist base e generalizing base a b n with
  | zero =>
    -- the loop is over
    have hlte : ¬ sna32lte (base + 1) e = true := by
      rw [sna32lte_succ_iff he]
      omega
    rw [popAcked, if_neg hlte] at h
    injection h with ha hb
    subst ha
    refine ⟨rfl, ?_⟩
    constructor
    · intro hin
      exact ⟨hin, by omega⟩
    · exact And.left
  | succ d ih =>
    have hlte : sna32lte (base + 1) e = true := by
      rw [sna32lte_succ_iff he]
      omega
    have hnext := dist_succ_of_pos (i := base) (e := e) (by omega)
    rw [popAcked, if_pos hlte] at h
    cases n with
    | zero =>
      -- nothing is left to pop, so the loop fails
      rw [hq.pop_of_zero] at h
      cases h
    | succ n =>
      obtain ⟨c, q, hpop, hget, hwindow, _⟩ := hq.pop
      have htsn : c.tsn = base + 1 := hq.tsn_eq _ _ hget
      rw [hpop] at h
      dsimp only at h
      have hrecovery := recovery_ackPopped { a with inflightQueue := q } now (base + 1) c b
      have hquiet := quiet_ackPopped { a with inflightQueue := q } now (base + 1) c b
      split at h
      · cases h
      · rename_i a₁ b₁ hack
        rw [hack] at hrecovery hquiet
        have hpoint₁ : a₁.fastRecoverExitPoint = a.fastRecoverExitPoint :=
          (congrArg Prod.snd hrecovery :)
        have hin₁ : a₁.inFastRecovery = a.inFastRecovery := (congrArg Prod.fst hrecovery :)
        have hwindow₁ : (a₁.exitFastRecovery c).inflightQueue.Window (base + 1) n := by
          rw [(quiet_exitFastRecovery a₁ c).inflightQueue, hquiet.inflightQueue]
          exact hwindow
        obtain ⟨hpoint₂, hin₂⟩ := exitFastRecovery_recovery a₁ c
        obtain ⟨hpoint, hin⟩ := ih hwindow₁ (by omega) h (by omega)
        rw [hpoint₂, hpoint₁] at hpoint hin
        rw [hin₂, hin₁, hpoint₁, htsn] at hin
        refine ⟨hpoint, hin.trans ?_⟩
        -- the exit point is the TSN popped, or as far from the next base as before
        by_cases hhere : base + 1 = a.fastRecoverExitPoint
        · have hone : Serial.dist base a.fastRecoverExitPoint = 1 := by
            rw [← hhere]
            exact Serial.dist_add_ofNat base (k := 1) (by decide)
          constructor
          · rintro ⟨⟨_, hne⟩, _⟩
            exact absurd hhere hne
          · rintro ⟨_, hnot⟩
            omega
        · have hpos : 0 < Serial.dist base a.fastRecoverExitPoint →
              Serial.dist (base + 1) a.fastRecoverExitPoint + 1 =
                Serial.dist base a.fastRecoverExitPoint := dist_succ_of_pos
          have hzero : Serial.dist (base + 1) a.fastRecoverExitPoint ≠ 0 := by
            intro heq
            exact hhere (Serial.dist_eq_zero.mp heq).symm
          have hbase : Serial.dist base a.fastRecoverExitPoint = 0 →
              Serial.dist (base + 1) a.fastRecoverExitPoint = 2 ^ 32 - 1 := by
            intro heq
            rw [Serial.dist_eq_zero.mp heq]
            rw [Serial.dist_comm_of_ne (a := base) (b := base + 1) (by bv_omega)]
            rw [show Serial.dist base (base + 1) = 1 from
              Serial.dist_add_ofNat base (k := 1) (by decide)]
          constructor
          · rintro ⟨⟨hin, _⟩, hnot⟩
            exact ⟨hin, by omega⟩
          · rintro ⟨hin, hnot⟩
            exact ⟨⟨hin, hhere⟩, by omega⟩

/-! ## Gap blocks and missing reports -/

theorem recovery_ackGaps (now : ℕ) (a : AssociationInternal) (b : BytesAcked) (htna : U32)
    (tsns : List U32) : (ackGaps now a b htna tsns).1.recovery = a.recovery :=
  ackGaps_keeps (P := fun a₁ => a₁.recovery = a.recovery) (fun _ _ h => h)
    (fun a₁ now since h => (recovery_measureRtt a₁ now since).trans h) now a b htna tsns rfl

/-- Fast recovery is as it was, or has begun with the exit point `htna`. -/
def BeginsAt (a a' : AssociationInternal) (htna : U32) : Prop :=
  a'.recovery = a.recovery ∨ (a.inFastRecovery = false ∧ a'.fastRecoverExitPoint = htna)

theorem beginsAt_reportMissing (a : AssociationInternal) (htna tsn : U32) (c : ChunkPayloadData) :
    BeginsAt a (a.reportMissing htna tsn c) htna := by
  unfold reportMissing
  split
  · dsimp only
    split
    · rename_i hbegin
      exact Or.inr ⟨by simpa using hbegin.2, rfl⟩
    · exact Or.inl rfl
  · exact Or.inl rfl

theorem BeginsAt.trans {a₁ a₂ a₃ : AssociationInternal} {htna : U32} (h : BeginsAt a₁ a₂ htna)
    (h' : BeginsAt a₂ a₃ htna) : BeginsAt a₁ a₃ htna := by
  rcases h' with hsame' | ⟨hout', hpoint'⟩
  · rcases h with hsame | ⟨hout, hpoint⟩
    · exact Or.inl (hsame'.trans hsame)
    · refine Or.inr ⟨hout, ?_⟩
      rw [← hpoint]
      exact (congrArg Prod.snd hsame' :)
  · -- it begins at the second step, so the first one left it alone
    refine Or.inr ⟨?_, hpoint'⟩
    rcases h with hsame | ⟨hout, _⟩
    · rw [← hout']
      exact (congrArg Prod.fst hsame :).symm
    · exact hout

/-- Fast recovery begins only when a TSN before `htna` is reported missing. -/
theorem processFastRetransmission_recovery (a : AssociationInternal) (cum htna : U32)
    (advanced : Bool) :
    (a.processFastRetransmission cum htna advanced).1.recovery = a.recovery ∨
      (htna ≠ cum ∧
        (a.processFastRetransmission cum htna advanced).1.fastRecoverExitPoint = htna) := by
  have hloop : (if !a.inFastRecovery ∨ advanced then
      reportMissingBelow htna (if !a.inFastRecovery then htna
        else cum + BitVec.ofNat 32 a.inflightQueue.len + 1) (cum + 1) a
      else (a, .ok ())).1.recovery = a.recovery ∨
      (htna ≠ cum ∧ (if !a.inFastRecovery ∨ advanced then
      reportMissingBelow htna (if !a.inFastRecovery then htna
        else cum + BitVec.ofNat 32 a.inflightQueue.len + 1) (cum + 1) a
      else (a, .ok ())).1.fastRecoverExitPoint = htna) := by
    split
    · by_cases hcum : htna = cum ∧ a.inFastRecovery = false
      · -- no TSN lies between the ack point and itself
        have hlt : ¬ sna32lt (cum + 1) cum = true := by
          rw [sna32lt_iff, Serial.dist_comm_of_ne (a := cum) (b := cum + 1) (by bv_omega),
            show Serial.dist cum (cum + 1) = 1 from Serial.dist_add_ofNat cum (k := 1) (by decide)]
          omega
        refine Or.inl ?_
        rw [hcum.1, hcum.2, Bool.not_false, if_pos rfl, reportMissingBelow, if_neg hlt]
      · rcases reportMissingBelow_keeps (P := fun b => BeginsAt a b htna)
          (fun b tsn c h => h.trans (beginsAt_reportMissing b htna tsn c))
          (if !a.inFastRecovery then htna else cum + BitVec.ofNat 32 a.inflightQueue.len + 1)
          (cum + 1) a (Or.inl rfl) with hsame | ⟨hout, hpoint⟩
        · exact Or.inl hsame
        · exact Or.inr ⟨fun heq => hcum ⟨heq, hout⟩, hpoint⟩
    · exact Or.inl rfl
  unfold processFastRetransmission
  dsimp only
  generalize (if !a.inFastRecovery ∨ advanced then
      reportMissingBelow htna (if !a.inFastRecovery then htna
        else cum + BitVec.ofNat 32 a.inflightQueue.len + 1) (cum + 1) a
      else (a, .ok ())) = r at hloop ⊢
  split
  · exact hloop
  · split
    · exact hloop
    · exact hloop

/-! ## A whole SACK -/

theorem recovery_applySack (a : AssociationInternal) (d : ChunkSelectiveAck) (b : BytesAcked) :
    (a.applySack d b).recovery = a.recovery := by
  have hstreams : IgnoresStreams recovery := fun _ _ _ _ => rfl
  have hpoint : (if sna32lt a.cumulativeTsnAckPoint d.cumulativeTsnAck then
      { a with cumulativeTsnAckPoint := d.cumulativeTsnAck }.onCumulativeTsnAckPointAdvanced
        b.total
      else a).recovery = a.recovery := by
    split
    · unfold onCumulativeTsnAckPointAdvanced
      dsimp only
      split_ifs <;> rfl
    · rfl
  exact (hstreams.releaseBuffers _ b.entries).trans hpoint

theorem recovery_afterwards (a : AssociationInternal) (state : AssociationState) :
    (a.raiseAckPoint.postprocessSack state).recovery = a.recovery := by
  rw [postprocessSack_kept (f := recovery) (fun _ _ _ _ _ => rfl)]
  exact raiseAckPoint_kept (f := recovery) (fun _ _ _ => rfl) a

/-- **A SACK and fast recovery.** It ends fast recovery if it reaches the exit point, and what is
an exit point afterwards is in flight. -/
theorem handleSack_recovery {n : ℕ} {d : ChunkSelectiveAck} (hs : a.Sending n) (hn : n < 2 ^ 31)
    (h : a.ExitInFlight) (hreads : a.readsSack d = true)
    (hok : (a.handleSack now d).2.isOk = true) :
    (a.ReachesExit d → (a.processSelectiveAck now d).1.inFastRecovery = false) ∧
      (a.handleSack now d).1.ExitInFlight := by
  have hd := dist_lt_of_reads hreads
  obtain ⟨b, bytesAcked, htna, a₂, hprocess, hfast, hresult⟩ := handleSack_stages hreads hok
  have hprocess' := hprocess
  unfold processSelectiveAck at hprocess'
  split at hprocess'
  · cases hprocess'
  · rename_i a₁ bytes₁ hpop
    obtain ⟨hpoint₁, hin₁⟩ := popAcked_recovery hs.window hd hpop
    have hgaps := recovery_ackGaps now a₁ bytes₁ d.cumulativeTsnAck (gapTsns d)
    rw [hprocess'] at hgaps
    have hinb : b.inFastRecovery = a₁.inFastRecovery := (congrArg Prod.fst hgaps :)
    have hpointb : b.fastRecoverExitPoint = a.fastRecoverExitPoint :=
      ((congrArg Prod.snd hgaps :) : b.fastRecoverExitPoint = _).trans hpoint₁
    obtain ⟨_, hle, hwindow, _, hhtna⟩ := processSelectiveAck_window hs.window hd hprocess
    refine ⟨?_, ?_⟩
    · rintro ⟨_, hreach⟩
      rw [hprocess]
      show b.inFastRecovery = false
      rw [hinb, ← Bool.not_eq_true, hin₁]
      rintro ⟨hin, hnot⟩
      -- the exit point was in flight, so it is popped on the way
      have hmem := h hin
      rw [hs.window.mem_window (by omega)] at hmem
      exact hnot ⟨hmem.1, hreach⟩
    · have happly := (applySack_of_processSelectiveAck hd hprocess).2
      have htouched := (touches_processFastRetransmission (b.applySack d bytesAcked)
        d.cumulativeTsnAck htna (sna32lt a.cumulativeTsnAckPoint d.cumulativeTsnAck)).touched
      rw [hfast, happly] at htouched
      have hflight : (a.handleSack now d).1.inflightQueue = a₂.inflightQueue := by
        rw [hresult, postprocessSack_inflightQueue]
        exact (quiet_raiseAckPoint a₂).inflightQueue
      have hafter : (a.handleSack now d).1.recovery = a₂.recovery := by
        rw [hresult]
        exact recovery_afterwards a₂ a.state
      have hbegin := processFastRetransmission_recovery (b.applySack d bytesAcked)
        d.cumulativeTsnAck htna (sna32lt a.cumulativeTsnAckPoint d.cumulativeTsnAck)
      rw [hfast] at hbegin
      intro hin
      rw [hflight, htouched.mem_iff]
      have hinresult : a₂.inFastRecovery = true := (congrArg Prod.fst hafter :).symm.trans hin
      have hpointresult : (a.handleSack now d).1.fastRecoverExitPoint = a₂.fastRecoverExitPoint :=
        (congrArg Prod.snd hafter :)
      rw [hpointresult]
      rcases hbegin with hsame | ⟨hne, hpoint⟩
      · -- fast recovery goes on, so the exit point was not popped
        have hsameb := hsame.trans (recovery_applySack b d bytesAcked)
        have hinb' : b.inFastRecovery = true :=
          (congrArg Prod.fst hsameb :).symm.trans hinresult
        have hpointa : a₂.fastRecoverExitPoint = a.fastRecoverExitPoint :=
          ((congrArg Prod.snd hsameb :) : a₂.fastRecoverExitPoint = _).trans hpointb
        obtain ⟨hina, hnot⟩ := hin₁.mp (hinb ▸ hinb')
        have hmem := h hina
        rw [hpointa, hwindow.mem_window (by omega)]
        rw [hs.window.mem_window (by omega)] at hmem
        -- it lies behind the new point, by what is left of the distance
        have hdist : Serial.dist d.cumulativeTsnAck a.fastRecoverExitPoint =
            Serial.dist a.cumulativeTsnAckPoint a.fastRecoverExitPoint -
              Serial.dist a.cumulativeTsnAckPoint d.cumulativeTsnAck := Serial.dist_sub (by omega)
        omega
      · -- it has begun, with the highest TSN newly acknowledged
        have hpoint' : a₂.fastRecoverExitPoint = htna := hpoint
        rw [hpoint']
        exact hhtna.resolve_left hne

/-! ## Runs -/

/-- Gathering leaves fast recovery alone. -/
theorem recovery_gatherOutbound (a : AssociationInternal) (now : ℕ) :
    (a.gatherOutbound now).1.recovery = a.recovery :=
  gatherOutbound_frame (fun _ => rfl) (fun _ _ _ => rfl) (fun _ _ _ _ _ _ => rfl)
    (fun _ _ _ _ _ _ => rfl) (fun _ => rfl) (fun _ _ _ => rfl) (fun _ => rfl) (fun _ _ _ _ _ => rfl)
    a now

/-- Gathering takes nothing out of flight. -/
theorem mem_gatherOutbound {t : U32} (h : t ∈ a.inflightQueue.chunkMap) (now : ℕ) :
    t ∈ (a.gatherOutbound now).1.inflightQueue.chunkMap := by
  refine gatherOutbound_invariant (P := fun b => t ∈ b.inflightQueue.chunkMap) ?_ ?_ ?_ ?_ ?_ h
  · intro b b' hcore hb
    have hflight : b'.inflightQueue = b.inflightQueue := (congrArg inflightQueue hcore :)
    rwa [hflight]
  · intro b b' hresends hb
    rwa [hresends.touched.mem_iff]
  · exact fun b c _ _ hb => hb
  · intro b c rwnd _ hb
    rcases hpop : b.pendingQueue.pop c.beginningFragment c.unordered with ⟨q, _ | c'⟩
    · rw [movePending_of_none (a := { b with rwnd }) hpop]
      exact hb
    · obtain ⟨flags, _, heq⟩ := movePending_of_some (a := { b with rwnd }) now hpop
      rw [heq]
      exact (PayloadQueue.Ahead.mem_pushNoCheck _ _ t).mpr (Or.inl hb)
  · intro b hb
    obtain ⟨_, _, _, _, heq⟩ := b.gatherOutboundShutdownPackets_eq
    rwa [heq]

theorem ExitInFlight.senderStep {n : ℕ} (h : a.ExitInFlight) (hs : a.Sending n) (hn : n < 2 ^ 31)
    {op : SenderOp} (hop : a.InBounds op) : (a.senderStep op).ExitInFlight := by
  by_cases hcall : op.isCall = true
  · have hframe := (called_senderStep (a := a) hcall).frame
    refine h.congr (congrArg recovery hframe :) ?_
    rw [hframe]
    exact fun t ht => ht
  · cases op with
    | gather now =>
      exact h.congr (recovery_gatherOutbound a now) fun t ht => mem_gatherOutbound ht now
    | t3Rtx =>
      have hrecovery := onT3RtxTimeout_kept (f := recovery) (fun _ _ _ _ _ _ => rfl) a
      exact h.congr hrecovery fun t ht => (a.onT3RtxTimeout_touched.mem_iff t).mpr ht
    | sack now d =>
      show (a.handleSack now d).1.ExitInFlight
      by_cases hreads : a.readsSack d = true
      · exact (handleSack_recovery hs hn h hreads hop.1).2
      · rw [handleSack_of_not_reads (by simpa using hreads)]
        exact h
    | _ => exact absurd rfl hcall

/-- **Fast recovery can be left.** In every state of a run the exit point is outstanding while
the association is in fast recovery, and the SACK that reaches it ends fast recovery; what that
SACK may begin anew has an exit point behind the new ack point. -/
theorem exitOutstanding_of_run (ha : a.Fresh) (hout : a.inFastRecovery = false)
    (ops : List SenderOp) (hops : Runs.Along senderStep InBounds a ops) :
    let s := Runs.run senderStep a ops
    s.ExitOutstanding ∧
      ∀ now d, s.inFastRecovery = true → s.ReachesExit d → (s.handleSack now d).2.isOk = true →
        (s.processSelectiveAck now d).1.inFastRecovery = false ∧
          (s.handleSack now d).1.cumulativeTsnAckPoint = d.cumulativeTsnAck ∧
          (s.handleSack now d).1.ExitOutstanding := by
  intro s
  have hrun : ∃ n < 2 ^ 31, s.Sending n ∧ s.ExitInFlight :=
    Runs.run_invariant_along (I := fun a => ∃ n < 2 ^ 31, a.Sending n ∧ a.ExitInFlight)
      (fun _ _ hop ⟨_, hn, hs, h⟩ =>
        have ⟨m, hm, hs'⟩ := hs.senderStep hn hop
        ⟨m, hm, hs', h.senderStep hs hn hop⟩)
      ⟨0, by omega, ha.sending, fun hin => absurd (hout.symm.trans hin) Bool.false_ne_true⟩ hops
  obtain ⟨n, hn, hs, h⟩ := hrun
  refine ⟨h.outstanding hs hn, ?_⟩
  intro now d _ hreach hok
  obtain ⟨hends, hafter⟩ := handleSack_recovery hs hn h hreach.1 hok
  obtain ⟨m, hm, hs'⟩ := hs.handleSack hok
  exact ⟨hends hreach, cumulativeTsnAckPoint_handleSack hreach.1 hok, hafter.outstanding hs' (by omega)⟩

/-- Four writes, of which the first is lost; the SACKs report the others one after the other. -/
def lossRun : List SenderOp :=
  [.openStream 1 .binary, .write 0 [1] .binary, .write 0 [2] .binary, .write 0 [3] .binary,
    .write 0 [4] .binary, .gather 5, .sack 9 ⟨0xfffffffe, 4096, [⟨2, 2⟩], []⟩,
    .sack 9 ⟨0xfffffffe, 4096, [⟨2, 3⟩], []⟩, .sack 9 ⟨0xfffffffe, 4096, [⟨2, 4⟩], []⟩]

theorem exitOutstanding_lossRun :
    let s := Runs.run senderStep justEstablished lossRun
    s.inFastRecovery = true ∧ s.ExitOutstanding ∧
      (s.processSelectiveAck 10 ⟨2, 4096, [], []⟩).1.inFastRecovery = false :=
  have h := exitOutstanding_of_run justEstablished_fresh rfl lossRun (by decide +kernel)
  have hin : (Runs.run senderStep justEstablished lossRun).inFastRecovery = true := by
    decide +kernel
  ⟨hin, h.1, (h.2 10 ⟨2, 4096, [], []⟩ hin (by decide +kernel) (by decide +kernel)).1⟩

end AssociationInternal

end Sctp
