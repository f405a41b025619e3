import Sctp.Association.StreamFrameTheorems
import Sctp.Queue.PayloadQueueTheorems

/-!
# What the handling of a SACK changes

`frame` is the state without the queue in flight and the bookkeeping of retransmission and
congestion control. Each step of `handle_sack` is described by what it does to the frame and
to the queue; what it computes into the bookkeeping does not matter here.
-/

namespace Sctp

/-- The stream without its count of buffered bytes. -/
def Stream.frame (s : Stream) : Stream := { s with bufferedAmount := 0 }

namespace AssociationInternal

variable {a a' : AssociationInternal}

/-- The state without the queue in flight and the bookkeeping. -/
def frame (a : AssociationInternal) : AssociationInternal :=
  { a with
    inflightQueue := {}
    t3rtx := {}
    minTsn2measureRtt := 0
    rtoMgr := {}
    inFastRecovery := false
    fastRecoverExitPoint := 0
    cwnd := 0
    rwnd := 0
    ssthresh := 0
    partialBytesAcked := 0
    willRetransmitFast := false
    willSendForwardTsn := false
    objects := a.objects.map Stream.frame }

/-- The queue in flight holds the TSNs between the ack point and the next TSN: `n` of them. -/
structure Sending (a : AssociationInternal) (n : ℕ) : Prop where
  window : a.inflightQueue.Window a.cumulativeTsnAckPoint n
  next : a.myNextTsn = a.cumulativeTsnAckPoint.after (n + 1)

/-- Only bookkeeping is different. -/
structure Quiet (a a' : AssociationInternal) : Prop where
  frame : a'.frame = a.frame
  inflightQueue : a'.inflightQueue = a.inflightQueue

theorem Quiet.refl (a : AssociationInternal) : Quiet a a := ⟨rfl, rfl⟩

theorem Quiet.trans {a₁ a₂ a₃ : AssociationInternal} (h : Quiet a₁ a₂) (h' : Quiet a₂ a₃) :
    Quiet a₁ a₃ := ⟨h'.frame.trans h.frame, h'.inflightQueue.trans h.inflightQueue⟩

/-! ## Rules for the loops of a SACK -/

section

variable {P : AssociationInternal → Prop}

/-- What a pop and its bookkeeping keep, the loop over the acknowledged chunks keeps. -/
theorem popAcked_keeps
    (hpop : ∀ a t, P a → P { a with inflightQueue := (a.inflightQueue.pop t).1 })
    (hack : ∀ a now i c b, P a → P (a.ackPopped now i c b).1)
    (hexit : ∀ a c, P a → P (a.exitFastRecovery c)) (now : ℕ) (e i : U32)
    (a : AssociationInternal) (b : BytesAcked) (h : P a) : P (popAcked now e i a b).1 := by
  induction i, a, b using popAcked.induct now e with
  | case1 i a b hlte q hq =>
    have hpopped := hpop a i h
    rw [hq] at hpopped
    rw [popAcked, if_pos hlte, hq]
    exact hpopped
  | case2 i a b hlte q c hq a₁ err hacked =>
    have hpopped := hpop a i h
    rw [hq] at hpopped
    have hlast := hack _ now i c b hpopped
    rw [hacked] at hlast
    rw [popAcked, if_pos hlte, hq]
    dsimp only
    rw [hacked]
    exact hlast
  | case3 i a b hlte q c hq a₁ b₁ hacked ih =>
    have hpopped := hpop a i h
    rw [hq] at hpopped
    have hlast := hack _ now i c b hpopped
    rw [hacked] at hlast
    rw [popAcked, if_pos hlte, hq]
    dsimp only
    rw [hacked]
    exact ih (hexit a₁ c hlast)
  | case4 i a b hlte =>
    rw [popAcked, if_neg hlte]
    exact h

/-- What marking a chunk and a measurement keep, the loop over the gap blocks keeps. -/
theorem ackGaps_keeps
    (hmark : ∀ a t, P a → P { a with inflightQueue := (a.inflightQueue.markAsAcked t).1 })
    (hmeasure : ∀ a now since, P a → P (a.measureRtt now since).1) (now : ℕ)
    (a : AssociationInternal) (b : BytesAcked) (htna : U32) (tsns : List U32) (h : P a) :
    P (ackGaps now a b htna tsns).1 := by
  induction tsns generalizing a b htna with
  | nil => exact h
  | cons tsn tsns ih =>
    rw [ackGaps]
    split
    · exact h
    · rename_i c hget
      split
      · exact ih a b htna h
      · have hmarked := hmark a tsn h
        generalize a.inflightQueue.markAsAcked tsn = marked at hmarked ⊢
        dsimp only
        have hmeasured : P (if c.nsent = 1 then
            measureRtt { a with inflightQueue := marked.1 } now c.since
            else ({ a with inflightQueue := marked.1 }, .ok ())).1 := by
          split
          · exact hmeasure _ now c.since hmarked
          · exact hmarked
        generalize (if c.nsent = 1 then
            measureRtt { a with inflightQueue := marked.1 } now c.since
            else ({ a with inflightQueue := marked.1 }, .ok ())) = m at hmeasured ⊢
        split
        · exact hmeasured
        · exact ih m.1 _ _ hmeasured

/-- What a count at a chunk and the start of fast recovery keep, a missing report keeps. -/
theorem reportMissing_keeps
    (hcount : ∀ a tsn, P a → P { a with
      inflightQueue := a.inflightQueue.getMut tsn fun c =>
        { c with missIndicator := c.missIndicator + 1 } })
    (hrecover : ∀ a htna ssthresh, P a → P { a with
      inFastRecovery := true
      fastRecoverExitPoint := htna
      ssthresh := ssthresh
      cwnd := ssthresh
      partialBytesAcked := 0
      willRetransmitFast := true })
    (htna : U32) (a : AssociationInternal) (tsn : U32) (c : ChunkPayloadData) (h : P a) :
    P (a.reportMissing htna tsn c) := by
  unfold reportMissing
  split
  · dsimp only
    split
    · exact hrecover _ htna _ (hcount a tsn h)
    · exact hcount a tsn h
  · exact h

/-- What one missing report keeps, the loop over the TSNs keeps. -/
theorem reportMissingBelow_keeps {htna : U32}
    (hmiss : ∀ a tsn c, P a → P (a.reportMissing htna tsn c)) (maxTsn tsn : U32)
    (a : AssociationInternal) (h : P a) : P (reportMissingBelow htna maxTsn tsn a).1 := by
  induction tsn, a using reportMissingBelow.induct htna maxTsn with
  | case1 tsn a hlt hget =>
    rw [reportMissingBelow, if_pos hlt, hget]
    exact h
  | case2 tsn a hlt c hget ih =>
    rw [reportMissingBelow, if_pos hlt, hget]
    exact ih (hmiss a tsn c h)
  | case3 tsn a hlt =>
    rw [reportMissingBelow, if_neg hlt]
    exact h

theorem processFastRetransmission_keeps {htna : U32}
    (hmiss : ∀ a tsn c, P a → P (a.reportMissing htna tsn c))
    (hfast : ∀ a, P a → P { a with willRetransmitFast := true }) (a : AssociationInternal)
    (cum : U32) (advanced : Bool) (h : P a) :
    P (a.processFastRetransmission cum htna advanced).1 := by
  unfold processFastRetransmission
  dsimp only
  have hloop : P (if !a.inFastRecovery ∨ advanced then
      reportMissingBelow htna (if !a.inFastRecovery then htna
        else cum + BitVec.ofNat 32 a.inflightQueue.len + 1) (cum + 1) a
      else (a, .ok ())).1 := by
    split
    · exact reportMissingBelow_keeps hmiss _ _ a h
    · exact h
  generalize (if !a.inFastRecovery ∨ advanced then
      reportMissingBelow htna (if !a.inFastRecovery then htna
        else cum + BitVec.ofNat 32 a.inflightQueue.len + 1) (cum + 1) a
      else (a, .ok ())) = r at hloop ⊢
  split
  · exact hloop
  · split
    · exact hfast _ hloop
    · exact hloop

end

/-! ## The chunks a SACK takes out of flight -/

theorem quiet_measureRtt (a : AssociationInternal) (now since : ℕ) :
    Quiet a (a.measureRtt now since).1 := by
  unfold measureRtt
  split <;> exact ⟨rfl, rfl⟩

theorem quiet_ackPopped (a : AssociationInternal) (now : ℕ) (i : U32) (c : ChunkPayloadData)
    (b : BytesAcked) : Quiet a (a.ackPopped now i c b).1 := by
  unfold ackPopped
  split
  · exact Quiet.refl a
  · dsimp only
    have h1 : Quiet a
        (if i = a.cumulativeTsnAckPoint + 1 then { a with t3rtx := a.t3rtx.stop } else a) := by
      split <;> exact ⟨rfl, rfl⟩
    generalize (if i = a.cumulativeTsnAckPoint + 1 then { a with t3rtx := a.t3rtx.stop } else a)
      = a₁ at h1 ⊢
    split
    · have h2 := quiet_measureRtt a₁ now c.since
      split <;> (rename_i heq; rw [heq] at h2; exact h1.trans h2)
    · exact h1

theorem quiet_exitFastRecovery (a : AssociationInternal) (c : ChunkPayloadData) :
    Quiet a (a.exitFastRecovery c) := by
  unfold exitFastRecovery
  split <;> exact ⟨rfl, rfl⟩

/-- The loop over the acknowledged chunks changes the queue and bookkeeping. -/
theorem frame_popAcked (now : ℕ) (e i : U32) (a : AssociationInternal) (b : BytesAcked) :
    (popAcked now e i a b).1.frame = a.frame :=
  popAcked_keeps (P := fun a₁ => a₁.frame = a.frame) (fun _ _ h => h)
    (fun a₁ now i c b h => (quiet_ackPopped a₁ now i c b).frame.trans h)
    (fun a₁ c h => (quiet_exitFastRecovery a₁ c).frame.trans h) now e i a b rfl

/-- What pops keep of the queue in flight, the loop keeps. -/
theorem popAcked_queue {P : PayloadQueue → Prop} (hP : ∀ q t, P q → P (q.pop t).1) (now : ℕ)
    (e i : U32) (a : AssociationInternal) (b : BytesAcked) (h : P a.inflightQueue) :
    P (popAcked now e i a b).1.inflightQueue := by
  refine popAcked_keeps (P := fun a₁ => P a₁.inflightQueue) (fun a₁ t => hP a₁.inflightQueue t)
    ?_ ?_ now e i a b h
  · intro a₁ now i c b h₁
    rwa [(quiet_ackPopped a₁ now i c b).inflightQueue]
  · intro a₁ c h₁
    rwa [(quiet_exitFastRecovery a₁ c).inflightQueue]

/-- Where it answers `Ok`, it has popped the chunks up to the TSN acknowledged, and only
these. -/
theorem popAcked_window {now : ℕ} {e base : U32} {a a' : AssociationInternal} {b b' : BytesAcked}
    {n : ℕ} (hq : a.inflightQueue.Window base n) (he : Serial.dist base e < 2 ^ 31)
    (h : popAcked now e (base + 1) a b = (a', .ok b')) :
    Serial.dist base e ≤ n ∧ a'.inflightQueue.Window e (n - Serial.dist base e) ∧
      ∀ t c, a'.inflightQueue.get t = some c → a.inflightQueue.get t = some c := by
  induction hd : Serial.dist base e generalizing base a b n with
  | zero =>
    -- the loop has passed the last TSN acknowledged
    have hlte : ¬ sna32lte (base + 1) e = true := by
      rw [sna32lte_succ_iff he]
      omega
    rw [popAcked, if_neg hlte] at h
    injection h with ha hb
    subst ha
    have hbase : e = base := Serial.dist_eq_zero.mp hd
    subst hbase
    exact ⟨Nat.zero_le n, hq, fun t c hc => hc⟩
  | succ d ih =>
    have hlte : sna32lte (base + 1) e = true := by
      rw [sna32lte_succ_iff he]
      omega
    have hnext := dist_succ_of_pos (i := base) (e := e) (by omega)
    rw [popAcked, if_pos hlte] at h
    cases n with
    | zero =>
      -- nothing is left in flight, so the loop fails
      rw [hq.pop_of_zero] at h
      cases h
    | succ n =>
      obtain ⟨c, q, hpop, hget, hwindow, hrest⟩ := hq.pop
      rw [hpop] at h
      dsimp only at h
      have hquiet := quiet_ackPopped { a with inflightQueue := q } now (base + 1) c b
      split at h
      · cases h
      · rename_i a₁ b₁ hack
        rw [hack] at hquiet
        have hq₁ : (a₁.exitFastRecovery c).inflightQueue = q :=
          (quiet_exitFastRecovery a₁ c).inflightQueue.trans hquiet.inflightQueue
        have hwindow₁ : (a₁.exitFastRecovery c).inflightQueue.Window (base + 1) n := by
          rw [hq₁]
          exact hwindow
        obtain ⟨hle, hwin, hkept⟩ := ih hwindow₁ (by omega) h (by omega)
        refine ⟨by omega, ?_, ?_⟩
        · rwa [show n + 1 - (d + 1) = n - d by omega]
        · intro t c' hc'
          have ht := hkept t c' hc'
          rw [hq₁] at ht
          rw [hrest t] at ht
          -- only the chunk just popped is gone
          by_cases hne : t = base + 1
          · rw [if_pos hne] at ht
            cases ht
          · rwa [if_neg hne] at ht

/-- Gap blocks change the queue's bookkeeping only, and the highest TSN newly acknowledged is
the one given or in flight. -/
theorem ackGaps_touched (now : ℕ) (a : AssociationInternal) (b : BytesAcked) (htna : U32)
    (tsns : List U32) : (ackGaps now a b htna tsns).1.frame = a.frame ∧
      a.inflightQueue.Touched (ackGaps now a b htna tsns).1.inflightQueue ∧
      ∀ r, (ackGaps now a b htna tsns).2 = .ok r → r.2 = htna ∨ r.2 ∈ a.inflightQueue.chunkMap := by
  induction tsns generalizing a b htna with
  | nil =>
    refine ⟨rfl, PayloadQueue.Touched.refl _, ?_⟩
    intro r hr
    injection hr with hr
    exact Or.inl (by rw [← hr])
  | cons tsn tsns ih =>
    rw [ackGaps]
    split
    · refine ⟨rfl, PayloadQueue.Touched.refl _, ?_⟩
      intro r hr
      cases hr
    · rename_i c hget
      split
      · -- acknowledged before, so there is nothing to write
        exact ih a b htna
      · have hmark := PayloadQueue.Touched.markAsAcked a.inflightQueue tsn
        generalize a.inflightQueue.markAsAcked tsn = marked at hmark ⊢
        dsimp only
        -- only a chunk that was sent once is measured
        have hquiet : Quiet { a with inflightQueue := marked.1 }
            (if c.nsent = 1 then measureRtt { a with inflightQueue := marked.1 } now c.since
              else ({ a with inflightQueue := marked.1 }, .ok ())).1 := by
          split
          · exact quiet_measureRtt _ now c.since
          · exact Quiet.refl _
        generalize (if c.nsent = 1 then measureRtt { a with inflightQueue := marked.1 } now c.since
              else ({ a with inflightQueue := marked.1 }, .ok ())) = m at hquiet ⊢
        have hqueue : a.inflightQueue.Touched m.1.inflightQueue := by
          rw [hquiet.inflightQueue]
          exact hmark
        split
        · refine ⟨hquiet.frame, hqueue, ?_⟩
          intro r hr
          cases hr
        · have h := ih m.1 (b.add c.streamIdentifier marked.2) (if sna32lt htna tsn then tsn else htna)
          refine ⟨h.1.trans hquiet.frame, hqueue.trans h.2.1, ?_⟩
          intro r hr
          -- the highest one is this TSN or one of a later entry
          rcases h.2.2 r hr with heq | hin
          · by_cases hlt : sna32lt htna tsn = true
            · rw [if_pos hlt] at heq
              refine Or.inr ?_
              rw [heq, ← AList.lookup_isSome]
              show (a.inflightQueue.get tsn).isSome = true
              rw [hget]
              rfl
            · rw [if_neg hlt] at heq
              exact Or.inl heq
          · exact Or.inr ((hqueue.mem_iff r.2).mp hin)

/-- What `process_selective_ack` does when it answers `Ok`: the queue now starts behind the
TSN acknowledged, and the highest TSN newly acknowledged lies in it or is that TSN. -/
theorem processSelectiveAck_window {a a' : AssociationInternal} {now : ℕ} {d : ChunkSelectiveAck}
    {r : BytesAcked × U32} {n : ℕ} (hq : a.inflightQueue.Window a.cumulativeTsnAckPoint n)
    (hd : Serial.dist a.cumulativeTsnAckPoint d.cumulativeTsnAck < 2 ^ 31)
    (h : a.processSelectiveAck now d = (a', .ok r)) :
    a'.frame = a.frame ∧ Serial.dist a.cumulativeTsnAckPoint d.cumulativeTsnAck ≤ n ∧
      a'.inflightQueue.Window d.cumulativeTsnAck
        (n - Serial.dist a.cumulativeTsnAckPoint d.cumulativeTsnAck) ∧
      (∀ t c', a'.inflightQueue.get t = some c' →
        ∃ c, a.inflightQueue.get t = some c ∧ PayloadQueue.label c = PayloadQueue.label c') ∧
      (r.2 = d.cumulativeTsnAck ∨ r.2 ∈ a'.inflightQueue.chunkMap) := by
  unfold processSelectiveAck at h
  split at h
  · cases h
  · rename_i a₁ b₁ hpop
    have hframe := frame_popAcked now d.cumulativeTsnAck (a.cumulativeTsnAckPoint + 1) a ∅
    rw [hpop] at hframe
    obtain ⟨hle, hwindow, hkept⟩ := popAcked_window hq hd hpop
    obtain ⟨hframe', htouched, hhtna⟩ :=
      ackGaps_touched now a₁ b₁ d.cumulativeTsnAck (gapTsns d)
    rw [h] at hframe' htouched hhtna
    refine ⟨hframe'.trans hframe, hle, htouched.window hwindow, ?_, ?_⟩
    · intro t c' hc'
      obtain ⟨c, hc, hlabel⟩ := htouched.get_eq_some hc'
      exact ⟨c, hkept t c hc, hlabel⟩
    · rcases hhtna r rfl with heq | hin
      · exact Or.inl heq
      · exact Or.inr ((htouched.mem_iff r.2).mpr hin)

/-! ## The rest of `handle_sack` -/

theorem onCumulativeTsnAckPointAdvanced_quiet (a : AssociationInternal) (n : ℕ) :
    Quiet a (a.onCumulativeTsnAckPointAdvanced n) := by
  unfold onCumulativeTsnAckPointAdvanced
  dsimp only
  split_ifs <;> exact ⟨rfl, rfl⟩

theorem quiet_modifyStream (a : AssociationInternal) (si : U16) {f : Stream → Stream}
    (hf : ∀ s, (f s).frame = s.frame) : Quiet a (a.modifyStream si f) := by
  unfold modifyStream
  split
  · rename_i r hr
    have hobjects : (a.objects.modify r f).map Stream.frame = a.objects.map Stream.frame := by
      refine List.ext_getElem? fun i => ?_
      rw [List.getElem?_map, List.getElem?_map, List.getElem?_modify]
      cases a.objects[i]? with
      | none => rfl
      | some s =>
        show some (if r = i then f s else s).frame = some s.frame
        split
        · rw [hf s]
        · rfl
    refine ⟨?_, rfl⟩
    unfold frame modifyObject
    rw [hobjects]
  · exact Quiet.refl a

theorem Stream.frame_onBufferReleased (s : Stream) (n : ℕ) :
    (s.onBufferReleased n).1.frame = s.frame := by
  unfold Stream.onBufferReleased
  split <;> rfl

theorem quiet_applySack {d : ChunkSelectiveAck}
    (hd : Serial.dist a.cumulativeTsnAckPoint d.cumulativeTsnAck < 2 ^ 31) (b : BytesAcked) :
    Quiet { a with cumulativeTsnAckPoint := d.cumulativeTsnAck } (a.applySack d b) := by
  unfold applySack
  dsimp only
  have h1 : Quiet { a with cumulativeTsnAckPoint := d.cumulativeTsnAck }
      (if sna32lt a.cumulativeTsnAckPoint d.cumulativeTsnAck then
        { a with cumulativeTsnAckPoint := d.cumulativeTsnAck }.onCumulativeTsnAckPointAdvanced
          b.total
      else a) := by
    by_cases hlt : sna32lt a.cumulativeTsnAckPoint d.cumulativeTsnAck = true
    · rw [if_pos hlt]
      exact onCumulativeTsnAckPointAdvanced_quiet _ _
    · rw [if_neg hlt]
      -- not ahead means the same TSN, as the SACK is not an old one
      rw [sna32lt_iff] at hlt
      have hsame : d.cumulativeTsnAck = a.cumulativeTsnAckPoint :=
        Serial.dist_eq_zero.mp (by omega)
      rw [hsame]
      exact Quiet.refl a
  generalize (if sna32lt a.cumulativeTsnAckPoint d.cumulativeTsnAck then
        { a with cumulativeTsnAckPoint := d.cumulativeTsnAck }.onCumulativeTsnAckPointAdvanced
          b.total
      else a) = a₁ at h1 ⊢
  -- the releases touch the buffered amounts only
  have h2 : ∀ l : List (Sigma fun _ : U16 => ℕ), ∀ a₂, Quiet a₁ a₂ → Quiet a₁
      (l.foldl (fun a e => a.modifyStream e.1 fun s => (s.onBufferReleased e.2).1) a₂) := by
    intro l
    induction l with
    | nil =>
      intro a₂ h
      exact h
    | cons e l ih =>
      intro a₂ h
      exact ih _ (h.trans (quiet_modifyStream a₂ e.1 fun s => Stream.frame_onBufferReleased s e.2))
  exact (h1.trans (h2 b.entries a₁ (Quiet.refl a₁))).trans ⟨rfl, rfl⟩

/-- Bookkeeping is different, also that of the chunks in flight. -/
structure Touches (a a' : AssociationInternal) : Prop where
  frame : a'.frame = a.frame
  touched : a.inflightQueue.Touched a'.inflightQueue

theorem Touches.refl (a : AssociationInternal) : Touches a a :=
  ⟨rfl, PayloadQueue.Touched.refl _⟩

theorem Touches.trans {a₁ a₂ a₃ : AssociationInternal} (h : Touches a₁ a₂) (h' : Touches a₂ a₃) :
    Touches a₁ a₃ := ⟨h'.frame.trans h.frame, h.touched.trans h'.touched⟩

theorem touches_reportMissing (a : AssociationInternal) (htna tsn : U32) (c : ChunkPayloadData) :
    Touches a (a.reportMissing htna tsn c) := by
  refine reportMissing_keeps (P := Touches a) ?_ ?_ htna a tsn c (Touches.refl a)
  · intro b t h
    exact h.trans ⟨rfl, PayloadQueue.Touched.getMut _ _ fun _ => rfl⟩
  · intro b _ _ h
    exact h.trans ⟨rfl, PayloadQueue.Touched.refl _⟩

/-- Below a TSN that follows the last one in flight at most, every TSN is found. -/
theorem reportMissingBelow_ok {htna maxTsn base : U32} {n : ℕ} (hn : n < 2 ^ 31)
    (hmax : Serial.dist base maxTsn ≤ n + 1) {k : ℕ} (hk : k ≤ n)
    {a : AssociationInternal} (hq : a.inflightQueue.Window base n) :
    (reportMissingBelow htna maxTsn (base.after (k + 1)) a).2 = .ok () := by
  induction hm : n - k generalizing k a with
  | zero =>
    have hlt : ¬ sna32lt (base.after (k + 1)) maxTsn = true := by
      have hdist := dist_after base (k := k + 1) (by omega)
      exact @not_sna32lt_of_dist_le base _ _ (by omega) (by omega)
    rw [reportMissingBelow, if_neg hlt]
  | succ m ih =>
    rw [reportMissingBelow]
    split
    · obtain ⟨c, hc, _⟩ := hq.exists_get (t := base.after (k + 1)) (by omega)
        (by rw [dist_after base (by omega)]; omega) (by rw [dist_after base (by omega)]; omega)
      rw [hc]
      dsimp only
      rw [after_succ]
      exact ih (by omega) ((touches_reportMissing a htna _ c).touched.window hq) (by omega)
    · rfl

theorem touches_processFastRetransmission (a : AssociationInternal) (cum htna : U32)
    (advanced : Bool) : Touches a (a.processFastRetransmission cum htna advanced).1 :=
  processFastRetransmission_keeps (fun b tsn c h => h.trans (touches_reportMissing b htna tsn c))
    (fun _ h => h.trans ⟨rfl, PayloadQueue.Touched.refl _⟩) a cum advanced (Touches.refl a)

/-- With an unbroken queue behind the ack point no chunk is missed. -/
theorem processFastRetransmission_ok {cum htna : U32} {n : ℕ}
    (hq : a.inflightQueue.Window cum n) (hn : n < 2 ^ 31)
    (hhtna : htna = cum ∨ htna ∈ a.inflightQueue.chunkMap) (advanced : Bool) :
    (a.processFastRetransmission cum htna advanced).2 = .ok () := by
  have hmax : Serial.dist cum (if !a.inFastRecovery then htna
      else cum + BitVec.ofNat 32 a.inflightQueue.len + 1) ≤ n + 1 := by
    split
    · rcases hhtna with rfl | hin
      · -- nothing new: the loop stops before it begins
        rw [Serial.dist_self]
        omega
      · -- a chunk in flight lies within the window
        rw [hq.mem_window (by omega)] at hin
        omega
    · have hdist : Serial.dist cum (cum.after a.inflightQueue.len + 1) = n + 1 := by
        rw [hq.len_eq, after_succ, dist_after cum (by omega)]
      exact Nat.le_of_eq hdist
  have hloop := @reportMissingBelow_ok htna _ _ _ hn hmax 0 (Nat.zero_le n) a hq
  unfold processFastRetransmission
  dsimp only
  have h1 : (if !a.inFastRecovery ∨ advanced then
      reportMissingBelow htna (if !a.inFastRecovery then htna
        else cum + BitVec.ofNat 32 a.inflightQueue.len + 1) (cum + 1) a
      else (a, .ok ())).2 = .ok () := by
    split
    · exact hloop
    · rfl
  generalize (if !a.inFastRecovery ∨ advanced then
      reportMissingBelow htna (if !a.inFastRecovery then htna
        else cum + BitVec.ofNat 32 a.inflightQueue.len + 1) (cum + 1) a
      else (a, .ok ())) = r at h1 ⊢
  split
  · rename_i e he
    rw [h1] at he
    cases he
  · split <;> rfl

/-- The walk over abandoned chunks writes the point and the flag for a FORWARD TSN only. -/
theorem advanceAckPoint_kept {β : Type*} {f : AssociationInternal → β}
    (hf : ∀ (b : AssociationInternal) point will,
      f { b with advancedPeerTsnAckPoint := point, willSendForwardTsn := will } = f b)
    (a : AssociationInternal) : f a.advanceAckPoint = f a := by
  unfold advanceAckPoint
  dsimp only
  split
  · exact hf a _ true
  · exact hf a _ a.willSendForwardTsn

theorem raiseAckPoint_kept {β : Type*} {f : AssociationInternal → β}
    (hf : ∀ (b : AssociationInternal) point will,
      f { b with advancedPeerTsnAckPoint := point, willSendForwardTsn := will } = f b)
    (a : AssociationInternal) : f a.raiseAckPoint = f a := by
  unfold raiseAckPoint
  split
  · dsimp only
    rw [advanceAckPoint_kept hf]
    split
    · exact hf a a.cumulativeTsnAckPoint a.willSendForwardTsn
    · rfl
  · rfl

theorem frame_advanceAckPoint (a : AssociationInternal) :
    Quiet { a with advancedPeerTsnAckPoint := a.advanceAckPoint.advancedPeerTsnAckPoint }
      a.advanceAckPoint := by
  unfold advanceAckPoint
  dsimp only
  split <;> exact ⟨rfl, rfl⟩

theorem quiet_raiseAckPoint (a : AssociationInternal) :
    Quiet { a with advancedPeerTsnAckPoint := a.raiseAckPoint.advancedPeerTsnAckPoint }
      a.raiseAckPoint := by
  unfold raiseAckPoint
  split
  · dsimp only
    split
    · exact frame_advanceAckPoint { a with advancedPeerTsnAckPoint := a.cumulativeTsnAckPoint }
    · exact frame_advanceAckPoint a
  · exact Quiet.refl a

theorem processSelectiveAck_frame (a : AssociationInternal) (now : ℕ) (d : ChunkSelectiveAck) :
    (a.processSelectiveAck now d).1.frame = a.frame ∧
      (a.inflightQueue.Counted → (a.processSelectiveAck now d).1.inflightQueue.Counted) := by
  have hframe := frame_popAcked now d.cumulativeTsnAck (a.cumulativeTsnAckPoint + 1) a ∅
  have hcounted := popAcked_queue (P := PayloadQueue.Counted) (fun _ t hq => hq.pop t) now
    d.cumulativeTsnAck (a.cumulativeTsnAckPoint + 1) a ∅
  unfold processSelectiveAck
  split
  · rename_i a₁ e hpop
    rw [hpop] at hframe hcounted
    exact ⟨hframe, hcounted⟩
  · rename_i a₁ b₁ hpop
    rw [hpop] at hframe hcounted
    have h := ackGaps_touched now a₁ b₁ d.cumulativeTsnAck (gapTsns d)
    exact ⟨h.1.trans hframe, fun hq => h.2.1.counted (hcounted hq)⟩

/-- **The stages of a SACK.** It is ignored, or its cumulative TSN lies at or after the ack
point; then one stage follows the other until one of them fails. -/
theorem handleSack_outcome (a : AssociationInternal) (now : ℕ) (d : ChunkSelectiveAck) :
    a.handleSack now d = (a, .ok []) ∨
      ((a.state = .established ∨ a.state = .shutdownPending ∨ a.state = .shutdownReceived) ∧
        Serial.dist a.cumulativeTsnAckPoint d.cumulativeTsnAck < 2 ^ 31 ∧
        ((∃ a₁ e, a.processSelectiveAck now d = (a₁, .error e) ∧
            a.handleSack now d = (a₁, .error e)) ∨
          ∃ a₁ b htna, a.processSelectiveAck now d = (a₁, .ok (b, htna)) ∧
            ((∃ a₂ e, (a₁.applySack d b).processFastRetransmission d.cumulativeTsnAck htna
                  (sna32lt a.cumulativeTsnAckPoint d.cumulativeTsnAck) = (a₂, .error e) ∧
                a.handleSack now d = (a₂, .error e)) ∨
              ∃ a₂, (a₁.applySack d b).processFastRetransmission d.cumulativeTsnAck htna
                  (sna32lt a.cumulativeTsnAckPoint d.cumulativeTsnAck) = (a₂, .ok ()) ∧
                a.handleSack now d = (a₂.raiseAckPoint.postprocessSack a.state, .ok [])))) := by
  unfold handleSack
  dsimp only
  split
  · exact Or.inl rfl
  · rename_i hstate
    split
    · exact Or.inl rfl
    · rename_i hgt
      rw [sna32gt_iff] at hgt
      refine Or.inr ⟨by tauto, by omega, ?_⟩
      rcases a.processSelectiveAck now d with ⟨a₁, e | ⟨b, htna⟩⟩
      · exact Or.inl ⟨a₁, e, rfl, rfl⟩
      · refine Or.inr ⟨a₁, b, htna, rfl, ?_⟩
        dsimp only
        rcases (a₁.applySack d b).processFastRetransmission d.cumulativeTsnAck htna
          (sna32lt a.cumulativeTsnAckPoint d.cumulativeTsnAck) with ⟨a₂, e | u⟩
        · exact Or.inl ⟨a₂, e, rfl, rfl⟩
        · exact Or.inr ⟨a₂, rfl, rfl⟩

/-- What follows the acknowledgement moves the ack point and leaves the queue as it is. -/
theorem applySack_of_processSelectiveAck {now : ℕ} {d : ChunkSelectiveAck}
    {a₁ : AssociationInternal} {b : BytesAcked} {htna : U32}
    (hdist : Serial.dist a.cumulativeTsnAckPoint d.cumulativeTsnAck < 2 ^ 31)
    (hack : a.processSelectiveAck now d = (a₁, .ok (b, htna))) :
    (a₁.applySack d b).frame = { a with cumulativeTsnAckPoint := d.cumulativeTsnAck }.frame ∧
      (a₁.applySack d b).inflightQueue = a₁.inflightQueue := by
  have hframe := (processSelectiveAck_frame a now d).1
  rw [hack] at hframe
  have hcum : a₁.cumulativeTsnAckPoint = a.cumulativeTsnAckPoint :=
    (congrArg cumulativeTsnAckPoint hframe :)
  have happly := quiet_applySack (a := a₁) (d := d) (by rw [hcum]; exact hdist) b
  refine ⟨?_, happly.inflightQueue⟩
  rw [happly.frame]
  show { a₁.frame with cumulativeTsnAckPoint := d.cumulativeTsnAck } = _
  rw [hframe]
  rfl

/-- A SACK that is answered with `Ok` is ignored, or it moves the ack point over chunks in
flight; the point for FORWARD TSNs and the shutdown are looked after then. -/
theorem handleSack_ok {now : ℕ} {d : ChunkSelectiveAck} {n : ℕ} (hs : a.Sending n)
    (h : (a.handleSack now d).2.isOk = true) :
    (a.handleSack now d).1 = a ∨
      ∃ a' : AssociationInternal, (a.handleSack now d).1 = a'.raiseAckPoint.postprocessSack a.state ∧
        Serial.dist a.cumulativeTsnAckPoint d.cumulativeTsnAck ≤ n ∧
        a'.frame = { a with cumulativeTsnAckPoint := d.cumulativeTsnAck }.frame ∧
        a'.inflightQueue.Window d.cumulativeTsnAck
          (n - Serial.dist a.cumulativeTsnAckPoint d.cumulativeTsnAck) ∧
        ∀ t c', a'.inflightQueue.get t = some c' →
          ∃ c, a.inflightQueue.get t = some c ∧ PayloadQueue.label c = PayloadQueue.label c' := by
  rcases handleSack_outcome a now d with heq | ⟨_, hd, ⟨a₁, e, _, heq⟩ | ⟨a₁, b, htna, hack, hfast⟩⟩
  · rw [heq]
    exact Or.inl rfl
  · rw [heq] at h
    cases h
  · obtain ⟨_, hle, hwindow, hlabel, _⟩ := processSelectiveAck_window hs.window hd hack
    obtain ⟨hframe, hqueue⟩ := applySack_of_processSelectiveAck hd hack
    have htouches := touches_processFastRetransmission (a₁.applySack d b) d.cumulativeTsnAck
      htna (sna32lt a.cumulativeTsnAckPoint d.cumulativeTsnAck)
    rcases hfast with ⟨a₂, e, _, heq⟩ | ⟨a₂, hfast, heq⟩
    · rw [heq] at h
      cases h
    · rw [hfast] at htouches
      have htouched := htouches.touched
      rw [hqueue] at htouched
      refine Or.inr ⟨a₂, by rw [heq], hle, htouches.frame.trans hframe, htouched.window hwindow, ?_⟩
      -- the marks of fast retransmission leave the label of a chunk
      intro t c' hc'
      obtain ⟨c₁, hc₁, h₁⟩ := htouched.get_eq_some hc'
      obtain ⟨c, hc, h₂⟩ := hlabel t c₁ hc₁
      exact ⟨c, hc, h₂.trans h₁⟩

/-- Whatever the answer, a SACK moves the two points and changes bookkeeping, and then may go
on with a shutdown. -/
theorem handleSack_cases (a : AssociationInternal) (now : ℕ) (d : ChunkSelectiveAck) :
    (a.handleSack now d).1 = a ∨
      ((a.state = .established ∨ a.state = .shutdownPending ∨ a.state = .shutdownReceived) ∧
        ∃ (a' : AssociationInternal) (cum adv : U32),
          a'.frame =
            { a with cumulativeTsnAckPoint := cum, advancedPeerTsnAckPoint := adv }.frame ∧
          (a.inflightQueue.Counted → a'.inflightQueue.Counted) ∧
          ((a.handleSack now d).1 = a' ∨ (a.handleSack now d).1 = a'.postprocessSack a.state)) := by
  rcases handleSack_outcome a now d with heq | ⟨hstate, hd, hstages⟩
  · rw [heq]
    exact Or.inl rfl
  · refine Or.inr ⟨hstate, ?_⟩
    have hprocess := processSelectiveAck_frame a now d
    rcases hstages with ⟨a₁, e, hack, heq⟩ | ⟨a₁, b, htna, hack, hfast⟩
    · rw [hack] at hprocess
      rw [heq]
      exact ⟨a₁, a.cumulativeTsnAckPoint, a.advancedPeerTsnAckPoint, hprocess.1, hprocess.2,
        Or.inl rfl⟩
    · rw [hack] at hprocess
      obtain ⟨hframe, hqueue⟩ := applySack_of_processSelectiveAck hd hack
      have htouches := touches_processFastRetransmission (a₁.applySack d b) d.cumulativeTsnAck
        htna (sna32lt a.cumulativeTsnAckPoint d.cumulativeTsnAck)
      have hcounted : a.inflightQueue.Counted →
          ((a₁.applySack d b).processFastRetransmission d.cumulativeTsnAck htna
            (sna32lt a.cumulativeTsnAckPoint d.cumulativeTsnAck)).1.inflightQueue.Counted := by
        intro hq
        refine htouches.touched.counted ?_
        rw [hqueue]
        exact hprocess.2 hq
      rcases hfast with ⟨a₂, e, hfast, heq⟩ | ⟨a₂, hfast, heq⟩
      · rw [hfast] at htouches hcounted
        rw [heq]
        exact ⟨a₂, d.cumulativeTsnAck, a.advancedPeerTsnAckPoint, htouches.frame.trans hframe,
          hcounted, Or.inl rfl⟩
      · -- only here the point for FORWARD TSNs moves
        rw [hfast] at htouches hcounted
        have hraise := quiet_raiseAckPoint a₂
        rw [heq]
        refine ⟨a₂.raiseAckPoint, d.cumulativeTsnAck, a₂.raiseAckPoint.advancedPeerTsnAckPoint,
          ?_, ?_, Or.inr rfl⟩
        · rw [hraise.frame]
          show { a₂.frame with
            advancedPeerTsnAckPoint := a₂.raiseAckPoint.advancedPeerTsnAckPoint } = _
          rw [htouches.frame, hframe]
          rfl
        · intro hq
          rw [hraise.inflightQueue]
          exact hcounted hq

/-- The end of a SACK sets the T3-rtx timer, or it goes on with a shutdown. -/
theorem postprocessSack_kept {β : Type*} {f : AssociationInternal → β}
    (hf : ∀ (b : AssociationInternal) t3rtx state shutdown shutdownAck,
      f { b with
        t3rtx := t3rtx
        state := state
        willSendShutdown := shutdown
        willSendShutdownAck := shutdownAck } = f b)
    (a : AssociationInternal) (state : AssociationState) : f (a.postprocessSack state) = f a := by
  unfold postprocessSack setState
  split_ifs
  · exact hf a a.t3rtx.start a.state a.willSendShutdown a.willSendShutdownAck
  · exact hf a a.t3rtx .shutdownSent true a.willSendShutdownAck
  · exact hf a a.t3rtx .shutdownAckSent a.willSendShutdown true
  · rfl

theorem postprocessSack_inflightQueue (a : AssociationInternal) (state : AssociationState) :
    (a.postprocessSack state).inflightQueue = a.inflightQueue :=
  postprocessSack_kept (f := inflightQueue) (fun _ _ _ _ _ => rfl) a state

/-- What acknowledging chunks and reporting them missing keeps of the queue in flight. -/
structure SackKeeps (P : PayloadQueue → Prop) : Prop where
  pop : ∀ q t, P q → P (q.pop t).1
  mark : ∀ q t, P q → P (q.markAsAcked t).1
  miss : ∀ q t, P q → P (q.getMut t fun c => { c with missIndicator := c.missIndicator + 1 })

namespace SackKeeps

variable {P : PayloadQueue → Prop}

theorem ackGaps (hP : SackKeeps P) (now : ℕ) (b : BytesAcked) (htna : U32)
    (tsns : List U32) (h : P a.inflightQueue) :
    P (AssociationInternal.ackGaps now a b htna tsns).1.inflightQueue := by
  refine ackGaps_keeps (P := fun a₁ => P a₁.inflightQueue)
    (fun a₁ t => hP.mark a₁.inflightQueue t) ?_ now a b htna tsns h
  intro a₁ now since h₁
  rwa [(quiet_measureRtt a₁ now since).inflightQueue]

theorem reportMissing (hP : SackKeeps P) (htna tsn : U32) (c : ChunkPayloadData)
    (h : P a.inflightQueue) : P (a.reportMissing htna tsn c).inflightQueue := by
  have hmiss := hP.miss _ tsn h
  unfold AssociationInternal.reportMissing
  split
  · dsimp only
    split
    · exact hmiss
    · exact hmiss
  · exact h

theorem processFastRetransmission (hP : SackKeeps P) (cum htna : U32) (advanced : Bool)
    (h : P a.inflightQueue) :
    P (a.processFastRetransmission cum htna advanced).1.inflightQueue :=
  processFastRetransmission_keeps (P := fun a₁ => P a₁.inflightQueue)
    (fun _ tsn c => hP.reportMissing htna tsn c) (fun _ h₁ => h₁) a cum advanced h

theorem processSelectiveAck (hP : SackKeeps P) (now : ℕ) (d : ChunkSelectiveAck)
    (h : P a.inflightQueue) : P (a.processSelectiveAck now d).1.inflightQueue := by
  have hpop := popAcked_queue hP.pop now d.cumulativeTsnAck (a.cumulativeTsnAckPoint + 1) a ∅ h
  unfold AssociationInternal.processSelectiveAck
  split
  · rename_i a₁ e heq
    rw [heq] at hpop
    exact hpop
  · rename_i a₁ b heq
    rw [heq] at hpop
    exact hP.ackGaps now b _ _ hpop

/-- **What a SACK keeps of the queue in flight**, whatever the answer. -/
theorem handleSack (hP : SackKeeps P) (now : ℕ) (d : ChunkSelectiveAck)
    (h : P a.inflightQueue) : P (a.handleSack now d).1.inflightQueue := by
  have hack := hP.processSelectiveAck now d h
  rcases handleSack_outcome a now d with
    heq | ⟨_, hd, ⟨a₁, e, hprocess, heq⟩ | ⟨a₁, b, htna, hprocess, hstage⟩⟩
  · rw [heq]
    exact h
  · rw [hprocess] at hack
    rw [heq]
    exact hack
  · rw [hprocess] at hack
    have happlied : P (a₁.applySack d b).inflightQueue := by
      rw [(applySack_of_processSelectiveAck hd hprocess).2]
      exact hack
    have hkept := hP.processFastRetransmission d.cumulativeTsnAck htna
      (sna32lt a.cumulativeTsnAckPoint d.cumulativeTsnAck) happlied
    rcases hstage with ⟨a₂, e, hfast, heq⟩ | ⟨a₂, hfast, heq⟩
    · rw [hfast] at hkept
      rw [heq]
      exact hkept
    · rw [hfast] at hkept
      rw [heq]
      dsimp only
      rw [postprocessSack_inflightQueue, (quiet_raiseAckPoint a₂).inflightQueue]
      exact hkept

end SackKeeps

theorem postprocessSack_frame (a : AssociationInternal) (state : AssociationState) :
    ∃ state' shutdown shutdownAck, (a.postprocessSack state).frame =
      { a.frame with
        state := state', willSendShutdown := shutdown, willSendShutdownAck := shutdownAck } := by
  unfold postprocessSack
  split_ifs <;> exact ⟨_, _, _, rfl⟩

/-- What neither the frame, nor the two points, nor the state of a shutdown bears on, no SACK
changes. -/
theorem handleSack_kept {β : Type*} {f : AssociationInternal → β}
    (hf : ∀ (b : AssociationInternal) cum adv state shutdown shutdownAck,
      f { b.frame with
        cumulativeTsnAckPoint := cum
        advancedPeerTsnAckPoint := adv
        state := state
        willSendShutdown := shutdown
        willSendShutdownAck := shutdownAck } = f b)
    (a : AssociationInternal) (now : ℕ) (d : ChunkSelectiveAck) :
    f (a.handleSack now d).1 = f a := by
  have hframe : ∀ b : AssociationInternal, f b.frame = f b := by
    intro b
    exact hf b b.cumulativeTsnAckPoint b.advancedPeerTsnAckPoint b.state b.willSendShutdown
      b.willSendShutdownAck
  rcases handleSack_cases a now d with heq | ⟨_, a', cum, adv, hmoved, _, heq⟩
  · rw [heq]
  · have hsame : f a' = f a := by
      rw [← hframe a', hmoved]
      exact hf a cum adv a.state a.willSendShutdown a.willSendShutdownAck
    rcases heq with heq | heq
    · rw [heq, hsame]
    · obtain ⟨state, shutdown, shutdownAck, hpost⟩ := postprocessSack_frame a' a.state
      rw [heq, ← hframe, hpost, ← hsame]
      exact hf a' a'.cumulativeTsnAckPoint a'.advancedPeerTsnAckPoint state shutdown shutdownAck

/-- The interval in flight survives every SACK answered with `Ok`. -/
theorem Sending.handleSack {now : ℕ} {d : ChunkSelectiveAck} {n : ℕ} (hs : a.Sending n)
    (h : (a.handleSack now d).2.isOk = true) :
    ∃ m ≤ n, (a.handleSack now d).1.Sending m := by
  rcases handleSack_ok hs h with heq | ⟨a', heq, hle, hframe, hwindow, hlabel⟩
  · rw [heq]
    exact ⟨n, Nat.le_refl n, hs⟩
  · refine ⟨n - Serial.dist a.cumulativeTsnAckPoint d.cumulativeTsnAck, by omega, ?_⟩
    rw [heq]
    obtain ⟨state', shutdown, shutdownAck, hpost⟩ := postprocessSack_frame a'.raiseAckPoint a.state
    have hraise := (quiet_raiseAckPoint a').frame
    have hcum : (a'.raiseAckPoint.postprocessSack a.state).cumulativeTsnAckPoint =
        d.cumulativeTsnAck := by
      show (a'.raiseAckPoint.postprocessSack a.state).frame.cumulativeTsnAckPoint = _
      rw [hpost, hraise]
      exact (congrArg cumulativeTsnAckPoint hframe :)
    have hnext : (a'.raiseAckPoint.postprocessSack a.state).myNextTsn = a.myNextTsn := by
      show (a'.raiseAckPoint.postprocessSack a.state).frame.myNextTsn = _
      rw [hpost, hraise]
      exact (congrArg myNextTsn hframe :)
    refine ⟨?_, ?_⟩
    · rw [postprocessSack_inflightQueue, (quiet_raiseAckPoint a').inflightQueue, hcum]
      exact hwindow
    · rw [hcum, hnext, hs.next]
      have hd := after_dist a.cumulativeTsnAckPoint d.cumulativeTsnAck
      rw [show d.cumulativeTsnAck.after _ = (a.cumulativeTsnAckPoint.after
        (Serial.dist a.cumulativeTsnAckPoint d.cumulativeTsnAck)).after _ by rw [hd], after_add]
      congr 1
      omega

end AssociationInternal

end Sctp
