import Sctp.Association.BufferedAmount
import Sctp.Association.InboundTheorems
import Sctp.Association.SkipReleaseTheorems

/-!
# What a SACK releases

`process_selective_ack` adds up, by stream identifier, the bytes of the chunks that it finds not
acknowledged yet. Where identifiers tell the chunks of a kind from the others, that is what
the kind loses in flight.
-/

namespace Sctp

/-- What is in flight and not acknowledged. -/
def ChunkPayloadData.isOutstanding (kind : ChunkPayloadData → Bool) (c : ChunkPayloadData) : Bool :=
  kind c && !c.acked

/-- The bytes of the chunk count for the kind exactly if they count for the identifier. -/
def ChunkPayloadData.CountsFor (kind : ChunkPayloadData → Bool) (si : U16) (c : ChunkPayloadData) :
    Prop :=
  c.bytesIf kind = if c.streamIdentifier = si then c.userData.length else 0

namespace AssociationInternal

theorem BytesAcked.lookup_add (b : BytesAcked) (si si' : U16) (n : ℕ) :
    ((b.add si n).lookup si').getD 0 = (b.lookup si').getD 0 + if si = si' then n else 0 := by
  unfold BytesAcked.add
  by_cases h : si = si'
  · rw [h, AList.lookup_insert, if_pos rfl]
    rfl
  · rw [AList.lookup_insert_ne (Ne.symm h), if_neg h]
    rfl

/-- What is outstanding of the kind goes down by what is added for the identifier, and no chunk
that is left has changed. -/
structure Credits (kind : ChunkPayloadData → Bool) (si : U16) (q q' : PayloadQueue)
    (b b' : BytesAcked) : Prop where
  bytes : q.bytesOf (·.isOutstanding kind) + (b.lookup si).getD 0 =
    q'.bytesOf (·.isOutstanding kind) + (b'.lookup si).getD 0
  kept : ∀ t c, q'.get t = some c → c.acked = false → q.get t = some c

namespace Credits

variable {kind : ChunkPayloadData → Bool} {si : U16} {q q' q'' : PayloadQueue}
  {b b' b'' : BytesAcked} {c : ChunkPayloadData} {t : U32}

theorem refl (kind : ChunkPayloadData → Bool) (si : U16) (q : PayloadQueue) (b : BytesAcked) :
    Credits kind si q q b b := ⟨rfl, fun _ _ hc _ => hc⟩

theorem trans (h : Credits kind si q q' b b') (h' : Credits kind si q' q'' b' b'') :
    Credits kind si q q'' b b'' where
  bytes := h.bytes.trans h'.bytes
  kept t c hc hacked := h.kept t c (h'.kept t c hc hacked) hacked

/-- A chunk that is not acknowledged yet is added. -/
theorem bytesIf_eq (hcounts : c.CountsFor kind si) (hacked : c.acked = false) (b : BytesAcked) :
    c.bytesIf (·.isOutstanding kind) + (b.lookup si).getD 0 =
      ((b.add c.streamIdentifier c.userData.length).lookup si).getD 0 := by
  have hsame : c.bytesIf (·.isOutstanding kind) = c.bytesIf kind := by
    have hkind : c.isOutstanding kind = kind c := by
      unfold ChunkPayloadData.isOutstanding
      rw [hacked, Bool.not_false, Bool.and_true]
    show (if c.isOutstanding kind then _ else _) = if kind c then _ else _
    rw [hkind]
  unfold ChunkPayloadData.CountsFor at hcounts
  rw [BytesAcked.lookup_add, hsame, hcounts]
  omega

theorem pop (hpop : q.pop t = (q', some c)) (hcounts : c.acked = false → c.CountsFor kind si)
    (b : BytesAcked) :
    Credits kind si q q' b
      (if c.acked then b else b.add c.streamIdentifier c.userData.length) where
  bytes := by
    have hbytes := @PayloadQueue.bytesOf_pop (·.isOutstanding kind) q t
    rw [hpop] at hbytes
    have hq : q.bytesOf (·.isOutstanding kind) =
        q'.bytesOf (·.isOutstanding kind) + c.bytesIf (·.isOutstanding kind) := hbytes
    cases hacked : c.acked with
    | true =>
      have hnone : c.bytesIf (·.isOutstanding kind) = 0 := by
        apply ChunkPayloadData.bytesIf_of_not
        unfold ChunkPayloadData.isOutstanding
        rw [hacked, Bool.not_true, Bool.and_false]
      rw [if_pos rfl]
      omega
    | false =>
      have hadd := bytesIf_eq (hcounts hacked) hacked b
      rw [if_neg Bool.false_ne_true]
      omega
  kept t' c' hc' _ := by
    have hsub := @PayloadQueue.get_of_pop c' q t t'
    rw [hpop] at hsub
    exact hsub hc'

theorem markAsAcked (hget : q.get t = some c) (hacked : c.acked = false)
    (hcounts : c.CountsFor kind si) (b : BytesAcked) :
    Credits kind si q (q.markAsAcked t).1 b (b.add c.streamIdentifier c.userData.length) where
  bytes := by
    have hbytes := @PayloadQueue.bytesOf_markAsAcked (·.isOutstanding kind) c q t hget
    have hadd := bytesIf_eq hcounts hacked b
    omega
  kept t' c' hc' hacked' := by
    unfold PayloadQueue.markAsAcked at hc'
    have hlookup : q.chunkMap.lookup t = some c := hget
    rw [hlookup] at hc'
    have hmod : (AssocMap.modify t (fun c =>
        { c with acked := true, retransmit := false, userData := [] }) q.chunkMap).lookup t' =
          some c' := hc'
    by_cases hne : t' = t
    · rw [hne, AssocMap.lookup_modify_self, hlookup] at hmod
      cases hmod
      cases hacked'
    · rw [AssocMap.lookup_modify_ne hne] at hmod
      exact hmod

end Credits

/-! ## The two loops -/

variable {a a' : AssociationInternal} {kind : ChunkPayloadData → Bool} {si : U16} {now : ℕ}

theorem objects_measureRtt (a : AssociationInternal) (now since : ℕ) :
    (a.measureRtt now since).1.objects = a.objects := by
  unfold measureRtt
  split <;> rfl

theorem ackPopped_ok {i : U32} {c : ChunkPayloadData} {b b' : BytesAcked}
    (h : a.ackPopped now i c b = (a', .ok b')) :
    a'.objects = a.objects ∧
      b' = if c.acked then b else b.add c.streamIdentifier c.userData.length := by
  unfold ackPopped at h
  split at h
  · rename_i hacked
    cases h
    exact ⟨rfl, (if_pos hacked).symm⟩
  · rename_i hacked
    dsimp only at h
    have hstop : (if i = a.cumulativeTsnAckPoint + 1 then { a with t3rtx := a.t3rtx.stop }
        else a).objects = a.objects := by
      split <;> rfl
    generalize (if i = a.cumulativeTsnAckPoint + 1 then { a with t3rtx := a.t3rtx.stop } else a) =
      a₁ at h hstop
    split at h
    · have hrtt := a₁.objects_measureRtt now c.since
      split at h
      · cases h
      · rename_i heq
        rw [heq] at hrtt
        cases h
        exact ⟨hrtt.trans hstop, (if_neg hacked).symm⟩
    · cases h
      exact ⟨hstop, (if_neg hacked).symm⟩

theorem objects_exitFastRecovery (a : AssociationInternal) (c : ChunkPayloadData) :
    (a.exitFastRecovery c).objects = a.objects := by
  unfold exitFastRecovery
  split <;> rfl

/-- The loop over the acknowledged chunks, for the queue and the bytes added up so far. `I` holds
of the TSNs the loop comes to. -/
theorem popAcked_rule {I : U32 → Prop} {R : PayloadQueue → BytesAcked → Prop} {e : U32}
    (hnext : ∀ t, I t → sna32lte t e = true → I (t + 1))
    (hpop : ∀ t q q' c b, I t → sna32lte t e = true → q.pop t = (q', some c) → R q b →
      R q' (if c.acked then b else b.add c.streamIdentifier c.userData.length))
    {i : U32} {b b' : BytesAcked} (h : popAcked now e i a b = (a', .ok b')) (hi : I i)
    (hR : R a.inflightQueue b) : R a'.inflightQueue b' ∧ a'.objects = a.objects := by
  induction i, a, b using popAcked.induct now e with
  | case1 i a b hlte q hq =>
    rw [popAcked, if_pos hlte, hq] at h
    cases h
  | case2 i a b hlte q c hq a₁ err hacked =>
    rw [popAcked, if_pos hlte, hq] at h
    dsimp only at h
    rw [hacked] at h
    cases h
  | case3 i a b hlte q c hq a₁ b₁ hacked ih =>
    rw [popAcked, if_pos hlte, hq] at h
    dsimp only at h
    rw [hacked] at h
    obtain ⟨hobjects, hb₁⟩ := ackPopped_ok hacked
    have hflight := (quiet_ackPopped { a with inflightQueue := q } now i c b).inflightQueue
    rw [hacked] at hflight
    have hq₁ : (a₁.exitFastRecovery c).inflightQueue = q :=
      (quiet_exitFastRecovery a₁ c).inflightQueue.trans hflight
    have hfirst := hpop i _ q c b hi hlte hq hR
    rw [← hb₁, ← hq₁] at hfirst
    obtain ⟨hrest, hobjects'⟩ := ih h (hnext i hi hlte) hfirst
    exact ⟨hrest, hobjects'.trans ((a₁.objects_exitFastRecovery c).trans hobjects)⟩
  | case4 i a b hlte =>
    rw [popAcked, if_neg hlte] at h
    cases h
    exact ⟨hR, rfl⟩

/-- The loop over the TSNs of the gap blocks. -/
theorem ackGaps_rule {R : PayloadQueue → BytesAcked → Prop} {tsns : List U32}
    (hmark : ∀ t ∈ tsns, ∀ q c b, q.get t = some c → c.acked = false → R q b →
      R (q.markAsAcked t).1 (b.add c.streamIdentifier c.userData.length))
    {b b' : BytesAcked} {htna htna' : U32} (h : ackGaps now a b htna tsns = (a', .ok (b', htna')))
    (hR : R a.inflightQueue b) : R a'.inflightQueue b' ∧ a'.objects = a.objects := by
  induction tsns generalizing a b htna with
  | nil =>
    cases h
    exact ⟨hR, rfl⟩
  | cons tsn tsns ih =>
    have hlater := fun t ht => hmark t (List.mem_cons_of_mem tsn ht)
    rw [ackGaps] at h
    split at h
    · cases h
    · rename_i c hget
      split at h
      · exact ih hlater h hR
      · rename_i hacked
        rw [Bool.not_eq_true] at hacked
        have hfirst := hmark tsn List.mem_cons_self a.inflightQueue c b hget hacked hR
        have hbytes : (a.inflightQueue.markAsAcked tsn).2 = c.userData.length := by
          have hlookup : a.inflightQueue.chunkMap.lookup tsn = some c := hget
          unfold PayloadQueue.markAsAcked
          rw [hlookup]
        rw [← hbytes] at hfirst
        generalize a.inflightQueue.markAsAcked tsn = marked at h hfirst
        dsimp only at h
        have hquiet : Quiet { a with inflightQueue := marked.1 }
            (if c.nsent = 1 then measureRtt { a with inflightQueue := marked.1 } now c.since
              else ({ a with inflightQueue := marked.1 }, .ok ())).1 ∧
            (if c.nsent = 1 then measureRtt { a with inflightQueue := marked.1 } now c.since
              else ({ a with inflightQueue := marked.1 }, .ok ())).1.objects = a.objects := by
          split
          · exact ⟨quiet_measureRtt _ now c.since, objects_measureRtt _ now c.since⟩
          · exact ⟨Quiet.refl _, rfl⟩
        generalize (if c.nsent = 1 then measureRtt { a with inflightQueue := marked.1 } now c.since
              else ({ a with inflightQueue := marked.1 }, .ok ())) = m at hquiet h
        obtain ⟨hquiet, hobjects⟩ := hquiet
        split at h
        · cases h
        · have hflight : m.1.inflightQueue = marked.1 := hquiet.inflightQueue
          rw [← hflight] at hfirst
          obtain ⟨hrest, hobjects'⟩ := ih hlater h hfirst
          exact ⟨hrest, hobjects'.trans hobjects⟩

/-- A TSN the first loop comes to is covered, and the next one is one further. -/
theorem dist_le_of_sna32lte {base t e : U32} (he : Serial.dist base e < 2 ^ 31)
    (ht : Serial.dist base t ≤ Serial.dist base e + 1) (h : sna32lte t e = true) :
    Serial.dist base t ≤ Serial.dist base e ∧ Serial.dist base (t + 1) = Serial.dist base t + 1 := by
  have hleft := (sna32lte_iff t e).mp h
  have hone : Serial.dist t (t + 1) = 1 := Serial.dist_add_ofNat t (k := 1) (by decide)
  have hwhole : Serial.dist base e = Serial.dist base t + Serial.dist t e :=
    Serial.dist_add (by omega)
  have hnext : Serial.dist base (t + 1) = Serial.dist base t + Serial.dist t (t + 1) :=
    Serial.dist_add (by omega)
  omega

/-- The two loops of `process_selective_ack`, for the queue and the bytes added up so far. The
chunks that are popped or marked are covered. -/
theorem processSelectiveAck_rule {R : PayloadQueue → BytesAcked → Prop} {d : ChunkSelectiveAck}
    {b : BytesAcked} {htna : U32}
    (hd : Serial.dist a.cumulativeTsnAckPoint d.cumulativeTsnAck < 2 ^ 31)
    (hpop : ∀ t q q' c b, a.covers d t → q.pop t = (q', some c) → R q b →
      R q' (if c.acked then b else b.add c.streamIdentifier c.userData.length))
    (hmark : ∀ t q c b, a.covers d t → q.get t = some c → c.acked = false → R q b →
      R (q.markAsAcked t).1 (b.add c.streamIdentifier c.userData.length))
    (h : a.processSelectiveAck now d = (a', .ok (b, htna))) (hR : R a.inflightQueue ∅) :
    R a'.inflightQueue b ∧ a'.objects = a.objects := by
  unfold processSelectiveAck at h
  split at h
  · cases h
  · rename_i a₁ b₁ hfirst
    -- the loop comes to the TSNs after the ack point, and to one more
    have hone : Serial.dist a.cumulativeTsnAckPoint (a.cumulativeTsnAckPoint + 1) = 1 :=
      Serial.dist_add_ofNat _ (k := 1) (by decide)
    obtain ⟨hpopped, hobjects⟩ := popAcked_rule (R := R)
      (I := fun t => 0 < Serial.dist a.cumulativeTsnAckPoint t ∧
        Serial.dist a.cumulativeTsnAckPoint t ≤
          Serial.dist a.cumulativeTsnAckPoint d.cumulativeTsnAck + 1)
      (fun t hin hlte => by
        have hcovered := dist_le_of_sna32lte hd hin.2 hlte
        omega)
      (fun t q q' c b hin hlte hq hsofar =>
        hpop t q q' c b (Or.inl ⟨hin.1, (dist_le_of_sna32lte hd hin.2 hlte).1⟩) hq hsofar)
      hfirst (by omega) hR
    obtain ⟨hmarked, hobjects'⟩ := ackGaps_rule (R := R)
      (fun t ht q c b hget hacked hsofar => hmark t q c b (Or.inr ht) hget hacked hsofar) h hpopped
    exact ⟨hmarked, hobjects'.trans hobjects⟩

/-- **What a SACK credits** to an identifier is what the kind loses. -/
theorem processSelectiveAck_credits {d : ChunkSelectiveAck} {b : BytesAcked} {htna : U32}
    (hd : Serial.dist a.cumulativeTsnAckPoint d.cumulativeTsnAck < 2 ^ 31)
    (h : a.processSelectiveAck now d = (a', .ok (b, htna)))
    (hcounts : ∀ t c, a.covers d t → a.inflightQueue.get t = some c → c.acked = false →
      c.CountsFor kind si) :
    Credits kind si a.inflightQueue a'.inflightQueue ∅ b ∧ a'.objects = a.objects := by
  refine processSelectiveAck_rule (R := fun q b => Credits kind si a.inflightQueue q ∅ b) hd
    ?_ ?_ h (Credits.refl kind si a.inflightQueue ∅)
  · intro t q q' c b hcovered hq hsofar
    have hget := PayloadQueue.get_of_pop_eq_some hq
    refine hsofar.trans (Credits.pop hq (fun hacked => ?_) b)
    exact hcounts t c hcovered (hsofar.kept t c hget hacked) hacked
  · intro t q c b hcovered hget hacked hsofar
    have hcount := hcounts t c hcovered (hsofar.kept t c hget hacked) hacked
    exact hsofar.trans (Credits.markAsAcked hget hacked hcount b)

/-! ## The rest of the handler -/

/-- The streams are as before, and the chunks in flight but for the sender's notes. -/
structure Notes (a a' : AssociationInternal) : Prop where
  objects : a'.objects = a.objects
  payloads : a.inflightQueue.SamePayloads a'.inflightQueue

theorem Notes.refl (a : AssociationInternal) : Notes a a :=
  ⟨rfl, PayloadQueue.SamePayloads.refl _⟩

theorem Notes.trans {a₁ a₂ a₃ : AssociationInternal} (h : Notes a₁ a₂) (h' : Notes a₂ a₃) :
    Notes a₁ a₃ := ⟨h'.objects.trans h.objects, h.payloads.trans h'.payloads⟩

/-- Fast retransmission counts the reports at the chunks that are missing, and takes its own
notes. -/
theorem notes_processFastRetransmission (a : AssociationInternal) (cum htna : U32)
    (advanced : Bool) : Notes a (a.processFastRetransmission cum htna advanced).1 := by
  have hsame : ∀ b c : AssociationInternal, c.objects = b.objects →
      c.inflightQueue = b.inflightQueue → Notes a b → Notes a c := by
    intro b c hobjects hflight h
    refine h.trans ⟨hobjects, ?_⟩
    rw [hflight]
    exact PayloadQueue.SamePayloads.refl _
  refine processFastRetransmission_keeps (P := Notes a) (reportMissing_keeps ?_ ?_ htna) ?_ a cum
    advanced (Notes.refl a)
  · intro b t h
    exact h.trans ⟨rfl, PayloadQueue.SamePayloads.getMut _ _ fun _ => rfl⟩
  · exact fun b _ _ h => hsame b _ rfl rfl h
  · exact fun b h => hsame b _ rfl rfl h

theorem notes_afterwards (a : AssociationInternal) (state : AssociationState) :
    Notes a (a.raiseAckPoint.postprocessSack state) := by
  refine ⟨?_, ?_⟩
  · rw [postprocessSack_kept (f := objects) (fun _ _ _ _ _ => rfl)]
    exact raiseAckPoint_kept (f := objects) (fun _ _ _ => rfl) a
  · rw [postprocessSack_inflightQueue, (quiet_raiseAckPoint a).inflightQueue]
    exact PayloadQueue.SamePayloads.refl _

theorem readsSack_iff {d : ChunkSelectiveAck} : a.readsSack d = true ↔
    (a.state = .established ∨ a.state = .shutdownPending ∨ a.state = .shutdownReceived) ∧
      sna32gt a.cumulativeTsnAckPoint d.cumulativeTsnAck = false := by
  unfold readsSack
  simp [or_assoc]

theorem dist_lt_of_reads {d : ChunkSelectiveAck} (hreads : a.readsSack d = true) :
    Serial.dist a.cumulativeTsnAckPoint d.cumulativeTsnAck < 2 ^ 31 := by
  have hnot : ¬ sna32gt a.cumulativeTsnAckPoint d.cumulativeTsnAck = true := by
    simp [(readsSack_iff.mp hreads).2]
  rw [sna32gt_iff] at hnot
  omega

theorem handleSack_of_not_reads {d : ChunkSelectiveAck} (h : a.readsSack d = false) :
    a.handleSack now d = (a, .ok []) := by
  unfold handleSack
  dsimp only
  split
  · rfl
  · rename_i hstate
    split
    · rfl
    · rename_i hgt
      have hreads : a.readsSack d = true := by
        rw [readsSack_iff]
        refine ⟨?_, by simpa using hgt⟩
        by_contra hnot
        push Not at hnot
        exact hstate hnot
      rw [h] at hreads
      cases hreads

/-- The stages of a SACK that is looked at. -/
theorem handleSack_eq_of_reads {d : ChunkSelectiveAck} (hreads : a.readsSack d = true) :
    a.handleSack now d =
      match a.processSelectiveAck now d with
      | (b, .error e) => (b, .error e)
      | (b, .ok (bytesAcked, htna)) =>
        match (b.applySack d bytesAcked).processFastRetransmission d.cumulativeTsnAck htna
          (sna32lt a.cumulativeTsnAckPoint d.cumulativeTsnAck) with
        | (b, .error e) => (b, .error e)
        | (b, .ok ()) => (b.raiseAckPoint.postprocessSack a.state, .ok []) := by
  obtain ⟨hstate, hgt⟩ := readsSack_iff.mp hreads
  have hstate' : ¬ (a.state ≠ .established ∧ a.state ≠ .shutdownPending ∧
      a.state ≠ .shutdownReceived) := by
    rintro ⟨h1, h2, h3⟩
    rcases hstate with h | h | h
    · exact h1 h
    · exact h2 h
    · exact h3 h
  unfold handleSack
  dsimp only
  rw [if_neg hstate', hgt]
  exact if_neg Bool.false_ne_true

/-- Where the answer is `Ok`, every stage went through. -/
theorem handleSack_stages {d : ChunkSelectiveAck} (hreads : a.readsSack d = true)
    (hok : (a.handleSack now d).2.isOk = true) :
    ∃ b bytesAcked htna b', a.processSelectiveAck now d = (b, .ok (bytesAcked, htna)) ∧
      (b.applySack d bytesAcked).processFastRetransmission d.cumulativeTsnAck htna
        (sna32lt a.cumulativeTsnAckPoint d.cumulativeTsnAck) = (b', .ok ()) ∧
      a.handleSack now d = (b'.raiseAckPoint.postprocessSack a.state, .ok []) := by
  rw [handleSack_eq_of_reads hreads] at hok ⊢
  split at hok
  · cases hok
  · rename_i b bytesAcked htna hprocess
    split at hok
    · cases hok
    · rename_i b' hfast
      exact ⟨b, bytesAcked, htna, b', hprocess, hfast, rfl⟩

theorem handleSack_of_reads {d : ChunkSelectiveAck} (hreads : a.readsSack d = true)
    (hok : (a.handleSack now d).2.isOk = true) :
    ∃ b bytesAcked htna, a.processSelectiveAck now d = (b, .ok (bytesAcked, htna)) ∧
      Notes (b.applySack d bytesAcked) (a.handleSack now d).1 := by
  obtain ⟨b, bytesAcked, htna, b', hprocess, hfast, hresult⟩ := handleSack_stages hreads hok
  refine ⟨b, bytesAcked, htna, hprocess, ?_⟩
  have hnotes := notes_processFastRetransmission (b.applySack d bytesAcked) d.cumulativeTsnAck
    htna (sna32lt a.cumulativeTsnAckPoint d.cumulativeTsnAck)
  rw [hfast] at hnotes
  rw [hresult]
  exact hnotes.trans (notes_afterwards b' a.state)

/-- The ack point is then the one of the SACK. -/
theorem cumulativeTsnAckPoint_handleSack {d : ChunkSelectiveAck} (hreads : a.readsSack d = true)
    (hok : (a.handleSack now d).2.isOk = true) :
    (a.handleSack now d).1.cumulativeTsnAckPoint = d.cumulativeTsnAck := by
  obtain ⟨b, bytesAcked, htna, b', hprocess, hfast, hresult⟩ := handleSack_stages hreads hok
  have happly := (applySack_of_processSelectiveAck (dist_lt_of_reads hreads) hprocess).1
  have hmissing := (touches_processFastRetransmission (b.applySack d bytesAcked)
    d.cumulativeTsnAck htna (sna32lt a.cumulativeTsnAckPoint d.cumulativeTsnAck)).frame
  rw [hfast] at hmissing
  rw [hresult]
  dsimp only
  rw [postprocessSack_kept (f := cumulativeTsnAckPoint) (fun _ _ _ _ _ => rfl),
    raiseAckPoint_kept (f := cumulativeTsnAckPoint) (fun _ _ _ => rfl)]
  exact (congrArg cumulativeTsnAckPoint (hmissing.trans happly) :)

/-! ## The streams -/

theorem applySack_objects_eq (a : AssociationInternal) (d : ChunkSelectiveAck) (b : BytesAcked) :
    ∃ a₁ : AssociationInternal, a₁.objects = a.objects ∧ a₁.streams = a.streams ∧
      (a.applySack d b).objects = (b.entries.foldl
        (fun a e => a.modifyStream e.1 fun s => (s.onBufferReleased e.2).1) a₁).objects := by
  unfold applySack
  dsimp only
  refine ⟨_, ?_, ?_, rfl⟩
  · split
    · unfold onCumulativeTsnAckPointAdvanced
      dsimp only
      split_ifs <;> rfl
    · rfl
  · split
    · unfold onCumulativeTsnAckPointAdvanced
      dsimp only
      split_ifs <;> rfl
    · rfl

/-- A registered stream is told how much of its identifier is acknowledged. -/
theorem objects_applySack {r : StreamRef} {s : Stream} (d : ChunkSelectiveAck) (b : BytesAcked)
    (hsi : a.streams.lookup si = some r) (honly : ∀ si', a.streams.lookup si' = some r → si' = si)
    (hs : a.objects[r]? = some s) :
    (a.applySack d b).objects[r]? = some (s.onBufferReleased ((b.lookup si).getD 0)).1 := by
  obtain ⟨a₁, hobjects, hstreams, heq⟩ := a.applySack_objects_eq d b
  rw [← hobjects] at hs
  have hfold := (objects_modifyStreams (a := a₁) (fun e : Sigma fun _ : U16 => ℕ => e.1)
    (fun e s => (s.onBufferReleased e.2).1) b.entries hs).2
  rw [heq, hfold]
  have hkey : (fun e : Sigma fun _ : U16 => ℕ => decide (a₁.streams.lookup e.1 = some r)) =
      fun e => decide (e.1 = si) := by
    funext e
    rw [hstreams, decide_eq_decide]
    constructor
    · exact honly e.1
    · intro he
      rw [he]
      exact hsi
  rw [hkey, AssocMap.filter_entries]
  cases b.lookup si with
  | none => rfl
  | some n => rfl

end AssociationInternal

end Sctp
