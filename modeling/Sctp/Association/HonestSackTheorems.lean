import Sctp.Association.AcknowledgedTheorems
import Sctp.Association.GapBlocksTheorems

/-!
# The SACKs of an honest receiver are accepted

A SACK that acknowledges only TSNs in flight is answered with `Ok`. Those of a receiver do, however
late they come, as long as its gap ack blocks show what it holds.
-/

namespace Sctp

namespace AssociationInternal

variable {a : AssociationInternal} {now n : ℕ} {d : ChunkSelectiveAck}

/-! ## What a sender accepts -/

/-- The clock has not gone back behind the sending of a chunk. -/
def SentBy (q : PayloadQueue) (now : ℕ) : Prop := ∀ t c, q.get t = some c → c.since ≤ now

theorem SentBy.touched {q q' : PayloadQueue} (h : SentBy q now) (hq : q.Touched q') : SentBy q' now := by
  intro t c' hc'
  obtain ⟨c, hc, hlabel⟩ := hq.get_eq_some hc'
  have hsince : c.since = c'.since := (congrArg ChunkPayloadData.since hlabel :)
  rw [← hsince]
  exact h t c hc

theorem measureRtt_isOk {since : ℕ} (h : since ≤ now) : (a.measureRtt now since).2 = .ok () := by
  unfold measureRtt
  dsimp only
  rw [if_neg (Nat.not_lt.mpr h)]

theorem ackPopped_isOk {i : U32} {c : ChunkPayloadData} (h : c.since ≤ now) (b : BytesAcked) :
    ∃ a' b', a.ackPopped now i c b = (a', .ok b') := by
  unfold ackPopped
  split
  · exact ⟨_, _, rfl⟩
  · dsimp only
    generalize (if i = a.cumulativeTsnAckPoint + 1 then { a with t3rtx := a.t3rtx.stop } else a) = a₁
    split
    · have hmeasure := measureRtt_isOk (a := a₁) h
      rcases hm : a₁.measureRtt now c.since with ⟨a₂, e | u⟩
      · rw [hm] at hmeasure
        cases hmeasure
      · exact ⟨_, _, rfl⟩
    · exact ⟨_, _, rfl⟩

/-- The loop over the acknowledged chunks finds every one of them. -/
theorem popAcked_isOk {e base : U32} (hq : a.inflightQueue.Window base n)
    (hle : Serial.dist base e ≤ n) (he : Serial.dist base e < 2 ^ 31)
    (hclock : SentBy a.inflightQueue now) (b : BytesAcked) :
    ∃ a' b', popAcked now e (base + 1) a b = (a', .ok b') := by
  induction hd : Serial.dist base e generalizing base a b n with
  | zero =>
    have hlte : ¬ sna32lte (base + 1) e = true := by
      rw [sna32lte_succ_iff he]
      omega
    rw [popAcked, if_neg hlte]
    exact ⟨_, _, rfl⟩
  | succ d ih =>
    have hlte : sna32lte (base + 1) e = true := by
      rw [sna32lte_succ_iff he]
      omega
    have hnext := dist_succ_of_pos (i := base) (e := e) (by omega)
    obtain ⟨m, rfl⟩ : ∃ m, n = m + 1 := ⟨n - 1, by omega⟩
    obtain ⟨c, q, hpop, hget, hwindow, hrest⟩ := hq.pop
    obtain ⟨a₁, b₁, hack⟩ :=
      ackPopped_isOk (a := { a with inflightQueue := q }) (i := base + 1) (hclock _ c hget) b
    have hquiet := quiet_ackPopped { a with inflightQueue := q } now (base + 1) c b
    rw [hack] at hquiet
    have hq₁ : (a₁.exitFastRecovery c).inflightQueue = q :=
      (quiet_exitFastRecovery a₁ c).inflightQueue.trans hquiet.inflightQueue
    have hclock₁ : SentBy q now := by
      intro t c' hc'
      rw [hrest t] at hc'
      split at hc'
      · cases hc'
      · exact hclock t c' hc'
    rw [popAcked, if_pos hlte, hpop]
    dsimp only
    rw [hack]
    exact ih (by rw [hq₁]; exact hwindow) (by omega) (by omega) (by rw [hq₁]; exact hclock₁) b₁
      (by omega)

/-- The loop over the gap blocks finds every chunk they report. -/
theorem ackGaps_isOk {tsns : List U32} (hmem : ∀ t ∈ tsns, t ∈ a.inflightQueue.chunkMap)
    (hclock : SentBy a.inflightQueue now) (b : BytesAcked) (htna : U32) :
    ∃ a' r, ackGaps now a b htna tsns = (a', .ok r) := by
  induction tsns generalizing a b htna with
  | nil => exact ⟨_, _, rfl⟩
  | cons tsn tsns ih =>
    obtain ⟨c, hc⟩ : ∃ c, a.inflightQueue.get tsn = some c := by
      have hin := hmem tsn List.mem_cons_self
      rw [← AList.lookup_isSome, Option.isSome_iff_exists] at hin
      exact hin
    have hlater : ∀ t ∈ tsns, t ∈ a.inflightQueue.chunkMap :=
      fun t ht => hmem t (List.mem_cons_of_mem _ ht)
    rw [ackGaps, hc]
    dsimp only
    by_cases hacked : c.acked = true
    · rw [if_pos hacked]
      exact ih hlater hclock b htna
    · rw [if_neg hacked]
      have htouched : a.inflightQueue.Touched (a.inflightQueue.markAsAcked tsn).1 :=
        PayloadQueue.Touched.markAsAcked _ tsn
      generalize a.inflightQueue.markAsAcked tsn = marked at htouched ⊢
      -- the measurement does not fail, and changes no queue
      have hmeasure : ∃ a₁ : AssociationInternal,
          (if c.nsent = 1 then measureRtt { a with inflightQueue := marked.1 } now c.since
            else ({ a with inflightQueue := marked.1 }, .ok ())) = (a₁, .ok ()) ∧
          a₁.inflightQueue = marked.1 := by
        split
        · have hquiet := quiet_measureRtt { a with inflightQueue := marked.1 } now c.since
          have hok := measureRtt_isOk (a := { a with inflightQueue := marked.1 }) (hclock tsn c hc)
          exact ⟨_, Prod.ext rfl hok, hquiet.inflightQueue⟩
        · exact ⟨_, rfl, rfl⟩
      obtain ⟨a₁, heq, hqueue⟩ := hmeasure
      rw [heq]
      dsimp only
      refine ih (fun t ht => ?_) ?_ _ _
      · rw [hqueue]
        exact (htouched.mem_iff t).mpr (hlater t ht)
      · rw [hqueue]
        exact hclock.touched htouched

/-- **A SACK is accepted** if it acknowledges only chunks in flight. -/
theorem handleSack_isOk (hs : a.Sending n) (hn : n < 2 ^ 31) (hclock : SentBy a.inflightQueue now)
    (hcum : a.readsSack d = true → Serial.dist a.cumulativeTsnAckPoint d.cumulativeTsnAck ≤ n)
    (hgaps : a.readsSack d = true → ∀ t ∈ gapTsns d,
      0 < Serial.dist d.cumulativeTsnAck t ∧ Serial.dist d.cumulativeTsnAck t ≤
        n - Serial.dist a.cumulativeTsnAckPoint d.cumulativeTsnAck) :
    (a.handleSack now d).2.isOk = true := by
  by_cases hreads : a.readsSack d = true
  · have hdist := dist_lt_of_reads hreads
    obtain ⟨a₁, b₁, hpop⟩ := popAcked_isOk hs.window (hcum hreads) hdist hclock ∅
    obtain ⟨_, hwindow, hkept⟩ := popAcked_window hs.window hdist hpop
    have hmem : ∀ t ∈ gapTsns d, t ∈ a₁.inflightQueue.chunkMap := by
      intro t ht
      rw [hwindow.mem_window (by omega)]
      exact hgaps hreads t ht
    obtain ⟨a₂, ⟨b₂, htna⟩, hack⟩ := ackGaps_isOk hmem (fun t c hc => hclock t c (hkept t c hc)) b₁
      d.cumulativeTsnAck
    have hprocess : a.processSelectiveAck now d = (a₂, .ok (b₂, htna)) := by
      rw [processSelectiveAck_of_popAcked hpop]
      exact hack
    have hfast := hs.fastRetransmission_ok hn (by rw [sna32gt_iff]; omega) hprocess
    rcases handleSack_outcome a now d with heq | ⟨_, _, ⟨_, e, herr, _⟩ | ⟨a₃, b₃, htna₃, hok, hcases⟩⟩
    · rw [heq]
      rfl
    · rw [hprocess] at herr
      cases herr
    · rw [hprocess] at hok
      cases hok
      rcases hcases with ⟨_, _, herr, _⟩ | ⟨_, _, heq⟩
      · rw [herr] at hfast
        cases hfast
      · rw [heq]
        rfl
  · rw [handleSack_of_not_reads (by simpa using hreads)]
    rfl

/-! ## What a receiver reports -/

/-- The gap ack blocks report what is held, and nothing else. -/
theorem mem_gapTsns (h : a.Receiving) (hreach : a.HoldsInReach) {t : U32} :
    t ∈ gapTsns a.createSelectiveAckChunk.2 ↔ t ∈ a.payloadQueue.chunkMap := by
  have hunwrapped : a.payloadQueue.Unwrapped a.peerLastTsn := by
    refine ⟨fun t ht => ?_, fun t ht => ?_, h.queue.increasing⟩
    · obtain ⟨hle, hnear⟩ := hreach t ((h.queue.mem_iff t).mp ht)
      exact PayloadQueue.shownOffset_eq_dist hle hnear
    · -- the next TSN is missing
      have hpos := (h.queue.ahead t ht).1
      by_contra hlt
      have hone : t = a.peerLastTsn + 1 := by
        rw [← after_dist a.peerLastTsn t, show Serial.dist a.peerLastTsn t = 0 + 1 by omega, ← after_succ,
          after_zero]
      rw [hone] at ht
      exact h.next_missing ((h.queue.mem_iff _).mp ht)
  rw [(hunwrapped.describesHeld h.queue.mem_iff).held_iff t]
  unfold gapTsns
  rw [List.mem_flatMap]
  constructor
  · rintro ⟨b, hb, ht⟩
    obtain ⟨i, hi, rfl⟩ := List.mem_map.mp ht
    rw [List.mem_range'_1] at hi
    exact ⟨b, hb, i, by omega, by omega, rfl⟩
  · rintro ⟨b, hb, i, hfirst, hlast, rfl⟩
    refine ⟨b, hb, List.mem_map.mpr ⟨i, ?_, rfl⟩⟩
    rw [List.mem_range'_1]
    omega

end AssociationInternal

/-! ## Honest runs -/

namespace Link

open AssociationInternal SendLog ReadLog

variable {si : U16} {maxLen : ℕ} {first : U32} {l : Link} {op : LinkOp} {ops : List LinkOp}

/-- What has been accepted has been sent, and what the SACKs report has been accepted. -/
structure Backed (si : U16) (maxLen : ℕ) (first : U32) (l : Link) : Prop
    extends Truthful si maxLen first l where
  sent : ∀ t ∈ l.receiver.accepted, Serial.dist first t ≤ l.sender.assigned.length
  gaps : ∀ d ∈ l.sacks, ∀ t ∈ gapTsns d, t ∈ l.receiver.accepted ∧
    Serial.dist first d.cumulativeTsnAck < Serial.dist first t

theorem backed_start {a b : AssociationInternal} (h : a.MeetsFresh b si) :
    Backed si maxLen b.peerLastTsn (start a b) where
  toTruthful := truthful_start h
  sent _ ht := absurd ht List.not_mem_nil
  gaps _ hd := absurd hd List.not_mem_nil

/-- What is held lies behind the point, counted from the start, too. -/
theorem dist_lt_of_held {accepted : List U32} {a : AssociationInternal} (h : Receipt first accepted a)
    {t : U32} (ht : t ∈ a.payloadQueue.chunkMap) :
    t ∈ accepted ∧ Serial.dist first a.peerLastTsn < Serial.dist first t := by
  have hseen := (h.full.seen_iff t).mp (Or.inl ht)
  have hahead := h.receiving.queue.ahead t ((h.receiving.queue.mem_iff t).mpr ht)
  have hpoint : Serial.dist first a.peerLastTsn < 2 ^ 31 := h.full.near
  have hnear : Serial.dist first t < 2 ^ 31 := by
    rcases hseen with rfl | hin
    · rw [Serial.dist_self]
      decide
    · exact h.full.taken_near t hin
  have hbehind : Serial.dist first a.peerLastTsn < Serial.dist first t := by
    by_contra hle
    have hback : Serial.dist t a.peerLastTsn = _ := Serial.dist_sub (Nat.le_of_not_lt hle)
    have hne : t ≠ a.peerLastTsn := by
      rintro rfl
      rw [Serial.dist_self] at hahead
      omega
    have hforward := Serial.dist_comm_of_ne hne
    omega
  refine ⟨hseen.resolve_left ?_, hbehind⟩
  rintro rfl
  rw [Serial.dist_self] at hbehind
  omega

theorem Backed.step (h : Backed si maxLen first l) (hop : l.Permits si maxLen op)
    (hgenuine : l.Genuine op) (hreach : op = .reply → l.receiver.association.HoldsInReach)
    (hfew : l.sender.assigned.length < 2 ^ 31) : Backed si maxLen first (l.step si op) := by
  have htruthful := h.toTruthful.step hop hgenuine hfew
  cases op with
  | send op =>
    refine ⟨htruthful, fun t ht => Nat.le_trans (h.sent t ht) ?_, h.gaps⟩
    exact (l.sender.grows_step si op).assigned.length_le
  | receive op =>
    refine ⟨htruthful, fun t ht => ?_, fun d hd t ht => ?_⟩
    · rcases List.mem_append.mp ht with hold | hnew
      · exact h.sent t hold
      · cases op with
        | data d =>
          obtain ⟨i, c, hc, rfl⟩ := h.records.exists_arriving hop.1
          have hi := (List.getElem?_eq_some_iff.mp hc).1
          have htsn : t = first.after (1 + i) := by
            unfold handedOver at hnew
            dsimp only at hnew
            split at hnew
            · rw [List.mem_singleton.mp hnew]
              exact (h.records.tsns i c hc).trans (after_add first 1 i)
            · cases hnew
          rw [htsn, dist_after first (by omega)]
          show 1 + i ≤ l.sender.assigned.length
          omega
        | _ => cases hnew
    · obtain ⟨hin, hlt⟩ := h.gaps d hd t ht
      exact ⟨List.mem_append_left _ hin, hlt⟩
  | reply =>
    refine ⟨htruthful, h.sent, fun d hd t ht => ?_⟩
    rcases List.mem_append.mp hd with hold | hnew
    · exact h.gaps d hold t ht
    · have hsack : d = l.receiver.association.createSelectiveAckChunk.2 := List.mem_singleton.mp hnew
      rw [hsack, mem_gapTsns h.receipt.receiving (hreach rfl)] at ht
      rw [hsack]
      exact dist_lt_of_held h.receipt ht

/-- How far a SACK of the receiver goes. One that is looked at is not behind the ack point. -/
theorem Backed.exists_sack (h : Backed si maxLen first l) (hfew : l.sender.assigned.length < 2 ^ 31)
    {d : ChunkSelectiveAck} (hd : d ∈ l.sacks) :
    ∃ n p k, n < 2 ^ 31 ∧ l.sender.association.Sending n ∧
      l.sender.association.cumulativeTsnAckPoint = first.after p ∧ p + n = l.sender.assigned.length ∧
      d.cumulativeTsnAck = first.after k ∧ k ≤ l.sender.assigned.length ∧
      (l.sender.association.readsSack d = true → p ≤ k) := by
  obtain ⟨n, p, hn, hsending, hpoint, hlen⟩ := h.exists_inflight hfew
  obtain ⟨hnear, hcovered⟩ := h.sacks d hd
  obtain ⟨k, hk⟩ : ∃ k, k = Serial.dist first d.cumulativeTsnAck := ⟨_, rfl⟩
  have hcum : d.cumulativeTsnAck = first.after k := by rw [hk, after_dist]
  have hsent : k ≤ l.sender.assigned.length := by
    rw [hk]
    by_cases hzero : Serial.dist first d.cumulativeTsnAck = 0
    · omega
    · exact h.sent _ (hcovered _ (by omega) (Nat.le_refl _))
  refine ⟨n, p, k, hn, hsending, hpoint, hlen, hcum, hsent, fun hreads => ?_⟩
  have hdist := dist_lt_of_reads hreads
  by_contra hlt
  have hback := dist_after_after first (k := k) (m := p) (by omega) (by omega)
  have hne : first.after k ≠ first.after p := by
    intro heq
    rw [heq, Serial.dist_self] at hback
    omega
  have hforward := Serial.dist_comm_of_ne hne
  rw [hpoint, hcum] at hdist
  omega

/-- A SACK of the receiver is answered with `Ok`. -/
theorem Backed.sackOk (h : Backed si maxLen first l) (hfew : l.sender.assigned.length < 2 ^ 31)
    {now : ℕ} {d : ChunkSelectiveAck} (hd : d ∈ l.sacks)
    (hclock : SentBy l.sender.association.inflightQueue now) :
    l.sender.association.InBounds (.sack now d) := by
  obtain ⟨n, p, k, hn, hsending, hpoint, hlen, hcum, hsent, hle⟩ := h.exists_sack hfew hd
  have hok : (l.sender.association.handleSack now d).2.isOk = true := by
    refine handleSack_isOk hsending hn hclock (fun hreads => ?_) (fun hreads t ht => ?_)
    · rw [hpoint, hcum, dist_after_after first (hle hreads) (by omega)]
      omega
    · obtain ⟨hin, hlt⟩ := h.gaps d hd t ht
      have htsent := h.sent t hin
      have hp := hle hreads
      obtain ⟨m, hm⟩ : ∃ m, m = Serial.dist first t := ⟨_, rfl⟩
      rw [← hm] at hlt htsent
      rw [hcum, dist_after first (by omega)] at hlt
      rw [← after_dist first t, ← hm, hpoint, hcum, dist_after_after first (Nat.le_of_lt hlt) (by omega),
        dist_after_after first hp (by omega)]
      omega
  obtain ⟨m, hm, hafter⟩ := hsending.handleSack hok
  refine ⟨hok, ?_⟩
  show (l.sender.association.handleSack now d).1.inflightQueue.len < 2 ^ 31
  rw [hafter.window.len_eq]
  omega

theorem Backed.permits (h : Backed si maxLen first l) (hop : l.Honest si maxLen op)
    (hfew : l.sender.assigned.length < 2 ^ 31) : l.Permits si maxLen op ∧ l.Genuine op := by
  cases op with
  | send op =>
    cases op with
    | sack now d =>
      obtain ⟨hd, hclock⟩ := hop
      have hsentBy : SentBy l.sender.association.inflightQueue now :=
        fun t c hc => hclock c (AssocMap.mem_values_of_lookup hc)
      exact ⟨⟨⟨h.sackOk hfew hd hsentBy, trivial⟩, trivial⟩, hd⟩
    | _ => exact ⟨hop, trivial⟩
  | receive op => exact ⟨hop, trivial⟩
  | reply => exact ⟨trivial, trivial⟩

theorem grows_run (l : Link) (ops : List LinkOp) :
    l.sender.Grows (Runs.run (Link.step si) l ops).sender := by
  induction ops generalizing l with
  | nil => exact .refl _
  | cons op ops ih =>
    have hstep : l.sender.Grows (l.step si op).sender := by
      cases op with
      | send op => exact l.sender.grows_step si op
      | receive op => exact .refl _
      | reply => exact .refl _
    exact hstep.trans (ih _)

/-- So what else is proved of such a run does not depend on how SACKs are answered. -/
theorem permits_of_honest {a b : AssociationInternal} (h : a.MeetsFresh b si)
    (hops : Runs.Along (Link.step si) (Honest si maxLen) (start a b) ops)
    (hfew : (Runs.run (Link.step si) (start a b) ops).sender.assigned.length < 2 ^ 31) :
    Runs.Along (Link.step si) (fun l op => l.Permits si maxLen op ∧ l.Genuine op) (start a b) ops := by
  have hall : ∀ (l : Link) (ops : List LinkOp), Backed si maxLen b.peerLastTsn l →
      Runs.Along (Link.step si) (Honest si maxLen) l ops →
      (Runs.run (Link.step si) l ops).sender.assigned.length < 2 ^ 31 →
      Runs.Along (Link.step si) (fun l op => l.Permits si maxLen op ∧ l.Genuine op) l ops := by
    intro l ops
    induction ops generalizing l with
    | nil => exact fun _ _ _ => trivial
    | cons op ops ih =>
      intro hbacked ⟨hop, hrest⟩ hrun
      have hlen : l.sender.assigned.length ≤
          (Runs.run (Link.step si) l (op :: ops)).sender.assigned.length :=
        (grows_run l (op :: ops)).assigned.length_le
      have hboth := hbacked.permits hop (by omega)
      refine ⟨hboth, ih _ (hbacked.step hboth.1 hboth.2 ?_ (by omega)) hrest hrun⟩
      rintro rfl
      exact hop
  exact hall _ ops (backed_start h) hops hfew

/-- **No honest SACK is refused**: in every run of a sender, its receiver and a network that loses,
repeats and reorders what it carries both ways, every SACK is answered with `Ok`, if the receiver
builds none while it holds a TSN that its gap ack blocks cannot show. -/
theorem answersOk_of_honest {a b : AssociationInternal} (h : a.MeetsFresh b si)
    (hops : Runs.Along (Link.step si) (Honest si maxLen) (start a b) ops)
    (hfew : (Runs.run (Link.step si) (start a b) ops).sender.assigned.length < 2 ^ 31) :
    Runs.Along (Link.step si) AnswersOk (start a b) ops := by
  refine Runs.along_mono (fun l op hop => ?_) (permits_of_honest h hops hfew)
  cases op with
  | send op => exact hop.1.1.1.1
  | receive op => trivial
  | reply => trivial

/-- The second chunk of a message arrives, then the first; the SACK with the gap comes last. -/
def gapReported : List LinkOp :=
  let first : ChunkPayloadData :=
    { tsn := 1, streamIdentifier := 1, beginningFragment := true, userData := [1, 2]
      payloadType := .binary }
  let second : ChunkPayloadData :=
    { tsn := 2, streamIdentifier := 1, endingFragment := true, userData := [3], payloadType := .binary }
  let gap : ChunkSelectiveAck :=
    { cumulativeTsnAck := 0, advertisedReceiverWindowCredit := 0xfffff
      gapAckBlocks := [{ start := 2, end_ := 2 }], duplicateTsn := [] }
  let both : ChunkSelectiveAck :=
    { cumulativeTsnAck := 2, advertisedReceiverWindowCredit := 0xffffd, gapAckBlocks := []
      duplicateTsn := [] }
  [.receive (.data second), .reply, .send (.sack 3 gap), .receive (.data first), .reply,
    .send (.sack 5 both), .send (.sack 7 gap)]

/-- The two associations with TSNs that begin at 1. -/
def cuttingFromOne : AssociationInternal :=
  { cutting with myNextTsn := 1, cumulativeTsnAckPoint := 0, advancedPeerTsnAckPoint := 0 }

/-- The receiver that waits for TSN 1. -/
def awaitingOne : AssociationInternal := { awaiting with peerLastTsn := 0 }

theorem cuttingFromOne_meetsFresh (si : U16) : cuttingFromOne.MeetsFresh awaitingOne si :=
  { cutting_meetsFresh si with
    fresh := { (cutting_meetsFresh si).fresh with
      myNextTsn := by decide
      advancedPeerTsnAckPoint := rfl }
    firstTsn := by decide }

theorem answersOk_gapReported :
    Runs.Along (Link.step 1) AnswersOk (start cuttingFromOne awaitingOne) (threeSent ++ gapReported) := by
  have hops : Runs.Along (Link.step 1) (Honest 1 16) (start cuttingFromOne awaitingOne)
      (threeSent ++ gapReported) := by decide +kernel
  exact answersOk_of_honest (cuttingFromOne_meetsFresh 1) hops (by decide +kernel)

end Link

end Sctp
