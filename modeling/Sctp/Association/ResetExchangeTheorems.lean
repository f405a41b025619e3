import Sctp.Association.ResetPacketTheorems

/-!
# No reset request is lost

An endpoint asks: its RSNs are distinct, and what it stores and sends are requests it has
issued. Its peer serves: what it keeps are such requests, and it has answered only requests it
keeps or has performed. Both are kept by every step, and a response takes a request out of the
store only once it is kept or performed.
-/

namespace Sctp

theorem PerformedIn.mono {out out' : List Packet} {p : ParamOutgoingResetRequest}
    (h : PerformedIn out p) (hsub : ∀ packet ∈ out, packet ∈ out') : PerformedIn out' p := by
  obtain ⟨packet, hpacket, hc⟩ := h
  exact ⟨packet, hsub packet hpacket, hc⟩

namespace AssociationInternal

variable {a a' : AssociationInternal}

/-! ## One request after the other -/

/-- What the look at one request keeps together with its answer, the look at all keeps. -/
theorem recheck_invariant {I : AssociationInternal → List Packet → Prop} {out : List Packet}
    (hone : ∀ b out p, p ∈ a.reconfigRequests.values → I b out →
      I (b.resetStreamsIfAny p).1 (out ++ [(b.resetStreamsIfAny p).2]))
    (h : I a out) : I a.recheckReconfigRequests.1 (out ++ a.recheckReconfigRequests.2) := by
  have hround : ∀ (l : List ParamOutgoingResetRequest) (s : AssociationInternal × List Packet),
      (∀ p ∈ l, p ∈ a.reconfigRequests.values) → I s.1 (out ++ s.2) →
      I (l.foldl (fun (s : AssociationInternal × List Packet) rstReq =>
          ((s.1.resetStreamsIfAny rstReq).1, s.2 ++ [(s.1.resetStreamsIfAny rstReq).2])) s).1
        (out ++ (l.foldl (fun (s : AssociationInternal × List Packet) rstReq =>
          ((s.1.resetStreamsIfAny rstReq).1, s.2 ++ [(s.1.resetStreamsIfAny rstReq).2])) s).2) := by
    intro l
    induction l with
    | nil => exact fun s _ hs => hs
    | cons p l ih =>
      intro s hmem hs
      refine ih _ (fun q hq => hmem q (List.mem_cons_of_mem _ hq)) ?_
      rw [← List.append_assoc]
      exact hone s.1 _ p (hmem p List.mem_cons_self) hs
  have hstart : I a (out ++ []) := by
    rw [List.append_nil]
    exact h
  exact hround a.reconfigRequests.values (a, []) (fun p hp => hp) hstart

/-- The look at a request leaves the endpoint's own ones, and answers with a response to it. -/
theorem resetStreamsIfAny_answer (a : AssociationInternal) (p : ParamOutgoingResetRequest) :
    (a.resetStreamsIfAny p).1.reconfigs = a.reconfigs ∧
      (a.resetStreamsIfAny p).1.myNextRsn = a.myNextRsn ∧
      ((sna32lte p.senderLastTsn a.peerLastTsn = true ∧
          (a.resetStreamsIfAny p).1.reconfigRequests =
            a.reconfigRequests.erase p.reconfigRequestSequenceNumber ∧
          (a.resetStreamsIfAny p).2.chunks = [.reconfig (.ofResponse
            { reconfigResponseSequenceNumber := p.reconfigRequestSequenceNumber
              result := .successPerformed })]) ∨
        (a.resetStreamsIfAny p).1.reconfigRequests = a.reconfigRequests ∧
          (a.resetStreamsIfAny p).2.chunks = [.reconfig (.ofResponse
            { reconfigResponseSequenceNumber := p.reconfigRequestSequenceNumber
              result := .inProgress })]) := by
  have hstreams := resetFrame_ignoresStreams.unregisterStreams a p.streamIdentifiers
  have hreconfigs := (congrArg (fun t => t.1.1) hstreams :)
  have hnext := (congrArg (fun t => t.1.2.2) hstreams :)
  have hrequests := (congrArg (fun t => t.1.2.1) hstreams :)
  unfold resetStreamsIfAny
  split
  · rename_i hdue
    refine ⟨hreconfigs, hnext, Or.inl ⟨hdue, ?_, rfl⟩⟩
    exact congrArg (AList.erase p.reconfigRequestSequenceNumber) hrequests
  · exact ⟨rfl, rfl, Or.inr ⟨rfl, rfl⟩⟩

/-- Both answers are responses with the request's number. -/
theorem chunks_resetStreamsIfAny (a : AssociationInternal) (p : ParamOutgoingResetRequest) :
    ∃ r, r.reconfigResponseSequenceNumber = p.reconfigRequestSequenceNumber ∧
      (a.resetStreamsIfAny p).2.chunks = [.reconfig (.ofResponse r)] := by
  rcases (resetStreamsIfAny_answer a p).2.2 with ⟨_, _, hchunks⟩ | ⟨_, hchunks⟩
  · exact ⟨_, rfl, hchunks⟩
  · exact ⟨_, rfl, hchunks⟩

/-- A request is remembered, and its streams are reset if they may be already. -/
theorem handleReconfig_ofRequest (a : AssociationInternal) (p : ParamOutgoingResetRequest) :
    a.handleReconfig (.ofRequest p) =
      (({ a with
          reconfigRequests := a.reconfigRequests.insert p.reconfigRequestSequenceNumber p
          }.resetStreamsIfAny p).1,
        .ok [({ a with
          reconfigRequests := a.reconfigRequests.insert p.reconfigRequestSequenceNumber p
          }.resetStreamsIfAny p).2]) := rfl

/-- A response settles the request of its number and is not answered. -/
theorem handleReconfig_ofResponse (a : AssociationInternal) (r : ParamReconfigResponse) :
    (a.handleReconfig (.ofResponse r)).1.resetTable =
        (a.reconfigs.erase r.reconfigResponseSequenceNumber, a.reconfigRequests, a.myNextRsn) ∧
      answer (a.handleReconfig (.ofResponse r)) = [] := by
  unfold handleReconfig ChunkReconfig.ofResponse handleReconfigParam? handleReconfigParam
  dsimp only
  split
  · exact ⟨rfl, rfl⟩
  · exact ⟨rfl, rfl⟩

/-! ## Asking -/

/-- Every RECONFIG chunk in the packets is one of the requests or a response. -/
def Carries (l : List ParamOutgoingResetRequest) (out : List Packet) : Prop :=
  ∀ packet ∈ out, ∀ c, .reconfig c ∈ packet.chunks →
    (∃ p ∈ l, c = .ofRequest p) ∨ ∃ r, c = .ofResponse r

theorem Carries.append {l : List ParamOutgoingResetRequest} {out new : List Packet}
    (h : Carries l out) (hnew : Carries l new) : Carries l (out ++ new) := by
  intro packet hpacket
  rcases List.mem_append.mp hpacket with hold | hpacket
  · exact h packet hold
  · exact hnew packet hpacket

/-- The endpoint has issued the requests `l`, numbered from `base` on. -/
structure Asks (base : U32) (l : List ParamOutgoingResetRequest) (a : AssociationInternal)
    (out : List Packet) : Prop where
  numbers : l.map ParamOutgoingResetRequest.reconfigRequestSequenceNumber =
    (List.range l.length).map base.after
  next : a.myNextRsn = base.after l.length
  stored : ∀ k c, a.reconfigs.lookup k = some c →
    ∃ p ∈ l, p.reconfigRequestSequenceNumber = k ∧ c = .ofRequest p
  sent : Carries l out

/-- While there are fewer than 2^32, the number tells the request. -/
def NumbersTell (l : List ParamOutgoingResetRequest) : Prop :=
  ∀ p ∈ l, ∀ q ∈ l, p.reconfigRequestSequenceNumber = q.reconfigRequestSequenceNumber → p = q

/-- Fewer requests than numbers: the number tells the request. -/
theorem Asks.numbersTell {base : U32} {l : List ParamOutgoingResetRequest} {out : List Packet}
    (h : Asks base l a out) (hfew : l.length ≤ 2 ^ 32) : NumbersTell l := by
  have hnumber : ∀ i (hi : i < l.length), l[i].reconfigRequestSequenceNumber = base.after i := by
    intro i hi
    have hmap := congrArg (fun m : List U32 => m[i]?) h.numbers
    simpa [hi] using hmap
  intro p hp q hq heq
  obtain ⟨i, hi, rfl⟩ := List.mem_iff_getElem.mp hp
  obtain ⟨j, hj, rfl⟩ := List.mem_iff_getElem.mp hq
  rw [hnumber i hi, hnumber j hj] at heq
  have hij : i = j := by
    have hsum : BitVec.ofNat 32 i = BitVec.ofNat 32 j := by
      have := congrArg (fun t => t - base) heq
      simpa [U32.after] using this
    have hnat := congrArg BitVec.toNat hsum
    simp only [BitVec.toNat_ofNat] at hnat
    omega
  subst hij
  rfl

/-- Responses of its own do not bear on what an endpoint asks. -/
theorem Asks.respond {base : U32} {l : List ParamOutgoingResetRequest} {out : List Packet}
    (h : Asks base l a out) (p : ParamOutgoingResetRequest) :
    Asks base l (a.resetStreamsIfAny p).1 (out ++ [(a.resetStreamsIfAny p).2]) := by
  obtain ⟨hreconfigs, hnext, _⟩ := resetStreamsIfAny_answer a p
  obtain ⟨r, _, hchunks⟩ := chunks_resetStreamsIfAny a p
  refine ⟨h.numbers, hnext.trans h.next, ?_, h.sent.append ?_⟩
  · rw [hreconfigs]
    exact h.stored
  · intro packet hpacket c hc
    rw [List.mem_singleton] at hpacket
    rw [hpacket, hchunks, List.mem_singleton] at hc
    injection hc with hc
    exact Or.inr ⟨r, hc⟩

/-- What is asked survives the exchange of packets. -/
theorem Asks.exchanged (base : U32) (l : List ParamOutgoingResetRequest) :
    Exchanged (Asks base l) where
  congr := by
    intro a a' out htable h
    have hreconfigs : a'.reconfigs = a.reconfigs := congrArg Prod.fst htable
    have hnext : a'.myNextRsn = a.myNextRsn := congrArg (fun t => t.2.2) htable
    refine ⟨h.numbers, hnext.trans h.next, ?_, h.sent⟩
    rw [hreconfigs]
    exact h.stored
  quiet := by
    intro a out new hnew h
    refine ⟨h.numbers, h.next, h.stored, h.sent.append ?_⟩
    intro packet hpacket c hc
    rw [mem_emits hpacket hc rfl] at hnew
    cases hnew
  recheck := recheck_invariant fun _ _ p _ h => h.respond p

/-- A RECONFIG chunk of the peer leaves what an endpoint asks, but for the request it answers. -/
theorem Asks.handleReconfig {base : U32} {l m : List ParamOutgoingResetRequest}
    {out : List Packet} (h : Asks base l a out) {c : ChunkReconfig}
    (hc : (∃ p ∈ m, c = .ofRequest p) ∨ ∃ r, c = .ofResponse r) :
    Asks base l (a.handleReconfig c).1 (out ++ answer (a.handleReconfig c)) := by
  rcases hc with ⟨p, _, rfl⟩ | ⟨r, rfl⟩
  · rw [handleReconfig_ofRequest]
    have hkept : Asks base l { a with
        reconfigRequests := a.reconfigRequests.insert p.reconfigRequestSequenceNumber p } out :=
      ⟨h.numbers, h.next, h.stored, h.sent⟩
    exact hkept.respond p
  · obtain ⟨htable, hanswer⟩ := handleReconfig_ofResponse a r
    have hreconfigs : (a.handleReconfig (.ofResponse r)).1.reconfigs =
        a.reconfigs.erase r.reconfigResponseSequenceNumber := congrArg Prod.fst htable
    have hnext : (a.handleReconfig (.ofResponse r)).1.myNextRsn = a.myNextRsn :=
      congrArg (fun t => t.2.2) htable
    rw [hanswer, List.append_nil]
    refine ⟨h.numbers, hnext.trans h.next, ?_, h.sent⟩
    intro k c hk
    rw [hreconfigs] at hk
    by_cases hkr : k = r.reconfigResponseSequenceNumber
    · rw [hkr, AList.lookup_erase] at hk
      cases hk
    · rw [AList.lookup_erase_ne hkr] at hk
      exact h.stored k c hk

/-- The requests of `T` are stored, or one of the responses in `packet` has their number. -/
def Awaits (T : Set ParamOutgoingResetRequest) (packet : Packet) (a : AssociationInternal) : Prop :=
  ∀ p ∈ T, a.Stores p ∨ ∃ r, r.reconfigResponseSequenceNumber = p.reconfigRequestSequenceNumber ∧
    .reconfig (.ofResponse r) ∈ packet.chunks

theorem Awaits.congr {T : Set ParamOutgoingResetRequest} {packet : Packet}
    (hreconfigs : a'.reconfigs = a.reconfigs) (h : Awaits T packet a) : Awaits T packet a' := by
  intro p hp
  rcases h p hp with hstored | hanswered
  · left
    unfold Stores
    rw [hreconfigs]
    exact hstored
  · exact Or.inr hanswered

/-- What is awaited survives the exchange of packets. -/
theorem Awaits.exchanged (T : Set ParamOutgoingResetRequest) (packet : Packet) :
    Exchanged fun a _ => Awaits T packet a where
  congr htable h := h.congr (congrArg Prod.fst htable)
  quiet _ h := h
  recheck := by
    intro a out h
    exact @recheck_invariant a (fun a _ => Awaits T packet a) out
      (fun b _ p _ hb => hb.congr (resetStreamsIfAny_answer b p).1) h

theorem Awaits.handleReconfig {T : Set ParamOutgoingResetRequest}
    {m : List ParamOutgoingResetRequest} {packet : Packet} (h : Awaits T packet a)
    {c : ChunkReconfig} (hmem : .reconfig c ∈ packet.chunks)
    (hc : (∃ p ∈ m, c = .ofRequest p) ∨ ∃ r, c = .ofResponse r) :
    Awaits T packet (a.handleReconfig c).1 := by
  rcases hc with ⟨p, _, rfl⟩ | ⟨r, rfl⟩
  · rw [handleReconfig_ofRequest]
    exact h.congr (resetStreamsIfAny_answer _ p).1
  · have hreconfigs : (a.handleReconfig (.ofResponse r)).1.reconfigs =
        a.reconfigs.erase r.reconfigResponseSequenceNumber :=
      congrArg Prod.fst (handleReconfig_ofResponse a r).1
    intro p hp
    rcases h p hp with hstored | hanswered
    · by_cases hnumber : p.reconfigRequestSequenceNumber = r.reconfigResponseSequenceNumber
      · exact Or.inr ⟨r, hnumber.symm, hmem⟩
      · left
        unfold Stores
        rw [hreconfigs, AList.lookup_erase_ne hnumber]
        exact hstored
    · exact Or.inr hanswered

/-! ## Serving -/

/-- The request is kept, or has been answered as performed. -/
def Settled (a : AssociationInternal) (out : List Packet) (p : ParamOutgoingResetRequest) : Prop :=
  a.Keeps p ∨ PerformedIn out p

/-- The endpoint keeps requests of `l`, and settles those it answers and those of `T`. -/
structure Serves (l : List ParamOutgoingResetRequest) (T : Set ParamOutgoingResetRequest)
    (a : AssociationInternal) (out : List Packet) : Prop where
  kept : ∀ k p, a.reconfigRequests.lookup k = some p → p ∈ l ∧ p.reconfigRequestSequenceNumber = k
  answered : ∀ packet ∈ out, ∀ r, .reconfig (.ofResponse r) ∈ packet.chunks →
    ∃ p ∈ l, p.reconfigRequestSequenceNumber = r.reconfigResponseSequenceNumber ∧ a.Settled out p
  settled : ∀ p ∈ T, a.Settled out p

/-- A step that settles again what was settled, and whose new answers are to what is settled. -/
theorem Serves.step {l : List ParamOutgoingResetRequest} {T : Set ParamOutgoingResetRequest}
    {out new : List Packet} (h : Serves l T a out)
    (hkept : ∀ k p, a'.reconfigRequests.lookup k = some p →
      p ∈ l ∧ p.reconfigRequestSequenceNumber = k)
    (hsettled : ∀ p, a.Settled out p → a'.Settled (out ++ new) p)
    (hnew : ∀ packet ∈ new, ∀ r, .reconfig (.ofResponse r) ∈ packet.chunks →
      ∃ p ∈ l, p.reconfigRequestSequenceNumber = r.reconfigResponseSequenceNumber ∧
        a'.Settled (out ++ new) p) : Serves l T a' (out ++ new) where
  kept := hkept
  answered := by
    intro packet hpacket r hr
    rcases List.mem_append.mp hpacket with hold | hpacket
    · obtain ⟨p, hp, hnumber, hdone⟩ := h.answered packet hold r hr
      exact ⟨p, hp, hnumber, hsettled p hdone⟩
    · exact hnew packet hpacket r hr
  settled p hp := hsettled p (h.settled p hp)

/-- The look at a request that is settled. -/
theorem Serves.respond {l : List ParamOutgoingResetRequest} {T : Set ParamOutgoingResetRequest}
    {out : List Packet} (h : Serves l T a out) {p : ParamOutgoingResetRequest} (hp : p ∈ l)
    (hdone : a.Settled out p) (htell : NumbersTell l) :
    Serves l T (a.resetStreamsIfAny p).1 (out ++ [(a.resetStreamsIfAny p).2]) := by
  obtain ⟨r, hr, hresponse⟩ := chunks_resetStreamsIfAny a p
  have hanswers : ∀ {b : AssociationInternal} {out' : List Packet}, b.Settled out' p →
      ∀ packet ∈ [(a.resetStreamsIfAny p).2], ∀ r, .reconfig (.ofResponse r) ∈ packet.chunks →
        ∃ q ∈ l, q.reconfigRequestSequenceNumber = r.reconfigResponseSequenceNumber ∧
          b.Settled out' q := by
    intro b out' hb packet hpacket r' hr'
    rw [List.mem_singleton] at hpacket
    rw [hpacket, hresponse, List.mem_singleton] at hr'
    injection hr' with hr'
    unfold ChunkReconfig.ofResponse at hr'
    injection hr' with hr' _
    injection hr' with hr'
    injection hr' with hr'
    subst hr'
    exact ⟨p, hp, hr.symm, hb⟩
  rcases (resetStreamsIfAny_answer a p).2.2 with ⟨_, hrequests, hchunks⟩ | ⟨hrequests, hchunks⟩
  · have hperformed : PerformedIn (out ++ [(a.resetStreamsIfAny p).2]) p := by
      refine ⟨_, List.mem_append_right _ (List.mem_singleton_self _), ?_⟩
      rw [hchunks]
      exact List.mem_singleton_self _
    apply h.step
    · intro k q hq
      rw [hrequests] at hq
      by_cases hk : k = p.reconfigRequestSequenceNumber
      · rw [hk, AList.lookup_erase] at hq
        cases hq
      · rw [AList.lookup_erase_ne hk] at hq
        exact h.kept k q hq
    · intro q hq
      rcases hq with hkeeps | hq
      · by_cases hsame : q.reconfigRequestSequenceNumber = p.reconfigRequestSequenceNumber
        · rw [htell q (h.kept _ q hkeeps).1 p hp hsame]
          exact Or.inr hperformed
        · left
          unfold Keeps
          rw [hrequests, AList.lookup_erase_ne hsame]
          exact hkeeps
      · exact Or.inr (hq.mono fun packet => List.mem_append_left _)
    · exact hanswers (Or.inr hperformed)
  · have hsettled : ∀ q, a.Settled out q →
        (a.resetStreamsIfAny p).1.Settled (out ++ [(a.resetStreamsIfAny p).2]) q := by
      intro q hq
      rcases hq with hkeeps | hq
      · left
        unfold Keeps
        rw [hrequests]
        exact hkeeps
      · exact Or.inr (hq.mono fun packet => List.mem_append_left _)
    apply h.step
    · rw [hrequests]
      exact h.kept
    · exact hsettled
    · exact hanswers (hsettled p hdone)

theorem Serves.congr {l : List ParamOutgoingResetRequest} {T : Set ParamOutgoingResetRequest}
    {out : List Packet} (h : Serves l T a out)
    (hrequests : a'.reconfigRequests = a.reconfigRequests) : Serves l T a' out := by
  have hsettled : ∀ p, a.Settled out p → a'.Settled out p := by
    intro p hp
    rcases hp with hkeeps | hp
    · left
      unfold Keeps
      rw [hrequests]
      exact hkeeps
    · exact Or.inr hp
  refine ⟨?_, ?_, fun p hp => hsettled p (h.settled p hp)⟩
  · rw [hrequests]
    exact h.kept
  · intro packet hpacket r hr
    obtain ⟨p, hp, hnumber, hdone⟩ := h.answered packet hpacket r hr
    exact ⟨p, hp, hnumber, hsettled p hdone⟩

/-- Packets without responses leave what is settled. -/
theorem Serves.append {l : List ParamOutgoingResetRequest} {T : Set ParamOutgoingResetRequest}
    {out new : List Packet} (h : Serves l T a out)
    (hnew : ∀ packet ∈ new, ∀ r, .reconfig (.ofResponse r) ∉ packet.chunks) :
    Serves l T a (out ++ new) := by
  apply h.step h.kept
  · intro p hp
    exact hp.imp_right fun hp => hp.mono fun packet => List.mem_append_left _
  · intro packet hpacket r hr
    exact absurd hr (hnew packet hpacket r)

/-- What is served survives the exchange of packets. -/
theorem Serves.exchanged {l : List ParamOutgoingResetRequest} (T : Set ParamOutgoingResetRequest)
    (htell : NumbersTell l) : Exchanged (Serves l T) where
  congr htable h := h.congr (congrArg (fun t => t.2.1) htable)
  quiet := by
    intro a out new hnew h
    apply h.append
    intro packet hpacket r hr
    rw [mem_emits hpacket hr rfl] at hnew
    cases hnew
  recheck := by
    intro a out h
    -- the requests still to be looked at stay settled, because each look settles them again
    have hall := @recheck_invariant a
      (fun b out => Serves l (T ∪ { p | p ∈ a.reconfigRequests.values }) b out) out
      (fun b out p hp hb => by
        obtain ⟨k, hk⟩ := AssocMap.mem_values.mp hp
        exact hb.respond (h.kept k p hk).1 (hb.settled p (Or.inr hp)) htell)
      ⟨h.kept, h.answered, by
        rintro p (hp | hp)
        · exact h.settled p hp
        · obtain ⟨k, hk⟩ := AssocMap.mem_values.mp hp
          left
          unfold Keeps
          rw [(h.kept k p hk).2]
          exact hk⟩
    exact ⟨hall.kept, hall.answered, fun p hp => hall.settled p (Or.inl hp)⟩

/-- A RECONFIG chunk of the endpoint that asks. -/
theorem Serves.handleReconfig {l : List ParamOutgoingResetRequest}
    {T : Set ParamOutgoingResetRequest} {out : List Packet} (h : Serves l T a out)
    (htell : NumbersTell l) {c : ChunkReconfig}
    (hc : (∃ p ∈ l, c = .ofRequest p) ∨ ∃ r, c = .ofResponse r) :
    Serves l T (a.handleReconfig c).1 (out ++ answer (a.handleReconfig c)) := by
  rcases hc with ⟨p, hp, rfl⟩ | ⟨r, rfl⟩
  · rw [handleReconfig_ofRequest]
    let b : AssociationInternal :=
      { a with reconfigRequests := a.reconfigRequests.insert p.reconfigRequestSequenceNumber p }
    have hkeeps : b.Keeps p := AList.lookup_insert _
    have hb : Serves l T b (out ++ []) := by
      apply h.step
      · intro k q hq
        by_cases hk : k = p.reconfigRequestSequenceNumber
        · rw [hk] at hq ⊢
          rw [show b.reconfigRequests.lookup _ = some p from hkeeps, Option.some.injEq] at hq
          subst hq
          exact ⟨hp, rfl⟩
        · have hq' : a.reconfigRequests.lookup k = some q := by
            rw [← hq]
            exact (AList.lookup_insert_ne hk).symm
          exact h.kept k q hq'
      · intro q hq
        rcases hq with hq | hq
        · left
          by_cases hk : q.reconfigRequestSequenceNumber = p.reconfigRequestSequenceNumber
          · rw [htell q (h.kept _ q hq).1 p hp hk]
            exact hkeeps
          · exact (AList.lookup_insert_ne hk).trans hq
        · exact Or.inr (hq.mono fun packet => List.mem_append_left _)
      · intro packet hpacket
        exact absurd hpacket List.not_mem_nil
    rw [List.append_nil] at hb
    exact hb.respond hp (Or.inl hkeeps) htell
  · obtain ⟨htable, hanswer⟩ := handleReconfig_ofResponse a r
    rw [hanswer, List.append_nil]
    exact h.congr (congrArg (fun t => t.2.1) htable)

/-! ## Steps of the endpoint itself -/

/-- What an action asks is asked after it. -/
theorem Asks.act {base : U32} {l new : List ParamOutgoingResetRequest} {sent packets : List Packet}
    (h : Asks base l a (sent ++ a.controlQueue)) (hsends : Sends a a' packets new) :
    Asks base (l ++ new) a' ((sent ++ packets) ++ a'.controlQueue) := by
  have hsent : Carries (l ++ new) ((sent ++ packets) ++ a'.controlQueue) := by
    intro packet hpacket c hc
    have hold : packet ∈ sent ++ a.controlQueue →
        (∃ p ∈ l ++ new, c = .ofRequest p) ∨ ∃ r, c = .ofResponse r := by
      intro hpacket
      rcases h.sent packet hpacket c hc with ⟨p, hp, heq⟩ | hresponse
      · exact Or.inl ⟨p, List.mem_append_left _ hp, heq⟩
      · exact Or.inr hresponse
    rw [List.append_assoc] at hpacket
    rcases List.mem_append.mp hpacket with hpacket | hpacket
    · exact hold (List.mem_append_left _ hpacket)
    · rcases hsends.chunks packet hpacket c hc with hqueued | ⟨k, hk⟩ | ⟨p, hp, heq⟩
      · exact hold (List.mem_append_right _ hqueued)
      · obtain ⟨p, hp, _, heq⟩ := h.stored k c hk
        exact Or.inl ⟨p, List.mem_append_left _ hp, heq⟩
      · exact Or.inl ⟨p, List.mem_append_right _ hp, heq⟩
  rcases hsends.table with ⟨rfl, hreconfigs, hnext⟩ | ⟨p, rfl, hnumber, hreconfigs, hnext⟩
  · rw [List.append_nil] at hsent ⊢
    refine ⟨h.numbers, hnext.trans h.next, ?_, hsent⟩
    rw [hreconfigs]
    exact h.stored
  · have hlength : (l ++ [p]).length = l.length + 1 := List.length_append
    refine ⟨?_, ?_, ?_, hsent⟩
    · rw [hlength, List.range_succ, List.map_append, List.map_append, h.numbers]
      simp only [List.map_cons, List.map_nil]
      rw [hnumber, h.next]
    · rw [hnext, h.next, hlength]
      unfold U32.after
      bv_omega
    · intro k c hk
      rw [hreconfigs] at hk
      by_cases hkn : k = a.myNextRsn
      · rw [hkn, AList.lookup_insert, Option.some.injEq] at hk
        exact ⟨p, List.mem_append_right _ (List.mem_singleton_self p), hnumber.trans hkn.symm,
          hk.symm⟩
      · rw [AList.lookup_insert_ne hkn] at hk
        obtain ⟨q, hq, hrest⟩ := h.stored k c hk
        exact ⟨q, List.mem_append_left _ hq, hrest⟩

/-- What is stored stays stored, and what is issued is stored. -/
theorem Sends.stores {l new : List ParamOutgoingResetRequest} {packets : List Packet}
    (hsends : Sends a a' packets new) (htell : NumbersTell (l ++ new))
    {p : ParamOutgoingResetRequest} (hp : p ∈ l ++ new) (hstored : p ∈ l → a.Stores p) :
    a'.Stores p := by
  unfold Stores at hstored ⊢
  rcases hsends.table with ⟨rfl, hreconfigs, _⟩ | ⟨q, rfl, hnumber, hreconfigs, _⟩
  · rw [hreconfigs]
    rw [List.append_nil] at hp
    exact hstored hp
  · rw [hreconfigs]
    by_cases hsame : p.reconfigRequestSequenceNumber = a.myNextRsn
    · have hq : q ∈ l ++ [q] := List.mem_append_right _ (List.mem_singleton_self q)
      rw [htell p hp q hq (hsame.trans hnumber.symm), hnumber]
      exact AList.lookup_insert _
    · rw [AList.lookup_insert_ne hsame]
      apply hstored
      rcases List.mem_append.mp hp with hp | hp
      · exact hp
      · rw [List.mem_singleton] at hp
        rw [hp] at hsame
        exact absurd hnumber hsame

/-- What is served does not change while the same responses are out. -/
theorem Serves.of_responses {l l' : List ParamOutgoingResetRequest}
    {T T' : Set ParamOutgoingResetRequest} {out out' : List Packet} (h : Serves l T a out)
    (hrequests : a'.reconfigRequests = a.reconfigRequests) (hl : ∀ p ∈ l, p ∈ l')
    (hT : ∀ p ∈ T', p ∈ T ∨ a.Settled out p) (hsub : ∀ packet ∈ out, packet ∈ out')
    (hsame : ∀ packet ∈ out', ∀ r, .reconfig (.ofResponse r) ∈ packet.chunks → packet ∈ out) :
    Serves l' T' a' out' := by
  have hsettled : ∀ p, a.Settled out p → a'.Settled out' p := by
    intro p hp
    rcases hp with hkeeps | hp
    · left
      unfold Keeps
      rw [hrequests]
      exact hkeeps
    · exact Or.inr (hp.mono hsub)
  refine ⟨?_, ?_, ?_⟩
  · intro k p hk
    rw [hrequests] at hk
    obtain ⟨hp, hnumber⟩ := h.kept k p hk
    exact ⟨hl p hp, hnumber⟩
  · intro packet hpacket r hr
    obtain ⟨p, hp, hnumber, hdone⟩ := h.answered packet (hsame packet hpacket r hr) r hr
    exact ⟨p, hl p hp, hnumber, hsettled p hdone⟩
  · intro p hp
    rcases hT p hp with hp | hp
    · exact hsettled p (h.settled p hp)
    · exact hsettled p hp

/-- What an action serves is served after it. -/
theorem Serves.act {base : U32} {l m new : List ParamOutgoingResetRequest}
    {T : Set ParamOutgoingResetRequest} {sent packets : List Packet}
    (h : Serves l T a (sent ++ a.controlQueue)) (hasks : Asks base m a (sent ++ a.controlQueue))
    (hsends : Sends a a' packets new) : Serves l T a' ((sent ++ packets) ++ a'.controlQueue) := by
  refine h.of_responses hsends.requests (fun p hp => hp) (fun p hp => Or.inl hp) ?_ ?_
  · intro packet hpacket
    rw [List.append_assoc]
    rcases List.mem_append.mp hpacket with hpacket | hpacket
    · exact List.mem_append_left _ hpacket
    · exact List.mem_append_right _ (hsends.queued packet hpacket)
  · intro packet hpacket r hr
    rw [List.append_assoc] at hpacket
    rcases List.mem_append.mp hpacket with hpacket | hpacket
    · exact List.mem_append_left _ hpacket
    · rcases hsends.chunks packet hpacket _ hr with hqueued | ⟨k, hk⟩ | ⟨p, _, heq⟩
      · exact List.mem_append_right _ hqueued
      · -- the endpoint stores and issues requests, not responses
        obtain ⟨p, _, _, heq⟩ := hasks.stored k _ hk
        cases heq
      · cases heq

end AssociationInternal

/-! ## Two endpoints -/

namespace Peers

open AssociationInternal

/-- Endpoint `x` has issued the requests `l`, and those it no longer stores are settled at its
peer. -/
structure Lossless (x : Bool) (base : Bool → U32) (s : Peers)
    (l : List ParamOutgoingResetRequest) : Prop where
  asks : Asks (base x) l (s.party x) (s.output x)
  peerAsks : ∃ m, Asks (base (!x)) m (s.party (!x)) (s.output (!x))
  serves : l.length < 2 ^ 32 →
    Serves l { p | p ∈ l ∧ ¬ (s.party x).Stores p } (s.party (!x)) (s.output (!x))

/-- **Where the exchange is lossless no request is lost**. -/
theorem Lossless.notLost {x : Bool} {base : Bool → U32} {s : Peers}
    {l : List ParamOutgoingResetRequest} (h : Lossless x base s l) (hfew : l.length < 2 ^ 32)
    {p : ParamOutgoingResetRequest} (hp : p ∈ l) : s.NotLost x p := by
  by_cases hstored : (s.party x).Stores p
  · exact Or.inl hstored
  · exact Or.inr ((h.serves hfew).settled p ⟨hp, hstored⟩)

/-- What a peer has put out after an update. -/
theorem output_update (s : Peers) (x : Bool) (a : AssociationInternal) (out : List Packet) :
    output (s.update x a out) x = (s.sent x ++ out) ++ a.controlQueue := by
  unfold output
  rw [TwoParty.State.sent_update, TwoParty.State.party_update]

/-- What the other peer has put out stays. -/
theorem output_update_other (s : Peers) (x : Bool) (a : AssociationInternal) (out : List Packet) :
    output (s.update x a out) (!x) = s.output (!x) := by
  unfold output
  rw [TwoParty.State.sent_update_other, TwoParty.State.party_update_other]

/-- Endpoint `x` acts. -/
theorem Lossless.act {x : Bool} {base : Bool → U32} {s : Peers}
    {l : List ParamOutgoingResetRequest} (h : Lossless x base s l) (op : LocalOp) :
    Lossless x base
      (s.update x ((s.party x).localStep op).1 ((s.party x).localStep op).2)
      (l ++ (s.party x).issued op) := by
  have hsends := localStep_sends (s.party x) op
  have hasks := h.asks.act hsends
  refine ⟨?_, ?_, ?_⟩
  · rw [output_update, TwoParty.State.party_update]
    exact hasks
  · rw [output_update_other, TwoParty.State.party_update_other]
    exact h.peerAsks
  · intro hfew
    have hfew' : l.length < 2 ^ 32 := by
      rw [List.length_append] at hfew
      omega
    rw [output_update_other, TwoParty.State.party_update_other, TwoParty.State.party_update]
    refine (h.serves hfew').of_responses rfl (fun p hp => List.mem_append_left _ hp) ?_
      (fun packet hpacket => hpacket) (fun packet hpacket _ _ => hpacket)
    rintro p ⟨hp, hgone⟩
    by_contra hnot
    -- a request that is gone now was issued before, and is not stored now
    refine hgone (hsends.stores (hasks.numbersTell (Nat.le_of_lt hfew)) hp fun hold => ?_)
    by_contra hstored
    exact hnot (Or.inl ⟨hold, hstored⟩)

/-- Its peer acts. -/
theorem Lossless.actPeer {x : Bool} {base : Bool → U32} {s : Peers}
    {l : List ParamOutgoingResetRequest} (h : Lossless x base s l) (op : LocalOp) :
    Lossless x base
      (s.update (!x) ((s.party (!x)).localStep op).1 ((s.party (!x)).localStep op).2) l := by
  have hsends := localStep_sends (s.party (!x)) op
  obtain ⟨m, hm⟩ := h.peerAsks
  have hx := Bool.not_not x
  have hparty := TwoParty.State.party_update_other s (!x)
    ((s.party (!x)).localStep op).1 ((s.party (!x)).localStep op).2
  have hout := output_update_other s (!x)
    ((s.party (!x)).localStep op).1 ((s.party (!x)).localStep op).2
  rw [hx] at hparty hout
  refine ⟨?_, ⟨m ++ (s.party (!x)).issued op, ?_⟩, ?_⟩
  · rw [hparty, hout]
    exact h.asks
  · rw [output_update, TwoParty.State.party_update]
    exact hm.act hsends
  · intro hfew
    rw [output_update, TwoParty.State.party_update, hparty]
    exact (h.serves hfew).act hm hsends

/-- A packet of the peer arrives at endpoint `x`. -/
theorem Lossless.deliver {x : Bool} {base : Bool → U32} {s : Peers}
    {l : List ParamOutgoingResetRequest} (h : Lossless x base s l) (now : ℕ) {packet : Packet}
    (hpacket : packet ∈ s.sent (!x)) :
    Lossless x base (s.update x ((s.party x).handleInbound now packet).1 []) l := by
  obtain ⟨m, hm⟩ := h.peerAsks
  have hout : packet ∈ s.output (!x) := List.mem_append_left _ hpacket
  refine ⟨?_, ?_, ?_⟩
  · rw [output_update, TwoParty.State.party_update, List.append_nil]
    exact (Asks.exchanged (base x) l).handleInbound now
      (fun c hc a out ha => ha.handleReconfig (hm.sent packet hout c hc)) h.asks
  · rw [output_update_other, TwoParty.State.party_update_other]
    exact ⟨m, hm⟩
  · intro hfew
    have hserves := h.serves hfew
    have htell := h.asks.numbersTell (Nat.le_of_lt hfew)
    rw [output_update_other, TwoParty.State.party_update_other, TwoParty.State.party_update]
    have hawaits := @Exchanged.handleInbound (s.party x) _
      (Awaits.exchanged { p | (s.party x).Stores p } packet) [] now packet
      (fun c hc a _ ha => ha.handleReconfig hc (hm.sent packet hout c hc)) fun p hp => Or.inl hp
    refine hserves.of_responses rfl (fun p hp => hp) ?_ (fun q hq => hq) (fun q hq _ _ => hq)
    rintro p ⟨hp, hgone⟩
    by_cases hstored : (s.party x).Stores p
    · -- a response in the packet has taken it out
      right
      rcases hawaits p hstored with hstill | ⟨r, hnumber, hr⟩
      · exact absurd hstill hgone
      · obtain ⟨q, hq, hnumber', hdone⟩ := hserves.answered packet hout r hr
        rw [htell p hp q hq (hnumber.symm.trans hnumber'.symm)]
        exact hdone
    · exact Or.inl ⟨hp, hstored⟩

/-- A packet of endpoint `x` arrives at its peer. -/
theorem Lossless.deliverPeer {x : Bool} {base : Bool → U32} {s : Peers}
    {l : List ParamOutgoingResetRequest} (h : Lossless x base s l) (now : ℕ) {packet : Packet}
    (hpacket : packet ∈ s.sent x) :
    Lossless x base (s.update (!x) ((s.party (!x)).handleInbound now packet).1 []) l := by
  obtain ⟨m, hm⟩ := h.peerAsks
  have hout : packet ∈ s.output x := List.mem_append_left _ hpacket
  have hx := Bool.not_not x
  have hparty := TwoParty.State.party_update_other s (!x)
    ((s.party (!x)).handleInbound now packet).1 []
  have houtput := output_update_other s (!x) ((s.party (!x)).handleInbound now packet).1 []
  rw [hx] at hparty houtput
  refine ⟨?_, ⟨m, ?_⟩, ?_⟩
  · rw [hparty, houtput]
    exact h.asks
  · rw [output_update, TwoParty.State.party_update, List.append_nil]
    exact (Asks.exchanged (base (!x)) m).handleInbound now
      (fun c hc a out ha => ha.handleReconfig (h.asks.sent packet hout c hc)) hm
  · intro hfew
    have htell := h.asks.numbersTell (Nat.le_of_lt hfew)
    rw [output_update, TwoParty.State.party_update, List.append_nil, hparty]
    exact (Serves.exchanged _ htell).handleInbound now
      (fun c hc a out ha => ha.handleReconfig htell (h.asks.sent packet hout c hc))
      (h.serves hfew)

/-- **Every step keeps the requests.** -/
theorem Lossless.step {x : Bool} {base : Bool → U32} {s : Peers}
    {l : List ParamOutgoingResetRequest} (h : Lossless x base s l) (e : PeerEvent) :
    Lossless x base (Peers.step s e) (l ++ issued x s e) := by
  rcases endpointProtocol.step_cases s e with ⟨y, op, rfl, heq⟩ | ⟨y, t, i, rfl, hstep⟩
  · rw [show Peers.step s (.act y op) = _ from heq]
    by_cases hy : y = x
    · subst hy
      rw [show issued y s (.act y op) = (s.party y).issued op from if_pos rfl]
      exact h.act op
    · rw [show issued x s (.act y op) = [] from if_neg hy, List.append_nil]
      have hnot : y = !x := Bool.eq_not_of_ne hy
      subst hnot
      exact h.actPeer op
  · rw [show issued x s (.deliver y t i) = [] from rfl, List.append_nil]
    rcases hstep with ⟨packet, hpacket, heq⟩ | heq
    · rw [show Peers.step s (.deliver y t i) = _ from heq]
      by_cases hy : y = x
      · subst hy
        exact h.deliver t hpacket
      · have hnot : y = !x := Bool.eq_not_of_ne hy
        subst hnot
        rw [Bool.not_not] at hpacket
        exact h.deliverPeer t hpacket
    · rw [show Peers.step s (.deliver y t i) = s from heq]
      exact h

/-- No request is there at the start. -/
theorem start_resets (isClient : Bool → Bool) (config : Bool → Config) (x : Bool) :
    ((start isClient config).party x).reconfigs = ∅ ∧
      ((start isClient config).party x).reconfigRequests = ∅ ∧
      emits Chunk.isReconfig (output (start isClient config) x) = false := by
  unfold output start
  dsimp only
  split
  · exact ⟨rfl, rfl, rfl⟩
  · exact ⟨rfl, rfl, rfl⟩

/-- Nothing was asked at the start. -/
theorem lossless_start (x : Bool) (isClient : Bool → Bool) (config : Bool → Config) :
    Lossless x (fun y => ((start isClient config).party y).myNextRsn) (start isClient config)
      [] := by
  have hasks : ∀ y, Asks ((start isClient config).party y).myNextRsn []
      ((start isClient config).party y) (output (start isClient config) y) := by
    intro y
    obtain ⟨hreconfigs, _, hquiet⟩ := start_resets isClient config y
    refine ⟨rfl, ?_, ?_, ?_⟩
    · exact (BitVec.add_zero _).symm
    · intro k c hk
      rw [hreconfigs, AList.lookup_empty] at hk
      cases hk
    · intro packet hpacket c hc
      rw [mem_emits hpacket hc rfl] at hquiet
      cases hquiet
  refine ⟨hasks x, ⟨[], hasks (!x)⟩, fun _ => ⟨?_, ?_, ?_⟩⟩
  · intro k p hk
    rw [(start_resets isClient config (!x)).2.1, AList.lookup_empty] at hk
    cases hk
  · intro packet hpacket r hr
    have hquiet := (start_resets isClient config (!x)).2.2
    rw [mem_emits hpacket hr rfl] at hquiet
    cases hquiet
  · rintro p ⟨hp, _⟩
    exact absurd hp List.not_mem_nil

/-- **No reset request is lost.** -/
theorem notLost_of_run (isClient : Bool → Bool) (config : Bool → Config) (x : Bool)
    (es : List PeerEvent)
    (hfew : (Runs.outputs Peers.step (issued x) (start isClient config) es).flatten.length <
      2 ^ 32) :
    ∀ p ∈ (Runs.outputs Peers.step (issued x) (start isClient config) es).flatten,
      NotLost (Runs.run Peers.step (start isClient config) es) x p := by
  have hrun := Runs.run_invariant_outputs
    (I := Lossless x fun y => ((start isClient config).party y).myNextRsn)
    (fun s e l h => h.step e) (lossless_start x isClient config) es
  rw [List.nil_append] at hrun
  exact fun p hp => hrun.notLost hfew hp

/-- A handshake, and the reset of a stream nothing was written to; the request is sent twice, and
the first copy performed. -/
def resetSentTwice : List PeerEvent :=
  [.act true (.gather 0), .deliver false 1 0, .act false (.gather 1), .deliver true 2 0,
   .act true (.gather 2), .deliver false 3 1, .act false (.gather 3), .deliver true 4 1,
   .act true (.openStream 1 .binary), .act true (.shutdownStream 0 .both), .act true (.gather 5),
   .act true (.timeout .reconfig), .act true (.gather 6), .deliver false 7 3,
   .act false (.gather 7), .deliver true 8 2, .deliver false 9 2]

/-- The client has issued one request, with its initial TSN as RSN. -/
theorem notLost_resetSentTwice :
    NotLost (Runs.run step (start id twoConfigs) resetSentTwice) true
      { reconfigRequestSequenceNumber := 7, senderLastTsn := 6, streamIdentifiers := [1] } :=
  notLost_of_run id twoConfigs true resetSentTwice (by decide +kernel) _ (by decide +kernel)

end Peers

end Sctp
