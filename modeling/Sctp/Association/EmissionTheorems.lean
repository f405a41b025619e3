import Sctp.Association.Sender
import Sctp.Association.OutboundTheorems

/-!
# Which chunks are sent

Of the parts of `gather_outbound`, only one sends a SHUTDOWN or SHUTDOWN ACK and only one
sends a FORWARD TSN. A kind of chunk is given by a predicate.
-/

namespace Sctp

variable {kind : Chunk → Bool}

/-- Packets in a row emit what either part does. -/
theorem emits_append (p q : List Packet) : emits kind (p ++ q) = (emits kind p || emits kind q) :=
  List.any_append

/-- A packet among them with a chunk of the kind is enough. -/
theorem mem_emits {p : Packet} {packets : List Packet} {c : Chunk} (hp : p ∈ packets)
    (hc : c ∈ p.chunks) (hkind : kind c = true) : emits kind packets = true :=
  List.any_eq_true.mpr ⟨p, hp, List.any_eq_true.mpr ⟨c, hc, hkind⟩⟩

namespace AssociationInternal

variable {a a' : AssociationInternal}

/-- The chunks of the first packet, and the rest. -/
theorem emits_cons (a : AssociationInternal) (chunks : List Chunk) (p : List Packet) :
    emits kind (a.createPacket chunks :: p) = (chunks.any kind || emits kind p) := List.any_cons

theorem emits_singleton (a : AssociationInternal) (chunks : List Chunk) :
    emits kind [a.createPacket chunks] = chunks.any kind := by
  rw [emits_cons]
  exact Bool.or_false _

/-- A kind within a kind that is not sent is not sent. -/
theorem not_emits_of_imp {kind' : Chunk → Bool} {packets : List Packet}
    (h : emits kind packets = false) (himp : ∀ c, kind' c = true → kind c = true) :
    emits kind' packets = false := by
  by_contra hne
  rw [Bool.not_eq_false] at hne
  obtain ⟨p, hp, hany⟩ := List.any_eq_true.mp hne
  obtain ⟨c, hc, hkind⟩ := List.any_eq_true.mp hany
  rw [mem_emits hp hc (himp c hkind)] at h
  cases h

/-- A new association has no SHUTDOWN queued. -/
theorem Fresh.not_emitsShutdown (h : a.Fresh) : emits Chunk.isShutdown a.controlQueue = false :=
  not_emits_of_imp h.controlQueue fun c hc => by simp [hc]

/-- And no FORWARD TSN. -/
theorem Fresh.not_emitsForwardTsn (h : a.Fresh) :
    emits Chunk.isForwardTsn a.controlQueue = false :=
  not_emits_of_imp h.controlQueue fun c hc => by simp [hc]

/-! ## Data, RECONFIG and SACK chunks -/

section

variable (hdata : ∀ c, kind (.payloadData c) = false) (hreconfig : ∀ c, kind (.reconfig c) = false)
  (hsack : ∀ c, kind (.selectiveAck c) = false)

include hdata

/-- Bundles carry DATA chunks. -/
theorem not_emits_bundleFrom (a : AssociationInternal) (toSend : List Chunk) (bytes : U32)
    (chunks : List ChunkPayloadData) (h : toSend.any kind = false) :
    emits kind (a.bundleFrom toSend bytes chunks) = false := by
  induction chunks generalizing toSend bytes with
  | nil =>
    rw [bundleFrom]
    split
    · rfl
    · rw [emits_singleton, h]
  | cons c chunks ih =>
    have hc : [Chunk.payloadData c].any kind = false := by
      rw [List.any_cons, hdata]
      rfl
    rw [bundleFrom]
    split
    · rw [emits_cons, h, ih _ _ hc]
      rfl
    · refine ih _ _ ?_
      rw [List.any_append, h, hc]
      rfl

/-- A fast retransmission carries DATA chunks. -/
theorem not_emits_fastRetransmitFrom (now : ℕ) (a : AssociationInternal) (size : U32)
    (toSend : List Chunk) (tsns : List U32) (h : toSend.any kind = false) :
    (fastRetransmitFrom now a size toSend tsns).2.any kind = false := by
  induction tsns generalizing a size toSend with
  | nil => exact h
  | cons tsn tsns ih =>
    rw [fastRetransmitFrom]
    split
    · exact h
    · split
      · exact ih a size toSend h
      · generalize a.resend now tsn _ = sent
        dsimp only
        split
        · exact h
        · refine ih _ _ _ ?_
          rw [List.any_append, h, Bool.false_or]
          cases sent.2 with
          | none => rfl
          | some c =>
            show (kind (.payloadData c) || false) = false
            rw [hdata]
            rfl

/-- So do retransmissions. -/
theorem not_emits_retransmit (a : AssociationInternal) (now : ℕ) :
    emits kind (a.getDataPacketsToRetransmit now).2 = false :=
  not_emits_bundleFrom hdata _ _ _ _ rfl

theorem not_emits_fast (a : AssociationInternal) (now : ℕ) :
    emits kind (a.gatherOutboundFastRetransmissionPackets now).2 = false := by
  unfold gatherOutboundFastRetransmissionPackets
  split
  · dsimp only
    split
    · rw [emits_singleton]
      exact not_emits_fastRetransmitFrom hdata _ _ _ _ _ rfl
    · rfl
  · rfl

omit hdata in
include hreconfig in
/-- Requests to reset streams are RECONFIG chunks. -/
theorem not_emits_reconfig (a : AssociationInternal) (sisToReset : List U16) :
    emits kind (a.gatherOutboundReconfigPackets sisToReset).2 = false := by
  have hsingle : ∀ (a : AssociationInternal) (c : ChunkReconfig),
      emits kind [a.createPacket [.reconfig c]] = false := by
    intro a c
    rw [emits_singleton, List.any_cons, hreconfig]
    rfl
  have hmap : ∀ l : List ChunkReconfig,
      emits kind (l.map fun c => a.createPacket [.reconfig c]) = false := by
    intro l
    induction l with
    | nil => rfl
    | cons c l ih =>
      rw [List.map_cons, emits_cons, ih, List.any_cons, hreconfig]
      rfl
  unfold gatherOutboundReconfigPackets
  dsimp only
  split
  · by_cases hr : a.willRetransmitReconfig = true <;> by_cases hs : sisToReset ≠ []
    · rw [if_pos hr, if_pos hs, emits_append, hmap, hsingle]
      rfl
    · rw [if_pos hr, if_neg hs]
      exact hmap _
    · rw [if_neg hr, if_pos hs, emits_append, hsingle]
      rfl
    · rw [if_neg hr, if_neg hs]
      rfl
  · rfl

include hreconfig in
/-- New data goes out as DATA and RECONFIG chunks. -/
theorem not_emits_data (a : AssociationInternal) (now : ℕ) :
    emits kind (a.gatherOutboundDataAndReconfigPackets now).2 = false := by
  unfold gatherOutboundDataAndReconfigPackets
  dsimp only
  rw [emits_append, not_emits_reconfig hreconfig, Bool.or_false]
  split
  · exact not_emits_bundleFrom hdata _ _ _ _ rfl
  · rfl

omit hdata in
include hsack in
/-- A SACK packet carries a SACK. -/
theorem not_emits_sack (a : AssociationInternal) :
    emits kind a.gatherOutboundSackPackets.2 = false := by
  unfold gatherOutboundSackPackets
  split
  · rw [emits_singleton, List.any_cons, hsack]
    rfl
  · rfl

end

/-! ## SHUTDOWN and SHUTDOWN ACK -/

/-- Where FORWARD TSNs are gathered no SHUTDOWN is. -/
theorem not_emitsShutdown_forwardTsn (a : AssociationInternal) :
    emits Chunk.isShutdown a.gatherOutboundForwardTsnPackets.2 = false := by
  unfold gatherOutboundForwardTsnPackets
  dsimp only
  split_ifs <;> rfl

/-- A SHUTDOWN or SHUTDOWN ACK is gathered only if it was to be sent. -/
theorem emitsShutdown_gatherShutdownPackets
    (h : emits Chunk.isShutdown a.gatherOutboundShutdownPackets.2.1 = true) :
    a.willSendShutdown = true ∨ a.willSendShutdownAck = true := by
  unfold gatherOutboundShutdownPackets at h
  by_cases h1 : a.willSendShutdown = true
  · exact Or.inl h1
  · by_cases h2 : a.willSendShutdownAck = true
    · exact Or.inr h2
    · rw [if_neg h1, if_neg h2] at h
      split at h <;> cases h

/-- The parts before it keep what the shutdown part looks at. -/
theorem gatherShutdown_flags {β : Type*} (a : AssociationInternal) (now : ℕ)
    (f : AssociationInternal → β)
    (hcore : ∀ a, f a.core = f a) (hframe : ∀ a, f a.frame = f a)
    (hflags : ∀ a flags, f { a with flags } = f a) :
    f ((a.getDataPacketsToRetransmit now).1.gatherOutboundFastRetransmissionPackets
      now).1.gatherOutboundSackPackets.1 = f a := by
  have h1 := (resends_getDataPacketsToRetransmit a now).frame
  have h2 := (resends_gatherFast (a.getDataPacketsToRetransmit now).1 now).frame
  have h3 := core_gatherSack
    ((a.getDataPacketsToRetransmit now).1.gatherOutboundFastRetransmissionPackets now).1
  rw [← hcore, h3, hcore, ← hframe, h2, hframe, hflags, ← hframe, h1, hframe, hflags]

/-- So while the association shuts down. -/
theorem emitsShutdown_gatherShutdown {now : ℕ}
    (h : emits Chunk.isShutdown (a.gatherShutdown now).2.1 = true) :
    a.willSendShutdown = true ∨ a.willSendShutdownAck = true := by
  unfold gatherShutdown at h
  dsimp only at h
  rw [emits_append, emits_append, emits_append, not_emits_retransmit fun _ => rfl,
    not_emits_fast fun _ => rfl, not_emits_sack fun _ => rfl] at h
  have hsent := emitsShutdown_gatherShutdownPackets h
  rw [gatherShutdown_flags a now willSendShutdown (fun _ => rfl) (fun _ => rfl) fun _ _ => rfl,
    gatherShutdown_flags a now willSendShutdownAck (fun _ => rfl) (fun _ => rfl) fun _ _ => rfl]
    at hsent
  exact hsent

/-- Gathering sends a SHUTDOWN or SHUTDOWN ACK only if it has been told to. -/
theorem emitsShutdown_gather {now : ℕ} (hcontrol : emits Chunk.isShutdown a.controlQueue = false)
    (h : emits Chunk.isShutdown (a.gatherOutbound now).2.1 = true) :
    a.willSendShutdown = true ∨ a.willSendShutdownAck = true := by
  unfold gatherOutbound at h
  dsimp only at h
  split at h
  · unfold gatherEstablished at h
    dsimp only at h
    rw [emits_append, emits_append, emits_append, emits_append, emits_append, hcontrol,
      not_emits_retransmit fun _ => rfl, not_emits_data (fun _ => rfl) fun _ => rfl,
      not_emits_fast fun _ => rfl, not_emits_sack fun _ => rfl,
      not_emitsShutdown_forwardTsn] at h
    cases h
  · rw [emits_append, hcontrol] at h
    exact emitsShutdown_gatherShutdown (a := { a with controlQueue := [] }) h
  · rw [emits_append, hcontrol] at h
    exact emitsShutdown_gatherShutdown (a := { a with controlQueue := [] }) h
  · rw [emits_append, hcontrol] at h
    exact emitsShutdown_gatherShutdown (a := { a with controlQueue := [] }) h
  · rw [emits_append, hcontrol] at h
    exact emitsShutdown_gatherShutdownPackets (a := { a with controlQueue := [] }) h
  · rw [hcontrol] at h
    cases h

/-! ## FORWARD TSN -/

/-- Where SHUTDOWNs are gathered no FORWARD TSN is. -/
theorem not_emitsForwardTsn_shutdown (a : AssociationInternal) :
    emits Chunk.isForwardTsn a.gatherOutboundShutdownPackets.2.1 = false := by
  unfold gatherOutboundShutdownPackets
  split_ifs <;> rfl

/-- An association that shuts down sends no FORWARD TSN. -/
theorem not_emitsForwardTsn_gatherShutdown (a : AssociationInternal) (now : ℕ) :
    emits Chunk.isForwardTsn (a.gatherShutdown now).2.1 = false := by
  unfold gatherShutdown
  dsimp only
  rw [emits_append, emits_append, emits_append, not_emits_retransmit fun _ => rfl,
    not_emits_fast fun _ => rfl, not_emits_sack fun _ => rfl, not_emitsForwardTsn_shutdown]
  rfl

/-- A FORWARD TSN tells the advanced ack point. -/
theorem forwardTsn_gatherForwardTsn {p : Packet} (hp : p ∈ a.gatherOutboundForwardTsnPackets.2)
    {c : ChunkForwardTsn} (hc : .forwardTsn c ∈ p.chunks) :
    c.newCumulativeTsn = a.gatherOutboundForwardTsnPackets.1.advancedPeerTsnAckPoint := by
  unfold gatherOutboundForwardTsnPackets at hp ⊢
  split at hp
  · rename_i hwill
    rw [if_pos hwill]
    dsimp only at hp ⊢
    split at hp
    · rename_i hgt
      rw [if_pos hgt]
      rw [List.mem_singleton] at hp
      rw [hp] at hc
      have hc' : Chunk.forwardTsn c =
          .forwardTsn { a with willSendForwardTsn := false }.createForwardTsn :=
        List.mem_singleton.mp hc
      injection hc' with hc'
      rw [hc']
      rfl
    · cases hp
  · cases hp

/-- So in an established association. -/
theorem forwardTsn_gatherEstablished {now : ℕ} {p : Packet}
    (hp : p ∈ (a.gatherEstablished now).2) {c : ChunkForwardTsn} (hc : .forwardTsn c ∈ p.chunks) :
    c.newCumulativeTsn = (a.gatherEstablished now).1.advancedPeerTsnAckPoint := by
  have hnot : ∀ packets, emits Chunk.isForwardTsn packets = false → p ∉ packets := by
    intro packets hfalse hp'
    rw [mem_emits hp' hc rfl] at hfalse
    cases hfalse
  unfold gatherEstablished at hp ⊢
  dsimp only at hp ⊢
  rw [List.mem_append, List.mem_append, List.mem_append, List.mem_append] at hp
  rcases hp with (((hp | hp) | hp) | hp) | hp
  · exact absurd hp (hnot _ (not_emits_retransmit (fun _ => rfl) _ _))
  · exact absurd hp (hnot _ (not_emits_data (fun _ => rfl) (fun _ => rfl) _ _))
  · exact absurd hp (hnot _ (not_emits_fast (fun _ => rfl) _ _))
  · exact absurd hp (hnot _ (not_emits_sack (fun _ => rfl) _))
  · exact forwardTsn_gatherForwardTsn hp hc

/-- A FORWARD TSN carries the point as it is after the gathering. -/
theorem forwardTsn_gather {now : ℕ} (hcontrol : emits Chunk.isForwardTsn a.controlQueue = false)
    {p : Packet} (hp : p ∈ (a.gatherOutbound now).2.1) {c : ChunkForwardTsn}
    (hc : .forwardTsn c ∈ p.chunks) :
    c.newCumulativeTsn = (a.gatherOutbound now).1.advancedPeerTsnAckPoint := by
  have hnot : ∀ packets, emits Chunk.isForwardTsn packets = false →
      p ∉ a.controlQueue ++ packets := by
    intro packets hfalse hp'
    have hemits := @mem_emits Chunk.isForwardTsn _ _ _ hp' hc rfl
    rw [emits_append, hcontrol, hfalse] at hemits
    cases hemits
  unfold gatherOutbound at hp ⊢
  dsimp only at hp ⊢
  split at hp
  · rw [List.mem_append] at hp
    rcases hp with hp | hp
    · have hemits := @mem_emits Chunk.isForwardTsn _ _ _ hp hc rfl
      rw [hcontrol] at hemits
      cases hemits
    · exact forwardTsn_gatherEstablished hp hc
  · exact absurd hp (hnot _ (not_emitsForwardTsn_gatherShutdown _ _))
  · exact absurd hp (hnot _ (not_emitsForwardTsn_gatherShutdown _ _))
  · exact absurd hp (hnot _ (not_emitsForwardTsn_gatherShutdown _ _))
  · exact absurd hp (hnot _ (not_emitsForwardTsn_shutdown _))
  · have hemits := @mem_emits Chunk.isForwardTsn _ _ _ hp hc rfl
    rw [hcontrol] at hemits
    cases hemits

end AssociationInternal

end Sctp
