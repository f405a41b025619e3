import Sctp.Queue.ReassemblyTheorems
import Sctp.WriteNumbers
import Sctp.WriteTheorems

/-!
# Which messages are numbered without holes

The number of a message counts the ordered writes before it, those of no bytes too, but only a
message with chunks is ever sent.
-/

namespace Sctp

namespace Stream

variable {s : Stream} {e : StreamEvent} {events : List StreamEvent}

/-! ## One write -/

/-- All fragments of a message have one kind and one SSN. -/
theorem mem_fragments {unordered : Bool} {ppi : PayloadProtocolIdentifier}
    {headAbandoned headAllInflight : SharedFlag} {raw : Bytes} {fuel i : ℕ} {c : ChunkPayloadData}
    (h : c ∈ s.fragments unordered ppi headAbandoned headAllInflight raw fuel i) :
    c.unordered = unordered ∧ c.streamSequenceNumber = s.sequenceNumber := by
  induction fuel generalizing i with
  | zero => cases h
  | succ fuel ih =>
    unfold fragments at h
    dsimp only at h
    split_ifs at h
    · cases h
    · rcases List.mem_cons.mp h with rfl | h
      · exact ⟨rfl, rfl⟩
      · exact ih h

/-- The chunks of a message are of its kind and carry the number of the stream. -/
theorem mem_packetize {flags : SharedFlags} {p : Bytes} {ppi : PayloadProtocolIdentifier}
    {c : ChunkPayloadData} (h : c ∈ (s.packetize flags p ppi).2.2) :
    c.unordered = !s.isOrdered ppi ∧ c.streamSequenceNumber = s.sequenceNumber := by
  have hkind : (ppi ≠ .dcep && s.unordered) = !s.isOrdered ppi := by
    unfold isOrdered
    rw [Bool.not_or, Bool.not_not, decide_not]
  rw [← hkind]
  exact mem_fragments h

/-- A message has chunks if it has bytes. -/
theorem packetize_eq_nil_iff {flags : SharedFlags} {p : Bytes} {ppi : PayloadProtocolIdentifier} :
    (s.packetize flags p ppi).2.2 = [] ↔ p = [] := by
  unfold packetize
  dsimp only
  cases p with
  | nil => exact iff_of_true rfl rfl
  | cons b p =>
    refine iff_of_false ?_ nofun
    rw [List.length_cons]
    unfold fragments
    rw [if_neg (by rw [List.length_cons]; omega)]
    exact List.cons_ne_nil _ _

/-- An ordered write that has bytes gives a message, with the number of the stream. -/
theorem orderedMessage_cases (hok : s.WriteOk e) :
    (s.writesOrderedBytes e = false ∧ s.orderedMessage e = none) ∨
      s.writesOrderedBytes e = true ∧ ∃ message, s.orderedMessage e = some message ∧
        message ≠ [] ∧ ∀ c ∈ message, c.streamSequenceNumber = s.sequenceNumber := by
  cases e with
  | write cx p ppi =>
    have hok' : (s.writeSctp cx.maxMessageSize cx.state cx.flags cx.pendingQueue p ppi).2.2.2.isOk =
        true := hok
    unfold writesOrderedBytes orderedMessage
    dsimp only
    rw [hok', if_pos rfl]
    cases hordered : s.isOrdered ppi with
    | false =>
      -- no chunk is ordered
      have hnone : ((s.packetize cx.flags p ppi).2.2.filter fun c => !c.unordered) = [] := by
        rw [List.filter_eq_nil_iff]
        intro c hc
        rw [(mem_packetize hc).1, hordered]
        decide
      rw [hnone, Bool.and_false]
      exact Or.inl ⟨rfl, rfl⟩
    | true =>
      have hall : ((s.packetize cx.flags p ppi).2.2.filter fun c => !c.unordered) =
          (s.packetize cx.flags p ppi).2.2 := by
        rw [List.filter_eq_self]
        intro c hc
        rw [(mem_packetize hc).1, hordered]
        rfl
      rw [hall, Bool.and_true]
      by_cases hp : p = []
      · left
        rw [packetize_eq_nil_iff.mpr hp, decide_eq_false (not_not_intro hp)]
        exact ⟨rfl, rfl⟩
      · right
        have hne : (s.packetize cx.flags p ppi).2.2 ≠ [] := fun h => hp (packetize_eq_nil_iff.mp h)
        rw [decide_eq_true hp]
        refine ⟨rfl, (s.packetize cx.flags p ppi).2.2, ?_, hne, fun c hc => (mem_packetize hc).2⟩
        split
        · rename_i hnil
          exact absurd hnil hne
        · rfl
  | setReliabilityParams unordered relType relVal => exact Or.inl ⟨rfl, rfl⟩
  | setDefaultPayloadType ppi => exact Or.inl ⟨rfl, rfl⟩
  | read bufLen => exact Or.inl ⟨rfl, rfl⟩
  | handleData pd => exact Or.inl ⟨rfl, rfl⟩
  | onBufferReleased nBytesReleased => exact Or.inl ⟨rfl, rfl⟩

/-- Every ordered write counts the number up, with bytes or without. -/
theorem sequenceNumber_eventStep (hok : s.WriteOk e) :
    (s.eventStep e).sequenceNumber = s.sequenceNumber +
      BitVec.ofNat 16 ((s.writesOrderedBytes e).toNat + (s.writesOrderedEmpty e).toNat) := by
  cases e with
  | write cx p ppi =>
    have hok' : (s.writeSctp cx.maxMessageSize cx.state cx.flags cx.pendingQueue p ppi).2.2.2.isOk =
        true := hok
    have hnumber : (s.eventStep (.write cx p ppi)).sequenceNumber =
        if ppi = .dcep ∨ s.unordered = false then s.sequenceNumber + 1 else s.sequenceNumber := by
      show (s.writeSctp cx.maxMessageSize cx.state cx.flags cx.pendingQueue p ppi).1.sequenceNumber
        = _
      rcases s.writeSctp_cases cx.maxMessageSize cx.state cx.flags cx.pendingQueue p ppi with
        ⟨e, heq⟩ | ⟨e, heq⟩ | ⟨_, heq⟩
      · rw [heq] at hok'
        cases hok'
      · rw [heq] at hok'
        cases hok'
      · rw [heq]
        exact (s.packetize_counters cx.flags p ppi).1
    have hordered : s.isOrdered ppi = true ↔ ppi = .dcep ∨ s.unordered = false := by
      unfold isOrdered
      rw [Bool.or_eq_true, decide_eq_true_eq, Bool.not_eq_true']
    rw [hnumber]
    unfold writesOrderedBytes writesOrderedEmpty
    dsimp only
    by_cases h : s.isOrdered ppi = true
    · rw [if_pos (hordered.mp h), h]
      by_cases hp : p = []
      · simp [hp]
      · simp [hp]
    · rw [if_neg fun h' => h (hordered.mpr h'), Bool.eq_false_iff.mpr h]
      simp
  | setReliabilityParams unordered relType relVal => exact (BitVec.add_zero _).symm
  | setDefaultPayloadType ppi => exact (BitVec.add_zero _).symm
  | read bufLen =>
    refine Eq.trans ?_ (BitVec.add_zero _).symm
    show (s.readSctp bufLen).1.sequenceNumber = _
    unfold readSctp
    split
    · rfl
    · split <;> rfl
  | handleData pd =>
    refine Eq.trans ?_ (BitVec.add_zero _).symm
    show (s.handleData pd).1.sequenceNumber = _
    unfold handleData
    split <;> rfl
  | onBufferReleased nBytesReleased =>
    refine Eq.trans ?_ (BitVec.add_zero _).symm
    show (s.onBufferReleased nBytesReleased).1.sequenceNumber = _
    unfold onBufferReleased
    split <;> rfl

/-! ## Runs -/

/-- The number of the stream counts the messages and the empty ordered writes. -/
theorem sequenceNumber_run (hok : Runs.Along eventStep WriteOk s events) :
    (Runs.run eventStep s events).sequenceNumber = s.sequenceNumber +
      BitVec.ofNat 16 ((s.orderedMessages events).length + s.emptyWrites events) := by
  induction events generalizing s with
  | nil => exact (BitVec.add_zero _).symm
  | cons e events ih =>
    obtain ⟨hhead, htail⟩ := hok
    have hmessages : (s.orderedMessages (e :: events)).length =
        (s.writesOrderedBytes e).toNat + ((s.eventStep e).orderedMessages events).length := by
      show (s.orderedMessage e :: Runs.outputs eventStep orderedMessage _ _).reduceOption.length = _
      rcases orderedMessage_cases hhead with ⟨hbytes, hnone⟩ | ⟨hbytes, message, hsome, _⟩
      · rw [hnone, hbytes, List.reduceOption_cons_of_none, Bool.toNat_false, Nat.zero_add]
        rfl
      · rw [hsome, hbytes, List.reduceOption_cons_of_some, List.length_cons, Bool.toNat_true,
          Nat.add_comm]
        rfl
    have hempty : s.emptyWrites (e :: events) =
        (s.writesOrderedEmpty e).toNat + (s.eventStep e).emptyWrites events := by
      show (s.writesOrderedEmpty e :: Runs.outputs eventStep writesOrderedEmpty _ _).count true = _
      rw [List.count_cons]
      cases s.writesOrderedEmpty e
      · exact (Nat.zero_add _).symm
      · exact Nat.add_comm _ _
    rw [Runs.run_cons, ih htail, sequenceNumber_eventStep hhead, hmessages, hempty, BitVec.add_assoc,
      ← BitVec.ofNat_add]
    congr 2
    omega

/-- The number of a message is the number of those before it and of the empty ordered writes
before it. -/
theorem orderedMessages_numbered {si : U16} {maxPayloadSize : U32} {before after : List StreamEvent}
    (hok : Runs.Along eventStep WriteOk (new si maxPayloadSize) (before ++ e :: after)) :
    (Runs.run eventStep (new si maxPayloadSize) before).WriteOk e ∧
      (Runs.run eventStep (new si maxPayloadSize) before).sequenceNumber =
        BitVec.ofNat 16 (((new si maxPayloadSize).orderedMessages before).length +
          (new si maxPayloadSize).emptyWrites before) := by
  obtain ⟨hbefore, hrest⟩ := (Runs.along_append _ _ _).mp hok
  refine ⟨hrest.1, ?_⟩
  rw [sequenceNumber_run hbefore]
  exact BitVec.zero_add _

/-- SSNs come round after 2^16 messages. -/
theorem ofNat_add_eq_iff {j n : ℕ} :
    BitVec.ofNat 16 (j + n) = BitVec.ofNat 16 j ↔ 2 ^ 16 ∣ n := by
  rw [← BitVec.toNat_inj, BitVec.toNat_ofNat, BitVec.toNat_ofNat]
  omega

/-- The numbers are consecutive where the ordered writes of no bytes in front of an ordered message
come to a multiple of 2^16. -/
theorem consecutive_iff {si : U16} {maxPayloadSize : U32}
    (hok : Runs.Along eventStep WriteOk (new si maxPayloadSize) events) :
    (∀ j message, ((new si maxPayloadSize).orderedMessages events)[j]? = some message →
      ∀ c ∈ message, c.streamSequenceNumber = BitVec.ofNat 16 j) ↔
        (new si maxPayloadSize).EmptiesCancel events := by
  constructor
  · rintro h before e after rfl hbytes
    obtain ⟨hwrite, hnumber⟩ := orderedMessages_numbered hok
    rcases orderedMessage_cases hwrite with ⟨hnone, _⟩ | ⟨_, message, hsome, hne, hnumbered⟩
    · rw [hnone] at hbytes
      cases hbytes
    · obtain ⟨c, hc⟩ := List.exists_mem_of_ne_nil _ hne
      have hplace := Runs.getElem?_reduceOption_outputs_iff.mpr ⟨before, e, after, rfl, rfl, hsome⟩
      have hssn := h _ message hplace c hc
      rw [hnumbered c hc, hnumber] at hssn
      exact ofNat_add_eq_iff.mp hssn
  · intro h j message hmessage c hc
    obtain ⟨before, e, after, rfl, rfl, hsome⟩ := Runs.getElem?_reduceOption_outputs_iff.mp hmessage
    obtain ⟨hwrite, hnumber⟩ := orderedMessages_numbered hok
    rcases orderedMessage_cases hwrite with ⟨_, hnone⟩ | ⟨hbytes, message', hsome', _, hnumbered⟩
    · rw [hnone] at hsome
      cases hsome
    · rw [hsome'] at hsome
      cases hsome
      rw [hnumbered c hc, hnumber]
      exact ofNat_add_eq_iff.mpr (h before e after rfl hbytes)

end Stream

/-! ## The reader -/

namespace ReassemblyQueue

variable {q : ReassemblyQueue} {op : ReassemblyOp}

/-- What takes no set out takes no SSN. -/
theorem takesNext_of_none (h : q.takenSet op = none) : q.takesNext op = false := by
  have hnone : q.takenSsn op = none := by
    unfold takenSsn
    rw [h]
    exact ite_self _
  unfold takesNext
  rw [hnone]
  rfl

/-- A message that is read in its turn counts `next_ssn` up, and nothing but a forward else does. -/
theorem nextSsn_applyOp (hop : ∀ lastSsn, op ≠ .forwardTsnForOrdered lastSsn) :
    (q.applyOp op).nextSsn = q.nextSsn + BitVec.ofNat 16 (q.takesNext op).toNat := by
  cases op with
  | push chunk =>
    rw [takesNext_of_none rfl]
    refine Eq.trans ?_ (BitVec.add_zero _).symm
    show (q.push chunk).1.nextSsn = _
    rcases q.push_cases chunk with ⟨_, heq⟩ | ⟨_, _, ⟨_, _, heq⟩, _⟩ |
      ⟨_, _, _, ⟨_, _, _, heq⟩ | ⟨_, heq⟩⟩
    all_goals rw [heq]
  | read bufLen =>
    show (q.read bufLen).1.nextSsn = _
    rw [read_fst]
    show q.takeReadable.1.nextSsn = _
    unfold takesNext takenSsn takenSet
    rcases q.takeReadable_cases with heq | ⟨cset, rest, hu, heq⟩ | ⟨cset, rest, hu, ho, _, _, heq⟩
    · rw [heq]
      simp
    · -- an unordered message has no number
      rw [heq, hu]
      simp
    · rw [heq, if_pos hu]
      by_cases hssn : cset.ssn = q.nextSsn
      · simp [hssn]
      · simp [hssn]
  | forwardTsnForOrdered lastSsn => exact absurd rfl (hop lastSsn)
  | forwardTsnForUnordered newCumulativeTsn =>
    rw [takesNext_of_none rfl]
    exact (BitVec.add_zero _).symm

/-- With nothing skipped, `next_ssn` counts the messages that have been read in their turn. -/
theorem nextSsn_run {ops : List ReassemblyOp}
    (hops : ∀ lastSsn, .forwardTsnForOrdered lastSsn ∉ ops) :
    (Runs.run applyOp q ops).nextSsn = q.nextSsn + BitVec.ofNat 16 (q.readInTurn ops) := by
  induction ops generalizing q with
  | nil => exact (BitVec.add_zero _).symm
  | cons op ops ih =>
    have hhead : ∀ lastSsn, op ≠ .forwardTsnForOrdered lastSsn := fun lastSsn h =>
      hops lastSsn (h ▸ List.mem_cons_self)
    have hcount : q.readInTurn (op :: ops) =
        (q.takesNext op).toNat + (q.applyOp op).readInTurn ops := by
      show (q.takesNext op :: Runs.outputs applyOp takesNext _ _).count true = _
      rw [List.count_cons]
      cases q.takesNext op
      · exact (Nat.zero_add _).symm
      · exact Nat.add_comm _ _
    rw [Runs.run_cons, ih fun lastSsn h => hops lastSsn (List.mem_cons_of_mem _ h),
      nextSsn_applyOp hhead, hcount, BitVec.add_assoc, ← BitVec.ofNat_add]

end ReassemblyQueue

/-! ## Both sides -/

namespace Stream

variable {si : U16} {maxPayloadSize : U32} {events : List StreamEvent}

/-- **Where the numbers have no holes**: where the ordered writes of no bytes in front of every
ordered write of some come to a multiple of 2^16, as they do when there are none. -/
theorem numberedWithoutHoles_iff
    (hok : Runs.Along eventStep WriteOk (new si maxPayloadSize) events) :
    NumberedWithoutHoles ((new si maxPayloadSize).orderedMessages events) ↔
      (new si maxPayloadSize).EmptiesCancel events := by
  rw [← consecutive_iff hok]
  refine ⟨fun h => h.consecutive, fun h => ⟨h, ?_⟩⟩
  intro si' ops hops message hmessage c hc
  rw [h _ message hmessage c hc, ReassemblyQueue.nextSsn_run hops]
  exact (BitVec.zero_add _).symm

/-- No ordered write is empty. -/
theorem emptiesCancel_of_none {s : Stream} (h : s.emptyWrites events = 0) :
    s.EmptiesCancel events := by
  rintro before e after rfl _
  have hzero : s.emptyWrites before = 0 := by
    unfold emptyWrites at h ⊢
    rw [Runs.outputs_append, List.count_append] at h
    omega
  rw [hzero]
  exact Nat.dvd_zero _

/-- Writes into an established association with an empty pending queue. -/
def established : WriteContext :=
  { maxMessageSize := 65536, state := .established, flags := [], pendingQueue := {} }

/-- An ordered message, one that is not, an empty one that is not, and an ordered message. -/
def mixedWrites : List StreamEvent :=
  [.write established [1] .binary, .setReliabilityParams true .reliable 0,
    .write established [2] .binary, .write established [] .binary,
    .setReliabilityParams false .reliable 0, .write established [3] .binary]

theorem numberedWithoutHoles_mixedWrites :
    NumberedWithoutHoles ((new 7 1200).orderedMessages mixedWrites) ∧
      ((new 7 1200).orderedMessages mixedWrites).length = 2 := by
  have hok : Runs.Along eventStep WriteOk (new 7 1200) mixedWrites := by decide
  exact ⟨(numberedWithoutHoles_iff hok).mpr (emptiesCancel_of_none (by decide)), by decide⟩

/-- An empty message and one of a byte, both in order. -/
def emptyWriteFirst : List StreamEvent :=
  [.write established [] .binary, .write established [1] .binary]

/-- Both writes succeed, and the first chunk that is sent has the number 1. -/
theorem not_numberedWithoutHoles :
    Runs.Along eventStep WriteOk (new 7 1200) emptyWriteFirst ∧
      ¬ NumberedWithoutHoles ((new 7 1200).orderedMessages emptyWriteFirst) := by
  refine ⟨by decide, ?_⟩
  intro h
  obtain ⟨message, hmessage, hnumber⟩ : ∃ message,
      ((new 7 1200).orderedMessages emptyWriteFirst)[0]? = some message ∧
        ∃ c ∈ message, c.streamSequenceNumber = 1 := ⟨_, rfl, _, List.mem_cons_self, rfl⟩
  obtain ⟨c, hc, hone⟩ := hnumber
  have hzero := h.consecutive 0 message hmessage c hc
  rw [hone] at hzero
  revert hzero
  decide

end Stream

end Sctp
