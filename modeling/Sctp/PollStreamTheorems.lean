import Sctp.PollStream
import Sctp.StreamTheorems

/-!
# What `PollStream` writes

`poll_write` with a future stored polls that one, and gives its result as the one of the new
buffer: the new buffer is not written, and the number is the length of the earlier one.
-/

namespace Sctp

/-- The future of `Stream::write` gives the length of its buffer. -/
theorem Stream.writeSctp_length {s : Stream} {maxMessageSize : U32} {state : AssociationState}
    {flags : SharedFlags} {pendingQueue : PendingQueue} {p : Bytes} {ppi : PayloadProtocolIdentifier}
    {n : ℕ} (h : (s.writeSctp maxMessageSize state flags pendingQueue p ppi).2.2.2 = .ok n) :
    n = p.length := by
  rcases s.writeSctp_cases maxMessageSize state flags pendingQueue p ppi with
    ⟨e, heq⟩ | ⟨e, heq⟩ | ⟨_, heq⟩
  · rw [heq] at h
    cases h
  · rw [heq] at h
    cases h
  · rw [heq] at h
    cases h
    rfl

namespace PollStream

variable {s : PollStream} {op : Op} {ops : List Op} {buf : Bytes}

/-! ## One poll -/

/-- A write without one stored is taken whole, whether or not it is done at once. -/
theorem pollWrite_new (hnone : s.writeFut = none) {outcome : Poll (Except Error Unit)}
    (hok : ∀ e, outcome ≠ .ready (.error e)) :
    (s.pollWrite buf outcome).2 = .ready (.ok buf.length) := by
  unfold pollWrite
  rw [hnone]
  match outcome with
  | .pending => rfl
  | .ready (.ok ()) => rfl
  | .ready (.error e) => exact absurd rfl (hok e)

/-- With a future stored, its result is the result. -/
theorem pollWrite_stored {fut : Bytes} (hfut : s.writeFut = some fut)
    (outcome : Poll (Except Error Unit)) :
    (s.pollWrite buf outcome).2 = pollStreamWrite fut outcome := by
  unfold pollWrite
  rw [hfut]
  match outcome with
  | .pending => rfl
  | .ready (.ok ()) => rfl
  | .ready (.error e) => rfl

/-- A step that completes no earlier buffer accepts what it hands on. -/
theorem step_exact (hok : op.Succeeds) (h : s.CompletesNone op) :
    s.Bounded op ∧ s.handed op = s.accepted op := by
  cases op with
  | flush outcome => exact ⟨trivial, rfl⟩
  | write buf outcome =>
    unfold Bounded handed accepted
    dsimp only
    cases hfut : s.writeFut with
    | none =>
      -- no future is stored: the whole of the new buffer goes into one
      rw [pollWrite_new hfut hok]
      refine ⟨?_, (List.take_length).symm⟩
      intro n hn
      cases hn
      exact Nat.le_refl _
    | some fut =>
      rw [pollWrite_stored hfut]
      match outcome with
      | .pending => exact ⟨nofun, rfl⟩
      | .ready (.error e) => exact absurd rfl (hok e)
      | .ready (.ok ()) =>
        -- the stored future completes, and the buffer of this call is dropped
        have hempty : fut = [] := by
          have hget : s.writeFut.getD [] = [] := h rfl
          rw [hfut] at hget
          exact hget
        subst hempty
        refine ⟨?_, rfl⟩
        intro n hn
        cases hn
        exact Nat.zero_le _

/-- A step never accepts less than it hands on, and one that completes an earlier buffer accepts
more. -/
theorem length_handed_le (hok : op.Succeeds) (hb : s.Bounded op) :
    (s.handed op).length ≤ (s.accepted op).length ∧
      ((s.handed op).length = (s.accepted op).length → s.CompletesNone op) := by
  by_cases h : s.CompletesNone op
  · rw [(step_exact hok h).2]
    exact ⟨Nat.le_refl _, fun _ => h⟩
  · cases op with
    | flush outcome => exact absurd trivial h
    | write buf outcome =>
      -- what is left is the completion of a stored buffer that is not empty
      have hnot : outcome = .ready (.ok ()) ∧ s.writeFut.getD [] ≠ [] := Classical.not_imp.mp h
      obtain ⟨rfl, hne⟩ := hnot
      cases hfut : s.writeFut with
      | none =>
        rw [hfut] at hne
        exact absurd rfl hne
      | some fut =>
        rw [hfut] at hne
        have hresult : (s.pollWrite buf (.ready (.ok ()))).2 = .ready (.ok fut.length) :=
          pollWrite_stored hfut _
        have hle : fut.length ≤ buf.length := hb fut.length hresult
        have hhanded : s.handed (.write buf (.ready (.ok ()))) = [] := by
          unfold handed
          dsimp only
          rw [hfut]
          rfl
        have haccepted : s.accepted (.write buf (.ready (.ok ()))) = buf.take fut.length := by
          unfold accepted
          dsimp only
          rw [hresult]
        have hpos : 0 < fut.length := List.length_pos_iff.mpr hne
        rw [hhanded, haccepted, List.length_take, List.length_nil]
        omega

/-! ## Whole runs -/

/-- The first poll, and the others. -/
theorem allHanded_cons (s : PollStream) (op : Op) (ops : List Op) :
    s.allHanded (op :: ops) = s.handed op ++ (s.step op).allHanded ops := rfl

/-- The same for what is accepted. -/
theorem allAccepted_cons (s : PollStream) (op : Op) (ops : List Op) :
    s.allAccepted (op :: ops) = s.accepted op ++ (s.step op).allAccepted ops := rfl

/-- A run of futures that do not fail, none of which completes an earlier buffer. -/
theorem along_exact (hok : ∀ op ∈ ops, op.Succeeds) (h : Runs.Along step CompletesNone s ops) :
    Runs.Along step (fun s op => s.Bounded op ∧ s.handed op = s.accepted op) s ops :=
  Runs.along_mono (fun _ _ hop => step_exact hop.1 hop.2)
    (Runs.along_and (Runs.along_of_forall s hok) h)

/-- When no poll completes an earlier buffer, what is handed over is what was accepted. -/
theorem allHanded_eq (hok : ∀ op ∈ ops, op.Succeeds) (h : Runs.Along step CompletesNone s ops) :
    s.allHanded ops = s.allAccepted ops := by
  unfold allHanded allAccepted
  rw [Runs.outputs_congr (fun _ _ hop => hop.2) (along_exact hok h)]

/-- No more is handed over than accepted; and less, once a poll completes an earlier buffer. -/
theorem completesNone_of_length (hok : ∀ op ∈ ops, op.Succeeds) (hb : Runs.Along step Bounded s ops) :
    (s.allHanded ops).length ≤ (s.allAccepted ops).length ∧
      ((s.allHanded ops).length = (s.allAccepted ops).length →
        Runs.Along step CompletesNone s ops) := by
  induction ops generalizing s with
  | nil => exact ⟨Nat.le_refl _, fun _ => trivial⟩
  | cons op ops ih =>
    obtain ⟨hle, heq⟩ := length_handed_le (hok op List.mem_cons_self) hb.1
    obtain ⟨hle', heq'⟩ := ih (fun op' hop' => hok op' (List.mem_cons_of_mem _ hop')) hb.2
    rw [allHanded_cons, allAccepted_cons, List.length_append, List.length_append]
    refine ⟨by omega, ?_⟩
    intro hlen
    exact ⟨heq (by omega), heq' (by omega)⟩

/-- A flush hands nothing on. -/
theorem allHanded_flush (s : PollStream) (ops : List Op) (outcome : Poll (Except Error Unit)) :
    s.allHanded (ops ++ [.flush outcome]) = s.allHanded ops ∧
      s.allAccepted (ops ++ [.flush outcome]) = s.allAccepted ops := by
  unfold allHanded allAccepted
  rw [Runs.outputs_append, Runs.outputs_append, List.flatten_append, List.flatten_append]
  exact ⟨List.append_nil _, List.append_nil _⟩

/-- **What `PollStream` writes** is what it accepts, if no `poll_write` completes the future of an
earlier buffer; and once it has been flushed, only then. -/
theorem writesExactly_iff (hok : ∀ op ∈ ops, op.Succeeds) :
    (Runs.Along step CompletesNone {} ops → WritesExactly ops) ∧
      (WritesExactly (ops ++ [.flush (.ready (.ok ()))]) → Runs.Along step CompletesNone {} ops) := by
  constructor
  · intro h
    refine ⟨Runs.along_mono (fun _ _ hop => hop.1) (along_exact hok h), ?_⟩
    rintro before outcome after rfl _
    obtain ⟨hbefore, _⟩ := (Runs.along_append _ _ _).mp h
    rw [(allHanded_flush _ _ _).1, (allHanded_flush _ _ _).2]
    exact allHanded_eq (fun op hop => hok op (List.mem_append_left _ hop)) hbefore
  · intro h
    obtain ⟨hbounded, _⟩ := (Runs.along_append _ _ _).mp h.bounded
    have hflush : ((Runs.run step {} ops).pollFlush (.ready (.ok ()))).2 = .ready (.ok ()) := by
      unfold pollFlush
      split <;> rfl
    have hexact := h.exact ops (.ready (.ok ())) [] rfl hflush
    rw [(allHanded_flush _ _ _).1, (allHanded_flush _ _ _).2] at hexact
    exact (completesNone_of_length hok hbounded).2 (by rw [hexact])

/-- The second buffer waits until the first one is flushed. -/
def waitingPolls : List Op :=
  [.write [1] .pending, .write [2, 3] .pending, .flush (.ready (.ok ())),
    .write [2, 3] (.ready (.ok ())), .flush .pending]

theorem writesExactly_waitingPolls : WritesExactly waitingPolls :=
  (writesExactly_iff (by decide)).1 (by decide)

/-- The first buffer is written while the second one is offered. -/
def swallowingPolls : List Op :=
  [.write [1] .pending, .write [2, 3] (.ready (.ok ())), .flush (.ready (.ok ()))]

/-- The second buffer is too short for the number that comes back. -/
def shortPolls : List Op := [.write [1, 2] .pending, .write [3] (.ready (.ok ()))]

/-- A byte is accepted and never written, and a number is larger than the buffer. -/
theorem not_writesExactly :
    ¬ WritesExactly swallowingPolls ∧ ¬ Runs.Along step Bounded {} shortPolls := by
  constructor
  · intro h
    have hexact := h.exact [.write [1] .pending, .write [2, 3] (.ready (.ok ()))] (.ready (.ok ()))
      [] rfl rfl
    exact absurd hexact (by decide)
  · intro h
    exact absurd (h.2.1 2 rfl) (by decide)

end PollStream

end Sctp
