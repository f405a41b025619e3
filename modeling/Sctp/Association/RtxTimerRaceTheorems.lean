import Sctp.RtxTimerRace
import Sctp.Association.Sender

/-!
# When a stopped retransmission timer is silent

A task that has woken waits for the lock that the stopping operation holds, and calls back when it
gets it: nothing tells it that the timer has been stopped.
-/

namespace Sctp

namespace RtxTimerRace

variable {σ : Type} {s : RtxTimerRace σ} {e : Event σ} {i : ℕ}

/-- No task has been started yet. -/
structure Idle (s : RtxTimerRace σ) : Prop where
  holder : s.holder = none
  tasks : ∀ i, s.tasks i = .ended
  stoppedBelow : s.stoppedBelow = s.nextTask

/-- A stopped task is not between its sleep and its callback. A task calls back under the lock, and
one that has not been started does nothing. -/
structure Silenced (s : RtxTimerRace σ) : Prop where
  stopped : ∀ i < s.stoppedBelow, ∀ nRtos, s.tasks i ≠ .waiting nRtos ∧ s.tasks i ≠ .holding nRtos
  lock : ∀ i, s.holder = some (.task i) ↔ ∃ nRtos, s.tasks i = .holding nRtos
  fresh : ∀ i, s.nextTask ≤ i → s.tasks i = .ended
  stoppedBelow_le : s.stoppedBelow ≤ s.nextTask

theorem Idle.silenced (h : s.Idle) : s.Silenced where
  stopped i _ nRtos := by
    rw [h.tasks i]
    exact ⟨nofun, nofun⟩
  lock i := by
    rw [h.tasks i, h.holder]
    exact iff_of_false nofun fun ⟨_, hn⟩ => nomatch hn
  fresh i _ := h.tasks i
  stoppedBelow_le := Nat.le_of_eq h.stoppedBelow

/-! ## One step -/

theorem setTask_self (s : RtxTimerRace σ) (i : ℕ) (task : RtxTask) :
    (s.setTask i task).tasks i = task := Function.update_self ..

theorem setTask_of_ne {j : ℕ} (hj : j ≠ i) (task : RtxTask) :
    (s.setTask i task).tasks j = s.tasks j := Function.update_of_ne hj ..

/-- A task that is running changes what it does. -/
theorem Silenced.setTask (h : s.Silenced) {task : RtxTask} {observer : σ} {holder : Option LockHolder}
    {closeTx : Option ℕ} (hrunning : s.tasks i ≠ .ended)
    (hstopped : i < s.stoppedBelow → ∀ nRtos, task ≠ .waiting nRtos ∧ task ≠ .holding nRtos)
    (hself : holder = some (.task i) ↔ ∃ nRtos, task = .holding nRtos)
    (hothers : ∀ j, j ≠ i → (holder = some (.task j) ↔ s.holder = some (.task j))) :
    ({ s.setTask i task with observer, holder, closeTx } : RtxTimerRace σ).Silenced where
  stopped j hj nRtos := by
    show (s.setTask i task).tasks j ≠ _ ∧ (s.setTask i task).tasks j ≠ _
    by_cases hji : j = i
    · subst hji
      rw [setTask_self]
      exact hstopped hj nRtos
    · rw [setTask_of_ne hji]
      exact h.stopped j hj nRtos
  lock j := by
    show holder = _ ↔ ∃ nRtos, (s.setTask i task).tasks j = _
    by_cases hji : j = i
    · subst hji
      rw [setTask_self]
      exact hself
    · rw [setTask_of_ne hji, hothers j hji]
      exact h.lock j
  fresh j hj := by
    show (s.setTask i task).tasks j = _
    have hji : j ≠ i := by
      rintro rfl
      exact hrunning (h.fresh j hj)
    rw [setTask_of_ne hji]
    exact h.fresh j hj
  stoppedBelow_le := h.stoppedBelow_le

/-- A task that does not hold the lock, before or after. -/
theorem Silenced.setTask_unlocked (h : s.Silenced) {task : RtxTask} {closeTx : Option ℕ}
    (hrunning : s.tasks i ≠ .ended) (hbefore : ∀ nRtos, s.tasks i ≠ .holding nRtos)
    (hafter : ∀ nRtos, task ≠ .holding nRtos)
    (hstopped : i < s.stoppedBelow → ∀ nRtos, task ≠ .waiting nRtos) :
    ({ s.setTask i task with closeTx } : RtxTimerRace σ).Silenced := by
  refine h.setTask hrunning (fun hlt n => ⟨hstopped hlt n, hafter n⟩) ?_ fun _ _ => Iff.rfl
  refine iff_of_false (fun hheld => ?_) fun ⟨n, hn⟩ => hafter n hn
  obtain ⟨n, hn⟩ := (h.lock i).mp hheld
  exact hbefore n hn

/-- Under the lock of an operation no task calls back. -/
theorem Silenced.not_holding (h : s.Silenced) (hop : s.holder = some .operation ∨ s.holder = none)
    (i nRtos : ℕ) : s.tasks i ≠ .holding nRtos := by
  intro hi
  have hholder := (h.lock i).mpr ⟨nRtos, hi⟩
  rcases hop with hop | hop
  · rw [hop] at hholder
    cases hholder
  · rw [hop] at hholder
    cases hholder

/-- The lock goes to an operation, or back. -/
theorem Silenced.locked (h : s.Silenced) (hop : s.holder = some .operation ∨ s.holder = none)
    (observer : σ) {holder : Option LockHolder} (hholder : ∀ i, holder ≠ some (.task i)) :
    ({ s with observer, holder } : RtxTimerRace σ).Silenced where
  stopped := h.stopped
  lock i := iff_of_false (hholder i) fun ⟨n, hn⟩ => h.not_holding hop i n hn
  fresh := h.fresh
  stoppedBelow_le := h.stoppedBelow_le

theorem Silenced.start (h : s.Silenced) : s.start.Silenced := by
  unfold RtxTimerRace.start
  split_ifs
  · exact h
  · have hle := h.stoppedBelow_le
    have hnew : s.tasks s.nextTask = .ended := h.fresh _ (Nat.le_refl _)
    refine { stopped := ?_, lock := ?_, fresh := ?_, stoppedBelow_le := Nat.le_succ_of_le hle }
    · intro i hi nRtos
      change i < s.stoppedBelow at hi
      show (s.setTask s.nextTask _).tasks i ≠ _ ∧ (s.setTask s.nextTask _).tasks i ≠ _
      rw [setTask_of_ne (by omega)]
      exact h.stopped i hi nRtos
    · intro i
      show s.holder = _ ↔ ∃ nRtos, (s.setTask s.nextTask _).tasks i = _
      rw [h.lock i]
      by_cases hi : i = s.nextTask
      · rw [hi, setTask_self, hnew]
        exact iff_of_false (fun ⟨_, hn⟩ => nomatch hn) fun ⟨_, hn⟩ => nomatch hn
      · rw [setTask_of_ne hi]
    · intro i hi
      change s.nextTask + 1 ≤ i at hi
      show (s.setTask s.nextTask _).tasks i = _
      rw [setTask_of_ne (by omega)]
      exact h.fresh i (by omega)

/-- A stop that finds no task past its sleep. -/
theorem Silenced.stop (h : s.Silenced) (hop : s.holder = some .operation)
    (hwaiting : ∀ i nRtos, s.tasks i ≠ .waiting nRtos) : s.stop.Silenced where
  stopped i _ nRtos := ⟨hwaiting i nRtos, h.not_holding (Or.inl hop) i nRtos⟩
  lock := h.lock
  fresh := h.fresh
  stoppedBelow_le := Nat.le_refl _

/-- A step of a task. -/
theorem Silenced.wake (h : s.Silenced) (htime : s.StopsInTime (.wake i)) : (s.wake i).Silenced := by
  unfold RtxTimerRace.wake
  split
  · rename_i nRtos hi
    refine h.setTask_unlocked (by rw [hi]; nofun) (by rw [hi]; nofun) ?_ ?_
    · intro n
      split_ifs <;> nofun
    · intro hstopped n
      split_ifs with halive
      · have hle := htime halive nRtos hi
        omega
      · nofun
  · exact h

theorem Silenced.close (h : s.Silenced) (i : ℕ) : (s.close i).Silenced := by
  unfold RtxTimerRace.close
  split
  · rename_i nRtos hi
    split_ifs
    · exact h
    · exact h.setTask_unlocked (by rw [hi]; nofun) (by rw [hi]; nofun) nofun fun _ => nofun
  · exact h

theorem Silenced.acquire (h : s.Silenced) (i : ℕ) : (s.acquire i).Silenced := by
  unfold RtxTimerRace.acquire
  split
  · rename_i nRtos hi
    split_ifs with hfree
    · refine h.setTask (by rw [hi]; nofun) ?_ (iff_of_true rfl ⟨nRtos, rfl⟩) ?_
      · intro hstopped
        exact absurd hi (h.stopped i hstopped nRtos).1
      · intro j hj
        rw [hfree]
        refine iff_of_false (fun hheld => hj ?_) nofun
        cases hheld
        rfl
    · exact h
  · exact h

theorem Silenced.callBack [RtxTimerObserver σ] (h : s.Silenced) (i : ℕ) :
    (s.callBack i).Silenced := by
  unfold RtxTimerRace.callBack
  split
  · rename_i nRtos hi
    -- only one task holds the lock
    have honly : ∀ j, j ≠ i → (none = some (LockHolder.task j) ↔ s.holder = some (.task j)) := by
      intro j hj
      rw [(h.lock i).mpr ⟨nRtos, hi⟩]
      refine iff_of_false nofun fun hheld => hj ?_
      cases hheld
      rfl
    split_ifs
    · exact h.setTask (by rw [hi]; nofun) (fun _ _ => ⟨nofun, nofun⟩)
        (iff_of_false nofun fun ⟨_, hn⟩ => nomatch hn) honly
    · exact h.setTask (by rw [hi]; nofun) (fun _ _ => ⟨nofun, nofun⟩)
        (iff_of_false nofun fun ⟨_, hn⟩ => nomatch hn) honly
  · exact h

theorem Silenced.giveUp (h : s.Silenced) (i : ℕ) : (s.giveUp i).Silenced := by
  unfold RtxTimerRace.giveUp
  split
  · rename_i hi
    exact h.setTask_unlocked (by rw [hi]; nofun) (by rw [hi]; nofun) nofun fun _ => nofun
  · exact h

/-- A step in time leaves the stopped tasks silent. -/
theorem Silenced.step [RtxTimerObserver σ] (h : s.Silenced) (htime : s.StopsInTime e) : (s.step e).Silenced := by
  cases e with
  | lock =>
    dsimp only [RtxTimerRace.step]
    split_ifs with hfree
    · exact h.locked (Or.inr hfree.1) _ nofun
    · exact h
  | operate f =>
    dsimp only [RtxTimerRace.step]
    split_ifs with hop
    · exact h.locked (Or.inl hop) _ (by rw [hop]; nofun)
    · exact h
  | start =>
    dsimp only [RtxTimerRace.step]
    split_ifs
    · exact h.start
    · exact h
  | stop =>
    dsimp only [RtxTimerRace.step]
    split_ifs with hop
    · exact h.stop hop (htime hop)
    · exact h
  | unlock =>
    dsimp only [RtxTimerRace.step]
    split_ifs with hop
    · exact h.locked (Or.inl hop) _ nofun
    · exact h
  | wake i => exact h.wake htime
  | close i => exact h.close i
  | acquire i => exact h.acquire i
  | callBack i => exact h.callBack i
  | giveUp i => exact h.giveUp i
  | drop => exact { h with }

/-- No stopped task has the lock to call back with. -/
theorem Silenced.stopSilences [RtxTimerObserver σ] (h : s.Silenced) (e : Event σ) :
    s.StopSilences e := by
  constructor
  · intro i nRtos _ hi
    by_contra hlt
    exact (h.stopped i (by omega) nRtos).2 hi
  · intro hall hop
    cases e with
    | operate f => exact absurd rfl (hop f)
    | lock =>
      dsimp only [RtxTimerRace.step]
      split_ifs <;> rfl
    | start =>
      dsimp only [RtxTimerRace.step]
      unfold RtxTimerRace.start
      split_ifs <;> rfl
    | stop =>
      dsimp only [RtxTimerRace.step]
      split_ifs <;> rfl
    | unlock =>
      dsimp only [RtxTimerRace.step]
      split_ifs <;> rfl
    | wake i =>
      dsimp only [RtxTimerRace.step]
      unfold RtxTimerRace.wake
      split <;> rfl
    | close i =>
      dsimp only [RtxTimerRace.step]
      unfold RtxTimerRace.close
      split
      · split_ifs <;> rfl
      · rfl
    | acquire i =>
      dsimp only [RtxTimerRace.step]
      unfold RtxTimerRace.acquire
      split
      · split_ifs <;> rfl
      · rfl
    | callBack i =>
      dsimp only [RtxTimerRace.step]
      unfold RtxTimerRace.callBack
      split
      · rename_i nRtos hi
        -- a task that has been started is one that has been stopped
        by_cases hlt : i < s.stoppedBelow
        · exact absurd hi (h.stopped i hlt nRtos).2
        · rw [h.fresh i (by omega)] at hi
          cases hi
      · rfl
    | giveUp i =>
      dsimp only [RtxTimerRace.step]
      unfold RtxTimerRace.giveUp
      split <;> rfl
    | drop => rfl

/-! ## Steps that are not in time -/

/-- A stopped task that waits for a lock nobody holds can take it and call back. -/
theorem late_of_free [RtxTimerObserver σ] {nRtos : ℕ} (hfree : s.holder = none)
    (hi : s.tasks i = .waiting nRtos) (hlt : i < s.stoppedBelow) :
    ¬ Runs.Along step StopSilences s [.acquire i, .callBack i] := by
  intro h
  have hacquire : s.step (.acquire i) =
      { s.setTask i (.holding nRtos) with holder := some (.task i) } := by
    show s.acquire i = _
    unfold RtxTimerRace.acquire
    rw [hi]
    exact if_pos hfree
  have hcall := h.2.1.1 i nRtos rfl
  rw [hacquire] at hcall
  have hle : s.stoppedBelow ≤ i := hcall (setTask_self s i _)
  omega

/-- Whoever holds the lock gives it back. -/
theorem exists_late [RtxTimerObserver σ]
    (hlock : ∀ j, s.holder = some (.task j) → ∃ nRtos, s.tasks j = .holding nRtos) {nRtos : ℕ}
    (hi : s.tasks i = .waiting nRtos) (hlt : i < s.stoppedBelow) :
    ∃ after, ¬ Runs.Along step StopSilences s after := by
  rcases hholder : s.holder with _ | ⟨_ | j⟩
  · exact ⟨_, late_of_free hholder hi hlt⟩
  · have hunlock : s.step .unlock = { s with holder := none } := if_pos hholder
    refine ⟨.unlock :: [.acquire i, .callBack i], fun h => ?_⟩
    refine @late_of_free σ (s.step .unlock) i _ nRtos ?_ ?_ ?_ h.2
    · rw [hunlock]
    · rw [hunlock]
      exact hi
    · rw [hunlock]
      exact hlt
  · obtain ⟨n, hj⟩ := hlock j hholder
    have hne : i ≠ j := by
      rintro rfl
      rw [hi] at hj
      cases hj
    have hafter : (s.callBack j).holder = none ∧ (s.callBack j).tasks i = s.tasks i ∧
        (s.callBack j).stoppedBelow = s.stoppedBelow := by
      unfold RtxTimerRace.callBack
      rw [hj]
      dsimp only
      split_ifs
      · exact ⟨rfl, setTask_of_ne hne _, rfl⟩
      · exact ⟨rfl, setTask_of_ne hne _, rfl⟩
    refine ⟨.callBack j :: [.acquire i, .callBack i], fun h => ?_⟩
    exact late_of_free (s := s.step (.callBack j)) hafter.1 (hafter.2.1.trans hi)
      (hafter.2.2.symm ▸ hlt) h.2

/-- After a step that is not in time a stopped task can call back. -/
theorem exists_late_of_not_inTime [RtxTimerObserver σ] (h : s.Silenced)
    (hlate : ¬ s.StopsInTime e) : ∃ after, ¬ Runs.Along step StopSilences s (e :: after) := by
  have hnext : ∀ {i nRtos : ℕ}, (s.step e).tasks i = .waiting nRtos → i < (s.step e).stoppedBelow →
      (∀ j, (s.step e).holder = some (.task j) → ∃ n, (s.step e).tasks j = .holding n) →
      ∃ after, ¬ Runs.Along step StopSilences s (e :: after) := by
    intro i nRtos hi hlt hlock
    obtain ⟨after, hafter⟩ := exists_late hlock hi hlt
    exact ⟨after, fun halong => hafter halong.2⟩
  cases e with
  | stop =>
    -- the task that waits will get the lock when the operation is through
    obtain ⟨hop, hwaiting⟩ := Classical.not_imp.mp hlate
    obtain ⟨i, hi⟩ := not_forall.mp hwaiting
    obtain ⟨nRtos, hi⟩ := not_forall.mp hi
    rw [not_not] at hi
    have hstop : s.step .stop = s.stop := if_pos hop
    rw [hstop] at hnext
    refine hnext hi ?_ fun j hj => (h.lock j).mp hj
    show i < s.nextTask
    by_contra hge
    rw [h.fresh i (by omega)] at hi
    cases hi
  | wake i =>
    obtain ⟨halive, hsleeping⟩ := Classical.not_imp.mp hlate
    obtain ⟨nRtos, hsleeping⟩ := not_forall.mp hsleeping
    obtain ⟨hi, hlt⟩ := Classical.not_imp.mp hsleeping
    have hwake : s.step (.wake i) = s.setTask i (.waiting (nRtos + 1)) := by
      show s.wake i = _
      unfold RtxTimerRace.wake
      rw [hi]
      dsimp only
      rw [if_pos halive]
    rw [hwake] at hnext
    refine hnext (setTask_self s i _) (Nat.lt_of_not_le hlt) fun j hj => ?_
    obtain ⟨n, hn⟩ := (h.lock j).mp hj
    have hne : j ≠ i := by
      rintro rfl
      rw [hi] at hn
      cases hn
    exact ⟨n, (setTask_of_ne hne _).trans hn⟩
  | lock | operate f | start | unlock | close i | acquire i | callBack i | giveUp i | drop =>
    exact absurd trivial hlate

/-! ## Runs -/

/-- **When a stopped timer is silent**: as long as every stop finds no task past its sleep, and no
stopped task wakes by its timer. After the first step of another kind a stopped task can call
back. -/
theorem stopSilences_of_run [RtxTimerObserver σ] (h : s.Idle) (events : List (Event σ)) :
    (Runs.Along step StopsInTime s events → Runs.Along step StopSilences s events) ∧
      ∀ e, Runs.Along step StopsInTime s events → ¬ (Runs.run step s events).StopsInTime e →
        ∃ after, ¬ Runs.Along step StopSilences s (events ++ e :: after) := by
  constructor
  · intro htime
    exact Runs.along_of_invariant (fun s e he hs => Silenced.step hs he)
      (fun s e _ hs => Silenced.stopSilences hs e) h.silenced htime
  · intro e htime hlate
    have hrun : (Runs.run step s events).Silenced :=
      Runs.run_invariant_along (fun s e he hs => Silenced.step hs he) h.silenced htime
    obtain ⟨after, hafter⟩ := exists_late_of_not_inTime hrun hlate
    exact ⟨after, fun halong => hafter ((Runs.along_append _ _ _).mp halong).2⟩

/-! ## T3-rtx -/

/-- The timers of an association; their failures are logged and notified. -/
instance : RtxTimerObserver AssociationInternal where
  onRetransmissionTimeout a id _ := a.onRetransmissionTimeout id
  onRetransmissionFailure a _ := a

/-- A byte is sent, and T3-rtx started. -/
def sendingByte (a : AssociationInternal) : AssociationInternal :=
  Runs.run AssociationInternal.senderStep a [.openStream 0 .binary, .write 0 [1] .binary, .gather 0]

/-- The byte is acknowledged. -/
def acknowledged (a : AssociationInternal) : AssociationInternal :=
  a.senderStep (.sack 0
    { cumulativeTsnAck := 0xffffffff, advertisedReceiverWindowCredit := 4096
      gapAckBlocks := [], duplicateTsn := [] })

/-- The T3-rtx timer of an association before its first start. -/
def t3Race : RtxTimerRace AssociationInternal :=
  { observer := AssociationInternal.justEstablished, id := .t3Rtx, maxRetrans := 0 }

/-- The byte is acknowledged while the task sleeps, and the task sees that its channel is closed. -/
def stoppedAsleep : List (Event AssociationInternal) :=
  [.lock, .operate sendingByte, .start, .unlock,
    .lock, .operate acknowledged, .stop, .unlock, .close 0]

theorem idle_t3Race : t3Race.Idle := ⟨rfl, fun _ => rfl, rfl⟩

theorem stopSilences_stoppedAsleep : Runs.Along step StopSilences t3Race stoppedAsleep := by
  refine (stopSilences_of_run idle_t3Race stoppedAsleep).1 ?_
  refine ⟨trivial, trivial, trivial, trivial, trivial, trivial, ?_, trivial, trivial, trivial⟩
  rintro _ (_ | i) nRtos hi
  · cases hi
  · cases hi

/-- The task has woken when the SACK is handled, and waits for the lock. -/
def stoppedAwake : List (Event AssociationInternal) :=
  [.lock, .operate sendingByte, .start, .unlock, .wake 0,
    .lock, .operate acknowledged, .stop, .unlock]

/-- Everything is acknowledged and the timer is stopped; then it collapses the window. -/
theorem not_stopSilences_stoppedAwake :
    ¬ Runs.Along step StopSilences t3Race (stoppedAwake ++ [.acquire 0, .callBack 0]) ∧
      (Runs.run step t3Race stoppedAwake).observer.inflightQueue.isEmpty = true ∧
      (Runs.run step t3Race stoppedAwake).observer.cwnd = 4380 ∧
      (Runs.run step t3Race (stoppedAwake ++ [.acquire 0, .callBack 0])).observer.cwnd = 1228 := by
  refine ⟨fun h => ?_, by decide +kernel, by decide +kernel, by decide +kernel⟩
  exact @late_of_free _ (Runs.run step t3Race stoppedAwake) 0 _ 1 rfl rfl (by decide)
    ((Runs.along_append _ _ _).mp h).2

end RtxTimerRace

end Sctp
