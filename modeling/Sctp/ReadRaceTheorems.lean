import Sctp.ReadRace

/-!
# Who wakes the readers

The flag is set once, and whoever sets it calls `notify_waiters` afterwards. From then on no reader
passes the test; one that has passed it before and does not wait yet is missed.
-/

namespace Sctp

/-- It has found the read half open. -/
def Reader.pastTest : Reader → Bool
  | .reading _ | .registering _ | .waiting _ => true
  | _ => false

/-- A reader that is woken does not go back behind its test. -/
theorem Reader.pastTest_wake {r : Reader} (h : r.wake.pastTest = true) : r.pastTest = true := by
  cases r with
  | waiting bufLen => rfl
  | idle => exact h
  | testing bufLen => exact h
  | reading bufLen => exact h
  | registering bufLen => exact h
  | returned => exact h

/-- A reader that is woken does not wait. -/
theorem Reader.wake_ne_waiting (r : Reader) (bufLen : ℕ) : r.wake ≠ .waiting bufLen := by
  cases r <;> exact nofun

namespace ReadRace

variable {s s' : ReadRace}

/-- Whoever waits is registered; and when the flag is set, it is still to be announced, or no reader
is past the test. -/
structure Watched (s : ReadRace) : Prop where
  registered : ∀ i bufLen, s.readers i = .waiting bufLen → i ∈ s.waiters
  announced : s.stream.readShutdown = true →
    (∃ i unregisters, s.closers i = .notifying unregisters) ∨ ∀ i, (s.readers i).pastTest = false

namespace Watched

/-- Nobody waits at the start. -/
theorem init (stream : Stream) : Watched { stream } where
  registered _ _ h := by cases h
  announced _ := Or.inr fun _ => rfl

/-- One reader goes on, and no reader passes the test when the flag is set. -/
theorem of_reader (h : s.Watched) {i : ℕ} {r : Reader}
    (hreaders : s'.readers = Function.update s.readers i r)
    (hflag : s'.stream.readShutdown = s.stream.readShutdown) (hclosers : s'.closers = s.closers)
    (hwaiters : ∀ j, j ≠ i → j ∈ s.waiters → j ∈ s'.waiters)
    (hwaits : ∀ bufLen, r = .waiting bufLen → i ∈ s'.waiters)
    (hpast : r.pastTest = true → (s.readers i).pastTest = true ∨ s.stream.readShutdown = false) :
    s'.Watched := by
  refine ⟨?_, ?_⟩
  · intro j bufLen hj
    rw [hreaders] at hj
    by_cases hji : j = i
    · rw [hji, Function.update_self] at hj
      rw [hji]
      exact hwaits bufLen hj
    · rw [Function.update_of_ne hji] at hj
      exact hwaiters j hji (h.registered j bufLen hj)
  · intro hset
    rw [hflag] at hset
    rw [hclosers, hreaders]
    -- the flag was set before: its closer is still on its way, or every reader was before the test
    rcases h.announced hset with hnotify | hcalm
    · exact Or.inl hnotify
    · right
      intro j
      by_cases hji : j = i
      · rw [hji, Function.update_self]
        by_contra hcon
        have hr : r.pastTest = true := by simpa using hcon
        rcases hpast hr with hbefore | hunset
        · rw [hcalm i] at hbefore
          cases hbefore
        · rw [hset] at hunset
          cases hunset
      · rw [Function.update_of_ne hji]
        exact hcalm j

/-- One closer goes on, and it does not forget to announce the flag. -/
theorem of_closer (h : s.Watched) {i : ℕ} {c : Closer} (hreaders : s'.readers = s.readers)
    (hwaiters : s'.waiters = s.waiters) (hclosers : s'.closers = Function.update s.closers i c)
    (hset : s'.stream.readShutdown = true → s.stream.readShutdown = true ∨ ∃ b, c = .notifying b)
    (hkeeps : ∀ b, s.closers i = .notifying b → c = .notifying b) : s'.Watched := by
  refine ⟨?_, ?_⟩
  · rw [hreaders, hwaiters]
    exact h.registered
  · intro hflag
    rw [hreaders, hclosers]
    rcases hset hflag with hbefore | ⟨b, hc⟩
    · rcases h.announced hbefore with ⟨j, b, hj⟩ | hcalm
      · left
        by_cases hji : j = i
        · rw [hji] at hj
          refine ⟨i, b, ?_⟩
          rw [Function.update_self]
          exact hkeeps b hj
        · refine ⟨j, b, ?_⟩
          rw [Function.update_of_ne hji]
          exact hj
      · exact Or.inr hcalm
    · left
      refine ⟨i, b, ?_⟩
      rw [Function.update_self]
      exact hc

/-- What touches neither readers nor closers nor the flag. -/
theorem congr (h : s.Watched) (hreaders : s'.readers = s.readers)
    (hwaiters : s'.waiters = s.waiters) (hclosers : s'.closers = s.closers)
    (hflag : s'.stream.readShutdown = s.stream.readShutdown) : s'.Watched := by
  obtain ⟨hregistered, hannounced⟩ := h
  rw [← hreaders, ← hwaiters] at hregistered
  rw [← hreaders, ← hclosers, ← hflag] at hannounced
  exact ⟨hregistered, hannounced⟩

/-! ### The notifier -/

/-- Waking a reader, or leaving a permit. -/
theorem notifyOne (h : s.Watched) : s.notifyOne.Watched := by
  unfold ReadRace.notifyOne
  cases hw : s.waiters with
  | nil => exact h.congr rfl hw.symm rfl rfl
  | cons i waiters =>
    refine h.of_reader rfl rfl rfl ?_ ?_ ?_
    · intro j hji hj
      rw [hw] at hj
      exact (List.mem_cons.mp hj).resolve_left hji
    · intro bufLen hwaits
      exact absurd hwaits (Reader.wake_ne_waiting _ _)
    · intro hpast
      exact Or.inl (Reader.pastTest_wake hpast)

/-- A reader takes the permit, or waits. -/
theorem notified (h : s.Watched) {i bufLen : ℕ} (hi : (s.readers i).pastTest = true) :
    (s.notified i bufLen).Watched := by
  unfold ReadRace.notified
  split
  · exact h.of_reader rfl rfl rfl (fun _ _ hj => hj) nofun nofun
  · refine h.of_reader rfl rfl rfl ?_ ?_ fun _ => Or.inl hi
    · intro j _ hj
      exact List.mem_append_left _ hj
    · intro _ _
      exact List.mem_append_right _ (List.mem_singleton.mpr rfl)

/-- Outside of the gap `notify_waiters` reaches everybody who is past the test. -/
theorem notifyWaiters (hregistered : ∀ i bufLen, s.readers i = .waiting bufLen → i ∈ s.waiters)
    (hgap : ∀ j, (s.readers j).inGap = false) : s.notifyWaiters.Watched := by
  have hcalm : ∀ j, (s.notifyWaiters.readers j).pastTest = false := by
    intro j
    show (if j ∈ s.waiters then (s.readers j).wake else s.readers j).pastTest = false
    have hj := hgap j
    cases hr : s.readers j with
    | waiting bufLen =>
      rw [if_pos (hregistered j bufLen hr)]
      rfl
    | reading bufLen =>
      rw [hr] at hj
      cases hj
    | registering bufLen =>
      rw [hr] at hj
      cases hj
    | idle => split <;> rfl
    | testing bufLen => split <;> rfl
    | returned => split <;> rfl
  refine ⟨?_, fun _ => Or.inr hcalm⟩
  intro i bufLen hi
  have hpast := hcalm i
  rw [hi] at hpast
  cases hpast

/-! ### The calls -/

/-- A step of a reader. -/
theorem readerStep (h : s.Watched) (i : ℕ) : (s.readerStep i).Watched := by
  unfold ReadRace.readerStep
  cases hi : s.readers i with
  | idle => exact h
  | waiting bufLen => exact h
  | returned => exact h
  | testing bufLen =>
    dsimp only
    split
    · exact h.of_reader rfl rfl rfl (fun _ _ hj => hj) nofun nofun
    · rename_i hopen
      exact h.of_reader rfl rfl rfl (fun _ _ hj => hj) nofun fun _ => Or.inr (by simpa using hopen)
  | reading bufLen =>
    dsimp only
    split
    · exact h.of_reader rfl rfl rfl (fun _ _ hj => hj) nofun nofun
    · exact h.of_reader rfl rfl rfl (fun _ _ hj => hj) nofun nofun
    · exact h.of_reader rfl rfl rfl (fun _ _ hj => hj) nofun fun _ => Or.inl (by rw [hi]; rfl)
  | registering bufLen => exact h.notified (by rw [hi]; rfl)

/-- New data touches neither the readers nor the flag. -/
theorem dataStep (h : s.Watched) (i : ℕ) (pd : ChunkPayloadData) : (s.dataStep i pd).Watched := by
  have hflag : (s.stream.handleData pd).1.readShutdown = s.stream.readShutdown := by
    unfold Stream.handleData
    split <;> rfl
  exact h.congr rfl rfl rfl hflag

/-- The end of a handler wakes one reader at most. -/
theorem handlerStep (h : s.Watched) (i : ℕ) : (s.handlerStep i).Watched := by
  unfold ReadRace.handlerStep
  split
  · exact notifyOne (h.congr rfl rfl rfl rfl)
  · exact h

/-- A closer notifies when no reader is in the gap. -/
theorem closerStep (h : s.Watched) {i : ℕ} (hgap : s.NotifiesOutsideGap (.closer i)) :
    (s.closerStep i).Watched := by
  unfold ReadRace.closerStep
  cases hi : s.closers i with
  | idle => exact h
  | finished => exact h
  | loadingRead how =>
    dsimp only
    split <;> exact h.of_closer rfl rfl rfl Or.inl fun b hb => by rw [hi] at hb; cases hb
  | loadingWrite how =>
    dsimp only
    split <;> exact h.of_closer rfl rfl rfl Or.inl fun b hb => by rw [hi] at hb; cases hb
  | storingWrite how =>
    cases how with
    | read => exact h.of_closer rfl rfl rfl Or.inl fun b hb => by rw [hi] at hb; cases hb
    | write => exact h.of_closer rfl rfl rfl Or.inl fun b hb => by rw [hi] at hb; cases hb
    | both => exact h.of_closer rfl rfl rfl Or.inl fun b hb => by rw [hi] at hb; cases hb
  | swapping unregisters =>
    dsimp only
    split
    · exact h.of_closer rfl rfl rfl Or.inl fun b hb => by rw [hi] at hb; cases hb
    · exact h.of_closer rfl rfl rfl (fun _ => Or.inr ⟨unregisters, rfl⟩)
        fun b hb => by rw [hi] at hb; cases hb
  | notifying unregisters => exact notifyWaiters h.registered (hgap unregisters hi)
  | unregistering => exact h.of_closer rfl rfl rfl Or.inl fun b hb => by rw [hi] at hb; cases hb

/-- **One step**. -/
theorem step (s : ReadRace) (e : Event) (he : s.NotifiesOutsideGap e) (h : s.Watched) :
    (s.step e).Watched := by
  cases e with
  | read i bufLen =>
    unfold ReadRace.step
    dsimp only
    split
    · exact h.of_reader rfl rfl rfl (fun _ _ hj => hj) nofun nofun
    · exact h.of_reader rfl rfl rfl (fun _ _ hj => hj) nofun nofun
    · exact h
  | shutdown i how =>
    unfold ReadRace.step
    dsimp only
    split
    · rename_i hi
      exact h.of_closer rfl rfl rfl Or.inl fun b hb => by rw [hi] at hb; cases hb
    · rename_i hi
      exact h.of_closer rfl rfl rfl Or.inl fun b hb => by rw [hi] at hb; cases hb
    · exact h
  | unregister i =>
    unfold ReadRace.step
    dsimp only
    split
    · rename_i hi
      exact h.of_closer rfl rfl rfl Or.inl fun b hb => by rw [hi] at hb; cases hb
    · rename_i hi
      exact h.of_closer rfl rfl rfl Or.inl fun b hb => by rw [hi] at hb; cases hb
    · exact h
  | data i pd =>
    unfold ReadRace.step
    dsimp only
    split
    · exact h
    · exact h.dataStep i pd
  | reader i => exact h.readerStep i
  | handler i => exact h.handlerStep i
  | closer i => exact h.closerStep he

/-- A watched system leaves nobody waiting. -/
theorem not_leftWaiting (h : s.Watched) : ¬ s.LeftWaiting := by
  intro hleft
  obtain ⟨i, bufLen, hi⟩ := hleft.waits
  rcases h.announced hleft.closed with ⟨j, unregisters, hj⟩ | hcalm
  · exact hleft.noCloser j unregisters hj
  · have hpast := hcalm i
    rw [hi] at hpast
    cases hpast

end Watched

/-- **Closing wakes every reader**, if `notify_waiters` is not called while a reader is between its
test of the flag and its wait. -/
theorem not_leftWaiting_of_notifiesOutsideGap {stream : Stream} {es : List Event}
    (hes : Runs.Along step NotifiesOutsideGap { stream } es) :
    ¬ (Runs.run step { stream } es).LeftWaiting :=
  (Runs.run_invariant_along Watched.step (Watched.init stream) hes).not_leftWaiting

/-- A reader that has found nothing when it is missed by the only notification is left waiting. -/
theorem leftWaiting_of_gap {i j bufLen : ℕ} {unregisters : Bool}
    (hset : s.stream.readShutdown = true) (hi : s.closers i = .notifying unregisters)
    (honly : ∀ k, k ≠ i → ∀ b, s.closers k ≠ .notifying b) (hhandlers : ∀ k, s.handlers k = false)
    (hpermit : s.permit = false) (hj : s.readers j = .registering bufLen) :
    ((s.step (.closer i)).step (.reader j)).LeftWaiting := by
  let c : Closer := if unregisters then .unregistering else .finished
  have hfirst : s.step (.closer i) =
      { s with closers := Function.update s.closers i c }.notifyWaiters := by
    show s.closerStep i = _
    unfold ReadRace.closerStep
    rw [hi]
  -- the reader has not registered yet, so the notification does not reach it
  have hstill : (s.step (.closer i)).readers j = .registering bufLen := by
    rw [hfirst]
    show (if j ∈ s.waiters then (s.readers j).wake else s.readers j) = _
    rw [hj]
    exact ite_self _
  have hpermit' : (s.step (.closer i)).permit = false := by
    rw [hfirst]
    exact hpermit
  have hsecond : (s.step (.closer i)).step (.reader j) =
      { s.step (.closer i) with
        waiters := (s.step (.closer i)).waiters ++ [j]
        readers := Function.update (s.step (.closer i)).readers j (.waiting bufLen) } := by
    show (s.step (.closer i)).readerStep j = _
    unfold ReadRace.readerStep
    rw [hstill]
    dsimp only
    unfold ReadRace.notified
    rw [if_neg (by rw [hpermit']; exact Bool.false_ne_true)]
  -- it registers, finds no permit and waits; nobody is left who could call
  rw [hsecond, hfirst]
  refine ⟨hset, ?_, hhandlers, ⟨j, bufLen, Function.update_self ..⟩⟩
  intro k b
  show Function.update s.closers i c k ≠ _
  by_cases hk : k = i
  · rw [hk, Function.update_self]
    show (if unregisters then Closer.unregistering else .finished) ≠ _
    split <;> exact nofun
  · rw [Function.update_of_ne hk]
    exact honly k hk b

/-- A reader waits, and then the stream is shut down. -/
def closesWhileWaiting : List Event :=
  [.read 0 10, .reader 0, .reader 0, .reader 0, .shutdown 0 .both, .closer 0, .closer 0, .closer 0,
    .closer 0]

theorem not_leftWaiting_closesWhileWaiting :
    ¬ (Runs.run step {} closesWhileWaiting).LeftWaiting := by
  refine @not_leftWaiting_of_notifiesOutsideGap {} closesWhileWaiting ?_
  refine ⟨trivial, trivial, trivial, trivial, trivial, nofun, nofun, nofun, ?_, trivial⟩
  intro _ _ j
  match j with
  | 0 => rfl
  | k + 1 => rfl

/-- A reader has found nothing to read when the read half is shut down; then it waits. -/
def closesInGap : List Event :=
  [.read 0 10, .reader 0, .reader 0, .shutdown 0 .read, .closer 0, .closer 0, .closer 0, .closer 0,
    .reader 0]

theorem leftWaiting_closesInGap :
    (Runs.run step {} closesInGap).LeftWaiting ∧
      (Runs.run step {} closesInGap).closers 0 = .finished := by
  refine ⟨⟨rfl, ?_, fun _ => rfl, 0, 10, rfl⟩, rfl⟩
  intro i unregisters
  match i with
  | 0 => exact nofun
  | k + 1 => exact nofun

end ReadRace

end Sctp
