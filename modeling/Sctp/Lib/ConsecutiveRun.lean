import Sctp.Lib.SerialWindow

/-!
# Runs of consecutive serial numbers

A list whose keys go on by one. An element's key is its place counted from the first one, so the
order of the places is that of the distances, and a part of the list with the same ends that goes
on by one, too, is all of it.
-/

namespace Serial

variable {w : ℕ} {α : Type*} {key : α → BitVec w} {l l' : List α} {a b : α}

/-- The keys go on by one. -/
def Consecutive (key : α → BitVec w) (l : List α) : Prop := l.IsChain fun a b => key b = key a + 1

/-- Counting on from the next number. -/
theorem ofNat_succ_add (x : BitVec w) (i : ℕ) :
    x + 1 + BitVec.ofNat w i = x + BitVec.ofNat w (i + 1) := by
  rw [BitVec.add_assoc, Nat.add_comm i 1, BitVec.ofNat_add]
  rfl

/-- The keys count up from the first one. -/
theorem Consecutive.key_getElem? (h : Consecutive key (a :: l)) {i : ℕ} (hb : (a :: l)[i]? = some b) :
    key b = key a + BitVec.ofNat w i := by
  induction l generalizing a i with
  | nil =>
    cases i with
    | zero =>
      cases hb
      exact (BitVec.add_zero _).symm
    | succ i => cases hb
  | cons c l ih =>
    obtain ⟨hnext, hrest⟩ := List.isChain_cons_cons.mp h
    cases i with
    | zero =>
      cases hb
      exact (BitVec.add_zero _).symm
    | succ i =>
      rw [List.getElem?_cons_succ] at hb
      rw [ih hrest hb, hnext, ofNat_succ_add]

/-- Counted from the first key, the keys increase. -/
theorem Consecutive.pairwise (h : Consecutive key (a :: l)) (hlen : (a :: l).length ≤ 2 ^ w) :
    (a :: l).Pairwise fun b c => dist (key a) (key b) < dist (key a) (key c) := by
  rw [List.pairwise_iff_getElem]
  intro i j hi hj hij
  rw [h.key_getElem? (List.getElem?_eq_getElem hi), h.key_getElem? (List.getElem?_eq_getElem hj),
    dist_add_ofNat _ (by omega), dist_add_ofNat _ (by omega)]
  exact hij

/-- A part of a run is the whole run if it is one, too, and has the same ends. -/
theorem Consecutive.eq_of_sublist (h : Consecutive key l) (h' : Consecutive key l')
    (hsub : l'.Sublist l) (hfirst : l'.head? = l.head?) (hlast : l'.getLast? = l.getLast?)
    (hlen : l.length ≤ 2 ^ w) : l' = l := by
  cases l with
  | nil => exact List.sublist_nil.mp hsub
  | cons a t =>
    cases l' with
    | nil => cases hfirst
    | cons b t' =>
      have hab : b = a := Option.some.inj hfirst
      subst hab
      have hle := hsub.length_le
      apply hsub.eq_of_length
      -- both ends are as far apart as either list is long
      rw [List.getLast?_eq_getElem?, List.getLast?_eq_getElem?] at hlast
      obtain ⟨last, hend⟩ : ∃ last, (b :: t)[(b :: t).length - 1]? = some last :=
        Option.ne_none_iff_exists'.mp (mt List.getElem?_eq_none_iff.mp (by simp))
      have hkey := h.key_getElem? hend
      rw [← hlast] at hend
      rw [h'.key_getElem? hend] at hkey
      have hdist := congrArg (dist (key b)) hkey
      rw [List.length_cons] at hlen hle hdist
      rw [List.length_cons] at hdist hle
      rw [dist_add_ofNat _ (by omega), dist_add_ofNat _ (by omega)] at hdist
      rw [List.length_cons, List.length_cons]
      omega

end Serial
