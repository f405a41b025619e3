import Mathlib.Data.List.Basic
import Mathlib.Tactic.Common

/-!
# Lists cut into blocks

A list of blocks stands for the list they make up. Where the elements of a block agree on a
property, the property selects whole blocks; and a list of blocks may be cut off inside a block.
-/

namespace Blocks

variable {α β : Type*} {blocks whole : List (List α)} {b : List α} {j k : ℕ}

/-- Blocks of the images are images of blocks. -/
theorem exists_of_map_eq {f : α → β} {l : List α} {images : List (List β)}
    (h : l.map f = images.flatten) :
    ∃ blocks : List (List α), blocks.flatten = l ∧ blocks.map (·.map f) = images := by
  induction images generalizing l with
  | nil => exact ⟨[], (List.map_eq_nil_iff.mp h).symm, rfl⟩
  | cons image images ih =>
    rw [List.flatten_cons] at h
    obtain ⟨b, rest, rfl, hb, hrest⟩ := List.map_eq_append_iff.mp h
    obtain ⟨blocks, rfl, himages⟩ := ih hrest
    exact ⟨b :: blocks, rfl, by rw [List.map_cons, hb, himages]⟩

/-- A property on which the elements of each block agree. -/
def Agrees (p : α → Bool) (b : List α) : Prop := ∀ x ∈ b, ∀ y ∈ b, p x = p y

/-- A block that agrees on a property passes a filter whole, or not at all. -/
theorem Agrees.filter_eq {p : α → Bool} (h : Agrees p b) :
    b.filter p = if b.any p then b else [] := by
  split
  · rename_i hany
    obtain ⟨x, hx, hpx⟩ := List.any_eq_true.mp hany
    rw [List.filter_eq_self]
    exact fun y hy => (h y hy x hx).trans hpx
  · rename_i hnone
    rw [List.filter_eq_nil_iff]
    exact fun y hy hpy => hnone (List.any_eq_true.mpr ⟨y, hy, hpy⟩)

/-- So the blocks that pass are what is left of them flattened. -/
theorem filter_flatten {p : α → Bool} (h : ∀ b ∈ blocks, Agrees p b) :
    blocks.flatten.filter p = (blocks.filter (·.any p)).flatten := by
  induction blocks with
  | nil => rfl
  | cons b blocks ih =>
    rw [List.flatten_cons, List.filter_append, ih fun b' hb' => h b' (List.mem_cons_of_mem _ hb'),
      (h b List.mem_cons_self).filter_eq, List.filter_cons]
    split
    · rw [List.flatten_cons]
    · rw [List.nil_append]

/-- A block has an element with a property, so there are at least as many as blocks. -/
theorem length_le_filter {p : α → Bool} (h : ∀ b ∈ blocks, ∃ x ∈ b, p x = true) :
    blocks.length ≤ (blocks.flatten.filter p).length := by
  induction blocks with
  | nil => exact Nat.zero_le _
  | cons b blocks ih =>
    obtain ⟨x, hx, hpx⟩ := h b List.mem_cons_self
    have hpos := List.length_pos_of_mem (List.mem_filter.mpr ⟨hx, hpx⟩)
    have hrest := ih fun b' hb' => h b' (List.mem_cons_of_mem _ hb')
    rw [List.flatten_cons, List.filter_append, List.length_append, List.length_cons]
    omega

/-! ## Cut off -/

/-- The blocks are those of `whole` up to one of which only a beginning is there. -/
inductive CutOff : List (List α) → List (List α) → Prop
  | nil (whole : List (List α)) : CutOff [] whole
  | part {b m : List α} (hpart : b <+: m) (hne : b ≠ []) (whole : List (List α)) :
      CutOff [b] (m :: whole)
  | cons (m : List α) {blocks whole : List (List α)} (h : CutOff blocks whole) :
      CutOff (m :: blocks) (m :: whole)

/-- Whole lists in front leave the cut behind them. -/
theorem CutOff.append (h : CutOff blocks whole) (front : List (List α)) :
    CutOff (front ++ blocks) (front ++ whole) := by
  induction front with
  | nil => exact h
  | cons m front ih => exact .cons m ih

/-- What is cut off goes on behind. -/
theorem CutOff.whole_append (h : CutOff blocks whole) (back : List (List α)) :
    CutOff blocks (whole ++ back) := by
  induction h with
  | nil => exact .nil _
  | part hpart hne whole => exact .part hpart hne _
  | cons m _ ih => exact .cons m ih

/-- Every block is an initial part of the list in its place. -/
theorem CutOff.getElem? (h : CutOff blocks whole) (hb : blocks[j]? = some b) :
    ∃ m, whole[j]? = some m ∧ b <+: m := by
  induction h generalizing j with
  | nil => cases hb
  | part hpart _ _ =>
    cases j with
    | zero =>
      cases hb
      exact ⟨_, rfl, hpart⟩
    | succ j => cases hb
  | cons m _ ih =>
    cases j with
    | zero =>
      cases hb
      exact ⟨_, rfl, List.prefix_rfl⟩
    | succ j => exact ih hb

/-- Only the last one may be a part. -/
theorem CutOff.getElem?_of_lt (h : CutOff blocks whole) (hb : blocks[j]? = some b)
    (hlt : j + 1 < blocks.length) : whole[j]? = some b := by
  induction h generalizing j with
  | nil => cases hb
  | part => exact absurd hlt (Nat.not_lt.mpr (Nat.succ_le_succ (Nat.zero_le j)))
  | cons m _ ih =>
    cases j with
    | zero =>
      cases hb
      rfl
    | succ j => exact ih hb (Nat.lt_of_succ_lt_succ hlt)

/-- If a block is all of it, there is nothing missing up to it. -/
theorem CutOff.take_succ_eq (h : CutOff blocks whole) (hb : blocks[j]? = some b)
    (hall : whole[j]? = some b) : blocks.take (j + 1) = whole.take (j + 1) := by
  induction h generalizing j with
  | nil => cases hb
  | part =>
    cases j with
    | zero =>
      cases hb
      cases hall
      rfl
    | succ j => cases hb
  | cons m _ ih =>
    cases j with
    | zero => rfl
    | succ j => rw [List.take_succ_cons, List.take_succ_cons, ih hb hall]

/-- No block is empty if no whole list is. -/
theorem CutOff.ne_nil (h : CutOff blocks whole) (hne : ∀ m ∈ whole, m ≠ []) :
    ∀ b ∈ blocks, b ≠ [] := by
  induction h with
  | nil => exact fun b hb => absurd hb List.not_mem_nil
  | part _ hb _ =>
    intro b' hb'
    rw [List.mem_singleton.mp hb']
    exact hb
  | cons m _ ih =>
    intro b hb
    rcases List.mem_cons.mp hb with rfl | hb
    · exact hne _ List.mem_cons_self
    · exact ih (fun m' hm' => hne m' (List.mem_cons_of_mem _ hm')) b hb

/-- Lists without an empty one are not there if nothing of them is. -/
theorem take_eq_nil_of_flatten {l : List (List α)} (hne : ∀ m ∈ l, m ≠ [])
    (h : (l.take k).flatten = []) : l.take k = [] := by
  rw [List.flatten_eq_nil_iff] at h
  rw [List.eq_nil_iff_forall_not_mem]
  exact fun m hm => hne m (List.mem_of_mem_take hm) (h m hm)

/-- If as many elements are there as the first `k` blocks of `whole` have, these are there. -/
theorem CutOff.take_eq (h : CutOff blocks whole) (hne : ∀ m ∈ whole, m ≠ [])
    (hlen : (whole.take k).flatten.length ≤ blocks.flatten.length) :
    blocks.take k = whole.take k := by
  induction h generalizing k with
  | nil whole =>
    rw [List.flatten_nil, List.length_nil, Nat.le_zero, List.length_eq_zero_iff] at hlen
    rw [List.take_nil, take_eq_nil_of_flatten hne hlen]
  | @part b m hpart _ whole =>
    cases k with
    | zero => rfl
    | succ k =>
      rw [List.take_succ_cons, List.flatten_cons, List.length_append, List.flatten_singleton] at hlen
      have hle := hpart.length_le
      have hsame : b = m := hpart.eq_of_length (by omega)
      have hrest : (whole.take k).flatten = [] := by
        rw [← List.length_eq_zero_iff]
        omega
      rw [List.take_succ_cons, List.take_succ_cons, List.take_nil, hsame,
        take_eq_nil_of_flatten (fun m' hm' => hne m' (List.mem_cons_of_mem _ hm')) hrest]
  | cons m _ ih =>
    cases k with
    | zero => rfl
    | succ k =>
      rw [List.take_succ_cons, List.flatten_cons, List.length_append, List.flatten_cons,
        List.length_append] at hlen
      rw [List.take_succ_cons, List.take_succ_cons,
        ih (fun m' hm' => hne m' (List.mem_cons_of_mem _ hm')) (by omega)]

end Blocks
