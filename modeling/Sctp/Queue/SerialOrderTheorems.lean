import Sctp.Lib.SerialWindow
import Sctp.Queue.PayloadQueue
import Sctp.Queue.ReassemblyQueue

/-!
# The order of TSNs and SSNs

`update_sorted_keys`, `sort_chunks_by_tsn` and `sort_chunks_by_ssn` sort with comparisons that never
answer `Equal`. On distinct numbers of one window they sort in the order of the window.
-/

namespace Sctp

/-- Distinct TSNs of a window are sorted in its order, as keys and as chunks. -/
structure SortsTsns (base : U32) (n : ℕ) : Prop where
  keys : ∀ q : PayloadQueue, q.sorted.Nodup → (∀ t ∈ q.sorted, t ∈ Serial.window base n) →
    q.updateSortedKeys.sorted = (Serial.window base n).filter fun t => t ∈ q.sorted
  chunks : ∀ c : List ChunkPayloadData, (c.map (·.tsn)).Nodup →
    (∀ x ∈ c, x.tsn ∈ Serial.window base n) → (sortChunksByTsn c).Perm c ∧
      (sortChunksByTsn c).map (·.tsn) =
        (Serial.window base n).filter fun t => t ∈ c.map (·.tsn)

/-- So are the sets of distinct SSNs of a window. -/
def SortsSsns (base : U16) (n : ℕ) : Prop :=
  ∀ c : List ChunkSet, (c.map (·.ssn)).Nodup → (∀ s ∈ c, s.ssn ∈ Serial.window base n) →
    (sortChunksBySsn c).Perm c ∧
      (sortChunksBySsn c).map (·.ssn) =
        (Serial.window base n).filter fun t => t ∈ c.map (·.ssn)

/-- **TSNs in a window are sorted** as in the window. -/
theorem sortsTsns {base : U32} {n : ℕ} (hn : n < 2 ^ 31 + 1) : SortsTsns base n where
  keys q hnodup hin := by
    have hsort := @Serial.sortBy_window 32 base n U32 (by decide) (Nat.le_of_lt_succ hn) id
      q.sorted hin (by rwa [List.map_id])
    rw [List.map_id, List.map_id] at hsort
    exact hsort
  chunks c hnodup hin :=
    ⟨StableSort.sortBy_perm _ c,
      @Serial.sortBy_window 32 base n _ (by decide) (Nat.le_of_lt_succ hn) ChunkPayloadData.tsn c
        hin hnodup⟩

/-- **So are SSNs**. -/
theorem sortsSsns {base : U16} {n : ℕ} (hn : n < 2 ^ 15 + 1) : SortsSsns base n :=
  fun c hnodup hin => ⟨StableSort.sortBy_perm _ c,
    @Serial.sortBy_window 16 base n _ (by decide) (Nat.le_of_lt_succ hn) ChunkSet.ssn c hin
      hnodup⟩

/-- **The comparisons are usable as an order**, and so are the sorts that rest on them. -/
theorem comparesInOrder :
    Serial.UsableOrder sna32lt sna32lte sna32gt sna32gte sna32eq ∧
      Serial.UsableOrder sna16lt sna16lte sna16gt sna16gte sna16eq ∧
      (∀ base n, n < 2 ^ 31 + 1 → SortsTsns base n) ∧
      ∀ base n, n < 2 ^ 15 + 1 → SortsSsns base n :=
  ⟨Serial.usableOrder (by decide), Serial.usableOrder (by decide), fun _ _ => sortsTsns,
    fun _ _ => sortsSsns⟩

/-- Keys on both sides of the wrap, and two that are half the space apart. -/
theorem comparesInOrder_wrapped :
    ({ sorted := [1, 0xffffffff, 0] } : PayloadQueue).updateSortedKeys.sorted =
        [0xffffffff, 0, 1] ∧
      sna32gt 0 0x80000000 = true ∧ sna32gt 0x80000000 0 = true := by
  obtain ⟨hlaws, _, hsorts, _⟩ := comparesInOrder
  refine ⟨?_, ?_, ?_⟩
  · have hin : ∀ t ∈ [1, 0xffffffff, 0], t ∈ Serial.window (0xffffffff : U32) 3 :=
      List.forall_mem_cons.mpr ⟨by decide, List.forall_mem_cons.mpr
        ⟨by decide, List.forall_mem_singleton.mpr (by decide)⟩⟩
    have hsort := (hsorts 0xffffffff 3 (by omega)).keys { sorted := [1, 0xffffffff, 0] }
      (by decide) hin
    exact hsort
  · rcases hlaws.exactlyOne 0 0x80000000 with h | h | h
    · exact absurd h.1 (by decide)
    · exact absurd h.2.1 (by decide)
    · exact h.2.2
  · rcases hlaws.exactlyOne 0x80000000 0 with h | h | h
    · exact absurd h.1 (by decide)
    · exact absurd h.2.1 (by decide)
    · exact h.2.2

end Sctp
