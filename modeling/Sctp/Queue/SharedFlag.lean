import Sctp.Wire.Chunk

/-!
# The flags the fragments of a message share

`abandoned` and `all_inflight` are `Arc<AtomicBool>`s: all fragments of a message point to
the same two cells. The cells of an endpoint form a heap.
-/

namespace Sctp

/-- The `Arc<AtomicBool>` cells allocated so far; the address is the position. -/
abbrev SharedFlags := List Bool

namespace SharedFlags

/-- `load`. -/
def load (flags : SharedFlags) (a : SharedFlag) : Bool := flags.getD a false

/-- `store`. -/
def store (flags : SharedFlags) (a : SharedFlag) (b : Bool) : SharedFlags := flags.set a b

/-- `Arc::new(AtomicBool::new(false))`: the address and the new heap. -/
def alloc (flags : SharedFlags) : SharedFlag × SharedFlags := (flags.length, flags ++ [false])

/-- What is stored in a cell is loaded from it. -/
theorem load_store_self {flags : SharedFlags} {a : SharedFlag} (h : a < flags.length) (b : Bool) :
    (flags.store a b).load a = b := by
  simp [load, store, h]

/-- The other cells stay. -/
theorem load_store_ne {flags : SharedFlags} {a a' : SharedFlag} (h : a' ≠ a) (b : Bool) :
    (flags.store a b).load a' = flags.load a' := by
  simp [load, store, List.getElem?_set_ne h.symm]

@[simp] theorem length_store (flags : SharedFlags) (a : SharedFlag) (b : Bool) :
    (flags.store a b).length = flags.length := List.length_set

/-- New cells do not change the old ones. -/
theorem load_append {flags : SharedFlags} {a : SharedFlag} (h : a < flags.length)
    (more : SharedFlags) : SharedFlags.load (flags ++ more) a = flags.load a := by
  simp [load, List.getElem?_append_left h]

/-- A flag that is set stays set when a flag is set. -/
theorem load_store_true {flags : SharedFlags} {a a' : SharedFlag} (h : flags.load a' = true) :
    (flags.store a true).load a' = true := by
  by_cases ha : a' = a
  · subst ha
    rw [load_store_self]
    by_contra hlen
    simp [load, hlen] at h
  · rwa [load_store_ne ha]

end SharedFlags

namespace ChunkPayloadData

/-- `abandoned()`: the message is given up and none of its fragments is still pending. -/
def isAbandoned (flags : SharedFlags) (c : ChunkPayloadData) : Bool :=
  flags.load c.abandoned && flags.load c.allInflight

/-- `set_abandoned`, for all fragments of the message. -/
def setAbandoned (flags : SharedFlags) (c : ChunkPayloadData) (abandoned : Bool) : SharedFlags :=
  flags.store c.abandoned abandoned

/-- `set_all_inflight`, which only the ending fragment does. -/
def setAllInflight (flags : SharedFlags) (c : ChunkPayloadData) : SharedFlags :=
  if c.endingFragment then flags.store c.allInflight true else flags

@[simp] theorem length_setAbandoned (flags : SharedFlags) (c : ChunkPayloadData) (b : Bool) :
    (c.setAbandoned flags b).length = flags.length := SharedFlags.length_store ..

@[simp] theorem length_setAllInflight (flags : SharedFlags) (c : ChunkPayloadData) :
    (c.setAllInflight flags).length = flags.length := by
  unfold setAllInflight
  split
  · exact SharedFlags.length_store ..
  · rfl

end ChunkPayloadData

end Sctp
