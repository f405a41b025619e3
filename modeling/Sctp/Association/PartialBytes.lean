import Sctp.Association.BufferedAmount

/-!
# The counter of congestion avoidance

`partial_bytes_acked` counts in 32 bits what is acknowledged towards the next increase of the
congestion window. The companions of the functions on the way to the addition tell whether it
overflows; the strings of the trace log are not built.
-/

namespace Sctp

namespace AssociationInternal

/-- The addition to `partial_bytes_acked` overflows. -/
def onCumulativeTsnAckPointAdvancedOverflows (a : AssociationInternal) (totalBytesAcked : ℕ) : Bool :=
  if a.cwnd ≤ a.ssthresh then
    false
  else
    a.partialBytesAcked.uaddOverflow (BitVec.ofNat 32 totalBytesAcked)

/-- It does so where the SACK moves the ack point on. -/
def applySackOverflows (a : AssociationInternal) (d : ChunkSelectiveAck) (bytesAcked : BytesAcked) :
    Bool :=
  if sna32lt a.cumulativeTsnAckPoint d.cumulativeTsnAck then
    { a with cumulativeTsnAckPoint := d.cumulativeTsnAck }.onCumulativeTsnAckPointAdvancedOverflows
      bytesAcked.total
  else
    false

/-- `handle_sack` comes to an addition that overflows. -/
def handleSackOverflows (a : AssociationInternal) (now : ℕ) (d : ChunkSelectiveAck) : Bool :=
  let state := a.state
  if state ≠ .established ∧ state ≠ .shutdownPending ∧ state ≠ .shutdownReceived then
    false
  else if sna32gt a.cumulativeTsnAckPoint d.cumulativeTsnAck then
    false
  else
    match a.processSelectiveAck now d with
    | (_, .error _) => false
    | (a, .ok (bytesAcked, _)) => a.applySackOverflows d bytesAcked

/-- Only a SACK adds to the counter. -/
def creditOverflows (a : AssociationInternal) : SenderOp → Bool
  | .sack now d => a.handleSackOverflows now d
  | _ => false

/-- The bytes in flight that the SACK is the first to acknowledge. -/
def newlyCovered (a : AssociationInternal) (d : ChunkSelectiveAck) : ℕ :=
  a.inflightQueue.bytesOf fun c => !c.acked && a.covers d c.tsn

/-- The SACK is looked at in congestion avoidance, and moves the ack point on. -/
def creditsSack (a : AssociationInternal) (d : ChunkSelectiveAck) : Bool :=
  a.readsSack d && sna32lt a.cumulativeTsnAckPoint d.cumulativeTsnAck && a.ssthresh < a.cwnd

/-- A SACK that is credited leaves the counter below the window, or data is pending and it
acknowledges no more than a window; and the window is below 2^31. -/
def CreditsWithinWindow (a : AssociationInternal) : SenderOp → Prop
  | .sack _ d => a.creditsSack d = true → a.cwnd.toNat < 2 ^ 31 ∧
    (a.partialBytesAcked.toNat + a.newlyCovered d < a.cwnd.toNat ∨
      0 < a.pendingQueue.len ∧ a.newlyCovered d ≤ a.cwnd.toNat)
  | _ => True

instance (a : AssociationInternal) (op : SenderOp) : Decidable (a.CreditsWithinWindow op) :=
  match op with
  | .sack _ d => inferInstanceAs (Decidable (a.creditsSack d = true → a.cwnd.toNat < 2 ^ 31 ∧
      (a.partialBytesAcked.toNat + a.newlyCovered d < a.cwnd.toNat ∨
        0 < a.pendingQueue.len ∧ a.newlyCovered d ≤ a.cwnd.toNat)))
  | .openStream .. | .setReliabilityParams .. | .write .. | .shutdownStream .. | .push _
  | .gather _ | .t3Rtx | .shutdownChunk | .shutdown => isTrue trivial

end AssociationInternal

end Sctp
