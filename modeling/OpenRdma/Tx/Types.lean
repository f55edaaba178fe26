import Mathlib.Tactic

/-!
# Types of the transmit path

The widths, limits and opcodes that the transmit path and the receive path of the offline pipeline
share.  A message is cut into packets by the path MTU: the first packet carries 28 bytes less than
the MTU, every other one 12 bytes less.
-/

namespace OpenRdma

abbrev TxQpn := BitVec 24
abbrev TxPsn := BitVec 24
abbrev TxLength := BitVec 25
abbrev TxPmtuCode := BitVec 3

def txPmtuBytes : TxPmtuCode → BitVec 13
  | 0 => 256
  | 1 => 512
  | 2 => 1024
  | 3 => 2048
  | 4 => 4096
  | _ => 0

def firstPayloadLimit (pmtu : TxPmtuCode) : BitVec 13 := txPmtuBytes pmtu - 28

def contPayloadLimit (pmtu : TxPmtuCode) : BitVec 13 := txPmtuBytes pmtu - 12

/-- The limits of a valid path MTU: both follow from the number of bytes, which is at least 256. -/
lemma payloadLimits : ∀ {pmtu : TxPmtuCode}, pmtu ≤ 4 →
    (firstPayloadLimit pmtu).toNat + 16 = (contPayloadLimit pmtu).toNat ∧
    244 ≤ (contPayloadLimit pmtu).toNat ∧ (contPayloadLimit pmtu).toNat ≤ 4084 := by
  decide

lemma toNat_smaller {n : ℕ} (x y : BitVec n) :
    (if x < y then x else y).toNat = min x.toNat y.toNat := by
  split <;> rename_i h <;> rw [BitVec.lt_def] at h <;> omega

end OpenRdma
