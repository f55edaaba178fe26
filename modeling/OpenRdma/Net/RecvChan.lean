import OpenRdma.Verbs.Ctx

/-!
# The channel for announcements

Announcements go over a TCP connection, which may be cut at any byte.  The reader takes 32 bytes at
a time.

* **`recvMsgs_take`** — the reader gets the messages that are complete.
-/

namespace OpenRdma

def toBeBytes : ℕ → ℕ → List UInt8
  | 0, _ => []
  | n + 1, x => toBeBytes n (x / 256) ++ [.ofNat x]

def fromBeBytes (bytes : List UInt8) : ℕ := bytes.foldl (fun x b => x * 256 + b.toNat) 0

@[simp] lemma length_toBeBytes (n x : ℕ) : (toBeBytes n x).length = n := by
  induction n generalizing x with
  | zero => rfl
  | succ n ih => simp [toBeBytes, ih]

lemma fromBeBytes_toBeBytes (n x : ℕ) : fromBeBytes (toBeBytes n x) = x % 256 ^ n := by
  induction n generalizing x with
  | zero => simp [toBeBytes, fromBeBytes, Nat.mod_one]
  | succ n ih =>
    rw [toBeBytes, fromBeBytes, List.foldl_append, ← fromBeBytes, ih, pow_succ', Nat.mod_mul]
    simp
    omega

def RecvWr.toBytes (wr : RecvWr) : List UInt8 :=
  toBeBytes 8 wr.wrId.toNat ++ toBeBytes 8 wr.addr.toNat ++ toBeBytes 4 wr.length.toNat ++
    toBeBytes 4 wr.lkey.toNat

def RecvWr.fromBytes (bytes : List UInt8) : RecvWr where
  wrId := .ofNat (fromBeBytes (bytes.take 8))
  addr := .ofNat (fromBeBytes ((bytes.drop 8).take 8))
  length := .ofNat (fromBeBytes ((bytes.drop 16).take 4))
  lkey := .ofNat (fromBeBytes ((bytes.drop 20).take 4))

namespace RecvWrQpn

/-- The last four bytes stay zero. -/
def toBytes (msg : RecvWrQpn) : List UInt8 :=
  msg.wr.toBytes ++ toBeBytes 4 msg.qpn.toNat ++ List.replicate 4 0

def fromBytes (bytes : List UInt8) : RecvWrQpn where
  wr := .fromBytes (bytes.take 24)
  qpn := .ofNat (fromBeBytes ((bytes.drop 24).take 4))

/-- `read_exact` into a buffer of 32 bytes, until it fails. -/
def recvMsgs (bytes : List UInt8) : List RecvWrQpn :=
  if _h : 32 ≤ bytes.length then fromBytes (bytes.take 32) :: recvMsgs (bytes.drop 32) else []
termination_by bytes.length
decreasing_by simp; omega

lemma fromBytes_toBytes (msg : RecvWrQpn) : fromBytes msg.toBytes = msg := by
  simp [fromBytes, toBytes, RecvWr.fromBytes, RecvWr.toBytes, List.take_append, List.drop_append,
    List.take_of_length_le, List.drop_eq_nil_of_le, fromBeBytes_toBeBytes]

/-- **Wherever the connection is cut, the reader gets the messages that are complete.** -/
theorem recvMsgs_take (msgs : List RecvWrQpn) (n : ℕ) :
    recvMsgs ((msgs.flatMap (·.toBytes)).take n) = msgs.take (n / 32) := by
  induction msgs generalizing n with
  | nil => simp [recvMsgs]
  | cons msg msgs ih =>
    have hlen : msg.toBytes.length = 32 := by simp [toBytes, RecvWr.toBytes]
    rw [List.flatMap_cons, List.take_append, hlen, recvMsgs]
    by_cases hn : 32 ≤ n
    · rw [List.take_of_length_le (hlen.trans_le hn), dif_pos (by simp [hlen]), List.take_left' hlen,
        List.drop_left' hlen, ih, fromBytes_toBytes, ← List.take_succ_cons]
      congr 1
      omega
    · rw [dif_neg (by simp [hlen]; omega), Nat.div_eq_of_lt (Nat.lt_of_not_le hn), List.take_zero]

end RecvWrQpn

end OpenRdma
