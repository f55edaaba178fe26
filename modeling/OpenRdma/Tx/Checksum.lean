import Mathlib.Tactic

/-!
# The checksum of an IPv4 header

The sender and the receiver each have their own `ipv4Checksum`.  The sender adds the ten words of
the header in a balanced tree of adders that grow by one bit a level, the receiver adds them one
after the other; both then fold the carries back in and complement.  The sender computes the
checksum with the field zero and writes it into the field in network byte order, and the receiver
drops a frame unless the checksum of the whole header is zero.

* **`ipv4Checksum_agree_and_verify`** — they are equal, and what one writes the other accepts.
-/

namespace OpenRdma

/-! ## Words -/

/-- The two bytes of a word, exchanged: `{raw[7:0], raw[15:8]}`. -/
def swapBytes (raw : BitVec 16) : BitVec 16 := raw.extractLsb' 0 8 ++ raw.extractLsb' 8 8

/-- A word of the header.  Byte zero of the header is the lowest, and a word starts with its high
byte. -/
def ipWord (header : BitVec 160) (i : Fin 10) : BitVec 16 :=
  swapBytes (header.extractLsb' (16 * i) 16)

/-- Write the checksum field, which is word five. -/
def withChecksumField (ip : BitVec 160) (field : BitVec 16) : BitVec 160 :=
  ip.extractLsb' 96 64 ++ field ++ ip.extractLsb' 0 80

/-! ## The two checksums -/

namespace Tx

/-- The sum of the words in a balanced tree, whose adders grow by one bit a level. -/
def checksumSum (words : Fin 10 → BitVec 16) : BitVec 20 :=
  let pair01 : BitVec 17 := (words 0).setWidth 17 + (words 1).setWidth 17
  let pair23 : BitVec 17 := (words 2).setWidth 17 + (words 3).setWidth 17
  let pair45 : BitVec 17 := (words 4).setWidth 17 + (words 5).setWidth 17
  let pair67 : BitVec 17 := (words 6).setWidth 17 + (words 7).setWidth 17
  let pair89 : BitVec 17 := (words 8).setWidth 17 + (words 9).setWidth 17
  let quad03 : BitVec 18 := pair01.setWidth 18 + pair23.setWidth 18
  let quad47 : BitVec 18 := pair45.setWidth 18 + pair67.setWidth 18
  let oct07 : BitVec 19 := quad03.setWidth 19 + quad47.setWidth 19
  oct07.setWidth 20 + pair89.setWidth 20

def ipv4Checksum (header : BitVec 160) : BitVec 16 :=
  let sum := checksumSum (ipWord header)
  let fold1 : BitVec 17 := (sum.extractLsb' 0 16).setWidth 17 + (sum.extractLsb' 16 4).setWidth 17
  let fold2 : BitVec 17 :=
    (fold1.extractLsb' 0 16).setWidth 17 + (fold1.extractLsb' 16 1).setWidth 17
  ~~~fold2.extractLsb' 0 16

/-- The header that `computeLegacyHeader` sends: the checksum of the header with an empty field, in
network byte order. -/
def finalIp (ip : BitVec 160) : BitVec 160 :=
  withChecksumField ip (swapBytes (ipv4Checksum (withChecksumField ip 0)))

end Tx

namespace Rx

/-- The sum of the words, one after the other. -/
def checksumSum (words : Fin 10 → BitVec 16) : BitVec 20 :=
  (List.finRange 10).foldl (fun sum i => sum + (words i).setWidth 20) 0

def ipv4Checksum (header : BitVec 160) : BitVec 16 :=
  let sum := checksumSum (ipWord header)
  let fold : BitVec 17 := (sum.extractLsb' 0 16).setWidth 17 + (sum.extractLsb' 16 4).setWidth 17
  let result : BitVec 16 := if fold.getLsbD 16 then fold.setWidth 16 + 1 else fold.setWidth 16
  ~~~result

/-- What `rxDecodeFrame` asks of the checksum. -/
def checksumValid (ipHeader : BitVec 160) : Bool := ipv4Checksum ipHeader == 0

end Rx

/-! ## One sum

Ten words add up to less than `2 ^ 20`, so no adder overflows, in whatever order the words are
added. -/

/-- The sum of the words, as a number. -/
def wordSum (words : Fin 10 → BitVec 16) : ℕ := ∑ i, (words i).toNat

lemma wordSum_le (words : Fin 10 → BitVec 16) : wordSum words ≤ 10 * 65535 := by
  have hle : ∀ i ∈ Finset.univ, (words i).toNat ≤ 65535 := by
    intro i _
    have := (words i).isLt
    omega
  simpa [wordSum] using Finset.sum_le_card_nsmul Finset.univ _ _ hle

/-- An adder that is wide enough adds. -/
lemma toNat_add_setWidth {u v w : ℕ} {a : BitVec u} {b : BitVec v} (h : a.toNat + b.toNat < 2 ^ w) :
    (a.setWidth w + b.setWidth w).toNat = a.toNat + b.toNat := by
  rw [BitVec.toNat_add, BitVec.toNat_setWidth, BitVec.toNat_setWidth, ← Nat.add_mod,
    Nat.mod_eq_of_lt h]

lemma toNat_add_grow {w : ℕ} (a b : BitVec w) :
    (a.setWidth (w + 1) + b.setWidth (w + 1)).toNat = a.toNat + b.toNat := by
  have ha := a.isLt
  have hb := b.isLt
  exact toNat_add_setWidth (by omega)

lemma Tx.toNat_checksumSum (words : Fin 10 → BitVec 16) :
    (Tx.checksumSum words).toNat = wordSum words := by
  have hle := wordSum_le words
  simp only [wordSum, Fin.sum_univ_succ, Fin.sum_univ_zero] at hle ⊢
  rw [Tx.checksumSum, toNat_add_setWidth]
  · simp only [toNat_add_grow]
    simp
    omega
  · simp only [toNat_add_grow]
    simp
    omega

lemma Rx.toNat_checksumSum (words : Fin 10 → BitVec 16) :
    (Rx.checksumSum words).toNat = wordSum words := by
  have hfold : ∀ (l : List (Fin 10)) (acc : BitVec 20),
      (l.foldl (fun sum i => sum + (words i).setWidth 20) acc).toNat
        = (acc.toNat + (l.map fun i => (words i).toNat).sum) % 2 ^ 20 := by
    intro l
    induction l with
    | nil =>
      intro acc
      simp [Nat.mod_eq_of_lt acc.isLt]
    | cons i l ih =>
      intro acc
      rw [List.foldl_cons, ih, List.map_cons, List.sum_cons]
      simp [BitVec.toNat_add, Nat.add_assoc]
  have hsum : ((List.finRange 10).map fun i => (words i).toNat).sum = wordSum words := by
    rw [wordSum, Fin.sum_univ_def]
  have hle := wordSum_le words
  rw [Rx.checksumSum, hfold, hsum]
  simp
  omega

/-! ## Folding -/

/-- Add the carries back in, and then the carry of that addition. -/
def endAround (s : ℕ) : ℕ :=
  let fold := s % 2 ^ 16 + s / 2 ^ 16
  fold % 2 ^ 16 + fold / 2 ^ 16

/-- A fold adds what is above the low word to it. -/
lemma toNat_fold {k : ℕ} (hk : k ≤ 16) (sum : BitVec (16 + k)) :
    ((sum.extractLsb' 0 16).setWidth 17 + (sum.extractLsb' 16 k).setWidth 17 : BitVec 17).toNat
      = sum.toNat % 2 ^ 16 + sum.toNat / 2 ^ 16 := by
  have hhigh : sum.toNat / 2 ^ 16 < 2 ^ k := by
    rw [Nat.div_lt_iff_lt_mul (by norm_num), Nat.mul_comm, ← Nat.pow_add]
    exact sum.isLt
  have hpow : 2 ^ k ≤ 2 ^ 16 := Nat.pow_le_pow_right (by norm_num) hk
  have hlow := Nat.mod_lt sum.toNat (by norm_num : 2 ^ 16 > 0)
  have heq : (sum.extractLsb' 0 16).toNat + (sum.extractLsb' 16 k).toNat
      = sum.toNat % 2 ^ 16 + sum.toNat / 2 ^ 16 := by
    rw [BitVec.extractLsb'_toNat, BitVec.extractLsb'_toNat, Nat.shiftRight_zero,
      Nat.shiftRight_eq_div_pow, Nat.mod_eq_of_lt hhigh]
  rw [toNat_add_setWidth (by omega), heq]

/-- What is left after the first fold is at most fifteen above the word. -/
lemma fold_le (sum : BitVec 20) : sum.toNat % 2 ^ 16 + sum.toNat / 2 ^ 16 ≤ 65550 := by
  have := sum.isLt
  omega

lemma Tx.toNat_ipv4Checksum (header : BitVec 160) :
    (Tx.ipv4Checksum header).toNat = 65535 - endAround (wordSum (ipWord header)) := by
  rw [← Tx.toNat_checksumSum, Tx.ipv4Checksum]
  have hle := fold_le (Tx.checksumSum (ipWord header))
  rw [endAround, BitVec.toNat_not, BitVec.extractLsb'_toNat, toNat_fold (by norm_num) (k := 1),
    toNat_fold (by norm_num) (k := 4)]
  simp only [Nat.shiftRight_zero]
  omega

lemma Rx.toNat_ipv4Checksum (header : BitVec 160) :
    (Rx.ipv4Checksum header).toNat = 65535 - endAround (wordSum (ipWord header)) := by
  rw [← Rx.toNat_checksumSum, Rx.ipv4Checksum]
  have hle := fold_le (Rx.checksumSum (ipWord header))
  rw [← toNat_fold (by norm_num) (k := 4)] at hle
  rw [endAround, ← toNat_fold (by norm_num) (k := 4)]
  generalize ((Rx.checksumSum (ipWord header)).extractLsb' 0 16).setWidth 17
    + ((Rx.checksumSum (ipWord header)).extractLsb' 16 4).setWidth 17 = fold at hle ⊢
  have hone : (1 : BitVec 16).toNat = 1 := rfl
  have hcarry : fold.getLsbD 16 = decide (2 ^ 16 ≤ fold.toNat) := by
    rw [BitVec.getLsbD, Nat.testBit_eq_decide_div_mod_eq, decide_eq_decide]
    omega
  simp only [hcarry, decide_eq_true_eq, BitVec.toNat_not]
  split
  · rw [BitVec.toNat_add, BitVec.toNat_setWidth, hone]
    omega
  · rw [BitVec.toNat_setWidth]
    omega

/-- The checksum completes the sum to one that folds to all ones. -/
lemma endAround_complement {s : ℕ} (h : s ≤ 9 * 65535) :
    endAround (s + (65535 - endAround s)) = 65535 := by
  simp only [endAround]
  omega

/-! ## The field -/

@[simp] lemma swapBytes_swapBytes (raw : BitVec 16) : swapBytes (swapBytes raw) = raw := by
  apply BitVec.eq_of_getLsbD_eq
  intro j hj
  simp only [swapBytes, BitVec.getLsbD_append, BitVec.getLsbD_extractLsb']
  grind

lemma ipWord_withChecksumField (ip : BitVec 160) (field : BitVec 16) (i : Fin 10) :
    ipWord (withChecksumField ip field) i = if i = 5 then swapBytes field else ipWord ip i := by
  have hword : (withChecksumField ip field).extractLsb' (16 * i) 16
      = if i = 5 then field else ip.extractLsb' (16 * i) 16 := by
    apply BitVec.eq_of_getLsbD_eq
    intro j hj
    simp only [withChecksumField, BitVec.getLsbD_append, BitVec.getLsbD_extractLsb']
    split <;> grind
  rw [ipWord, hword]
  split <;> rfl

/-- The sum over a header with the field written is the sum with it empty, plus the field. -/
lemma wordSum_withChecksumField (ip : BitVec 160) (checksum : BitVec 16) :
    wordSum (ipWord (withChecksumField ip (swapBytes checksum)))
      = wordSum (ipWord (withChecksumField ip 0)) + checksum.toNat := by
  have hzero : (swapBytes 0#16).toNat = 0 := rfl
  simp only [wordSum, ipWord_withChecksumField, swapBytes_swapBytes, Fin.sum_univ_succ,
    Fin.sum_univ_zero]
  simp [hzero]
  omega

/-- With the field empty nine words are left. -/
lemma wordSum_empty_le (ip : BitVec 160) :
    wordSum (ipWord (withChecksumField ip 0)) ≤ 9 * 65535 := by
  have hle := wordSum_le (ipWord (withChecksumField ip (swapBytes (BitVec.allOnes 16))))
  rw [wordSum_withChecksumField] at hle
  have hones : (BitVec.allOnes 16).toNat = 65535 := rfl
  omega

/-- A header whose field is empty is its own header with the field emptied. -/
lemma withChecksumField_zero {header : BitVec 160} (h : header.extractLsb' 80 16 = 0) :
    withChecksumField header 0 = header := by
  apply BitVec.eq_of_getLsbD_eq
  intro j hj
  have hbit := congrArg (fun field => field.getLsbD (j - 80)) h
  simp only [withChecksumField, BitVec.getLsbD_append, BitVec.getLsbD_extractLsb'] at hbit ⊢
  grind

/-- The receiver accepts a header that carries the checksum of the header with an empty field. -/
lemma checksumValid_withChecksumField (ip : BitVec 160) :
    Rx.checksumValid (withChecksumField ip (swapBytes (Tx.ipv4Checksum (withChecksumField ip 0))))
      = true := by
  rw [Rx.checksumValid, beq_iff_eq, ← BitVec.toNat_inj, Rx.toNat_ipv4Checksum,
    wordSum_withChecksumField, Tx.toNat_ipv4Checksum, endAround_complement (wordSum_empty_le ip)]
  rfl

/-- **The two checksums agree, and what the sender writes the receiver accepts.**  For every header
the tree and the accumulator return the same value; a header with an empty checksum field into which
its checksum is written in network byte order passes the receiver's check, and so does the header
that the sender builds, whatever its field held before. -/
theorem ipv4Checksum_agree_and_verify (header : BitVec 160) :
    Tx.ipv4Checksum header = Rx.ipv4Checksum header ∧
    (header.extractLsb' 80 16 = 0 →
      Rx.ipv4Checksum (withChecksumField header (swapBytes (Tx.ipv4Checksum header))) = 0 ∧
      Rx.checksumValid (withChecksumField header (swapBytes (Tx.ipv4Checksum header))) = true) ∧
    Rx.checksumValid (Tx.finalIp header) = true := by
  refine ⟨?_, ?_, checksumValid_withChecksumField header⟩
  · rw [← BitVec.toNat_inj, Tx.toNat_ipv4Checksum, Rx.toNat_ipv4Checksum]
  · intro hempty
    have hvalid := checksumValid_withChecksumField header
    rw [withChecksumField_zero hempty] at hvalid
    exact ⟨beq_iff_eq.1 hvalid, hvalid⟩

/-- A header of a packet of 115 bytes from 192.168.0.1 to 192.168.0.199; its checksum is
`0xb861`. -/
theorem ipv4Checksum_agree_and_verify_sample :
    Tx.ipv4Checksum 0xc700a8c00100a8c0000011400040000073000045 = 0xb861 ∧
    Rx.ipv4Checksum (withChecksumField 0xc700a8c00100a8c0000011400040000073000045
      (swapBytes (Tx.ipv4Checksum 0xc700a8c00100a8c0000011400040000073000045))) = 0 :=
  ⟨by decide +kernel,
    ((ipv4Checksum_agree_and_verify 0xc700a8c00100a8c0000011400040000073000045).2.1
    (by decide +kernel)).1⟩

end OpenRdma
