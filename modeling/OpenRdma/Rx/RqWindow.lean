import Mathlib.Data.BitVec
import OpenRdma.Rx.RqSteps

/-!
# Admission is exactly once

The manager numbers packets by 24-bit sequence numbers that wrap.  The history of a run unwraps
them: the position of a packet is its distance from the initial sequence number of its queue pair,
counted along the run.  Over any run, the packets admitted on a queue pair are those before the
acknowledged position and those whose bit is set, each admitted once; the ring holds packets that
are not admitted, each at the entry of its sequence number.

* **`admissions_exact`** — they do so in every run.
-/

namespace OpenRdma

open Function (update update_self update_of_ne)

/-! ## Bits -/

lemma getLsbD_withBit (bits : BitVec 16) (i : RxWindowIndex) (v : Bool) (j : ℕ) :
    (withBit bits i v).getLsbD j = if j = i then v else bits.getLsbD j := by
  have hi := i.isLt
  rcases Nat.lt_or_ge j 16 with hj | hj
  · cases v <;> by_cases h : j = i <;> simp [withBit, h, hj, Ne.symm]
  · have hne : j ≠ i := by omega
    rw [if_neg hne, BitVec.getLsbD_of_ge _ _ hj, BitVec.getLsbD_of_ge _ _ hj]

/-! ## Sequence numbers in the window -/

/-- How far a sequence number is from the next one expected. -/
def windowOffset (ackPsn psn : TxPsn) : ℕ := (psn - (ackPsn + 1)).toNat

lemma psn_eq_windowOffset (ackPsn psn : TxPsn) :
    psn = ackPsn + 1 + BitVec.ofNat 24 (windowOffset ackPsn psn) := by
  simp only [windowOffset]
  bv_omega

lemma bitmapIndex_val {ackPsn psn : TxPsn} (h : windowOffset ackPsn psn < 16) :
    (bitmapIndex ackPsn psn : ℕ) = windowOffset ackPsn psn := by
  simp only [bitmapIndex, windowOffset, Fin.ofNat] at h ⊢
  exact Nat.mod_eq_of_lt h

/-- In the window, the ring entry determines the sequence number. -/
lemma psn_eq_of_ringIndex {ackPsn psn psn' : TxPsn} (h : windowOffset ackPsn psn < 16)
    (h' : windowOffset ackPsn psn' < 16) (hring : ringIndex psn = ringIndex psn') : psn = psn' := by
  simp only [ringIndex, Fin.ofNat, Fin.mk.injEq] at hring
  simp only [windowOffset] at h h'
  bv_omega

/-- Moving the window forward brings a sequence number ahead of it nearer. -/
lemma windowOffset_add {ackPsn psn : TxPsn} {d : ℕ} (hd : d ≤ windowOffset ackPsn psn) :
    windowOffset (ackPsn + BitVec.ofNat 24 d) psn = windowOffset ackPsn psn - d := by
  simp only [windowOffset] at hd ⊢
  bv_omega

/-! ## The loop -/

lemma mergeStep_iterate (bits : BitVec 16) (ack : TxPsn) (n : ℕ) :
    ∃ d ≤ n, mergeStep^[n] (bits, ack) = (bits >>> d, ack + BitVec.ofNat 24 d) ∧
      (∀ j < d, bits.getLsbD j = true) ∧ (d < n → bits.getLsbD d = false) := by
  induction n with
  | zero => exact ⟨0, le_rfl, by simp, by simp, by simp⟩
  | succ n ih =>
    obtain ⟨d, hd, heq, hset, hstop⟩ := ih
    have hbit : (bits >>> d).getLsbD 0 = bits.getLsbD d := by simp
    rw [Function.iterate_succ_apply', heq]
    simp only [mergeStep, hbit]
    cases hb : bits.getLsbD d with
    | false => exact ⟨d, hd.trans n.le_succ, by simp, hset, fun _ => hb⟩
    | true =>
      -- the loop has not stopped before, so all turns so far moved the window
      have hdn : d = n := by
        by_contra hne
        rw [hstop (by omega)] at hb
        cases hb
      refine ⟨d + 1, by omega, ?_, ?_, by omega⟩
      · simp only [if_true, BitVec.shiftRight_add, Prod.mk.injEq, true_and]
        bv_omega
      · intro j hj
        rcases Nat.lt_succ_iff_lt_or_eq.1 hj with hlt | rfl
        · exact hset j hlt
        · exact hb

namespace RxRqState

@[simp] lemma init_ackPsn (psn : TxPsn) : (init psn).ackPsn = psn - 1 := rfl

@[simp] lemma init_receiveBitmap (psn : TxPsn) : (init psn).receiveBitmap = 0 := rfl

/-- **The loop moves the window past the leading received packets** — `d` of them, the new one
included — and leaves it at one that has not been received. -/
theorem merge_spec (state : RxRqState) {psn : TxPsn} (hpsn : windowOffset state.ackPsn psn < 16) :
    ∃ d ≤ 16, (state.merge psn).2 = state.ackPsn + BitVec.ofNat 24 d ∧
      ((state.merge psn).2 - state.ackPsn).toNat = d ∧
      (∀ j, (state.merge psn).1.getLsbD j = true ↔
        d + j = windowOffset state.ackPsn psn ∨ state.receiveBitmap.getLsbD (d + j) = true) ∧
      (∀ j < d, j = windowOffset state.ackPsn psn ∨ state.receiveBitmap.getLsbD j = true) ∧
      (state.merge psn).1.getLsbD 0 = false := by
  have hbit : ∀ j, (withBit state.receiveBitmap (bitmapIndex state.ackPsn psn) true).getLsbD j =
    true ↔
      j = windowOffset state.ackPsn psn ∨ state.receiveBitmap.getLsbD j = true := by
    intro j
    rw [getLsbD_withBit, bitmapIndex_val hpsn]
    by_cases hj : j = windowOffset state.ackPsn psn <;> simp [hj]
  obtain ⟨d, hd, heq, hset, hstop⟩ := mergeStep_iterate
    (withBit state.receiveBitmap (bitmapIndex state.ackPsn psn) true) state.ackPsn 16
  unfold merge
  rw [heq]
  refine ⟨d, hd, rfl, by bv_omega, ?_, fun j hj => (hbit j).1 (hset j hj), ?_⟩
  · intro j
    rw [BitVec.getLsbD_ushiftRight]
    exact hbit (d + j)
  · rcases hd.lt_or_eq with hlt | rfl
    · simpa using hstop hlt
    · simp

end RxRqState

/-! ## The history of a run -/

/-- An admitted packet, and its place in the run. -/
structure RqAdmission where
  packet : RxParsedPacket
  admitted : RxAdmittedPacket
  /-- The distance of the packet from the initial sequence number. -/
  position : ℕ
  /-- The number of positions acknowledged once it is merged. -/
  acked : ℕ

/-- What was admitted and handed on. -/
structure RqHistory where
  admissions : List RqAdmission
  /-- The number of positions acknowledged, for each queue pair. -/
  acked : RxQpIndex → ℕ
  /-- The packets the manager has failed on. -/
  rejections : List (RxParsedPacket × RxErrorCode)
  /-- The packets handed out to each lane. -/
  out : RxLaneId → List RxAdmittedPacket

namespace RqHistory

def empty : RqHistory := ⟨[], fun _ => 0, [], fun _ => []⟩

/-- The admissions of a queue pair. -/
def on (h : RqHistory) (qp : RxQpIndex) : List RqAdmission :=
  h.admissions.filter (·.admitted.qp = qp)

def positions (h : RqHistory) (qp : RxQpIndex) : List ℕ := (h.on qp).map (·.position)

end RqHistory

namespace RxRqBitmapManager

/-- The admission of a packet on a queue pair that has acknowledged `acked` positions. -/
def admission (m : RxRqBitmapManager) (qp : RxQpIndex) (packet : RxParsedPacket) (acked : ℕ) :
    RqAdmission where
  packet := packet
  admitted := (m.states qp).admitted (m.cfgs qp) packet qp m.globalSeq
  position := acked + windowOffset (m.states qp).ackPsn packet.psn
  acked := acked + (((m.states qp).merge packet.psn).2 - (m.states qp).ackPsn).toNat

/-- What a verdict adds to the history. -/
def record (m : RxRqBitmapManager) (packet : RxParsedPacket) (h : RqHistory) : RqVerdict → RqHistory
  | .accept qp =>
    { h with
      admissions := h.admissions ++ [m.admission qp packet (h.acked qp)]
      acked := update h.acked qp (m.admission qp packet (h.acked qp)).acked }
  | .reject code => { h with rejections := h.rejections ++ [(packet, code)] }
  | _ => h

def observe (m : RxRqBitmapManager) : RqLabel → RqHistory → RqHistory
  | .processCandidate, h =>
    match m.ingressQ.first with
    | some packet => m.record packet h (m.judge packet)
    | none => h
  | .admittedOut i, h =>
    { h with out := update h.out i (h.out i ++ handedOut (m.admittedOut i)) }
  | _, h => h

variable {m m' : RxRqBitmapManager} {h : RqHistory}

lemma observe_of_ne {l : RqLabel} (hl : l ≠ .processCandidate) :
    ∃ out, m.observe l h = { h with out := out } := by
  cases l <;> first | exact ⟨_, rfl⟩ | exact absurd rfl hl

lemma observe_candidate {packet : RxParsedPacket} (hfirst : m.ingressQ.first = some packet) :
    m.observe .processCandidate h = m.record packet h (m.judge packet) := by
  simp only [observe, hfirst]

/-- A candidate is admitted, and recorded, or the states of the queue pairs and what was admitted
stay. -/
lemma processCandidate_cases (hs : m.processCandidate = some m') :
    (m'.states = m.states ∧ (m.observe .processCandidate h).admissions = h.admissions ∧
      (m.observe .processCandidate h).acked = h.acked) ∨
    ∃ qp packet, m.ingressQ.first = some packet ∧ m.Admits qp packet ∧
      m'.states = update m.states qp ((m.states qp).accept (m.cfgs qp) packet) ∧
      m.observe .processCandidate h = m.record packet h (.accept qp) := by
  obtain ⟨-, hs⟩ := guard_bind_eq_some.1 hs
  obtain ⟨⟨packet, q⟩, hq, hs⟩ := bind_eq_some.1 hs
  have hacts : Acts _ packet m' (m.judge packet) := act_eq_some hs
  have hfirst := Fifo.first_of_deq hq
  rw [observe_candidate hfirst]
  have hsound := m.judge_sound packet
  generalize m.judge packet = v at hacts hsound
  cases v with
  | replacePending qp =>
    obtain ⟨q, -, rfl⟩ := hacts
    exact .inl ⟨rfl, rfl, rfl⟩
  | park qp =>
    subst hacts
    exact .inl ⟨rfl, rfl, rfl⟩
  | accept qp =>
    obtain ⟨q, f, -, rfl⟩ := hacts
    exact .inr ⟨qp, packet, hfirst, hsound, rfl, rfl⟩
  | _ =>
    obtain ⟨q, f, e, b, -, rfl⟩ := hacts
    exact .inl ⟨rfl, rfl, rfl⟩

/-- The admitted packets of a lane that the window still has. -/
def route (m : RxRqBitmapManager) (i : RxLaneId) : List RxAdmittedPacket :=
  (m.admittedQ i).elems ++ m.admittedRouteQ.elems.filter (·.lane = i)

/-- **The window passes packets on in the order of admission**: what a firing hands out to a lane,
followed by what the window still has for it, is what it had and what it has admitted for it. -/
lemma route_step {l : RqLabel} (hs : m.step l = some m') :
    ∃ new, (m.observe l h).admissions = h.admissions ++ new ∧
      ∀ i, ∃ passed, (m.observe l h).out i = h.out i ++ passed ∧
        (l ≠ .admittedOut i → passed = []) ∧
        passed ++ m'.route i = m.route i ++ (new.map (·.admitted)).filter (·.lane = i) := by
  have hsame : ∀ {h' : RqHistory}, h'.admissions = h.admissions → h'.out = h.out →
      (∀ i, m'.route i = m.route i) → ∃ new, h'.admissions = h.admissions ++ new ∧
        ∀ i, ∃ passed, h'.out i = h.out i ++ passed ∧ (l ≠ .admittedOut i → passed = []) ∧
          passed ++ m'.route i = m.route i ++ (new.map (·.admitted)).filter (·.lane = i) := by
    intro h' hadmissions hout hroute
    exact ⟨[], by simp [hadmissions], fun i => ⟨[], by simp [hout], fun _ => rfl, by simp [hroute]⟩⟩
  cases step_fires hs with
  | @processCandidate packet q hrun hq hacts =>
    rw [observe_candidate (Fifo.first_of_deq hq)]
    generalize m.judge packet = v at hacts
    cases v with
    | replacePending qp =>
      obtain ⟨q, -, rfl⟩ := hacts
      exact hsame rfl rfl fun _ => rfl
    | park qp =>
      subst hacts
      exact hsame rfl rfl fun _ => rfl
    | accept qp =>
      obtain ⟨q, f, hq, rfl⟩ := hacts
      refine ⟨[m.admission qp packet (h.acked qp)], rfl, fun i =>
        ⟨[], (List.append_nil _).symm, fun _ => rfl, ?_⟩⟩
      rw [List.nil_append, route, route, Fifo.enq_eq_some hq, List.filter_append,
        List.append_assoc]
      rfl
    | _ =>
      obtain ⟨q, f, e, b, -, rfl⟩ := hacts
      exact hsame rfl rfl fun _ => rfl
  | @routeAdmitted lane packet q r hq hlane hr hm =>
    subst hm
    refine hsame rfl rfl fun i => ?_
    simp only [route, Fifo.deq_eq_some hq]
    by_cases hi : i = lane
    · subst hi
      rw [update_self, Fifo.enq_eq_some hr, List.filter_cons_of_pos (by simpa using hlane),
        List.append_assoc]
      rfl
    · rw [update_of_ne hi, List.filter_cons_of_neg]
      intro heq
      exact hi ((of_decide_eq_true heq).symm.trans hlane)
  | @admittedOut lane packet q hq hm =>
    subst hm
    have hout : m.admittedOut lane
        = some (packet, { m with admittedQ := update m.admittedQ lane q }) :=
      bind_eq_some.2 ⟨_, hq, rfl⟩
    refine ⟨[], (List.append_nil _).symm, fun i => ?_⟩
    simp only [observe, handedOut_of_eq_some hout, route]
    by_cases hi : i = lane
    · subst hi
      exact ⟨[packet], by rw [update_self], fun hne => absurd rfl hne,
        by simp [Fifo.deq_eq_some hq]⟩
    · exact ⟨[], by simp [update_of_ne hi], fun _ => rfl,
        by simp [update_of_ne hi]⟩
  | _ =>
    subst_vars
    exact hsame rfl rfl fun _ => rfl

end RxRqBitmapManager

/-- What was handed out to a lane and what the window still has for it are the packets admitted for
it, in the order of admission. -/
def Routed (m : RxRqBitmapManager) (h : RqHistory) : Prop :=
  ∀ i, h.out i ++ m.route i = (h.admissions.map (·.admitted)).filter (·.lane = i)

lemma Routed.step {m m' : RxRqBitmapManager} {h : RqHistory} (hr : Routed m h) {l : RqLabel}
    (hs : m.step l = some m') : Routed m' (m.observe l h) := by
  obtain ⟨new, hnew, hroute⟩ := RxRqBitmapManager.route_step (h := h) hs
  intro i
  obtain ⟨passed, hout, -, hpassed⟩ := hroute i
  rw [hout, List.append_assoc, hpassed, ← List.append_assoc, hr i, hnew, List.map_append,
    List.filter_append]

/-! ## The invariant -/

/-- A parked packet is in the window, not received, and at the entry of its sequence number. -/
structure Parked (state : RxRqState) (packet : RxParsedPacket) (index : RxWindowIndex) : Prop where
  inWindow : windowOffset state.ackPsn packet.psn < 16
  notReceived : state.receiveBitmap.getLsbD (windowOffset state.ackPsn packet.psn) = false
  ring : ringIndex packet.psn = index

/-- The bitmap, the ring and the history of a queue pair agree. -/
structure WindowExact (m : RxRqBitmapManager) (h : RqHistory) (qp : RxQpIndex) : Prop where
  ackPsn : (m.states qp).ackPsn = (m.cfgs qp).initialPsn - 1 + BitVec.ofNat 24 (h.acked qp)
  bitZero : (m.states qp).receiveBitmap.getLsbD 0 = false
  nodup : (h.positions qp).Nodup
  mem_positions : ∀ p, p ∈ h.positions qp ↔ p < h.acked qp ∨
    h.acked qp ≤ p ∧ (m.states qp).receiveBitmap.getLsbD (p - h.acked qp) = true
  psn : ∀ a ∈ h.on qp, a.admitted.psn = (m.cfgs qp).initialPsn + BitVec.ofNat 24 a.position
  parked : ∀ i : RxWindowIndex, (m.pendingValid qp).getLsbD i = true →
    Parked (m.states qp) (m.pendingPackets qp i) i

/-- What holds along every run of the manager. -/
structure RqInv (m : RxRqBitmapManager) (h : RqHistory) : Prop where
  globalSeq : m.globalSeq = BitVec.ofNat 64 h.admissions.length
  numbered : ∀ k (a : RqAdmission), h.admissions[k]? = some a →
    a.admitted.globalSeq = BitVec.ofNat 64 k
  idle : m.running = false → h.admissions = [] ∧ h.acked = fun _ => 0
  exact : ∀ qp, (m.cfgs qp).valid = true → WindowExact m h qp

/-- The positions received, once the window has moved over `d` of them. -/
lemma received_moved {bits merged : ℕ → Bool} {acked d k : ℕ}
    (hbits : ∀ j, merged j = true ↔ d + j = k ∨ bits (d + j) = true)
    (hset : ∀ j < d, j = k ∨ bits j = true) (p : ℕ) :
    (p < acked ∨ acked ≤ p ∧ bits (p - acked) = true) ∨ p = acked + k ↔
      p < acked + d ∨ acked + d ≤ p ∧ merged (p - (acked + d)) = true := by
  rw [hbits]
  constructor
  · rintro ((hlt | ⟨hle, hbit⟩) | rfl)
    · exact .inl (by omega)
    · rcases Nat.lt_or_ge p (acked + d) with hlt | hge
      · exact .inl hlt
      · exact .inr ⟨hge, .inr (by rwa [show d + (p - (acked + d)) = p - acked by omega])⟩
    · rcases Nat.lt_or_ge k d with hlt | hge
      · exact .inl (by omega)
      · exact .inr ⟨by omega, .inl (by omega)⟩
  · rintro (hlt | ⟨hle, heq | hbit⟩)
    · rcases Nat.lt_or_ge p acked with hlt' | hge
      · exact .inl (.inl hlt')
      · rcases hset (p - acked) (by omega) with heq | hbit
        · exact .inr (by omega)
        · exact .inl (.inr ⟨hge, hbit⟩)
    · exact .inr (by omega)
    · rw [show d + (p - (acked + d)) = p - acked by omega] at hbit
      exact .inl (.inr ⟨by omega, hbit⟩)

/-- A parked packet stays parked when another one is admitted: the window does not move past it. -/
lemma Parked.accept {state : RxRqState} {cfg : RxQpConfig} {packet other : RxParsedPacket}
    {i : RxWindowIndex} (hp : Parked state other i)
    (hoff : windowOffset state.ackPsn packet.psn < 16) (hring : ringIndex packet.psn ≠ i) :
    Parked (state.accept cfg packet) other i := by
  obtain ⟨d, hd, hack, -, hbits, hset, -⟩ := state.merge_spec hoff
  have hne : windowOffset state.ackPsn other.psn ≠ windowOffset state.ackPsn packet.psn := by
    intro heq
    have hpsn : other.psn = packet.psn := by
      rw [psn_eq_windowOffset state.ackPsn other.psn, heq, ← psn_eq_windowOffset]
    exact hring (hpsn ▸ hp.ring)
  have hge : d ≤ windowOffset state.ackPsn other.psn := by
    by_contra hlt
    rcases hset _ (not_le.1 hlt) with heq | hbit
    · exact hne heq
    · rw [hp.notReceived] at hbit
      cases hbit
  have hmoved := windowOffset_add hge
  rw [← hack] at hmoved
  have hwin := hp.inWindow
  refine ⟨?_, ?_, hp.ring⟩
  · show windowOffset (state.merge packet.psn).2 _ < 16
    omega
  · show (state.merge packet.psn).1.getLsbD (windowOffset (state.merge packet.psn).2 _) = false
    rw [hmoved, Bool.eq_false_iff]
    intro hbit
    rcases (hbits _).1 hbit with heq | hbit
    · exact hne (by omega)
    · rw [Nat.add_sub_cancel' hge, hp.notReceived] at hbit
      cases hbit

namespace WindowExact

variable {m m' : RxRqBitmapManager} {h h' : RqHistory} {qp : RxQpIndex}

/-- The invariant of a queue pair is about its own registers only. -/
lemma congr (hw : WindowExact m h qp) (hcfg : m'.cfgs qp = m.cfgs qp)
    (hstate : m'.states qp = m.states qp) (hacked : h'.acked qp = h.acked qp)
    (hon : h'.on qp = h.on qp)
    (hpending : ∀ i : RxWindowIndex, (m'.pendingValid qp).getLsbD i = true →
      Parked (m'.states qp) (m'.pendingPackets qp i) i) : WindowExact m' h' qp where
  ackPsn := by rw [hcfg, hstate, hacked]; exact hw.ackPsn
  bitZero := by rw [hstate]; exact hw.bitZero
  nodup := by rw [RqHistory.positions, hon]; exact hw.nodup
  mem_positions := by rw [RqHistory.positions, hon, hstate, hacked]; exact hw.mem_positions
  psn := by rw [hon, hcfg]; exact hw.psn
  parked := hpending

/-- A sequence number, by its position. -/
lemma psn_eq_position (hw : WindowExact m h qp) (psn : TxPsn) :
    psn = (m.cfgs qp).initialPsn +
      BitVec.ofNat 24 (h.acked qp + windowOffset (m.states qp).ackPsn psn) := by
  nth_rewrite 1 [psn_eq_windowOffset (m.states qp).ackPsn psn]
  rw [hw.ackPsn, BitVec.ofNat_add]
  ring

/-- **Admitting a new packet keeps the window exact**: its position joins the history, and the bits
the window moves past are positions that are now acknowledged. -/
theorem accept (hw : WindowExact m h qp) {packet : RxParsedPacket} (hfresh : m.Fresh qp packet)
    (hcfg : m'.cfgs qp = m.cfgs qp)
    (hstate : m'.states qp = (m.states qp).accept (m.cfgs qp) packet)
    (hvalid : m'.pendingValid qp = m.pendingValid qp)
    (hpackets : m'.pendingPackets qp = m.pendingPackets qp)
    (hacked : h'.acked qp = (m.admission qp packet (h.acked qp)).acked)
    (hon : h'.on qp = h.on qp ++ [m.admission qp packet (h.acked qp)]) : WindowExact m' h' qp := by
  have hoff : windowOffset (m.states qp).ackPsn packet.psn < 16 :=
    rxPsnInWindow_iff.1 hfresh.inWindow
  have hnew : (m.states qp).receiveBitmap.getLsbD (windowOffset (m.states qp).ackPsn packet.psn) =
      false := by
    rw [← bitmapIndex_val hoff]
    exact hfresh.notReceived
  obtain ⟨d, hd, hack, hdist, hbits, hset, hzero⟩ := (m.states qp).merge_spec hoff
  have hstep : h'.acked qp = h.acked qp + d := by
    rw [hacked, RxRqBitmapManager.admission, hdist]
  have hpositions : h'.positions qp = h.positions qp ++
      [h.acked qp + windowOffset (m.states qp).ackPsn packet.psn] := by
    simp [RqHistory.positions, hon, RxRqBitmapManager.admission]
  refine ⟨?_, ?_, ?_, ?_, ?_, ?_⟩
  · rw [hcfg, hstate, hstep]
    show ((m.states qp).merge packet.psn).2 = _
    rw [hack, hw.ackPsn, BitVec.ofNat_add]
    ring
  · rw [hstate]
    exact hzero
  · rw [hpositions, List.nodup_append]
    refine ⟨hw.nodup, by simp, ?_⟩
    intro p hp q hq heq
    rw [List.mem_singleton] at hq
    have hmem := (hw.mem_positions p).1 hp
    rw [heq, hq, Nat.add_sub_cancel_left, hnew] at hmem
    simp at hmem
  · intro p
    rw [hpositions, List.mem_append, List.mem_singleton, hw.mem_positions, hstate, hstep]
    exact received_moved hbits hset p
  · intro a ha
    rw [hon, List.mem_append, List.mem_singleton] at ha
    rw [hcfg]
    rcases ha with ha | rfl
    · exact hw.psn a ha
    · exact hw.psn_eq_position packet.psn
  · intro i hi
    rw [hvalid] at hi
    rw [hpackets, hstate]
    refine (hw.parked i hi).accept hoff ?_
    rintro rfl
    rw [hfresh.notParked] at hi
    cases hi

end WindowExact

/-- The windows, the ring and the counter are the same. -/
structure SameWindow (m m' : RxRqBitmapManager) : Prop where
  running : m'.running = m.running
  cfgs : m'.cfgs = m.cfgs
  states : m'.states = m.states
  pendingValid : m'.pendingValid = m.pendingValid
  pendingPackets : m'.pendingPackets = m.pendingPackets
  globalSeq : m'.globalSeq = m.globalSeq

namespace RqInv

variable {m m' : RxRqBitmapManager} {h h' : RqHistory}

lemma initial (packets : RxQpIndex → RxWindowIndex → RxParsedPacket)
    (age : RxQpIndex → RxWindowIndex → BitVec 8) : RqInv (.initial packets age) .empty where
  globalSeq := rfl
  numbered := by simp [RqHistory.empty]
  idle := fun _ => ⟨rfl, rfl⟩
  exact := by
    intro qp hvalid
    cases hvalid

variable (hi : RqInv m h)

include hi

/-- A firing that leaves the windows and what was admitted alone. -/
lemma sameWindow (hs : SameWindow m m')
    (hadmissions : h'.admissions = h.admissions) (hacked : h'.acked = h.acked) : RqInv m' h' where
  globalSeq := by rw [hs.globalSeq, hadmissions]; exact hi.globalSeq
  numbered := by rw [hadmissions]; exact hi.numbered
  idle := by
    intro hrun
    rw [hadmissions, hacked]
    exact hi.idle (hs.running.symm.trans hrun)
  exact := by
    intro qp hvalid
    rw [hs.cfgs] at hvalid
    have hw := hi.exact qp hvalid
    have hon : h'.on qp = h.on qp := by rw [RqHistory.on, hadmissions]; rfl
    refine hw.congr (by rw [hs.cfgs]) (by rw [hs.states]) (by rw [hacked]) hon ?_
    rw [hs.states, hs.pendingValid, hs.pendingPackets]
    exact hw.parked

/-- A firing that changes the ring of the queue pairs only. -/
lemma parks (hrunning : m'.running = m.running) (hcfgs : m'.cfgs = m.cfgs)
    (hstates : m'.states = m.states) (hseq : m'.globalSeq = m.globalSeq)
    (hparked : ∀ qp, (m.cfgs qp).valid = true → ∀ i : RxWindowIndex,
      (m'.pendingValid qp).getLsbD i = true →
      (m.pendingValid qp).getLsbD i = true ∧ m'.pendingPackets qp i = m.pendingPackets qp i ∨
        Parked (m.states qp) (m'.pendingPackets qp i) i) : RqInv m' h where
  globalSeq := hseq.trans hi.globalSeq
  numbered := hi.numbered
  idle := fun hrun => hi.idle (hrunning.symm.trans hrun)
  exact := by
    intro qp hvalid
    rw [hcfgs] at hvalid
    have hw := hi.exact qp hvalid
    refine hw.congr (by rw [hcfgs]) (by rw [hstates]) rfl rfl ?_
    intro i hbit
    rw [hstates]
    rcases hparked qp hvalid i hbit with ⟨hold, heq⟩ | hnew
    · rw [heq]
      exact hw.parked i hold
    · exact hnew

lemma configure (hidle : m.running = false) (index : RxQpIndex) (cfg : RxQpConfig) :
    RqInv { m with
      cfgs := update m.cfgs index cfg
      states := update m.states index (.init cfg.initialPsn)
      pendingValid := update m.pendingValid index 0 } h := by
  obtain ⟨hnone, hacked⟩ := hi.idle hidle
  refine ⟨hi.globalSeq, hi.numbered, hi.idle, ?_⟩
  intro qp hvalid
  by_cases hqp : qp = index
  · subst hqp
    have hon : h.on qp = [] := by rw [RqHistory.on, hnone]; rfl
    refine ⟨by simp [hacked], by simp, by simp [RqHistory.positions, hon], ?_, by simp [hon],
      by simp⟩
    intro p
    simp [RqHistory.positions, hon, hacked]
  · simp only [update_of_ne hqp] at hvalid
    have hw := hi.exact qp hvalid
    refine hw.congr (by simp [hqp]) (by simp [hqp]) rfl rfl ?_
    simpa [hqp] using hw.parked

/-- An entry of the ring is emptied. -/
lemma clears {q : RxQpIndex} {index : RxWindowIndex}
    (hrunning : m'.running = m.running) (hcfgs : m'.cfgs = m.cfgs) (hstates : m'.states = m.states)
    (hseq : m'.globalSeq = m.globalSeq)
    (hpackets : m'.pendingPackets = m.pendingPackets)
    (hvalid : m'.pendingValid = update m.pendingValid q
      (withBit (m.pendingValid q) index false)) :
    RqInv m' h := by
  refine hi.parks hrunning hcfgs hstates hseq fun qp _ i hbit => .inl ⟨?_, by rw [hpackets]⟩
  rw [hvalid] at hbit
  by_cases hqp : qp = q
  · subst hqp
    rw [update_self, getLsbD_withBit] at hbit
    split at hbit
    · cases hbit
    · exact hbit
  · rwa [update_of_ne hqp] at hbit

variable {packet : RxParsedPacket}

/-- A packet put into the ring. -/
lemma keeps (qp : RxQpIndex)
    (hparked : Parked (m.states qp) packet (ringIndex packet.psn))
    (hrunning : m'.running = m.running) (hcfgs : m'.cfgs = m.cfgs) (hstates : m'.states = m.states)
    (hseq : m'.globalSeq = m.globalSeq)
    (hpackets : m'.pendingPackets = (m.keep qp packet).pendingPackets)
    (hvalid : ∀ q (i : RxWindowIndex), (m'.pendingValid q).getLsbD i = true →
      (m.pendingValid q).getLsbD i = true ∨ q = qp ∧ i = ringIndex packet.psn) : RqInv m' h := by
  refine hi.parks hrunning hcfgs hstates hseq ?_
  intro q _ i hbit
  have hentry : m'.pendingPackets q i =
      if q = qp ∧ i = ringIndex packet.psn then packet else m.pendingPackets q i := by
    rw [hpackets]
    by_cases hq : q = qp
    · subst hq
      by_cases hi : i = ringIndex packet.psn <;> simp [RxRqBitmapManager.keep, hi]
    · simp [RxRqBitmapManager.keep, hq]
  by_cases hnew : q = qp ∧ i = ringIndex packet.psn
  · rw [hentry, if_pos hnew, hnew.1, hnew.2]
    exact .inr hparked
  · rw [hentry, if_neg hnew]
    exact .inl ⟨(hvalid q i hbit).resolve_right hnew, rfl⟩

/-- A packet that is admitted gets the next number. -/
lemma admits {qp : RxQpIndex} (hrun : m.running = true)
    (hfresh : m.Fresh qp packet) (hrunning : m'.running = m.running) (hcfgs : m'.cfgs = m.cfgs)
    (hstates : m'.states = update m.states qp ((m.states qp).accept (m.cfgs qp) packet))
    (hseq : m'.globalSeq = m.globalSeq + 1) (hvalid : m'.pendingValid = m.pendingValid)
    (hpackets : m'.pendingPackets = m.pendingPackets) :
    RqInv m' (m.record packet h (.accept qp)) where
  globalSeq := by
    rw [hseq, hi.globalSeq]
    simp only [RxRqBitmapManager.record, List.length_append, List.length_singleton,
      BitVec.ofNat_add]
    rfl
  numbered := by
    intro k a ha
    rcases Nat.lt_trichotomy k h.admissions.length with hk | rfl | hk
    · exact hi.numbered k a (by rwa [RxRqBitmapManager.record, List.getElem?_append_left hk] at ha)
    · simp only [RxRqBitmapManager.record, List.getElem?_concat_length, Option.some.injEq] at ha
      rw [← ha, ← hi.globalSeq]
      rfl
    · rw [RxRqBitmapManager.record, List.getElem?_eq_none (by simpa using hk)] at ha
      cases ha
  idle := by
    intro hidle
    rw [hrunning, hrun] at hidle
    cases hidle
  exact := by
    intro q hq
    rw [hcfgs] at hq
    have hw := hi.exact q hq
    by_cases hqp : q = qp
    · subst hqp
      refine hw.accept hfresh (by rw [hcfgs]) (by simp [hstates]) (by rw [hvalid])
        (by rw [hpackets]) (by simp [RxRqBitmapManager.record]) ?_
      simp [RxRqBitmapManager.record, RqHistory.on, RxRqBitmapManager.admission, RxRqState.admitted]
    · refine hw.congr (by rw [hcfgs]) (by simp [hstates, hqp])
        (by simp [RxRqBitmapManager.record, hqp]) ?_ ?_
      · simp [RxRqBitmapManager.record, RqHistory.on, RxRqBitmapManager.admission,
          RxRqState.admitted, Ne.symm hqp]
      · rw [hvalid, hpackets, hstates, update_of_ne hqp]
        exact hw.parked

/-- **A candidate is judged and the verdict carried out.** -/
theorem processCandidate {q : Fifo RxParsedPacket 8}
    (hrun : m.running = true) (hq : m.ingressQ.deq = some (packet, q))
    (hacts : RxRqBitmapManager.Acts { m with ingressQ := q, resolvePhase := m.pendingExists }
      packet m'
      (m.judge packet)) : RqInv m' (m.observe .processCandidate h) := by
  rw [RxRqBitmapManager.observe_candidate (Fifo.first_of_deq hq)]
  have hsound := m.judge_sound packet
  generalize m.judge packet = v at hacts hsound
  cases v with
  | replacePending qp =>
    obtain ⟨q, -, rfl⟩ := hacts
    obtain ⟨hvalid, -, hwin, hbit⟩ := hsound
    -- the packet in the entry has the same sequence number, so this one is not received either
    have hold := (hi.exact qp hvalid).parked _ hbit
    have hpsn := psn_eq_of_ringIndex (rxPsnInWindow_iff.1 hwin) hold.inWindow hold.ring.symm
    refine hi.keeps qp ⟨rxPsnInWindow_iff.1 hwin, ?_, rfl⟩ rfl rfl rfl rfl rfl
      fun q i hbit => .inl hbit
    rw [hpsn]
    exact hold.notReceived
  | park qp =>
    subst hacts
    obtain ⟨hfresh, -⟩ := hsound
    have hoff := rxPsnInWindow_iff.1 hfresh.inWindow
    refine hi.keeps qp ⟨hoff, ?_, rfl⟩ rfl rfl rfl rfl rfl ?_
    · rw [← bitmapIndex_val hoff]
      exact hfresh.notReceived
    · intro q i hbit
      by_cases hq : q = qp
      · subst hq
        simp only [RxRqBitmapManager.setPending, update_self, getLsbD_withBit] at hbit
        split at hbit
        · rename_i heq
          exact .inr ⟨rfl, Fin.ext heq⟩
        · exact .inl hbit
      · simp only [RxRqBitmapManager.setPending, update_of_ne hq] at hbit
        exact .inl hbit
  | accept qp =>
    obtain ⟨q, f, -, rfl⟩ := hacts
    exact hi.admits hrun hsound.toFresh rfl rfl rfl rfl rfl rfl
  | _ =>
    obtain ⟨q, f, e, b, -, rfl⟩ := hacts
    exact hi.sameWindow ⟨rfl, rfl, rfl, rfl, rfl, rfl⟩ rfl rfl

/-- **Every rule and method keeps the invariant.** -/
theorem step {l : RqLabel} (hs : m.step l = some m') : RqInv m' (m.observe l h) := by
  cases RxRqBitmapManager.step_fires hs with
  | @configure index cfg hidle hm =>
    subst hm
    exact hi.configure hidle index cfg
  | start hidle hm =>
    subst hm
    exact ⟨hi.globalSeq, hi.numbered, nofun, fun qp hvalid =>
      (hi.exact qp hvalid).congr rfl rfl rfl rfl (hi.exact qp hvalid).parked⟩
  | putBack hbit hq hm | giveUp hbit hq hm =>
    subst hm
    exact hi.clears rfl rfl rfl rfl rfl rfl
  | processCandidate hrun hq hacts => exact hi.processCandidate hrun hq hacts
  | _ =>
    subst_vars
    exact hi.sameWindow ⟨rfl, rfl, rfl, rfl, rfl, rfl⟩ rfl rfl

omit hi

/-- **The acknowledged position never moves backwards**: while the manager runs, a firing leaves it
where it is or moves it on by at most sixteen places. -/
theorem acked_step {l : RqLabel} (hs : m.step l = some m') (hrun : m.running = true)
    (qp : RxQpIndex) :
    ∃ d ≤ 16, (m'.states qp).ackPsn = (m.states qp).ackPsn + BitVec.ofNat 24 d ∧
      (m.observe l h).acked qp = h.acked qp + d := by
  have hstay : m'.states qp = m.states qp → (m.observe l h).acked qp = h.acked qp → ∃ d ≤ 16,
      (m'.states qp).ackPsn = (m.states qp).ackPsn + BitVec.ofNat 24 d ∧
      (m.observe l h).acked qp = h.acked qp + d := by
    intro hstates hobs
    exact ⟨0, by omega, by simp [hstates], hobs⟩
  by_cases hl : l = .processCandidate
  · subst hl
    rcases RxRqBitmapManager.processCandidate_cases (h := h) hs with
      ⟨hstates, -, hacked⟩ | ⟨q, packet, -, hadmits, hstates, hobs⟩
    · exact hstay (by rw [hstates]) (by rw [hacked])
    · by_cases hq : qp = q
      · subst hq
        obtain ⟨d, hd, hack, hdist, -⟩ :=
          (m.states qp).merge_spec (rxPsnInWindow_iff.1 hadmits.inWindow)
        refine ⟨d, hd, ?_, ?_⟩
        · rw [hstates, update_self]
          exact hack
        · rw [hobs]
          simp [RxRqBitmapManager.record, RxRqBitmapManager.admission, hdist]
      · refine hstay (by rw [hstates, update_of_ne hq]) ?_
        rw [hobs]
        exact update_of_ne hq _ _
  · obtain ⟨out, hobs⟩ := RxRqBitmapManager.observe_of_ne (m := m) (h := h) hl
    refine hstay ?_ (by rw [hobs])
    rw [(RxRqBitmapManager.step_running hs hrun).2.2 hl]

/-- A packet that a firing adds to the history was admitted by it. -/
lemma admission_of_step {l : RqLabel} {a : RqAdmission} (hs : m.step l = some m')
    (hadd : (m.observe l h).admissions = h.admissions ++ [a]) :
    ∃ qp packet, m.Admits qp packet ∧ a = m.admission qp packet (h.acked qp) := by
  have hnone : (m.observe l h).admissions ≠ h.admissions := by
    intro heq
    rw [heq] at hadd
    simpa using congrArg List.length hadd
  by_cases hl : l = .processCandidate
  · subst hl
    rcases RxRqBitmapManager.processCandidate_cases (h := h) hs with
      ⟨-, hsame, -⟩ | ⟨qp, packet, -, hadmits, -, hobs⟩
    · exact absurd hsame hnone
    · rw [hobs] at hadd
      exact ⟨qp, packet, hadmits, by simpa [RxRqBitmapManager.record] using hadd.symm⟩
  · obtain ⟨out, hobs⟩ := RxRqBitmapManager.observe_of_ne (m := m) (h := h) hl
    exact absurd (by rw [hobs]) hnone

end RqInv

/-- What a firing does to the queue pairs and to what was admitted: nothing, or it configures a
queue pair before anything was admitted, or it admits one packet. -/
inductive Grows (m m' : RxRqBitmapManager) (h h' : RqHistory) : Prop
  | same (hcfgs : m'.cfgs = m.cfgs) (hstates : m'.states = m.states)
      (hadmissions : h'.admissions = h.admissions) (hacked : h'.acked = h.acked)
  | configure {index : RxQpIndex} {cfg : RxQpConfig} (hnone : h'.admissions = [])
      (hacked : h'.acked = fun _ => 0) (hcfgs : m'.cfgs = update m.cfgs index cfg)
      (hstates : m'.states = update m.states index (.init cfg.initialPsn))
      (hsame : h' = h)
  | admits {qp : RxQpIndex} {packet : RxParsedPacket} (hadmits : m.Admits qp packet)
      (hcfgs : m'.cfgs = m.cfgs)
      (hstates : m'.states = update m.states qp ((m.states qp).accept (m.cfgs qp) packet))
      (hobs : h' = m.record packet h (.accept qp))

/-- **Every firing of the manager is one of these.** -/
theorem RqInv.grows {m m' : RxRqBitmapManager} {h : RqHistory} (hi : RqInv m h) {l : RqLabel}
    (hs : m.step l = some m') : Grows m m' h (m.observe l h) := by
  cases RxRqBitmapManager.step_fires hs with
  | configure hidle hm =>
    subst hm
    obtain ⟨hnone, hacked⟩ := hi.idle hidle
    exact .configure hnone hacked rfl rfl rfl
  | processCandidate hrun hq hacts =>
    rcases RxRqBitmapManager.processCandidate_cases (h := h) hs with
      ⟨hstates, hadmissions, hacked⟩ | ⟨qp, packet, -, hadmits, hstates, hobs⟩
    · exact .same hacts.fixed.2 hstates hadmissions hacked
    · exact .admits hadmits hacts.fixed.2 hstates hobs
  | _ =>
    subst_vars
    exact .same rfl rfl rfl rfl

/-! ## Every run -/

/-- The manager with its history. -/
def rqStep : RxRqBitmapManager × RqHistory → RqLabel → Option (RxRqBitmapManager × RqHistory) :=
  watched RxRqBitmapManager.step RxRqBitmapManager.observe

lemma RqInv.run {s s' : RxRqBitmapManager × RqHistory} {ls : List RqLabel} (hi : RqInv s.1 s.2)
    (hrun : fire rqStep s ls = some s') : RqInv s'.1 s'.2 := by
  refine fire_rule (P := fun s => RqInv s.1 s.2) ?_ hi hrun
  intro s l s' hi hs
  obtain ⟨hstep, hobs⟩ := watched_eq_some.1 hs
  rw [hobs]
  exact hi.step hstep

lemma Routed.run {s s' : RxRqBitmapManager × RqHistory} {ls : List RqLabel} (hr : Routed s.1 s.2)
    (hrun : fire rqStep s ls = some s') : Routed s'.1 s'.2 := by
  refine fire_rule (P := fun s => Routed s.1 s.2) ?_ hr hrun
  intro s l s' hr hs
  obtain ⟨hstep, hobs⟩ := watched_eq_some.1 hs
  rw [hobs]
  exact hr.step hstep

/-- **Admission is exactly once and the window state is exact.**  Over any run of the manager the
admissions are numbered without gaps; what a lane was handed out, followed by what waits for it in
`admittedQ` and `admittedRouteQ`, are the packets admitted for it, in order; on every configured
queue pair each position is admitted at most once, exactly the acknowledged positions and those with
a bit set have been, bit zero is clear and the ring holds packets of the window that are not
admitted, each at the entry of its sequence number.  A further firing never moves the acknowledged
position backwards, and a packet it admits is counted at its position, as long as that is within
`2 ^ 22` of the acknowledged one. -/
theorem admissions_exact {packets : RxQpIndex → RxWindowIndex → RxParsedPacket}
    {age : RxQpIndex → RxWindowIndex → BitVec 8} {ls : List RqLabel} {m : RxRqBitmapManager}
    {h : RqHistory} (hrun : fire rqStep (.initial packets age, .empty) ls = some (m, h)) :
    m.globalSeq = BitVec.ofNat 64 h.admissions.length ∧
    (∀ k (a : RqAdmission), h.admissions[k]? = some a → a.admitted.globalSeq = BitVec.ofNat 64 k) ∧
    (∀ i, h.out i ++ (m.admittedQ i).elems ++ m.admittedRouteQ.elems.filter (·.lane = i)
      = (h.admissions.map (·.admitted)).filter (·.lane = i)) ∧
    (∀ qp, (m.cfgs qp).valid = true → WindowExact m h qp) ∧
    ∀ l m' h', rqStep (m, h) l = some (m', h') → m.running = true →
      (∀ qp, ∃ d ≤ 16, (m'.states qp).ackPsn = (m.states qp).ackPsn + BitVec.ofNat 24 d ∧
        h'.acked qp = h.acked qp + d) ∧
      ∀ (a : RqAdmission) (p : ℕ), h'.admissions = h.admissions ++ [a] →
        a.packet.psn = (m.cfgs a.admitted.qp).initialPsn + BitVec.ofNat 24 p →
        p ≤ h.acked a.admitted.qp + 2 ^ 22 → h.acked a.admitted.qp ≤ p + 2 ^ 22 →
        a.position = p := by
  have hi : RqInv m h :=
    RqInv.run (s := (.initial packets age, .empty)) (RqInv.initial packets age) hrun
  have hr : Routed m h := Routed.run (s := (.initial packets age, .empty)) (fun _ => rfl) hrun
  refine ⟨hi.globalSeq, hi.numbered, fun i => by rw [List.append_assoc]; exact hr i, hi.exact, ?_⟩
  intro l m' h' hs hrunning
  obtain ⟨hstep, rfl⟩ := watched_eq_some.1 hs
  refine ⟨RqInv.acked_step hstep hrunning, ?_⟩
  intro a p hadd hpsn hle hge
  obtain ⟨qp, packet, hadmits, rfl⟩ := RqInv.admission_of_step hstep hadd
  have hpos := (hi.exact qp hadmits.valid).psn_eq_position packet.psn
  have hoff : windowOffset (m.states qp).ackPsn packet.psn < 16 :=
    rxPsnInWindow_iff.1 hadmits.inWindow
  show h.acked qp + windowOffset (m.states qp).ackPsn packet.psn = p
  have hsame : BitVec.ofNat 24 (h.acked qp + windowOffset (m.states qp).ackPsn packet.psn) =
      BitVec.ofNat 24 p := add_left_cancel (hpos.symm.trans hpsn)
  have hmod := congrArg BitVec.toNat hsame
  simp only [BitVec.toNat_ofNat, RxRqBitmapManager.admission, RxRqState.admitted] at hmod hle hge
  omega

/-- A queue pair whose first sequence number is the last one before the wrap. -/
def wrapConfig : RxQpConfig where
  valid := true
  qpn := 7
  initialPsn := 0xFFFFFF
  pmtu := 0
  rkey := 5
  virtualBase := 0x1000
  physicalBase := 0x8000
  regionBytes := 0x1000
  remoteWrite := true

/-- The first of the two packets of a message of 300 bytes. -/
def firstOfTwo : RxParsedPacket where
  payloadTag := ⟨1, 0, 0⟩
  lane := 1
  qpn := 7
  psn := 0xFFFFFF
  opcode := 6
  ecn := 0
  payloadStart := 70
  payloadBytes := 228
  remoteAddr := 0x1000
  rkey := 5
  messageBytes := 300
  first := true
  last := false

def lastOfTwo : RxParsedPacket where
  payloadTag := ⟨0, 0, 0⟩
  lane := 0
  qpn := 7
  psn := 0
  opcode := 8
  ecn := 0
  payloadStart := 54
  payloadBytes := 72
  remoteAddr := 0
  rkey := 0
  messageBytes := 0
  first := false
  last := true

/-- The last packet comes first and is parked until the first one opens the message. -/
def reorderedRun : List RqLabel :=
  [.configure 0 wrapConfig, .start, .packetIn 0 lastOfTwo, .packetIn 1 firstOfTwo,
    .mergeIngressLane 0, .mergeIngressLane 1, .processCandidate, .processCandidate,
    .resolvePending, .processCandidate]

theorem admissions_exact_reordered :
    ∃ m h, fire rqStep (.initial (fun _ _ => default) (fun _ _ => 0), .empty) reorderedRun =
      some (m, h) ∧ h.positions 0 = [0, 1] ∧ WindowExact m h 0 := by
  have hsome : (fire rqStep (.initial (fun _ _ => default) (fun _ _ => 0), .empty)
      reorderedRun).isSome = true := by decide +kernel
  have hview : (fire rqStep (.initial (fun _ _ => default) (fun _ _ => 0), .empty) reorderedRun).map
      (fun s => (s.2.positions 0, (s.1.cfgs 0).valid)) = some ([0, 1], true) := by decide +kernel
  obtain ⟨⟨m, h⟩, hrun⟩ := Option.isSome_iff_exists.1 hsome
  rw [hrun] at hview
  obtain ⟨hpos, hvalid⟩ := Prod.mk.inj (Option.some.inj hview)
  exact ⟨m, h, hrun, hpos, (admissions_exact hrun).2.2.2.1 0 hvalid⟩

end OpenRdma
