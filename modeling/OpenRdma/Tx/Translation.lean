import OpenRdma.Core.Trail
import OpenRdma.Tx.Submissions

/-!
# Address translation

A parsed request is translated page by page, and its page fragments are read burst by burst.  How
far each of the two loops is, is kept in registers of its own, and page fragments wait in queues
between them.  Both loops are cursors that walk over the messages in order: what waits in the queues
is a trail from the cursor of the bursts to that of the pages, and what was emitted is a trail from
the beginning.

A page that the page table answers for has an index below 128, so a message cannot run over the end
of the address space: the page after the last one would have an index far beyond.

* **`translated_pageOf`**, **`request_reads`** — one step of each loop.
-/

namespace OpenRdma

namespace Mvp

/-- What a message hands down to its page fragments and bursts. -/
structure MessageHeader where
  requestId : TxRequestId
  qpn : TxQpn
  slotId : TxSlotId
  debugSeq : BitVec 4
  pmtu : TxPmtuCode
  startPsn : TxPsn
  psnCount : TxPsnCount
  messageLength : TxLength
  remoteKey : BitVec 32
deriving DecidableEq, Repr

def TranslatedPageFragment.header (page : TranslatedPageFragment) : MessageHeader :=
  ⟨page.requestId, page.qpn, page.slotId, page.debugSeq, page.pmtu, page.startPsn, page.psnCount,
    page.messageLength, page.remoteKey⟩

def TxDmaReadRequest.header (r : TxDmaReadRequest) : MessageHeader :=
  ⟨r.requestId, r.qpn, r.slotId, r.debugSeq, r.pmtu, r.startPsn, r.psnCount, r.messageLength,
    r.remoteKey⟩

namespace ParsedTxRequest

def header (p : ParsedTxRequest) : MessageHeader :=
  ⟨p.requestId, p.qpn, p.slotId, p.debugSeq, p.pmtu, p.startPsn, p.psnCount, p.len, p.remoteKey⟩

/-- The virtual address of a byte of the message. -/
def va (p : ParsedTxRequest) (offset : ℕ) : ℕ := p.localVa.toNat + offset

def pageSize (p : ParsedTxRequest) : ℕ := (txPageBytes p.pageShift).toNat

/-- The place in the page table of the page of an address. -/
def pteOf (p : ParsedTxRequest) (v : ℕ) : ℕ :=
  p.pgtOffset.toNat + (v / p.pageSize - p.mrBaseVa.toNat / p.pageSize)

/-- What translation needs to know of a message. -/
structure Sound (p : ParsedTxRequest) : Prop where
  pages : p.pageShift = 12 ∨ p.pageShift = 21
  base : p.mrBaseVa.toNat ≤ p.localVa.toNat
  pos : 0 < p.len.toNat
  le : p.len.toNat ≤ 2 ^ 24
  remote : p.remoteAddr.toNat + p.len.toNat ≤ 2 ^ 64

end ParsedTxRequest

lemma ParsedSpec.sound {h : MvpHistory} {j : ℕ} {p : ParsedTxRequest} (hs : ParsedSpec h j p) :
    p.Sound := by
  obtain ⟨a, mr, ⟨id, resp, rfl⟩, hregion, -⟩ := hs.region
  refine ⟨?_, ?_, hs.pos, hs.le, hs.remote⟩
  · simp only [ProcessSubmission.parse, hregion.pageShift]
    exact hregion.pages
  · simp only [ProcessSubmission.parse, hregion.localVa, hregion.baseVa]
    omega

/-! ## Places -/

/-- A place in the stream of messages: a message, a byte of it, and the number of pages before. -/
structure Cursor where
  message : ℕ
  offset : ℕ
  page : ℕ
deriving DecidableEq, Repr

namespace Cursor

def start : Cursor := ⟨0, 0, 0⟩

/-- The place some bytes further on.  After the last byte of a message comes the next message, and a
page ends where its bytes or those of the message end. -/
def next (c : Cursor) (p : ParsedTxRequest) (len : ℕ) : Cursor :=
  if c.offset + len = p.len.toNat then ⟨c.message + 1, 0, c.page + 1⟩
  else if p.va (c.offset + len) % p.pageSize = 0 then ⟨c.message, c.offset + len, c.page + 1⟩
  else ⟨c.message, c.offset + len, c.page⟩

end Cursor

/-- The answer of the page table for a page assigns an address to a virtual one. -/
structure Assigns (a : PgtQueryResp) (p : ParsedTxRequest) (v x : ℕ) : Prop where
  valid : a.entry.valid = true
  index : a.pteIndex.toNat = p.pteOf v
  address : x = a.entry.physicalPageBase.toNat + v % p.pageSize

/-- A page fragment of a message. -/
structure PageOf (p : ParsedTxRequest) (a : PgtQueryResp) (offset : ℕ)
    (page : TranslatedPageFragment) :
    Prop where
  pos : 0 < page.len.toNat
  fits : offset + page.len.toNat ≤ p.len.toNat
  inPage : p.va offset % p.pageSize + page.len.toNat ≤ p.pageSize
  ends : offset + page.len.toNat = p.len.toNat ∨ p.va (offset + page.len.toNat) % p.pageSize = 0
  bounded : p.va offset < 2 ^ 64
  assigns : Assigns a p (p.va offset) page.physicalAddr.toNat
  index : a.pteIndex.toNat < 128
  aligned : a.entry.physicalPageBase.toNat % p.pageSize = 0
  remote : page.remoteAddr.toNat = p.remoteAddr.toNat + offset
  isFirst : page.isFirst = decide (offset = 0)
  isLast : page.isLast = decide (offset + page.len.toNat = p.len.toNat)
  header : page.header = p.header

/-- A burst of a message. -/
structure Reads (p : ParsedTxRequest) (a : PgtQueryResp) (offset seq : ℕ) (r : TxDmaReadRequest) :
    Prop where
  pos : 1 ≤ r.len.toNat
  le : r.len.toNat ≤ 1024
  fits : offset + r.len.toNat ≤ p.len.toNat
  boundary : r.physicalAddr.toNat % 4096 + r.len.toNat ≤ 4096
  bytes : ∀ b < r.len.toNat, Assigns a p (p.va (offset + b)) (r.physicalAddr.toNat + b)
  remote : r.remoteAddr.toNat = p.remoteAddr.toNat + offset
  dmaSeq : r.dmaSeq.toNat = seq
  isFirst : r.isFirst = decide (offset = 0)
  isLast : r.isLast = decide (offset + r.len.toNat = p.len.toNat)
  header : r.header = p.header

/-- A page fragment moves the cursor of the pages. -/
def PageAt (h : MvpHistory) (c : Cursor) (page : TranslatedPageFragment) (c' : Cursor) : Prop :=
  ∃ p a, h.parsed[c.message]? = some p ∧ h.pgtAnswers[c.page]? = some a ∧ PageOf p a c.offset page ∧
    c' = c.next p page.len.toNat

/-- A burst moves the cursor of the bursts, and is counted. -/
def BurstAt (h : MvpHistory) (x : Cursor × ℕ) (r : TxDmaReadRequest) (y : Cursor × ℕ) : Prop :=
  ∃ p a, h.parsed[x.1.message]? = some p ∧ h.pgtAnswers[x.1.page]? = some a ∧
    Reads p a x.1.offset x.2 r ∧ y.1 = x.1.next p r.len.toNat ∧
    y.2 = if r.isLast then 0 else x.2 + 1

/-! ## Translating a page -/

section Page

variable {p : ParsedTxRequest} (hp : p.Sound)

include hp

lemma pageSize_cases : p.pageSize = 4096 ∨ p.pageSize = 2097152 := by
  unfold ParsedTxRequest.pageSize
  rcases hp.pages with h | h
  · left; rw [h]; rfl
  · right; rw [h]; rfl

lemma pageMask (x : BitVec 64) :
    (x &&& (txPageBytes p.pageShift - 1)).toNat = x.toNat % p.pageSize := by
  unfold ParsedTxRequest.pageSize
  rcases hp.pages with h | h <;> rw [h, BitVec.toNat_and]
  · exact Nat.and_two_pow_sub_one_eq_mod x.toNat 12
  · exact Nat.and_two_pow_sub_one_eq_mod x.toNat 21

lemma pageIndex (x : BitVec 64) : (x >>> p.pageShift.toNat).toNat = x.toNat / p.pageSize := by
  unfold ParsedTxRequest.pageSize
  rw [BitVec.toNat_ushiftRight, Nat.shiftRight_eq_div_pow]
  rcases hp.pages with h | h <;> rw [h] <;> rfl

/-- How far the pages of a message have been translated. -/
structure Reached (p : ParsedTxRequest) (offset : ℕ) : Prop where
  lt : offset < p.len.toNat
  boundary : offset ≠ 0 → p.va offset % p.pageSize = 0
  bounded : p.va offset ≤ 2 ^ 64
  previous : offset ≠ 0 → p.pteOf (p.va offset - 1) < 128

variable {done : TxLength} (hr : Reached p done.toNat)

include hr

/-- **A page that is answered for is not beyond the end of the address space.** -/
lemma fragment_index (hlt : (AddressTranslator.fragment p done).pteIndex.toNat < 128) :
    p.va done.toNat < 2 ^ 64 ∧
    (AddressTranslator.fragment p done).pteIndex.toNat = p.pteOf (p.va done.toNat) := by
  have hb := hp.base
  have h25 := done.isLt
  have hva := p.localVa.isLt
  have hbase := p.mrBaseVa.isLt
  have hpgt := p.pgtOffset.isLt
  have hbound := hr.bounded
  have hprev := hr.previous
  have hd : (done.setWidth 64).toNat = done.toNat := by
    rw [BitVec.toNat_setWidth]
    omega
  simp only [AddressTranslator.fragment, BitVec.toNat_add, BitVec.toNat_sub, BitVec.toNat_setWidth,
    pageIndex hp, ParsedTxRequest.pteOf, ParsedTxRequest.va] at hlt hprev hbound ⊢
  rcases pageSize_cases hp with h | h <;> rw [h] at hlt hprev ⊢ <;> omega

lemma fragmentWide_toNat :
    (AddressTranslator.fragmentWide p done).toNat =
      min (p.len.toNat - done.toNat) (p.pageSize - p.va done.toNat % p.pageSize) := by
  have h25 := done.isLt
  have hl := p.len.isLt
  have hlt := hr.lt
  have hbound := hr.bounded
  have hrem :
      (p.len.setWidth 64 - done.setWidth 64 : BitVec 64).toNat = p.len.toNat - done.toNat := by
    simp only [BitVec.toNat_sub, BitVec.toNat_setWidth]
    omega
  have hend : (txPageBytes p.pageShift - ((p.localVa + done.setWidth 64) &&&
      (txPageBytes p.pageShift - 1))).toNat = p.pageSize - p.va done.toNat % p.pageSize := by
    have hsize : (txPageBytes p.pageShift).toNat = p.pageSize := rfl
    rw [BitVec.toNat_sub, pageMask hp, hsize]
    simp only [BitVec.toNat_add, BitVec.toNat_setWidth, ParsedTxRequest.va] at hbound ⊢
    rcases pageSize_cases hp with h | h <;> rw [h] <;> omega
  unfold AddressTranslator.fragmentWide
  dsimp only
  rw [toNat_smaller, hrem, hend]

/-- **The answer of the page table makes the pending fragment a page fragment of the message.** -/
theorem translated_pageOf {resp : PgtQueryResp} (hlt : resp.pteIndex.toNat < 128)
    (ht : AddressTranslator.translates (AddressTranslator.fragment p done) resp = true) :
    PageOf p resp done.toNat
      (AddressTranslator.translated (AddressTranslator.fragment p done) resp.entry) := by
  simp only [AddressTranslator.translates, Bool.and_eq_true, decide_eq_true_eq,
    Bool.not_eq_true'] at ht
  obtain ⟨⟨⟨hindex, hvalid⟩, haligned⟩, hphys⟩ := ht
  have haligned' : resp.entry.physicalPageBase.toNat % p.pageSize = 0 := by
    rw [← pageMask hp]
    exact congrArg BitVec.toNat haligned
  obtain ⟨hva, hpte⟩ := fragment_index hp hr (by rw [← hindex]; exact hlt)
  have hwide := fragmentWide_toNat hp hr
  have hoff := hr.lt
  have hle := hp.le
  have hrem := hp.remote
  have hmod : p.va done.toNat % p.pageSize < p.pageSize :=
    Nat.mod_lt _ (by rcases pageSize_cases hp with h | h <;> omega)
  have hsize : p.pageSize ≤ 2097152 := by rcases pageSize_cases hp with h | h <;> omega
  have hlen : ((AddressTranslator.fragmentWide p done).setWidth 25).toNat =
      min (p.len.toNat - done.toNat) (p.pageSize - p.va done.toNat % p.pageSize) := by
    rw [BitVec.toNat_setWidth, hwide]
    omega
  have hpage : ((p.localVa + done.setWidth 64) &&& (txPageBytes p.pageShift - 1)).toNat =
      p.va done.toNat % p.pageSize := by
    have h25 := done.isLt
    rw [pageMask hp, BitVec.toNat_add, BitVec.toNat_setWidth]
    congr 1
    simp only [ParsedTxRequest.va] at hva ⊢
    omega
  have hbase := resp.entry.physicalPageBase.isLt
  simp only [AddressTranslator.physicalWide, AddressTranslator.fragment, BitVec.msb_eq_decide,
    decide_eq_false_iff_not, BitVec.toNat_add, BitVec.toNat_setWidth, hpage] at hphys
  refine ⟨?_, ?_, ?_, ?_, hva, ⟨hvalid, hindex ▸ hpte, ?_⟩, hlt, haligned', ?_, ?_, ?_, rfl⟩ <;>
    simp only [AddressTranslator.translated, AddressTranslator.fragment, hlen]
  · omega
  · omega
  · omega
  · -- the fragment ends where the message or the page does
    simp only [ParsedTxRequest.va] at hmod ⊢
    rcases pageSize_cases hp with h | h <;> rw [h] at hmod ⊢ <;> omega
  · simp only [AddressTranslator.physicalWide, BitVec.toNat_add, BitVec.toNat_setWidth, hpage]
    omega
  · have h25 := done.isLt
    simp only [BitVec.toNat_add, BitVec.toNat_setWidth]
    omega
  · refine decide_eq_decide.2 ⟨fun h => by rw [h]; rfl, fun h => BitVec.eq_of_toNat_eq h⟩
  · have h25 := done.isLt
    have hrem64 : (p.len.setWidth 64 - done.setWidth 64 : BitVec 64).toNat =
        p.len.toNat - done.toNat := by
      simp only [BitVec.toNat_sub, BitVec.toNat_setWidth]
      omega
    rw [decide_eq_decide, ← BitVec.toNat_inj, hwide, hrem64]
    omega

end Page

section Burst

variable {p : ParsedTxRequest} {a : PgtQueryResp} {offset : ℕ} {page : TranslatedPageFragment}

/-- After a page fragment the cursor is at the next page, or at the next message. -/
lemma PageOf.next_page (hpage : PageOf p a offset page) (j k : ℕ) :
    (⟨j, offset, k⟩ : Cursor).next p page.len.toNat =
      if offset + page.len.toNat = p.len.toNat then ⟨j + 1, 0, k + 1⟩
      else ⟨j, offset + page.len.toNat, k + 1⟩ := by
  unfold Cursor.next
  split
  · rfl
  · rename_i hne
    exact if_pos (hpage.ends.resolve_left hne)

/-- If the message goes on, its next page is reached. -/
lemma PageOf.reached (hp : p.Sound) (hpage : PageOf p a offset page)
    (hne : offset + page.len.toNat ≠ p.len.toNat) : Reached p (offset + page.len.toNat) := by
  have hfits := hpage.fits
  have hpos := hpage.pos
  have hin := hpage.inPage
  have hb := hpage.bounded
  have hindex := hpage.index
  rw [hpage.assigns.index] at hindex
  refine ⟨by omega, fun _ => hpage.ends.resolve_left hne, ?_, fun _ => ?_⟩
  · simp only [ParsedTxRequest.va] at hin hb ⊢
    rcases pageSize_cases hp with h | h <;> rw [h] at hin <;> omega
  · simp only [ParsedTxRequest.pteOf, ParsedTxRequest.va] at hin hb hindex ⊢
    rcases pageSize_cases hp with h | h <;> rw [h] at hin hindex ⊢ <;> omega

/-- How many bursts of a message there have been: at most one for each 1024 bytes that have been
passed. -/
structure Counted (p : ParsedTxRequest) (offset seq : ℕ) : Prop where
  zero : offset = 0 ↔ seq = 0
  le : seq + p.localVa.toNat / 1024 ≤ p.va offset / 1024

variable {b : PhysicalDmaBurstSplitter} (hp : p.Sound) (hpage : PageOf p a offset page)
  (hlt : b.pageConsumed.toNat < page.len.toNat)

include hp hpage hlt

omit hp hpage in
lemma remaining_toNat : (b.remaining page).toNat = page.len.toNat - b.pageConsumed.toNat := by
  have h1 := page.len.isLt
  have h2 := b.pageConsumed.isLt
  simp only [PhysicalDmaBurstSplitter.remaining, BitVec.toNat_sub, BitVec.toNat_setWidth]
  omega

lemma burst_physical : (page.physicalAddr + b.pageConsumed.setWidth 64).toNat =
      page.physicalAddr.toNat + b.pageConsumed.toNat ∧
    (page.physicalAddr.toNat + b.pageConsumed.toNat) % 4096 =
      p.va (offset + b.pageConsumed.toNat) % 4096 := by
  have hin := hpage.inPage
  have haddr := hpage.assigns.address
  have hal := hpage.aligned
  have h2 := b.pageConsumed.isLt
  have hbase := a.entry.physicalPageBase.isLt
  simp only [BitVec.toNat_add, BitVec.toNat_setWidth, ParsedTxRequest.va] at hin haddr ⊢
  rcases pageSize_cases hp with h | h <;> rw [h] at hin haddr hal <;> omega

/-- The length of a burst, from the virtual address. -/
lemma boundedBurstWide_toNat : (b.boundedBurstWide page).toNat =
    min (page.len.toNat - b.pageConsumed.toNat)
      (min 1024 (4096 - p.va (offset + b.pageConsumed.toNat) % 4096)) := by
  have hrem := remaining_toNat hlt
  obtain ⟨hphys, hmod⟩ := burst_physical hp hpage hlt
  have hbound :
    (4096 - ((page.physicalAddr + b.pageConsumed.setWidth 64).extractLsb' 0 12).setWidth 64 :
      BitVec 64).toNat = 4096 - p.va (offset + b.pageConsumed.toNat) % 4096 := by
    rw [← hmod, BitVec.toNat_sub, BitVec.toNat_setWidth, BitVec.extractLsb'_toNat, hphys,
      Nat.shiftRight_zero]
    simp only [BitVec.ofNat_eq_ofNat, BitVec.toNat_ofNat]
    omega
  have h1024 : (1024 : BitVec 64).toNat = 1024 := rfl
  unfold PhysicalDmaBurstSplitter.boundedBurstWide
  dsimp only
  rw [toNat_smaller, toNat_smaller, hbound, hrem, h1024, min_assoc]

lemma request_len : ((b.request page).len).toNat = (b.boundedBurstWide page).toNat := by
  have h := boundedBurstWide_toNat hp hpage hlt
  simp only [PhysicalDmaBurstSplitter.request, BitVec.toNat_setWidth]
  omega

lemma pageFinished_iff : b.pageFinished page = true ↔
    b.pageConsumed.toNat + ((b.request page).len).toNat = page.len.toNat := by
  rw [request_len hp hpage hlt, PhysicalDmaBurstSplitter.pageFinished, decide_eq_true_eq,
    ← BitVec.toNat_inj, remaining_toNat hlt]
  omega

variable {seq : ℕ} (hseq : Counted p (offset + b.pageConsumed.toNat) seq)
  (hdma : b.nextDmaSeq.toNat = seq)

include hseq hdma

omit hseq in
/-- **A burst of a page fragment reads the next bytes of the message.** -/
theorem request_reads : Reads p a (offset + b.pageConsumed.toNat) seq (b.request page) := by
  have hlen := request_len hp hpage hlt
  have hburst := boundedBurstWide_toNat hp hpage hlt
  obtain ⟨hphys, hmod⟩ := burst_physical hp hpage hlt
  have hfin := pageFinished_iff hp hpage hlt
  have hfits := hpage.fits
  have hremote := hpage.remote
  have hrange := hp.remote
  have h25 := b.pageConsumed.isLt
  have hphys' : (b.request page).physicalAddr.toNat =
    page.physicalAddr.toNat + b.pageConsumed.toNat := hphys
  refine ⟨?_, ?_, ?_, ?_, ?_, ?_, hdma, ?_, ?_, hpage.header⟩
  · rw [hlen, hburst]
    omega
  · rw [hlen, hburst]
    omega
  · rw [hlen, hburst]
    omega
  · rw [hphys', hmod, hlen, hburst]
    omega
  · intro i hi
    rw [hlen, hburst] at hi
    have hin := hpage.inPage
    have haddr := hpage.assigns.address
    have hindex := hpage.assigns.index
    refine ⟨hpage.assigns.valid, ?_, ?_⟩
    · rw [hindex]
      simp only [ParsedTxRequest.pteOf, ParsedTxRequest.va] at hin ⊢
      rcases pageSize_cases hp with h | h <;> rw [h] at hin ⊢ <;> omega
    · rw [hphys', haddr]
      simp only [ParsedTxRequest.va] at hin ⊢
      rcases pageSize_cases hp with h | h <;> rw [h] at hin ⊢ <;> omega
  · simp only [PhysicalDmaBurstSplitter.request, BitVec.toNat_add, BitVec.toNat_setWidth, hremote]
    omega
  · have hz : (b.pageConsumed = 0) ↔ b.pageConsumed.toNat = 0 :=
      ⟨fun h => by rw [h]; rfl, fun h => BitVec.eq_of_toNat_eq h⟩
    simp only [PhysicalDmaBurstSplitter.request, hpage.isFirst]
    rw [← Bool.decide_and, decide_eq_decide, hz]
    omega
  · have hl : (b.request page).isLast = (page.isLast && b.pageFinished page) := rfl
    rw [hl, hpage.isLast, Bool.eq_iff_iff, Bool.and_eq_true, hfin, decide_eq_true_eq,
      decide_eq_true_eq]
    have := hpage.pos
    rw [hlen, hburst]
    omega

/-- The bursts stay counted. -/
lemma request_counted
    (hne : offset + b.pageConsumed.toNat + ((b.request page).len).toNat ≠ p.len.toNat) :
    Counted p (offset + b.pageConsumed.toNat + ((b.request page).len).toNat) (seq + 1) := by
  have hlen := request_len hp hpage hlt
  have hburst := boundedBurstWide_toNat hp hpage hlt
  have hends := hpage.ends
  have hin := hpage.inPage
  have hle := hseq.le
  refine ⟨by omega, ?_⟩
  rw [hlen, hburst] at hne ⊢
  simp only [ParsedTxRequest.va] at hends hin hle hne ⊢
  rcases pageSize_cases hp with h | h <;> rw [h] at hends hin <;> omega

omit hseq hdma in
/-- Inside a page fragment the cursor stays on its page. -/
lemma next_inside (hne : b.pageConsumed.toNat + ((b.request page).len).toNat ≠ page.len.toNat)
    (j k : ℕ) :
    (⟨j, offset + b.pageConsumed.toNat, k⟩ : Cursor).next p ((b.request page).len).toNat =
      ⟨j, offset + (b.pageConsumed.toNat + ((b.request page).len).toNat), k⟩ := by
  have hlen := request_len hp hpage hlt
  have hburst := boundedBurstWide_toNat hp hpage hlt
  have hfits := hpage.fits
  have hin := hpage.inPage
  unfold Cursor.next
  rw [if_neg (by dsimp only; omega), if_neg, Nat.add_assoc]
  simp only [ParsedTxRequest.va] at hin hburst ⊢
  rcases pageSize_cases hp with h | h <;> rw [h] at hin ⊢ <;> omega

omit hdma hpage hlt in
/-- The count of bursts fits its width. -/
lemma seq_lt (hoff : offset + b.pageConsumed.toNat < p.len.toNat) : seq + 1 < 2 ^ 16 := by
  have hle := hseq.le
  have h24 := hp.le
  simp only [ParsedTxRequest.va] at hle
  omega

end Burst

end Mvp

end OpenRdma
