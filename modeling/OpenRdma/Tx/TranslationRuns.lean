import OpenRdma.Tx.Translation

/-!
# What a run of the pipeline reads

The translator and the splitter each have a cursor, and the page fragments between them are a trail
from the one to the other.  In every run the requests that were handed out, and those that wait to
be, are a trail from the beginning: they read the messages one after the other, each from its first
byte to its last.

* **`translation_exact`** — what every run reads.
-/

namespace OpenRdma

namespace Mvp

/-! ## The rules of the two loops -/

namespace AddressTranslator

variable {a a' : AddressTranslator}

/-- A page is asked for, and the cursor moves on. -/
lemma issuePgtQuery_eq_some (h : a.issuePgtQuery = some a') :
    ∃ p q r, a.parsedQ.elems.head? = some p ∧ a.pendingQ.enq (fragment p a.translatedBytes) =
      some q ∧ a' = { a with pendingQ := q, pgtReqQ := r } := by
  obtain ⟨p, hp, h⟩ := bind_eq_some.1 h
  obtain ⟨-, h⟩ := guard_bind_eq_some.1 h
  obtain ⟨-, h⟩ := guard_bind_eq_some.1 h
  obtain ⟨q, hq, h⟩ := bind_eq_some.1 h
  obtain ⟨r, -, h⟩ := bind_eq_some.1 h
  exact ⟨p, q, r, hp, hq, (Option.some.inj h).symm⟩

/-- A page arrives, and is checked. -/
lemma completePgtQuery_eq_some (h : a.completePgtQuery = some a') :
    ∃ f resp q r s, a.pendingQ.deq = some (f, q) ∧ a.pgtRespQ.deq = some (resp, r) ∧
      translates f resp = true ∧ a.pageQ.enq (translated f resp.entry) = some s ∧
      ((f.isLast = true ∧ ∃ p t, a.parsedQ.deq = some (p, t) ∧
          a' = { a with
            pendingQ := q, pgtRespQ := r, pageQ := s, parsedQ := t, translatedBytes := 0 }) ∨
        f.isLast = false ∧
          a' = { a with
            pendingQ := q, pgtRespQ := r, pageQ := s
            translatedBytes := a.translatedBytes + f.fragmentLen }) := by
  obtain ⟨⟨f, q⟩, hq, h⟩ := bind_eq_some.1 h
  obtain ⟨⟨resp, r⟩, hr, h⟩ := bind_eq_some.1 h
  obtain ⟨ht, h⟩ := guard_bind_eq_some.1 h
  obtain ⟨s, hs, h⟩ := bind_eq_some.1 h
  refine ⟨f, resp, q, r, s, hq, hr, ht, hs, ?_⟩
  dsimp only at h
  split at h
  · rename_i hlast
    obtain ⟨⟨p, t⟩, hp, h⟩ := bind_eq_some.1 h
    exact .inl ⟨hlast, p, t, hp, (Option.some.inj h).symm⟩
  · rename_i hlast
    exact .inr ⟨Bool.eq_false_of_not_eq_true hlast, (Option.some.inj h).symm⟩

end AddressTranslator

/-- A burst goes out, and the cursor moves on. -/
lemma PhysicalDmaBurstSplitter.emitBurst_eq_some {b b' : PhysicalDmaBurstSplitter}
    (h : b.emitBurst = some b') :
    ∃ page q d, b.pageQ.deq = some (page, q) ∧ b.dmaQ.enq (b.request page) = some d ∧
      b' = { b with
        dmaQ := d
        pageConsumed := if b.pageFinished page then 0 else b.pageConsumed + (b.request page).len
        nextDmaSeq := if (b.request page).isLast then 0 else b.nextDmaSeq + 1
        pageQ := if b.pageFinished page then q else b.pageQ } := by
  obtain ⟨⟨page, q⟩, hq, h⟩ := bind_eq_some.1 h
  obtain ⟨-, h⟩ := guard_bind_eq_some.1 h
  obtain ⟨-, h⟩ := guard_bind_eq_some.1 h
  obtain ⟨-, h⟩ := guard_bind_eq_some.1 h
  obtain ⟨d, hd, h⟩ := bind_eq_some.1 h
  exact ⟨page, q, d, hq, hd, (Option.some.inj h).symm⟩

/-! ## The cursors -/

/-- What was logged stays logged. -/
structure Extends (h h' : MvpHistory) : Prop where
  parsed : ∀ {j : ℕ} {p}, h.parsed[j]? = some p → h'.parsed[j]? = some p
  pgtAnswers : ∀ {k : ℕ} {a}, h.pgtAnswers[k]? = some a → h'.pgtAnswers[k]? = some a

lemma getElem?_append_of_some {α : Type} {l : List α} {j : ℕ} {a : α} (h : l[j]? = some a)
    (l' : List α) : (l ++ l')[j]? = some a := by
  rw [List.getElem?_append_left (List.getElem?_eq_some_iff.1 h).1, h]

/-- A page is where it was. -/
lemma PageAt.extends {h h' : MvpHistory} (he : Extends h h') {c c' : Cursor}
    {page : TranslatedPageFragment} (hpage : PageAt h c page c') : PageAt h' c page c' := by
  obtain ⟨p, a, hp, ha, hrest⟩ := hpage
  exact ⟨p, a, he.parsed hp, he.pgtAnswers ha, hrest⟩

/-- A burst is where it was. -/
lemma BurstAt.extends {h h' : MvpHistory} (he : Extends h h') {x y : Cursor × ℕ}
    {r : TxDmaReadRequest} (hburst : BurstAt h x r y) : BurstAt h' x r y := by
  obtain ⟨p, a, hp, ha, hrest⟩ := hburst
  exact ⟨p, a, he.parsed hp, he.pgtAnswers ha, hrest⟩

/-- The cursor `t` of the translator and the cursor `c` of the page that is being read. -/
structure TranslationInv (m : TxMvp) (h : MvpHistory) (t c : Cursor) (seq : ℕ) : Prop where
  waiting : Past t.message h.parsed (m.translator.parsedQ.elems ++ m.processor.parsedQ.elems)
  offset : m.translator.translatedBytes.toNat = t.offset
  reached : t.offset = 0 ∨ ∃ p, h.parsed[t.message]? = some p ∧ Reached p t.offset
  pending : ∀ f ∈ m.translator.pendingQ.elems, ∃ p, m.translator.parsedQ.elems.head? = some p ∧
    f = AddressTranslator.fragment p m.translator.translatedBytes
  answers : Past t.page h.pgtAnswers (m.translator.pgtRespQ.elems ++ m.pgtTable.queryRespQ.elems)
  answered : ∀ a ∈ h.pgtAnswers, a.pteIndex.toNat < 128
  pages : Trail (PageAt h) c (m.burstSplitter.pageQ.elems ++ m.translator.pageQ.elems) t
  consumed : m.burstSplitter.pageConsumed.toNat ≠ 0 → ∃ page rest,
    m.burstSplitter.pageQ.elems = page :: rest ∧ m.burstSplitter.pageConsumed.toNat < page.len.toNat
  dmaSeq : m.burstSplitter.nextDmaSeq.toNat = seq
  counted : (c.offset + m.burstSplitter.pageConsumed.toNat = 0 ∧ seq = 0) ∨
    ∃ p, h.parsed[c.message]? = some p ∧
    Counted p (c.offset + m.burstSplitter.pageConsumed.toNat) seq
  bursts : Trail (BurstAt h) (.start, 0) (h.requests ++ m.burstSplitter.dmaQ.elems)
    (⟨c.message, c.offset + m.burstSplitter.pageConsumed.toNat, c.page⟩, seq)

namespace TranslationInv

variable {m m' : TxMvp} {h h' : MvpHistory} {t c : Cursor} {seq : ℕ}

lemma initial : TranslationInv .initial .initial .start .start 0 where
  waiting := past_zero
  offset := rfl
  reached := .inl rfl
  pending := nofun
  answers := past_zero
  answered := nofun
  pages := rfl
  consumed := fun h => absurd rfl h
  dmaSeq := rfl
  counted := .inl ⟨rfl, rfl⟩
  bursts := rfl

variable (hi : TranslationInv m h t c seq)

include hi

/-- A connection moves what is between two stages. -/
lemma connect {x : MvpConnection} (hs : m.connect x = some m') : TranslationInv m' h t c seq := by
  cases x <;> obtain ⟨⟨q, r⟩, hmove, hs⟩ := bind_eq_some.1 hs <;>
    cases hs
  case parsed =>
      exact { hi with
        waiting := by
          rw [Fifo.move_elems hmove]
          exact hi.waiting
        pending := by
          intro f hf
          obtain ⟨p, hp, rfl⟩ := hi.pending f hf
          obtain ⟨x, -, hr⟩ := Fifo.move_eq_some hmove
          refine ⟨p, ?_, rfl⟩
          dsimp only
          rw [hr, List.head?_append, hp]
          rfl }
  case pgtResponse =>
      exact { hi with
        answers := by
          rw [Fifo.move_elems hmove]
          exact hi.answers }
  case page =>
      exact { hi with
        pages := by
          rw [Fifo.move_elems hmove]
          exact hi.pages
        consumed := by
          intro hne
          obtain ⟨page, rest, hpage, hlt⟩ := hi.consumed hne
          obtain ⟨x, -, hr⟩ := Fifo.move_eq_some hmove
          exact ⟨page, rest ++ [x], by rw [hr, hpage]; rfl, hlt⟩ }
  all_goals exact { hi with }

/-- The logs grow, and nothing else that the cursors depend on changes. -/
lemma extend (he : Extends h h')
    (hparsed : Past t.message h'.parsed (m'.translator.parsedQ.elems ++ m'.processor.parsedQ.elems))
    (hanswers : Past t.page h'.pgtAnswers
      (m'.translator.pgtRespQ.elems ++ m'.pgtTable.queryRespQ.elems))
    (hanswered : ∀ a ∈ h'.pgtAnswers, a.pteIndex.toNat < 128) (hrequests : h'.requests = h.requests)
    (htranslator : m'.translator = m.translator) (hsplitter : m'.burstSplitter = m.burstSplitter) :
    TranslationInv m' h' t c seq where
  waiting := hparsed
  offset := by rw [htranslator, hi.offset]
  reached := hi.reached.imp_right fun ⟨p, hp, hr⟩ => ⟨p, he.parsed hp, hr⟩
  pending := by
    rw [htranslator]
    exact hi.pending
  answers := hanswers
  answered := hanswered
  pages := by
    rw [htranslator, hsplitter]
    exact hi.pages.mono fun _ _ _ => PageAt.extends he
  consumed := by
    rw [hsplitter]
    exact hi.consumed
  dmaSeq := by rw [hsplitter, hi.dmaSeq]
  counted := by
    rw [hsplitter]
    exact hi.counted.imp_right fun ⟨p, hp, hc⟩ => ⟨p, he.parsed hp, hc⟩
  bursts := by
    rw [hsplitter, hrequests]
    exact hi.bursts.mono fun _ _ _ => BurstAt.extends he

/-- A parsed request is waiting to be translated. -/
lemma completeQpReserve (hs : m.step .completeQpReserve = some m') :
    TranslationInv m' (m.observe .completeQpReserve h) t c seq := by
  obtain ⟨f, hf, rfl⟩ := Option.map_eq_some_iff.1 hs
  obtain ⟨a, resp, q, r, s, hq, hr, hs', rfl⟩ := ProcessSubmission.completeQpReserve_eq_some hf
  rw [TxMvp.observe_completeQpReserve hq hr]
  refine hi.extend ⟨fun hp => getElem?_append_of_some hp _, fun ha => ha⟩ ?_ hi.answers hi.answered
    rfl rfl rfl
  dsimp only
  rw [Fifo.enq_eq_some hs', ← List.append_assoc]
  exact hi.waiting.push _

/-- A page is answered. -/
lemma pgtHandleQuery (hs : m.step .pgtHandleQuery = some m') :
    TranslationInv m' (m.observe .pgtHandleQuery h) t c seq := by
  obtain ⟨f, hf, rfl⟩ := Option.map_eq_some_iff.1 hs
  obtain ⟨req, resp, hreq, hanswer, hresp⟩ := LookupTable.handleQuery_eq_some hf
  have hobs : m.observe .pgtHandleQuery h = { h with pgtAnswers := h.pgtAnswers ++ [resp] } := by
    simp [TxMvp.observe, Fifo.first, hreq, hanswer]
  have hlt : resp.pteIndex.toNat < 128 := by
    obtain ⟨hlt, hanswer⟩ := guard_bind_eq_some.1 hanswer
    obtain ⟨-, hanswer⟩ := guard_bind_eq_some.1 hanswer
    cases hanswer
    exact hlt
  rw [hobs]
  refine hi.extend ⟨fun hp => hp, fun ha => getElem?_append_of_some ha _⟩ hi.waiting ?_ ?_ rfl
    rfl rfl
  · dsimp only
    rw [hresp, ← List.append_assoc]
    exact hi.answers.push _
  · intro a ha
    rcases List.mem_append.1 ha with ha | ha
    · exact hi.answered a ha
    · rw [List.mem_singleton.1 ha]
      exact hlt

/-- A page is under way. -/
lemma issuePgtQuery (hs : m.step .issuePgtQuery = some m') : TranslationInv m' h t c seq := by
  obtain ⟨f, hf, rfl⟩ := Option.map_eq_some_iff.1 hs
  obtain ⟨p, q, r, hp, hq, rfl⟩ := AddressTranslator.issuePgtQuery_eq_some hf
  exact { hi with
    pending := by
      intro x hx
      dsimp only at hx
      rw [Fifo.enq_eq_some hq] at hx
      rcases List.mem_append.1 hx with hx | hx
      · exact hi.pending x hx
      · exact ⟨p, hp, List.mem_singleton.1 hx⟩ }

/-- **One page.**  The translator's cursor moves over the page fragment it puts out. -/
lemma completePgtQuery (hsound : ∀ {j : ℕ} {p}, h.parsed[j]? = some p → p.Sound)
    (hs : m.step .completePgtQuery = some m') : ∃ t', TranslationInv m' h t' c seq := by
  obtain ⟨a', ha', rfl⟩ := Option.map_eq_some_iff.1 hs
  obtain ⟨f, resp, q, r, s, hq, hr, ht, hpage, hcase⟩ :=
    AddressTranslator.completePgtQuery_eq_some ha'
  have hq' := Fifo.deq_eq_some hq
  obtain ⟨p, hp, rfl⟩ := hi.pending f (by rw [hq']; exact List.mem_cons_self)
  obtain ⟨rest, hrest⟩ : ∃ rest, m.translator.parsedQ.elems = p :: rest := by
    cases he : m.translator.parsedQ.elems with
    | nil => rw [he] at hp; cases hp
    | cons x rest => rw [he] at hp; cases hp; exact ⟨rest, rfl⟩
  have hwaiting := hi.waiting
  have hanswers := hi.answers
  rw [hrest, List.cons_append] at hwaiting
  rw [Fifo.deq_eq_some hr, List.cons_append] at hanswers
  have hmsg := hwaiting.get
  have hans := hanswers.get
  have hp := hsound hmsg
  have hempty : q.elems = [] := by
    have := m.translator.pendingQ.bounded
    rw [hq', List.length_cons] at this
    exact List.length_eq_zero_iff.1 (by omega)
  have hreached : Reached p m.translator.translatedBytes.toNat := by
    rw [hi.offset]
    rcases hi.reached with hz | ⟨p', hp', hr⟩
    · rw [hz]
      exact ⟨hp.pos, fun h => absurd rfl h, p.localVa.isLt.le, fun h => absurd rfl h⟩
    · rw [hmsg] at hp'
      cases hp'
      exact hr
  have hof := translated_pageOf hp hreached (hi.answered resp (List.mem_of_getElem? hans)) ht
  have hlen : (AddressTranslator.fragment p m.translator.translatedBytes).fragmentLen =
      (AddressTranslator.translated (AddressTranslator.fragment p m.translator.translatedBytes)
        resp.entry).len := rfl
  have hlast : (AddressTranslator.fragment p m.translator.translatedBytes).isLast =
      (AddressTranslator.translated (AddressTranslator.fragment p m.translator.translatedBytes)
        resp.entry).isLast := rfl
  rw [hi.offset] at hof
  rw [hlast] at hcase
  generalize AddressTranslator.translated
    (AddressTranslator.fragment p m.translator.translatedBytes) resp.entry = page at *
  have htrail : Trail (PageAt h) c (m.burstSplitter.pageQ.elems ++ s.elems)
      (t.next p page.len.toNat) := by
    rw [Fifo.enq_eq_some hpage, ← List.append_assoc]
    exact trail_concat.2 ⟨t, hi.pages, p, resp, hmsg, hans, hof, rfl⟩
  have hnext := hof.next_page t.message t.page
  refine ⟨t.next p page.len.toNat, ?_⟩
  rw [show t = ⟨t.message, t.offset, t.page⟩ from rfl, hnext] at htrail ⊢
  rcases hcase with ⟨hend, p', pq, hpq, rfl⟩ | ⟨hend, rfl⟩
  · rw [hof.isLast, decide_eq_true_eq] at hend
    rw [if_pos hend] at htrail ⊢
    have hpq' := Fifo.deq_eq_some hpq
    rw [hrest, List.cons.injEq] at hpq'
    exact { hi with
      waiting := by
        dsimp only
        rw [← hpq'.2]
        exact hwaiting.pop
      offset := rfl
      reached := .inl rfl
      pending := by simp [hempty]
      answers := hanswers.pop
      pages := htrail }
  · rw [hof.isLast, decide_eq_false_iff_not] at hend
    rw [if_neg hend] at htrail ⊢
    have hfits := hof.fits
    have hle := hp.le
    exact { hi with
      offset := by
        dsimp only
        rw [hlen, BitVec.toNat_add, hi.offset]
        omega
      reached := .inr ⟨p, hmsg, hof.reached hp hend⟩
      pending := by simp [hempty]
      answers := hanswers.pop
      pages := htrail }

/-- **One burst.**  The cursor of the bursts moves over the request that is emitted. -/
lemma emitBurst (hsound : ∀ {j : ℕ} {p}, h.parsed[j]? = some p → p.Sound)
    (hs : m.step .emitBurst = some m') : ∃ c' seq', TranslationInv m' h t c' seq' := by
  obtain ⟨b', hb', rfl⟩ := Option.map_eq_some_iff.1 hs
  obtain ⟨page, q, d, hq, hd, rfl⟩ := PhysicalDmaBurstSplitter.emitBurst_eq_some hb'
  have hq' := Fifo.deq_eq_some hq
  have hpages := hi.pages
  rw [hq', List.cons_append] at hpages
  obtain ⟨u, ⟨p, a, hmsg, hans, hof, rfl⟩, hrest⟩ := hpages
  have hp := hsound hmsg
  have hlt : m.burstSplitter.pageConsumed.toNat < page.len.toNat := by
    by_cases hz : m.burstSplitter.pageConsumed.toNat = 0
    · rw [hz]
      exact hof.pos
    · obtain ⟨page', rest, hpage', hlt⟩ := hi.consumed hz
      rw [hq', List.cons.injEq] at hpage'
      rw [hpage'.1]
      exact hlt
  have hcounted : Counted p (c.offset + m.burstSplitter.pageConsumed.toNat) seq := by
    rcases hi.counted with ⟨hz, rfl⟩ | ⟨p', hp', hc⟩
    · rw [hz]
      exact ⟨Iff.rfl, by simp [ParsedTxRequest.va]⟩
    · rw [hmsg] at hp'
      cases hp'
      exact hc
  have hreads := request_reads hp hof hlt hi.dmaSeq
  have hfin := pageFinished_iff hp hof hlt
  have hseq := seq_lt hp hcounted (by have := hof.fits; omega)
  have hfits := hreads.fits
  have hburst :
    ∀ x, x = (⟨c.message, c.offset + m.burstSplitter.pageConsumed.toNat, c.page⟩ : Cursor).next p
      (m.burstSplitter.request page).len.toNat → ∀ n,
      n = (if (m.burstSplitter.request page).isLast then 0 else seq + 1) →
      Trail (BurstAt h) (.start, 0) (h.requests ++ d.elems) (x, n) := by
    intro x hx n hn
    rw [Fifo.enq_eq_some hd, ← List.append_assoc]
    exact trail_concat.2 ⟨_, hi.bursts, p, a, hmsg, hans, hreads, hx, hn⟩
  have hdma : (if (m.burstSplitter.request page).isLast then 0
      else m.burstSplitter.nextDmaSeq + 1 : TxDmaSeq).toNat =
      if (m.burstSplitter.request page).isLast then 0 else seq + 1 := by
    split
    · rfl
    · rw [BitVec.toNat_add, hi.dmaSeq]
      simp only [BitVec.ofNat_eq_ofNat, BitVec.toNat_ofNat]
      omega
  by_cases hdone : m.burstSplitter.pageFinished page = true
  · -- the page is finished, and its end is where the cursor goes
    have hsum := hfin.1 hdone
    have hnext : c.next p page.len.toNat =
        (⟨c.message, c.offset + m.burstSplitter.pageConsumed.toNat, c.page⟩ : Cursor).next p
          (m.burstSplitter.request page).len.toNat := by
      simp only [Cursor.next, Nat.add_assoc, hsum]
    refine ⟨c.next p page.len.toNat,
      if (m.burstSplitter.request page).isLast then 0 else seq + 1, ?_⟩
    simp only [if_pos hdone]
    exact { hi with
      pages := hrest
      consumed := fun h => absurd rfl h
      dmaSeq := hdma
      counted := by
        show (c.next p page.len.toNat).offset + 0 = 0 ∧ _ ∨ ∃ p', _ ∧ Counted p' (_ + 0) _
        rw [hreads.isLast, Nat.add_assoc, hsum, show c = ⟨c.message, c.offset, c.page⟩ from rfl,
          hof.next_page]
        by_cases hend : c.offset + page.len.toNat = p.len.toNat
        · exact .inl (by simp [hend])
        · refine .inr ⟨p, ?_, ?_⟩
          · rw [if_neg hend]
            exact hmsg
          · have hc := request_counted hp hof hlt hcounted hi.dmaSeq
              (by rw [Nat.add_assoc, hsum]; exact hend)
            rw [Nat.add_assoc, hsum] at hc
            simpa [hend] using hc
      bursts := hburst _ hnext _ rfl }
  · have hne : m.burstSplitter.pageConsumed.toNat + (m.burstSplitter.request page).len.toNat ≠
        page.len.toNat := fun h => hdone (hfin.2 h)
    have hle : m.burstSplitter.pageConsumed.toNat + (m.burstSplitter.request page).len.toNat ≤
        page.len.toNat := by
      have h1 := request_len hp hof hlt
      have h2 := boundedBurstWide_toNat hp hof hlt
      omega
    have hsum : (m.burstSplitter.pageConsumed + (m.burstSplitter.request page).len).toNat =
        m.burstSplitter.pageConsumed.toNat + (m.burstSplitter.request page).len.toNat := by
      have := page.len.isLt
      rw [BitVec.toNat_add]
      omega
    have hmore : c.offset + m.burstSplitter.pageConsumed.toNat +
        (m.burstSplitter.request page).len.toNat ≠ p.len.toNat := by
      have := hof.fits
      omega
    have hlast : (m.burstSplitter.request page).isLast = false := by
      rw [hreads.isLast, decide_eq_false_iff_not]
      exact hmore
    simp only [hlast, Bool.false_eq_true, if_false] at hdma hburst
    refine ⟨c, seq + 1, ?_⟩
    simp only [if_neg hdone, hlast, Bool.false_eq_true, if_false]
    refine ⟨hi.waiting, hi.offset, hi.reached, hi.pending, hi.answers, hi.answered, hi.pages,
      fun _ => ⟨page, q.elems, hq', ?_⟩, hdma, .inr ⟨p, hmsg, ?_⟩, hburst _ ?_ _ rfl⟩ <;>
      dsimp only
    · rw [hsum]
      omega
    · rw [hsum, ← Nat.add_assoc]
      exact request_counted hp hof hlt hcounted hi.dmaSeq hmore
    · rw [next_inside hp hof hlt hne, hsum]

lemma config {req : MvpConfig}
    (hs : m.configRequest req = some m') : TranslationInv m' h t c seq := by
  obtain ⟨-, hs⟩ := guard_bind_eq_some.1 hs
  cases req <;> obtain ⟨q, -, hs⟩ := bind_eq_some.1 hs <;>
    cases hs <;>
    exact { hi with }

lemma configResponse {port : MvpPort}
    (hs : m.configResponse port = some m') : TranslationInv m' h t c seq := by
  obtain ⟨-, hs⟩ := guard_bind_eq_some.1 hs
  cases port <;> obtain ⟨⟨r, q⟩, -, hs⟩ := bind_eq_some.1 hs <;>
    cases hs <;> exact { hi with }

/-- A configuration moves no cursor. -/
lemma handleConfig {port : MvpPort} (hs : m.handleConfig port = some m') :
    TranslationInv m' (m.observe (.handleConfig port) h) t c seq := by
  cases port <;> obtain ⟨f, hf, rfl⟩ := Option.map_eq_some_iff.1 hs
  case qp =>
      obtain ⟨req, hq, -⟩ := QpState.handleConfig_eq_some hf
      rw [TxMvp.observe_handleConfig hq]
      exact { hi with }
  case pgt =>
      obtain ⟨-, hresp⟩ := LookupTable.handleConfig_queries hf
      exact { hi with
        answers := by
          dsimp only
          rw [hresp]
          exact hi.answers }
  all_goals exact { hi with }

/-- Every rule and method moves the cursors as it should. -/
lemma step (hsound : ∀ {j : ℕ} {p}, h.parsed[j]? = some p → p.Sound) {l : MvpLabel}
    (hs : m.step l = some m') : ∃ t' c' seq', TranslationInv m' (m.observe l h) t' c' seq' := by
  cases l with
  | submissionIn req =>
    obtain ⟨q, -, hs⟩ := bind_eq_some.1 hs
    cases hs
    exact ⟨t, c, seq, { hi with }⟩
  | configRequest req => exact ⟨t, c, seq, hi.config hs⟩
  | configResponse port => exact ⟨t, c, seq, hi.configResponse hs⟩
  | handleConfig port => exact ⟨t, c, seq, hi.handleConfig hs⟩
  | slotHandleQuery | mrHandleQuery | issueSlotQuery =>
    obtain ⟨f, -, rfl⟩ := Option.map_eq_some_iff.1 hs
    exact ⟨t, c, seq, { hi with }⟩
  | pgtHandleQuery => exact ⟨t, c, seq, hi.pgtHandleQuery hs⟩
  | handleReserve =>
    obtain ⟨f, hf, rfl⟩ := Option.map_eq_some_iff.1 hs
    obtain ⟨req, hreq, -⟩ := QpState.handleReserve_eq_some hf
    rw [TxMvp.observe_handleReserve hreq]
    exact ⟨t, c, seq, { hi with }⟩
  | completeSlotQuery =>
    obtain ⟨f, hf, rfl⟩ := Option.map_eq_some_iff.1 hs
    obtain ⟨req, resp, q, r, w, hq, hr, -⟩ := SubmissionFrontend.completeSlotQuery_eq_some hf
    rw [TxMvp.observe_completeSlotQuery hq hr]
    exact ⟨t, c, seq, { hi with }⟩
  | issueMrQuery =>
    obtain ⟨f, hf, rfl⟩ := Option.map_eq_some_iff.1 hs
    obtain ⟨work, q, r, s, -, -, rfl⟩ := ProcessSubmission.issueMrQuery_eq_some hf
    exact ⟨t, c, seq, { hi with }⟩
  | completeMrQuery =>
    obtain ⟨f, hf, rfl⟩ := Option.map_eq_some_iff.1 hs
    obtain ⟨work, resp, q, r, a, s, hq, hr, -, -, -, -, rfl⟩ :=
      ProcessSubmission.completeMrQuery_eq_some hf
    rw [TxMvp.observe_completeMrQuery hq hr]
    exact ⟨t, c, seq, { hi with }⟩
  | completeQpReserve => exact ⟨t, c, seq, hi.completeQpReserve hs⟩
  | issuePgtQuery => exact ⟨t, c, seq, hi.issuePgtQuery hs⟩
  | completePgtQuery =>
    obtain ⟨t', hi'⟩ := hi.completePgtQuery hsound hs
    exact ⟨t', c, seq, hi'⟩
  | emitBurst =>
    obtain ⟨c', seq', hi'⟩ := hi.emitBurst hsound hs
    exact ⟨t, c', seq', hi'⟩
  | connect x => exact ⟨t, c, seq, hi.connect hs⟩
  | dmaReadReqOut =>
    obtain ⟨⟨r, m₁⟩, hout, rfl⟩ := Option.map_eq_some_iff.1 hs
    obtain ⟨⟨r', q⟩, hq, heq⟩ := bind_eq_some.1 hout
    cases heq
    have hobs : m.observe .dmaReadReqOut h = { h with requests := h.requests ++ [r] } := by
      rw [TxMvp.observe, handedOut_of_eq_some hout]
    rw [hobs]
    exact ⟨t, c, seq, { hi with
      bursts := by
        rw [List.append_assoc, List.singleton_append, ← Fifo.deq_eq_some hq]
        exact hi.bursts }⟩

end TranslationInv

/-- No message waits to be translated, and no page to be read. -/
def TxMvp.Drained (m : TxMvp) : Prop :=
  m.processor.parsedQ.elems = [] ∧ m.translator.parsedQ.elems = [] ∧ m.translator.pageQ.elems = [] ∧
    m.burstSplitter.pageQ.elems = []

instance (m : TxMvp) : Decidable m.Drained := inferInstanceAs (Decidable (_ ∧ _))

/-- A region of 4 KiB pages that starts in the middle of a page, and a submission of 768 bytes that
crosses into its second page. -/
def acrossPages : List MvpLabel :=
  let configure (req : MvpConfig) (port : MvpPort) : List MvpLabel :=
    [.configRequest req, .handleConfig port, .configResponse port]
  let page : List MvpLabel :=
    [.issuePgtQuery, .connect .pgtRequest, .pgtHandleQuery, .connect .pgtResponse,
      .completePgtQuery, .connect .page, .emitBurst]
  configure (.slot ⟨2, ⟨true, true, 5, 0x700, 0x9000, 4096, 77⟩⟩) .slot ++
    configure (.qp ⟨1, ⟨true, 0, 0xFFFFFF⟩⟩) .qp ++
    configure (.mr ⟨5, ⟨true, 0, true, 0x1800, 0x3000, 3, 12⟩⟩) .mr ++
    configure (.pgt ⟨3, ⟨true, 0x70000⟩⟩) .pgt ++ configure (.pgt ⟨4, ⟨true, 0x20000⟩⟩) .pgt ++
    [.submissionIn ⟨1, 0x20000030000⟩, .issueSlotQuery, .connect .slotRequest, .slotHandleQuery,
      .connect .slotResponse, .completeSlotQuery, .connect .work, .issueMrQuery,
      .connect .mrRequest, .mrHandleQuery, .connect .mrResponse, .completeMrQuery,
      .connect .reserveRequest, .handleReserve,
      .connect .reserveResponse, .completeQpReserve, .connect .parsed] ++ page ++ page

end Mvp

end OpenRdma
