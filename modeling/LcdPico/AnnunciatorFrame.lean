import LcdPico.DecoderStep

/-!
# What an annunciator frame announces (`decoder_34401a.c`)

An annunciator frame carries the low and the high byte of `ann_state` after its two header
pairs. The test at its EOF pair, `buf_len >= 4`, counts that pair too, so a frame
that was cut short after one payload pair is taken for a whole one, and the in-byte of the
terminator for the high byte. Every other length is handled as meant
(`annunciators_complete_iff`).
-/

namespace LcdPico

/-- The bits other than SHIFT. -/
def annMask : UInt16 := 0xF7FF

/-- What the bytes `h` and `l` announce of these bits. -/
def announced (h l : UInt8) : UInt16 := ((h.toUInt16 <<< 8) ||| l.toUInt16) &&& annMask

/-- The pairs after the header. -/
def FrameBuffers.payload (b : FrameBuffers) : List SniffByte := b.pairs.drop 2

/-- The pair ends an annunciator frame. -/
def DmmContext.EndsAnnunciators (c : DmmContext) (p : SniffByte) : Prop :=
  c.buf.frameState = .annunciators ∧ p = eofPair

/-- At the end of an annunciator frame the bits other than SHIFT are those of its first two
payload pairs; a shorter frame leaves `ann_state` as it was. -/
def AnnouncedExactly (c : DmmContext) : Event → Prop
  | .pair p t => c.EndsAnnunciators p →
    match c.buf.payload with
    | l :: h :: _ => (c.step (.pair p t)).annState &&& annMask = announced h.input l.input
    | _ => (c.step (.pair p t)).annState = c.annState
  | _ => True

/-- A frame that ends after one payload pair announces, with a high byte of 0, what is on
display anyway. -/
def ShortFrameHarmless (c : DmmContext) : Event → Prop
  | .pair p _ => c.EndsAnnunciators p →
    ∀ l, c.buf.payload = [l] → c.annState &&& annMask = announced 0 l.input
  | _ => True

/-! ## Bits -/

section Bits

variable (s a m : UInt16)

theorem and_of_union : ((s &&& m) ||| (a &&& ~~~m)) &&& m = s &&& m := by
  apply UInt16.toBitVec_inj.mp
  ext i hi
  simp only [UInt16.toBitVec_and, UInt16.toBitVec_or, UInt16.toBitVec_not, BitVec.getElem_and,
    BitVec.getElem_or, BitVec.getElem_not]
  cases m.toBitVec[i] <;> simp

theorem union_self : (a &&& m) ||| (a &&& ~~~m) = a := by
  apply UInt16.toBitVec_inj.mp
  ext i hi
  simp only [UInt16.toBitVec_and, UInt16.toBitVec_or, UInt16.toBitVec_not, BitVec.getElem_and,
    BitVec.getElem_or, BitVec.getElem_not]
  cases m.toBitVec[i] <;> simp

end Bits

/-- `ann_state` after the bytes `h` and `l` are published: SHIFT stays. -/
def annAfter (annState : UInt16) (h l : UInt8) : UInt16 :=
  announced h l ||| (annState &&& ~~~annMask)

theorem annAfter_bits (annState : UInt16) (h l : UInt8) :
    annAfter annState h l &&& annMask = announced h l := and_of_union _ _ _

/-- Publishing what is on display changes nothing, and nothing else does. -/
theorem annAfter_eq_iff (annState : UInt16) (h l : UInt8) :
    annAfter annState h l = annState ↔ annState &&& annMask = announced h l := by
  constructor
  · intro hsame
    rw [← annAfter_bits annState h l, hsame]
  · intro hbits
    rw [annAfter, ← hbits]
    exact union_self _ _

/-- "Publish only if changed" publishes the bits all the same. -/
theorem publishAnnunciators_annState (c : DmmContext) (h l : UInt8) :
    (publishAnnunciators c h l).annState = annAfter c.annState h l := by
  simp only [publishAnnunciators]
  split
  · rfl
  · rename_i hsame
    have heq : (((h.toUInt16 <<< 8) ||| l.toUInt16) &&& 0xF7FF) ||| (c.annState &&& 0x0800) =
        c.annState := by
      simpa using hsame
    exact heq.symm

/-! ## The header of an annunciator frame -/

/-- In an annunciator frame the two header pairs are collected. -/
structure FrameBuffers.HeaderKept (b : FrameBuffers) : Prop where
  len : b.bufLen < INPUT_BUF_SIZE
  header : b.frameState = .annunciators → 2 ≤ b.bufLen

namespace FrameBuffers.HeaderKept

variable {b : FrameBuffers}

theorem endFrame (b : FrameBuffers) : b.endFrame.HeaderKept :=
  ⟨Nat.zero_lt_succ _, fun h => by cases h⟩

/-- The annunciator state is entered with two pairs, and nothing is taken back in it. -/
theorem next_header (h : b.frameState = .annunciators → 2 ≤ b.bufLen)
    (hnext : b.next.frameState = .annunciators) : 2 ≤ b.next.bufLen := by
  have hend : b.endFrame.frameState ≠ .annunciators := fun h => by cases h
  unfold FrameBuffers.next frameUnknown at hnext ⊢
  cases hs : b.frameState with
  | unknown =>
    simp only [hs] at hnext ⊢
    by_cases heof : b.lastBytesAreEof = true
    · rw [if_pos heof] at hnext
      exact absurd hnext hend
    · rw [if_neg heof] at hnext ⊢
      split at hnext
      · cases hnext
      · rename_i hbutton
        rw [if_neg hbutton]
        split at hnext
        · rename_i htwo
          rw [if_pos htwo]
          split_ifs <;> exact htwo
        · rw [hs] at hnext
          cases hnext
  | annunciators =>
    simp only [hs] at hnext ⊢
    by_cases heof : b.lastBytesAreEof = true
    · rw [if_pos heof] at hnext
      exact absurd hnext hend
    · rw [if_neg heof]
      exact h hs
  | button =>
    simp only [hs] at hnext
    split_ifs at hnext
    · exact absurd hnext hend
    · exact absurd hnext hend
    · rw [hs] at hnext
      cases hnext
  | init | message | control =>
    simp only [hs] at hnext
    split_ifs at hnext
    · exact absurd hnext hend
    · rw [hs] at hnext
      cases hnext

/-- A byte pair keeps it. -/
theorem pair (h : b.HeaderKept) (p : SniffByte) : (b.store p).next.guarded.HeaderKept := by
  refine ⟨FrameBuffers.guarded_len _, fun hstate => ?_⟩
  have hstore : (b.store p).frameState = .annunciators → 2 ≤ (b.store p).bufLen :=
    fun hs => Nat.le_succ_of_le (h.header hs)
  have hnext := next_header hstore
  rw [FrameBuffers.guarded] at hstate ⊢
  split at hstate
  · cases hstate
  · rename_i hroom
    rw [if_neg hroom]
    exact hnext hstate

end FrameBuffers.HeaderKept

theorem DmmContext.headerKept_step {c : DmmContext} (h : c.buf.HeaderKept) (e : Event) :
    (c.step e).buf.HeaderKept := by
  cases e with
  | pair p t =>
    rw [DmmContext.step, processPair_buf]
    exact h.pair p
  | tick now_us =>
    rw [DmmContext.step, processShiftWindow_buf]
    exact h
  | reset => exact h
  | interrupt sniff dbg => exact h

/-! ## The end of an annunciator frame -/

/-- The buffers hold the pairs they report. -/
theorem FrameBuffers.holds_pairs {b : FrameBuffers} (hlen : b.bufLen < INPUT_BUF_SIZE) :
    b.Holds b.pairs := by
  have hpairs : b.pairs.length = b.bufLen := by
    rw [FrameBuffers.pairs, List.length_zipWith, CArray.length_pre, CArray.length_pre]
    omega
  refine ⟨hpairs.symm, by omega, fun i hi => ?_, fun i hi => ?_⟩
  · rw [hpairs] at hi
    rw [CArray.rd_eq_getD_pre b.inputBuf hi,
      List.getD_eq_getElem _ _ (by rw [CArray.length_pre]; omega)]
    simp only [FrameBuffers.pairs, List.getElem_zipWith]
  · rw [hpairs] at hi
    rw [CArray.rd_eq_getD_pre b.outputBuf hi,
      List.getD_eq_getElem _ _ (by rw [CArray.length_pre]; omega)]
    simp only [FrameBuffers.pairs, List.getElem_zipWith]

/-- The test at the EOF pair of an annunciator frame: `buf_len` counts that pair. -/
theorem processPair_endsAnnunciators {c : DmmContext} (hlen : c.buf.bufLen < INPUT_BUF_SIZE)
    {p : SniffByte} (hp : c.EndsAnnunciators p) (t : Clock) :
    (processPair c p t).1.annState =
      if 4 ≤ (c.buf.store p).bufLen then
        annAfter c.annState ((c.buf.store p).inputBuf.rd 3) ((c.buf.store p).inputBuf.rd 2)
      else c.annState := by
  have hstate : (c.buf.store p).frameState = .annunciators := hp.1
  have heof := (store_eof_iff hlen p).mpr hp.2
  have hguard (c : DmmContext) : (overflowGuard c).annState = c.annState := by
    rw [overflowGuard]
    split <;> rfl
  simp only [processPair, dispatch, hstate, hguard, frameAnnunciators, heof, if_true]
  split
  · exact publishAnnunciators_annState _ _ _
  · rfl

/-- What the EOF pair makes of `ann_state`, by the payload. -/
theorem annState_endsAnnunciators {c : DmmContext} (h : c.buf.HeaderKept) {p : SniffByte}
    (hp : c.EndsAnnunciators p) (t : Clock) :
    (processPair c p t).1.annState =
      match c.buf.payload with
      | l :: q :: _ => annAfter c.annState q.input l.input
      | [l] => annAfter c.annState 0 l.input
      | [] => c.annState := by
  have hholds := FrameBuffers.holds_pairs h.len
  have hstored := hholds.store (hholds.len ▸ h.len) p
  have htwo : 2 ≤ c.buf.pairs.length := hholds.len ▸ h.header hp.1
  rw [processPair_endsAnnunciators h.len hp, hstored.len, FrameBuffers.payload]
  generalize c.buf.pairs = pairs at htwo hstored
  obtain ⟨a, b, payload, rfl⟩ : ∃ a b payload, pairs = a :: b :: payload := by
    match pairs, htwo with
    | a :: b :: payload, _ => exact ⟨a, b, payload, rfl⟩
  rw [List.drop_succ_cons, List.drop_succ_cons, List.drop_zero]
  cases payload with
  | nil => rfl
  | cons l rest =>
    have hlow := hstored.input 2 (by simp)
    cases rest with
    | nil =>
      -- the fourth pair is the terminator
      have hhigh := hstored.input 3 (by simp)
      simp only [List.cons_append, List.nil_append, List.getElem_cons_succ,
        List.getElem_cons_zero] at hlow hhigh
      rw [if_pos (by simp), hlow, hhigh, hp.2]
      rfl
    | cons q rest =>
      have hhigh := hstored.input 3 (by simp)
      simp only [List.cons_append, List.getElem_cons_succ, List.getElem_cons_zero] at hlow hhigh
      rw [if_pos (by simp), hlow, hhigh]

/-- **Annunciators come from complete frames only**, as long as no frame that ends after one
payload pair says otherwise. -/
theorem annunciators_complete_iff (es : List Event) :
    Machine.Within DmmContext.step AnnouncedExactly decoder34401Init es ↔
      Machine.Within DmmContext.step ShortFrameHarmless decoder34401Init es := by
  have hinit : decoder34401Init.buf.HeaderKept := ⟨by decide, fun h => by cases h⟩
  refine Machine.within_congr (J := fun c => c.buf.HeaderKept)
    (fun c e h => DmmContext.headerKept_step h e) (fun c e h => ?_) hinit es
  cases e with
  | tick now_us => exact Iff.rfl
  | reset => exact Iff.rfl
  | interrupt sniff dbg => exact Iff.rfl
  | pair p t =>
    refine forall_congr' fun hp => ?_
    rw [DmmContext.step, annState_endsAnnunciators h hp t]
    cases c.buf.payload with
    | nil => simp
    | cons l rest =>
      cases rest with
      | nil =>
        simp only [List.cons.injEq, and_true, forall_eq']
        exact annAfter_eq_iff c.annState 0 l.input
      | cons q rest => simp [annAfter_bits]

/-- An annunciator frame cut short after its first payload pair. -/
def cutShort : List SniffByte := [⟨0x7f, 0⟩, ⟨0x00, 0⟩, ⟨0x12, 0⟩]

/-- The terminator of such a frame is published as the high byte. -/
theorem annunciators_cut_short :
    (after (eofPair :: cutShort)).annState = 0 ∧
      (after (eofPair :: cutShort)).buf.payload = [⟨0x12, 0⟩] ∧
      (after (eofPair :: cutShort ++ [eofPair])).annState = 0x0012 ∧
      ¬Machine.Within DmmContext.step AnnouncedExactly decoder34401Init
        (deliver (eofPair :: cutShort ++ [eofPair])) := by
  have hbefore : (after (eofPair :: cutShort)).annState = 0 := by decide +kernel
  have hpayload : (after (eofPair :: cutShort)).buf.payload = [⟨0x12, 0⟩] := by decide +kernel
  have hafter : (after (eofPair :: cutShort ++ [eofPair])).annState = 0x0012 := by decide +kernel
  have hends : (after (eofPair :: cutShort)).EndsAnnunciators eofPair := ⟨by decide +kernel, rfl⟩
  have hstep : after (eofPair :: cutShort ++ [eofPair]) =
      (after (eofPair :: cutShort)).step (.pair eofPair ⟨0, 0⟩) := by
    rw [after, after, deliver, deliver, List.map_append, Machine.run_append]
    rfl
  refine ⟨hbefore, hpayload, hafter, fun h => ?_⟩
  rw [deliver, List.map_append, Machine.within_append, ← deliver, ← after, List.map_cons,
    Machine.Within] at h
  rw [hstep] at hafter
  generalize after (eofPair :: cutShort) = c at h hbefore hpayload hafter hends
  obtain ⟨-, hlast, -⟩ := h
  have hexact := hlast hends
  rw [hpayload] at hexact
  exact absurd (hafter.symm.trans (hexact.trans hbefore)) (by decide)

end LcdPico
