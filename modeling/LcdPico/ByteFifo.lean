import LcdPico.DecoderStep
import LcdPico.Lib.RingQueue

/-!
# The byte FIFO between the clock interrupt and the decoder

`decoder34401_process` is taken apart into its single actions (`ProcessPc`): the
two halves of the loop test, the check of the reset flag, the two reads of a
slot, the advance of `fifo_rd`, the handling of the pair. The interrupts strike
between any two of them: `fifo_append` with whatever is in the accumulators, and
the reset line.

`byte_fifo_lossless` is about every interleaving. The uninterrupted run of the
actions is `decoder34401Process` (`run_process`), and the contexts that
interleavings reach are reachable decoder contexts (`ProcessState.Reachable.ctx`).
-/

namespace LcdPico

namespace DmmContext

/-- The FIFO as a ring. -/
def fifo (c : DmmContext) : RingQueue SniffByte BYTE_FIFO_SIZE :=
  { slots := c.sniff.byteFifo, rd := c.sniff.fifoRd, wr := c.sniff.fifoWr }

/-- The pairs pending between `fifo_rd` and `fifo_wr`. -/
def pending (c : DmmContext) : List SniffByte := c.fifo.queue

/-- The state shared with the interrupts, and the FIFO's debug counters. -/
structure FifoView where
  sniff : SniffState
  overrun : UInt32
  level : UInt32

def fifoView (c : DmmContext) : FifoView :=
  { sniff := c.sniff, overrun := c.dbg.byteOverrunCount, level := c.dbg.fifoLevel }

theorem fifo_of_view {c c' : DmmContext} (h : c'.fifoView = c.fifoView) : c'.fifo = c.fifo := by
  have hsniff : c'.sniff = c.sniff := congrArg FifoView.sniff h
  rw [fifo, hsniff, fifo]

end DmmContext

/-! ## The handlers leave the FIFO alone -/

section Frame

variable (c : DmmContext) (now_us : UInt32)

@[simp] theorem processShiftWindow_fifoView :
    (processShiftWindow c now_us).fifoView = c.fifoView := by
  simp only [processShiftWindow]
  repeat' split <;> try rfl

@[simp] theorem endFrame_fifoView : c.endFrame.fifoView = c.fifoView := rfl

@[simp] theorem updateBarGraphFromMessageFrame_fifoView :
    (updateBarGraphFromMessageFrame c).fifoView = c.fifoView := by
  simp only [updateBarGraphFromMessageFrame]
  split <;> rfl

@[simp] theorem publishAnnunciators_fifoView (h l : UInt8) :
    (publishAnnunciators c h l).fifoView = c.fifoView := by
  simp only [publishAnnunciators]
  split <;> rfl

@[simp] theorem decodeControlFrame_fifoView : (decodeControlFrame c).fifoView = c.fifoView := by
  simp only [decodeControlFrame]
  split
  · rfl
  · split <;> rfl

@[simp] theorem decodeButton_fifoView : (decodeButton c now_us).fifoView = c.fifoView := by
  simp only [decodeButton]
  repeat' split <;> try rfl

@[simp] theorem overflowGuard_fifoView : (overflowGuard c).fifoView = c.fifoView := by
  simp only [overflowGuard]
  split <;> rfl

theorem mainMessageTiming_fifo (d : Debug) (corrupt : Bool) :
    (mainMessageTiming d corrupt now_us).byteOverrunCount = d.byteOverrunCount ∧
      (mainMessageTiming d corrupt now_us).fifoLevel = d.fifoLevel := by
  simp only [mainMessageTiming]
  constructor
  · repeat' split <;> try rfl
  · repeat' split <;> try rfl

theorem anyByteTiming_fifo (d : Debug) :
    (anyByteTiming d now_us).byteOverrunCount = d.byteOverrunCount ∧
      (anyByteTiming d now_us).fifoLevel = d.fifoLevel := by
  simp only [anyByteTiming]
  constructor
  · split <;> rfl
  · split <;> rfl

@[simp] theorem publishMessage_fifoView : (publishMessage c now_us).fifoView = c.fifoView := by
  obtain ⟨hoverrun, hlevel⟩ := mainMessageTiming_fifo now_us c.dbg c.msg.classify.corruptMsg
  have hupdate := updateBarGraphFromMessageFrame_fifoView { c with
    msg := c.msg.classify
    main := c.msg.classify.msgWork
    lastReading := if c.msg.classify.validReading then c.msg.classify.msgWork else c.lastReading
    blinkMask := c.msg.classify.blinkWork
    newDataCounter := c.newDataCounter + 1
    mainCounter := c.mainCounter + 1
    dbg := mainMessageTiming c.dbg c.msg.classify.corruptMsg now_us }
  refine Eq.trans hupdate ?_
  simp only [DmmContext.fifoView, hoverrun, hlevel]

theorem dispatch_fifoView : (dispatch c now_us).1.fifoView = c.fifoView := by
  cases hs : c.buf.frameState with
  | init =>
    simp only [dispatch, hs, frameInit]
    split <;> simp
  | unknown =>
    simp only [dispatch, hs]
    rfl
  | message =>
    simp only [dispatch, hs, frameMessage]
    split
    · simp
    · rfl
  | annunciators =>
    simp only [dispatch, hs, frameAnnunciators]
    split_ifs <;> simp
  | control =>
    simp only [dispatch, hs, frameControl]
    split <;> simp
  | button =>
    simp only [dispatch, hs, frameButton]
    split_ifs <;> simp

@[simp] theorem processPair_fifoView (p : SniffByte) (t : Clock) :
    (processPair c p t).1.fifoView = c.fifoView := by
  obtain ⟨hoverrun, hlevel⟩ := anyByteTiming_fifo t.any c.dbg
  simp only [processPair, overflowGuard_fifoView, dispatch_fifoView]
  simp only [DmmContext.fifoView, hoverrun, hlevel]

end Frame

/-! ## The producer -/

/-- The test of `fifo_append`. -/
def fifoAccepts (c : DmmContext) : Bool :=
  (c.sniff.fifoWr + 1) &&& BYTE_FIFO_MASK ≠ c.sniff.fifoRd

/-- `fifo_append` with the bytes `p` in the accumulators. -/
def appendByte (c : DmmContext) (p : SniffByte) : DmmContext :=
  fifoAppend { c with sniff := { c.sniff with inputAcc := p.input, outputAcc := p.output } }

theorem and_mask (i : Nat) : i &&& BYTE_FIFO_MASK = i % BYTE_FIFO_SIZE :=
  Nat.and_two_pow_sub_one_eq_mod i 8

theorem fifoAccepts_eq (c : DmmContext) : fifoAccepts c = !c.fifo.isFull := by
  rw [fifoAccepts, and_mask, RingQueue.isFull, decide_not]
  rfl

/-- A pair that is accepted goes to the end of the ring. -/
theorem appendByte_of_accepts {c : DmmContext} (h : fifoAccepts c = true) (p : SniffByte) :
    (appendByte c p).fifo = c.fifo.push p ∧
      (appendByte c p).dbg.byteOverrunCount = c.dbg.byteOverrunCount ∧
      (appendByte c p).dbg.fifoLevel.toNat ≤ 255 := by
  have hne : ¬ (c.sniff.fifoWr + 1) &&& BYTE_FIFO_MASK = c.sniff.fifoRd := by
    simpa [fifoAccepts] using h
  simp only [appendByte, fifoAppend]
  rw [if_neg hne]
  refine ⟨?_, rfl, ?_⟩
  · simp only [DmmContext.fifo, RingQueue.push, and_mask]
  · simp only [UInt32.toNat_and]
    exact Nat.and_le_right

/-- A pair that is not accepted is counted. -/
theorem appendByte_of_not_accepts {c : DmmContext} (h : fifoAccepts c = false) (p : SniffByte) :
    (appendByte c p).fifo = c.fifo ∧
      (appendByte c p).dbg.byteOverrunCount = c.dbg.byteOverrunCount + 1 ∧
      (appendByte c p).dbg.fifoLevel = c.dbg.fifoLevel := by
  have heq : (c.sniff.fifoWr + 1) &&& BYTE_FIFO_MASK = c.sniff.fifoRd := by
    simpa [fifoAccepts] using h
  simp only [appendByte, fifoAppend]
  rw [if_pos heq]
  exact ⟨rfl, rfl, rfl⟩

@[simp] theorem appendByte_resetReceived (c : DmmContext) (p : SniffByte) :
    (appendByte c p).sniff.resetReceived = c.sniff.resetReceived := by
  simp only [appendByte, fifoAppend]
  split <;> rfl

/-! ## The interleaving -/

/-- Where `decoder34401_process` is. -/
inductive ProcessPc where
  /-- outside the function -/
  | idle
  /-- `ctx->fifo_rd != ctx->fifo_wr` -/
  | testFifo
  /-- `|| ctx->reset_received` -/
  | testReset
  /-- `if (ctx->reset_received)` -/
  | check
  /-- `input_byte = ctx->byte_fifo[ctx->fifo_rd].in` -/
  | readIn
  /-- `output_byte = ctx->byte_fifo[ctx->fifo_rd].out` -/
  | readOut
  /-- the advance of `fifo_rd` -/
  | advance
  /-- the rest of the loop's body -/
  | handle
  /-- after the loop -/
  | finish
deriving DecidableEq, Repr

/-- The context, the locals of `decoder34401_process`, and the two accounts: the
pairs consumed, and the pairs appended with whether they were accepted. -/
structure ProcessState where
  ctx : DmmContext
  pc : ProcessPc
  p_start : UInt32
  input_byte : UInt8
  output_byte : UInt8
  consumed : List SniffByte
  appended : List (SniffByte × Bool)

/-- What happens next. -/
inductive ProcessAction where
  /-- the SCK interrupt appends a pair -/
  | append (p : SniffByte)
  /-- the reset interrupt -/
  | reset (now_us : UInt32)
  /-- the decoder does its next action; `t` is what `micros32` reads -/
  | consumer (t : Clock)

namespace ProcessState

/-- The next action of `decoder34401_process`. -/
def consumerStep (s : ProcessState) (t : Clock) : ProcessState :=
  match s.pc with
  | .idle =>
    { s with p_start := t.any, ctx := processShiftWindow s.ctx t.frame, pc := .testFifo }
  | .testFifo =>
    { s with pc := if s.ctx.sniff.fifoRd ≠ s.ctx.sniff.fifoWr then .check else .testReset }
  | .testReset => { s with pc := if s.ctx.sniff.resetReceived then .check else .finish }
  | .check =>
    if s.ctx.sniff.resetReceived then { s with ctx := processReset s.ctx, pc := .finish }
    else { s with pc := .readIn }
  | .readIn =>
    { s with input_byte := (s.ctx.sniff.byteFifo.rd s.ctx.sniff.fifoRd).input, pc := .readOut }
  | .readOut =>
    { s with output_byte := (s.ctx.sniff.byteFifo.rd s.ctx.sniff.fifoRd).output, pc := .advance }
  | .advance =>
    { s with
      ctx := fifoAdvance s.ctx
      consumed := s.consumed ++ [⟨s.input_byte, s.output_byte⟩]
      pc := .handle }
  | .handle =>
    { s with ctx := (processPair s.ctx ⟨s.input_byte, s.output_byte⟩ t).1, pc := .testFifo }
  | .finish =>
    { s with
      ctx := { s.ctx with
        dbg := { s.ctx.dbg with maxProcessUs := max s.ctx.dbg.maxProcessUs (t.any - s.p_start) } }
      pc := .idle }

def step (s : ProcessState) : ProcessAction → ProcessState
  | .append p =>
    { s with
      ctx := appendByte s.ctx p
      appended := s.appended ++ [(p, fifoAccepts s.ctx)] }
  | .reset now_us => { s with ctx := decoder34401Reset s.ctx now_us }
  | .consumer t => s.consumerStep t

/-- Power-up. -/
def init : ProcessState :=
  { ctx := decoder34401Init
    pc := .idle
    p_start := 0
    input_byte := 0
    output_byte := 0
    consumed := []
    appended := [] }

def Reachable (s : ProcessState) : Prop := Machine.Reachable (· = init) step s

/-- The pairs accepted, in order. -/
def accepted (s : ProcessState) : List SniffByte := (s.appended.filter Prod.snd).map Prod.fst

/-- The number of pairs rejected. -/
def rejected (s : ProcessState) : Nat := s.appended.countP (!·.2)

/-! ## The invariant -/

/-- What is known at each point of `decoder34401_process`: from the loop test on
the FIFO is not empty, unless a reset is waiting; the locals hold the head. -/
def AtPc (s : ProcessState) : Prop :=
  match s.pc with
  | .check => s.ctx.fifo.isEmpty = false ∨ s.ctx.sniff.resetReceived = true
  | .readIn => s.ctx.fifo.isEmpty = false
  | .readOut => s.ctx.fifo.isEmpty = false ∧ s.input_byte = s.ctx.fifo.head.input
  | .advance =>
    s.ctx.fifo.isEmpty = false ∧ s.input_byte = s.ctx.fifo.head.input ∧
      s.output_byte = s.ctx.fifo.head.output
  | _ => True

structure Inv (s : ProcessState) : Prop where
  ok : s.ctx.fifo.Ok
  content : s.consumed ++ s.ctx.pending = s.accepted
  overrun : s.ctx.dbg.byteOverrunCount.toNat = s.rejected % 2 ^ 32
  level : s.ctx.dbg.fifoLevel.toNat ≤ 255
  atPc : s.AtPc

theorem Inv.init : ProcessState.init.Inv :=
  ⟨⟨by decide, by decide⟩, by decide, by decide, by decide, trivial⟩

/-- A pair appended behind a head does not disturb the decoder. -/
theorem AtPc.append {s : ProcessState} (hok : s.ctx.fifo.Ok) (h : s.AtPc) (p : SniffByte) :
    (s.step (.append p)).AtPc := by
  have hempty : s.ctx.fifo.isEmpty = false → (appendByte s.ctx p).fifo.isEmpty = false ∧
      (appendByte s.ctx p).fifo.head = s.ctx.fifo.head := by
    intro hne
    cases hacc : fifoAccepts s.ctx with
    | false =>
      rw [(appendByte_of_not_accepts hacc p).1]
      exact ⟨hne, rfl⟩
    | true =>
      rw [(appendByte_of_accepts hacc p).1]
      exact ⟨RingQueue.isEmpty_push hok (by simpa [fifoAccepts_eq] using hacc) p,
        RingQueue.head_push hne p⟩
  rw [AtPc] at h ⊢
  simp only [step]
  split at h
  · simp only [appendByte_resetReceived]
    exact h.imp_left fun hne => (hempty hne).1
  · exact (hempty h).1
  · obtain ⟨hne, hin⟩ := h
    simp only [(hempty hne).2]
    exact ⟨(hempty hne).1, hin⟩
  · obtain ⟨hne, hin, hout⟩ := h
    simp only [(hempty hne).2]
    exact ⟨(hempty hne).1, hin, hout⟩
  · trivial

theorem Inv.append {s : ProcessState} (h : s.Inv) (p : SniffByte) : (s.step (.append p)).Inv := by
  cases hacc : fifoAccepts s.ctx with
  | true =>
    obtain ⟨hfifo, hoverrun, hlevel⟩ := appendByte_of_accepts hacc p
    have hroom : s.ctx.fifo.isFull = false := by simpa [fifoAccepts_eq] using hacc
    refine ⟨?_, ?_, ?_, hlevel, h.atPc.append h.ok p⟩
    · rw [step, hfifo]
      exact h.ok.push p
    · simp only [step, DmmContext.pending, accepted, hacc]
      rw [hfifo, RingQueue.queue_push h.ok hroom, ← List.append_assoc, List.filter_append,
        List.map_append]
      exact congrArg (· ++ [p]) h.content
    · simp only [step, rejected, hacc, hoverrun]
      rw [List.countP_append]
      exact h.overrun
  | false =>
    obtain ⟨hfifo, hoverrun, hlevel⟩ := appendByte_of_not_accepts hacc p
    refine ⟨?_, ?_, ?_, ?_, h.atPc.append h.ok p⟩
    · rw [step, hfifo]
      exact h.ok
    · simp only [step, DmmContext.pending, accepted, hacc]
      rw [hfifo, List.filter_append, List.map_append]
      exact h.content.trans (List.append_nil _).symm
    · simp only [step, rejected, hacc, hoverrun]
      rw [List.countP_append, UInt32.toNat_add, h.overrun]
      exact Nat.mod_add_mod _ _ _
    · rw [step, hlevel]
      exact h.level

/-- The reset interrupt touches neither the FIFO nor the locals. -/
theorem Inv.reset {s : ProcessState} (h : s.Inv) (now_us : UInt32) :
    (s.step (.reset now_us)).Inv := by
  refine ⟨h.ok, h.content, h.overrun, h.level, ?_⟩
  have hpc := h.atPc
  rw [AtPc] at hpc ⊢
  simp only [step]
  split at hpc
  · exact .inr rfl
  · exact hpc
  · exact hpc
  · exact hpc
  · trivial

/-- An action of the decoder that leaves the FIFO, its counters and the accounts
alone. -/
theorem Inv.of_fifo {s s' : ProcessState} (h : s.Inv) (hfifo : s'.ctx.fifo = s.ctx.fifo)
    (hoverrun : s'.ctx.dbg.byteOverrunCount = s.ctx.dbg.byteOverrunCount)
    (hlevel : s'.ctx.dbg.fifoLevel = s.ctx.dbg.fifoLevel)
    (hconsumed : s'.consumed = s.consumed) (happended : s'.appended = s.appended)
    (hpc : s'.AtPc) : s'.Inv := by
  refine ⟨?_, ?_, ?_, ?_, hpc⟩
  · rw [hfifo]
    exact h.ok
  · rw [DmmContext.pending, hfifo, hconsumed, accepted, happended]
    exact h.content
  · rw [hoverrun, rejected, happended]
    exact h.overrun
  · rw [hlevel]
    exact h.level

theorem Inv.of_view {s s' : ProcessState} (h : s.Inv) (hview : s'.ctx.fifoView = s.ctx.fifoView)
    (hconsumed : s'.consumed = s.consumed) (happended : s'.appended = s.appended)
    (hpc : s'.AtPc) : s'.Inv :=
  h.of_fifo (DmmContext.fifo_of_view hview) (congrArg DmmContext.FifoView.overrun hview)
    (congrArg DmmContext.FifoView.level hview) hconsumed happended hpc

theorem isEmpty_eq_false {c : DmmContext} (h : c.sniff.fifoRd ≠ c.sniff.fifoWr) :
    c.fifo.isEmpty = false :=
  decide_eq_false h

/-- Releasing the slot moves its pair from the pending to the consumed ones. -/
theorem Inv.advance {s : ProcessState} (h : s.Inv) (hpc : s.pc = .advance) (t : Clock) :
    (s.consumerStep t).Inv := by
  have hat := h.atPc
  rw [AtPc] at hat
  simp only [hpc] at hat
  obtain ⟨hne, hin, hout⟩ := hat
  have hpop : (fifoAdvance s.ctx).fifo = s.ctx.fifo.pop := by
    simp only [fifoAdvance, DmmContext.fifo, RingQueue.pop, and_mask]
  have hread : (⟨s.input_byte, s.output_byte⟩ : SniffByte) = s.ctx.fifo.head := by
    rw [hin, hout]
  have hstep : s.consumerStep t =
      { s with
        ctx := fifoAdvance s.ctx
        consumed := s.consumed ++ [⟨s.input_byte, s.output_byte⟩]
        pc := .handle } := by
    simp only [consumerStep, hpc]
  rw [hstep]
  refine ⟨?_, ?_, h.overrun, h.level, trivial⟩
  · simp only [hpop]
    exact h.ok.pop
  · have hcontent := h.content
    rw [DmmContext.pending, RingQueue.queue_cons h.ok hne] at hcontent
    simp only [DmmContext.pending, hpop, hread, List.append_assoc, List.singleton_append]
    exact hcontent

theorem Inv.consumer {s : ProcessState} (h : s.Inv) (t : Clock) : (s.consumerStep t).Inv := by
  have hat := h.atPc
  rw [AtPc] at hat
  cases hpc : s.pc with
  | idle =>
    refine h.of_view ?_ ?_ ?_ ?_ <;> simp only [consumerStep, hpc]
    · exact processShiftWindow_fifoView _ _
    · trivial
  | testFifo =>
    refine h.of_view ?_ ?_ ?_ ?_ <;> simp only [consumerStep, hpc]
    by_cases hne : s.ctx.sniff.fifoRd ≠ s.ctx.sniff.fifoWr
    · rw [if_pos hne]
      exact .inl (isEmpty_eq_false hne)
    · rw [if_neg hne]
      trivial
  | testReset =>
    refine h.of_view ?_ ?_ ?_ ?_ <;> simp only [consumerStep, hpc]
    by_cases hreset : s.ctx.sniff.resetReceived = true
    · rw [if_pos hreset]
      exact .inr hreset
    · rw [if_neg hreset]
      trivial
  | check =>
    simp only [hpc] at hat
    by_cases hreset : s.ctx.sniff.resetReceived = true
    · refine h.of_fifo ?_ ?_ ?_ ?_ ?_ ?_ <;> simp only [consumerStep, hpc, if_pos hreset]
      · rfl
      · rfl
      · rfl
      · trivial
    · refine h.of_view ?_ ?_ ?_ ?_ <;> simp only [consumerStep, hpc, if_neg hreset]
      exact hat.resolve_right hreset
  | readIn =>
    simp only [hpc] at hat
    refine h.of_view ?_ ?_ ?_ ?_ <;> simp only [consumerStep, hpc]
    exact ⟨hat, rfl⟩
  | readOut =>
    simp only [hpc] at hat
    refine h.of_view ?_ ?_ ?_ ?_ <;> simp only [consumerStep, hpc]
    exact ⟨hat.1, hat.2, rfl⟩
  | advance =>
    exact h.advance hpc t
  | handle =>
    refine h.of_view ?_ ?_ ?_ ?_ <;> simp only [consumerStep, hpc]
    · exact processPair_fifoView _ _ _
    · trivial
  | finish =>
    refine h.of_view ?_ ?_ ?_ ?_ <;> simp only [consumerStep, hpc]
    · rfl
    · trivial

theorem Reachable.inv {s : ProcessState} (h : s.Reachable) : s.Inv := by
  refine Machine.Reachable.invariant (P := Inv) ?_ ?_ h
  · rintro _ rfl
    exact Inv.init
  · intro s a hs
    cases a with
    | append p => exact hs.append p
    | reset now_us => exact hs.reset now_us
    | consumer t => exact hs.consumer t

/-! ## The actions make up `decoder34401_process` -/

/-- An action of the decoder is a step of its history, or none. -/
theorem consumerStep_reachable {s : ProcessState} (h : s.ctx.Reachable) (t : Clock) :
    (s.consumerStep t).ctx.Reachable := by
  cases hpc : s.pc with
  | idle =>
    simp only [consumerStep, hpc]
    exact Machine.Reachable.step (Event.tick t.frame) h
  | testFifo =>
    simp only [consumerStep, hpc]
    exact h
  | testReset =>
    simp only [consumerStep, hpc]
    exact h
  | check =>
    simp only [consumerStep, hpc]
    split
    · exact Machine.Reachable.step Event.reset h
    · exact h
  | readIn =>
    simp only [consumerStep, hpc]
    exact h
  | readOut =>
    simp only [consumerStep, hpc]
    exact h
  | advance =>
    simp only [consumerStep, hpc]
    exact Machine.Reachable.step (Event.interrupt (fifoAdvance s.ctx).sniff s.ctx.dbg) h
  | handle =>
    simp only [consumerStep, hpc]
    exact Machine.Reachable.step (Event.pair _ t) h
  | finish =>
    simp only [consumerStep, hpc]
    exact Machine.Reachable.step (Event.interrupt s.ctx.sniff { s.ctx.dbg with
      maxProcessUs := max s.ctx.dbg.maxProcessUs (t.any - s.p_start) }) h

/-- The contexts of the interleavings are contexts of the decoder's history. -/
theorem Reachable.ctx {s : ProcessState} (h : s.Reachable) : s.ctx.Reachable := by
  have hsniff {c : DmmContext} (hc : c.Reachable) (sniff : SniffState) (dbg : Debug) :
      DmmContext.Reachable { c with sniff := sniff, dbg := dbg } :=
    Machine.Reachable.step (Event.interrupt sniff dbg) hc
  refine Machine.Reachable.invariant (P := fun s => s.ctx.Reachable) ?_ ?_ h
  · rintro _ rfl
    exact .init rfl
  · intro s a hs
    cases a with
    | append p =>
      simp only [step, appendByte]
      rw [fifoAppend_eq_step]
      exact Machine.Reachable.step (Event.interrupt _ _) (hsniff hs _ _)
    | reset now_us => exact hsniff hs _ _
    | consumer t => exact consumerStep_reachable hs t

/-- The decoder's actions, with the clock readings `ts`. -/
def runConsumer (s : ProcessState) (ts : List Clock) : ProcessState :=
  Machine.run consumerStep s ts

/-- One turn of the loop, on a FIFO that is not empty. -/
theorem runConsumer_turn {s : ProcessState} (hpc : s.pc = .testFifo)
    (hne : s.ctx.sniff.fifoRd ≠ s.ctx.sniff.fifoWr) (hreset : s.ctx.sniff.resetReceived = false)
    (t : Clock) :
    ∃ s', s.runConsumer (List.replicate 6 t) = s' ∧ s'.pc = .testFifo ∧
      s'.p_start = s.p_start ∧
      s'.ctx = (processPair (fifoAdvance s.ctx)
        (s.ctx.sniff.byteFifo.rd s.ctx.sniff.fifoRd) t).1 := by
  obtain ⟨ctx, pc, start, i, o, cons, app⟩ := s
  simp only at hpc hne hreset
  subst hpc
  refine ⟨_, rfl, ?_, ?_, ?_⟩ <;>
    simp [runConsumer, List.replicate, consumerStep, hne, hreset]

/-- The uninterrupted loop. -/
theorem runConsumer_loop {n : Nat} {s : ProcessState} (hpc : s.pc = .testFifo)
    (hok : s.ctx.fifo.Ok) (hn : s.ctx.fifo.level < n) (clk : Nat → Clock) :
    ∃ ts, (s.runConsumer ts).pc = .finish ∧ (s.runConsumer ts).p_start = s.p_start ∧
      (s.runConsumer ts).ctx = processLoop n s.ctx clk := by
  induction n generalizing s clk with
  | zero => exact absurd hn (Nat.not_lt_zero _)
  | succ n ih =>
    obtain ⟨ctx, pc, start, i, o, cons, app⟩ := s
    simp only at hpc hok hn ⊢
    subst hpc
    rw [processLoop]
    by_cases hreset : ctx.sniff.resetReceived = true
    · -- the reset ends the loop, whichever test lets it through
      rw [if_pos hreset]
      by_cases hne : ctx.sniff.fifoRd ≠ ctx.sniff.fifoWr
      · refine ⟨List.replicate 2 ⟨0, 0⟩, ?_, ?_, ?_⟩ <;>
          simp [runConsumer, List.replicate, consumerStep, hne, hreset]
      · refine ⟨List.replicate 3 ⟨0, 0⟩, ?_, ?_, ?_⟩ <;>
          simp [runConsumer, List.replicate, consumerStep, hne, hreset]
    rw [if_neg hreset]
    by_cases hne : ctx.sniff.fifoRd ≠ ctx.sniff.fifoWr
    · rw [if_pos hne]
      obtain ⟨s', hrun, hpc', hstart, hctx⟩ :=
        runConsumer_turn (s := ⟨ctx, .testFifo, start, i, o, cons, app⟩) rfl hne
          (Bool.not_eq_true _ ▸ hreset) (clk 0)
      have hpop : s'.ctx.fifo = ctx.fifo.pop := by
        rw [hctx, DmmContext.fifo_of_view (processPair_fifoView _ _ _)]
        simp only [fifoAdvance, DmmContext.fifo, RingQueue.pop, and_mask]
      -- each turn takes one pair off the FIFO, so the induction on its level goes through
      have hlevel : s'.ctx.fifo.level + 1 = ctx.fifo.level := by
        have hqueue := RingQueue.queue_cons hok (isEmpty_eq_false hne)
        have hlen := congrArg List.length hqueue
        rw [RingQueue.length_queue, List.length_cons, RingQueue.length_queue] at hlen
        rw [hpop, ← hlen]
      obtain ⟨ts, hfinish, hstart', hloop⟩ :=
        ih (s := s') hpc' (hpop ▸ hok.pop) (by omega) (fun k => clk (k + 1))
      refine ⟨List.replicate 6 (clk 0) ++ ts, ?_⟩
      rw [runConsumer, Machine.run_append]
      rw [runConsumer] at hrun
      rw [hrun]
      exact ⟨hfinish, hstart'.trans hstart, by rw [← hctx]; exact hloop⟩
    · rw [if_neg hne]
      refine ⟨List.replicate 2 ⟨0, 0⟩, ?_, ?_, ?_⟩ <;>
        simp [runConsumer, List.replicate, consumerStep, hne, hreset]

/-- Without an interrupt, the actions are `decoder34401_process`. -/
theorem runConsumer_process {s : ProcessState} (hpc : s.pc = .idle) (hok : s.ctx.fifo.Ok)
    (clk : ProcessClock) :
    ∃ ts, (s.runConsumer ts).pc = .idle ∧
      (s.runConsumer ts).ctx = decoder34401Process s.ctx clk := by
  obtain ⟨s₁, hs₁⟩ : ∃ s₁, s.consumerStep ⟨clk.start, clk.shift⟩ = s₁ := ⟨_, rfl⟩
  have hstart : s₁ = { s with
      p_start := clk.start, ctx := processShiftWindow s.ctx clk.shift, pc := .testFifo } := by
    rw [← hs₁]
    simp only [consumerStep, hpc]
  have hpc₁ : s₁.pc = .testFifo := by rw [hstart]
  have hp₁ : s₁.p_start = clk.start := by rw [hstart]
  have hctx₁ : s₁.ctx = processShiftWindow s.ctx clk.shift := by rw [hstart]
  have hfifo : s₁.ctx.fifo = s.ctx.fifo := by
    rw [hctx₁]
    exact DmmContext.fifo_of_view (processShiftWindow_fifoView _ _)
  obtain ⟨ts, hfinish, hp, hloop⟩ := runConsumer_loop hpc₁ (hfifo ▸ hok)
    (by rw [hfifo]; exact RingQueue.level_lt hok) clk.pair
  refine ⟨⟨clk.start, clk.shift⟩ :: ts ++ [⟨clk.stop, 0⟩], ?_⟩
  have hrun : s.runConsumer (⟨clk.start, clk.shift⟩ :: ts ++ [⟨clk.stop, 0⟩]) =
      (s₁.runConsumer ts).consumerStep ⟨clk.stop, 0⟩ := by
    simp [runConsumer, Machine.run_append, hs₁]
  rw [hrun, consumerStep, hfinish]
  refine ⟨rfl, ?_⟩
  simp only [hp, hloop, hp₁, hctx₁]
  rfl

end ProcessState

/-! ## Main result -/

/-- **The byte FIFO loses nothing silently**, in every interleaving. -/
theorem byte_fifo_lossless {s : ProcessState} (h : s.Reachable) :
    s.consumed ++ s.ctx.pending = s.accepted ∧
    s.ctx.dbg.byteOverrunCount.toNat = s.rejected % 2 ^ 32 ∧
    (fifoAccepts s.ctx = false ↔ s.ctx.pending.length = 255) ∧
    s.ctx.sniff.fifoRd < 256 ∧ s.ctx.sniff.fifoWr < 256 ∧ s.ctx.dbg.fifoLevel.toNat ≤ 255 := by
  obtain ⟨hok, hcontent, hoverrun, hlevel, -⟩ := h.inv
  refine ⟨hcontent, hoverrun, ?_, hok.rd_lt, hok.wr_lt, hlevel⟩
  rw [fifoAccepts_eq, DmmContext.pending, RingQueue.length_queue]
  exact (by simp : (!s.ctx.fifo.isFull) = false ↔ s.ctx.fifo.isFull = true).trans
    (RingQueue.isFull_iff hok)

/-- A pair appended between the two reads of another one. -/
theorem byte_fifo_lossless_interrupted :
    let acts : List ProcessAction := [.append ⟨0x41, 0x01⟩] ++
      List.replicate 4 (.consumer ⟨0, 0⟩) ++ [.append ⟨0x42, 0x02⟩] ++
      List.replicate 2 (.consumer ⟨0, 0⟩)
    let s := Machine.run ProcessState.step ProcessState.init acts
    s.consumed = [⟨0x41, 0x01⟩] ∧ s.ctx.pending = [⟨0x42, 0x02⟩] ∧
      s.consumed ++ s.ctx.pending = s.accepted := by
  intro acts s
  have hinit : ProcessState.init.Reachable := .init rfl
  have hs : s.Reachable := Machine.Reachable.run hinit acts
  exact ⟨by decide +kernel, by decide +kernel, (byte_fifo_lossless hs).1⟩

end LcdPico
