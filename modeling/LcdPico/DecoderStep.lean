import LcdPico.Decoder34401a
import LcdPico.Lib.Machine

/-!
# What one byte pair does to the parser

The parse state (`FrameBuffers`) runs on its own: what `processPair` makes of it
depends on nothing else in the context (`processPair_buf`), and neither does the
frame it acts upon (`processPair_acts`). `FrameBuffers.Holds` replaces the two
byte buffers by the list of the pairs collected; every index the parser reads
below `buf_len` is read from that list.
-/

namespace LcdPico

/-- A digit as a number. -/
theorem isdigit_toNat {c : UInt8} (h : isdigit c = true) : 0x30 ≤ c.toNat ∧ c.toNat ≤ 0x39 := by
  simpa [isdigit, UInt8.le_iff_toNat_le] using h

/-- `0x00` in, `0xbb` out: the pair that ends a frame. -/
def eofPair : SniffByte := ⟨0x00, 0xbb⟩

namespace FrameBuffers

/-! ## The buffers as a list of pairs -/

/-- The buffers hold exactly the pairs `acc`. -/
structure Holds (b : FrameBuffers) (acc : List SniffByte) : Prop where
  len : b.bufLen = acc.length
  le : acc.length ≤ INPUT_BUF_SIZE
  input : ∀ i (h : i < acc.length), b.inputBuf.rd i = (acc[i]).input
  output : ∀ i (h : i < acc.length), b.outputBuf.rd i = (acc[i]).output

theorem Holds.nil {b : FrameBuffers} (h : b.bufLen = 0) : b.Holds [] :=
  ⟨h, Nat.zero_le _, fun _ h => absurd h (Nat.not_lt_zero _),
    fun _ h => absurd h (Nat.not_lt_zero _)⟩

/-- Storing a pair appends it, as long as there is room. -/
theorem Holds.store {b : FrameBuffers} {acc : List SniffByte} (h : b.Holds acc)
    (hroom : acc.length < INPUT_BUF_SIZE) (p : SniffByte) : (b.store p).Holds (acc ++ [p]) := by
  refine ⟨by simp [FrameBuffers.store, h.len], by simp; omega, ?_, ?_⟩
  · intro i hi
    rcases Nat.lt_or_ge i acc.length with hlt | hge
    · rw [List.getElem_append_left hlt, ← h.input i hlt]
      exact CArray.rd_wr_ne _ (by rw [h.len]; omega) _
    · obtain rfl : i = acc.length := by simp at hi; omega
      rw [List.getElem_concat_length rfl, ← h.len]
      exact CArray.rd_wr_self _ (by rw [h.len]; exact hroom) _
  · intro i hi
    rcases Nat.lt_or_ge i acc.length with hlt | hge
    · rw [List.getElem_append_left hlt, ← h.output i hlt]
      exact CArray.rd_wr_ne _ (by rw [h.len]; omega) _
    · obtain rfl : i = acc.length := by simp at hi; omega
      rw [List.getElem_concat_length rfl, ← h.len]
      exact CArray.rd_wr_self _ (by rw [h.len]; exact hroom) _

/-- The list held is the list of pairs the parser reports. -/
theorem Holds.pairs_eq {b : FrameBuffers} {acc : List SniffByte} (h : b.Holds acc) :
    b.pairs = acc := by
  have hle := h.le
  apply List.ext_getElem
  · simp [pairs, h.len, Nat.min_eq_left hle]
  · intro i h₁ h₂
    have hi : i < b.bufLen := by rw [h.len]; exact h₂
    have hin := h.input i h₂
    have hout := h.output i h₂
    rw [CArray.rd_eq_getD_pre _ hi] at hin hout
    simp only [pairs, List.length_zipWith, Nat.lt_min] at h₁
    rw [List.getD_eq_getElem _ _ h₁.1] at hin
    rw [List.getD_eq_getElem _ _ h₁.2] at hout
    simp only [pairs, List.getElem_zipWith, hin, hout]

/-- The EOF test looks at the newest pair. -/
theorem Holds.eof_iff {b : FrameBuffers} {acc : List SniffByte} {p : SniffByte}
    (h : b.Holds (acc ++ [p])) : b.lastBytesAreEof = true ↔ p = eofPair := by
  have hlen : b.bufLen = acc.length + 1 := by simpa using h.len
  have hin := h.input acc.length (by simp)
  have hout := h.output acc.length (by simp)
  rw [List.getElem_concat_length rfl] at hin hout
  obtain ⟨i, o⟩ := p
  simp [lastBytesAreEof, hlen, hin, hout, eofPair]

/-- The newest input byte. -/
theorem Holds.last_input {b : FrameBuffers} {acc : List SniffByte} {p : SniffByte}
    (h : b.Holds (acc ++ [p])) : b.inputBuf.rd (b.bufLen - 1) = p.input := by
  have hlen : b.bufLen = acc.length + 1 := by simpa using h.len
  have hin := h.input acc.length (by simp)
  rw [List.getElem_concat_length rfl] at hin
  rw [hlen, Nat.add_sub_cancel, hin]

/-! ## The parser by itself -/

/-- The parse state after `switch (ctx->frame_state)`. -/
def next (b : FrameBuffers) : FrameBuffers :=
  match b.frameState with
  | .unknown => frameUnknown b
  | .button =>
    if b.lastBytesAreEof then b.endFrame
    else if 1 ≤ b.bufLen ∧ b.inputBuf.rd (b.bufLen - 1) = 0x66 then b.endFrame
    else b
  | _ => if b.lastBytesAreEof then b.endFrame else b

/-- The frame that `switch (ctx->frame_state)` acts upon. -/
def acts (b : FrameBuffers) : Option Frame :=
  match b.frameState with
  | .init | .unknown => none
  | .message => if b.lastBytesAreEof then some ⟨.message, b.pairs⟩ else none
  | .annunciators =>
    if b.lastBytesAreEof ∧ 4 ≤ b.bufLen then some ⟨.annunciators, b.pairs⟩ else none
  | .control => if b.lastBytesAreEof then some ⟨.control, b.pairs⟩ else none
  | .button =>
    if ¬ b.lastBytesAreEof ∧ b.inputBuf.rd (b.bufLen - 1) = 0x66 ∧ 3 ≤ b.bufLen then
      some ⟨.button, b.pairs⟩
    else none

/-- The same buffers in another parser state. -/
def withState (b : FrameBuffers) (s : FrameState) : FrameBuffers := { b with frameState := s }

theorem withState_eq_self {b : FrameBuffers} {s : FrameState} (h : b.frameState = s) :
    b.withState s = b := by
  subst h
  rfl

/-- The parse state after the buffer-overflow check. -/
def guarded (b : FrameBuffers) : FrameBuffers :=
  if INPUT_BUF_SIZE ≤ b.bufLen then b.endFrame else b

/-- Every state tests for EOF. -/
theorem next_of_eof {b : FrameBuffers} (h : b.lastBytesAreEof = true) : b.next = b.endFrame := by
  unfold next frameUnknown
  split <;> simp [h]

theorem guarded_of_lt {b : FrameBuffers} (h : b.bufLen < INPUT_BUF_SIZE) : b.guarded = b := by
  rw [guarded, if_neg (by omega)]

@[simp] theorem guarded_endFrame (b : FrameBuffers) : b.endFrame.guarded = b.endFrame :=
  guarded_of_lt (Nat.zero_lt_succ _)

theorem guarded_len (b : FrameBuffers) : b.guarded.bufLen < INPUT_BUF_SIZE := by
  unfold guarded
  split
  · exact Nat.zero_lt_succ _
  · omega

end FrameBuffers

/-! ## The handlers leave the parse state alone -/

@[simp] theorem updateBarGraphFromMessageFrame_buf (c : DmmContext) :
    (updateBarGraphFromMessageFrame c).buf = c.buf := by
  simp only [updateBarGraphFromMessageFrame]
  split <;> rfl

@[simp] theorem publishMessage_buf (c : DmmContext) (now : UInt32) :
    (publishMessage c now).buf = c.buf := by
  simp [publishMessage]

@[simp] theorem publishAnnunciators_buf (c : DmmContext) (h l : UInt8) :
    (publishAnnunciators c h l).buf = c.buf := by
  simp only [publishAnnunciators]
  split <;> rfl

@[simp] theorem decodeControlFrame_buf (c : DmmContext) : (decodeControlFrame c).buf = c.buf := by
  simp only [decodeControlFrame]
  split
  · rfl
  · split <;> rfl

@[simp] theorem decodeButton_buf (c : DmmContext) (now : UInt32) :
    (decodeButton c now).buf = c.buf := by
  simp only [decodeButton]
  repeat' split <;> try rfl

@[simp] theorem endFrame_buf (c : DmmContext) : c.endFrame.buf = c.buf.endFrame := rfl

@[simp] theorem overflowGuard_buf (c : DmmContext) :
    (overflowGuard c).buf = c.buf.guarded := by
  simp only [overflowGuard, FrameBuffers.guarded]
  split <;> rfl

@[simp] theorem processShiftWindow_buf (c : DmmContext) (now : UInt32) :
    (processShiftWindow c now).buf = c.buf := by
  simp only [processShiftWindow]
  repeat' split <;> try rfl

@[simp] theorem processReset_buf (c : DmmContext) : (processReset c).buf = c.buf := rfl

/-! ## The published fields and the message assembly -/

section Fields

variable (c : DmmContext) (now : UInt32)

@[simp] theorem updateBarGraphFromMessageFrame_main :
    (updateBarGraphFromMessageFrame c).main = c.main := by
  simp only [updateBarGraphFromMessageFrame]
  split <;> rfl

@[simp] theorem updateBarGraphFromMessageFrame_annState :
    (updateBarGraphFromMessageFrame c).annState = c.annState := by
  simp only [updateBarGraphFromMessageFrame]
  split <;> rfl

@[simp] theorem updateBarGraphFromMessageFrame_blinkMask :
    (updateBarGraphFromMessageFrame c).blinkMask = c.blinkMask := by
  simp only [updateBarGraphFromMessageFrame]
  split <;> rfl

@[simp] theorem updateBarGraphFromMessageFrame_shift :
    (updateBarGraphFromMessageFrame c).shift = c.shift := by
  simp only [updateBarGraphFromMessageFrame]
  split <;> rfl

@[simp] theorem updateBarGraphFromMessageFrame_msg :
    (updateBarGraphFromMessageFrame c).msg = c.msg := by
  simp only [updateBarGraphFromMessageFrame]
  split <;> rfl

/-- "Publish only if changed" publishes the reading all the same. -/
theorem updateBarGraphFromMessageFrame_reading :
    ((updateBarGraphFromMessageFrame c).barStyle, (updateBarGraphFromMessageFrame c).bar) =
      barReading c.buf.inputBuf := by
  simp only [updateBarGraphFromMessageFrame]
  split
  · rfl
  · rename_i h
    obtain ⟨hs, hb⟩ : c.barStyle = (barReading c.buf.inputBuf).1 ∧
        c.bar = (barReading c.buf.inputBuf).2 := by simpa using h
    rw [hs, hb]

@[simp] theorem updateBarGraphFromMessageFrame_barStyle :
    (updateBarGraphFromMessageFrame c).barStyle = (barReading c.buf.inputBuf).1 :=
  congrArg Prod.fst (updateBarGraphFromMessageFrame_reading c)

@[simp] theorem updateBarGraphFromMessageFrame_bar :
    (updateBarGraphFromMessageFrame c).bar = (barReading c.buf.inputBuf).2 :=
  congrArg Prod.snd (updateBarGraphFromMessageFrame_reading c)

@[simp] theorem decodeControlFrame_msg : (decodeControlFrame c).msg = c.msg := by
  simp only [decodeControlFrame]
  split
  · rfl
  · split <;> rfl

@[simp] theorem publishAnnunciators_msg (h l : UInt8) :
    (publishAnnunciators c h l).msg = c.msg := by
  simp only [publishAnnunciators]
  split <;> rfl

@[simp] theorem decodeButton_msg : (decodeButton c now).msg = c.msg := by
  simp only [decodeButton]
  repeat' split <;> try rfl

@[simp] theorem processShiftWindow_msg : (processShiftWindow c now).msg = c.msg := by
  simp only [processShiftWindow]
  repeat' split <;> try rfl

@[simp] theorem decodeControlFrame_main : (decodeControlFrame c).main = c.main := by
  simp only [decodeControlFrame]
  split
  · rfl
  · split <;> rfl

@[simp] theorem publishAnnunciators_main (h l : UInt8) :
    (publishAnnunciators c h l).main = c.main := by
  simp only [publishAnnunciators]
  split <;> rfl

@[simp] theorem decodeButton_main : (decodeButton c now).main = c.main := by
  simp only [decodeButton]
  repeat' split <;> try rfl

@[simp] theorem processShiftWindow_main : (processShiftWindow c now).main = c.main := by
  simp only [processShiftWindow]
  repeat' split <;> try rfl

@[simp] theorem endFrame_main : c.endFrame.main = c.main := rfl

@[simp] theorem overflowGuard_main : (overflowGuard c).main = c.main := by
  simp only [overflowGuard]
  split <;> rfl

@[simp] theorem updateBarGraphFromMessageFrame_lastReading :
    (updateBarGraphFromMessageFrame c).lastReading = c.lastReading := by
  simp only [updateBarGraphFromMessageFrame]
  split <;> rfl

@[simp] theorem decodeControlFrame_lastReading :
    (decodeControlFrame c).lastReading = c.lastReading := by
  simp only [decodeControlFrame]
  split
  · rfl
  · split <;> rfl

@[simp] theorem publishAnnunciators_lastReading (h l : UInt8) :
    (publishAnnunciators c h l).lastReading = c.lastReading := by
  simp only [publishAnnunciators]
  split <;> rfl

@[simp] theorem decodeButton_lastReading : (decodeButton c now).lastReading = c.lastReading := by
  simp only [decodeButton]
  repeat' split <;> try rfl

@[simp] theorem processShiftWindow_lastReading :
    (processShiftWindow c now).lastReading = c.lastReading := by
  simp only [processShiftWindow]
  repeat' split <;> try rfl

@[simp] theorem endFrame_lastReading : c.endFrame.lastReading = c.lastReading := rfl

@[simp] theorem overflowGuard_lastReading : (overflowGuard c).lastReading = c.lastReading := by
  simp only [overflowGuard]
  split <;> rfl

@[simp] theorem endFrame_msg : c.endFrame.msg = c.msg := rfl

@[simp] theorem overflowGuard_msg : (overflowGuard c).msg = c.msg := by
  simp only [overflowGuard]
  split <;> rfl

end Fields

@[simp] theorem classify_msgWork (m : MessageAssembly) : m.classify.msgWork = m.msgWork := by
  simp only [MessageAssembly.classify]
  repeat' split <;> try rfl

@[simp] theorem classify_blinkWork (m : MessageAssembly) :
    m.classify.blinkWork = m.blinkWork := by
  simp only [MessageAssembly.classify]
  repeat' split <;> try rfl

theorem dispatch_buf (c : DmmContext) (now : UInt32) : (dispatch c now).1.buf = c.buf.next := by
  rcases hs : c.buf.frameState <;>
    simp only [dispatch, FrameBuffers.next, hs, frameInit, frameMessage, frameAnnunciators,
      frameControl, frameButton] <;>
    split_ifs <;> simp

theorem dispatch_acts (c : DmmContext) (now : UInt32) : (dispatch c now).2 = c.buf.acts := by
  rcases hs : c.buf.frameState <;>
    simp only [dispatch, FrameBuffers.acts, hs, frameMessage, frameAnnunciators, frameControl,
      frameButton] <;>
    split_ifs <;> first | rfl | (exfalso; omega) | simp_all

theorem processPair_buf (c : DmmContext) (p : SniffByte) (t : Clock) :
    (processPair c p t).1.buf = (c.buf.store p).next.guarded := by
  simp only [processPair, overflowGuard_buf, dispatch_buf]

theorem processPair_acts (c : DmmContext) (p : SniffByte) (t : Clock) :
    (processPair c p t).2 = (c.buf.store p).acts := by
  simp only [processPair, dispatch_acts]

/-- The message assembly after a byte pair: only the message state touches it. -/
theorem processPair_msg (c : DmmContext) (p : SniffByte) (t : Clock) :
    (processPair c p t).1.msg =
      if c.buf.frameState = .message then
        if (c.buf.store p).lastBytesAreEof then { c.msg.classify with workNeedReset := true }
        else c.msg.messageByte ((c.buf.store p).inputBuf.rd ((c.buf.store p).bufLen - 1))
      else c.msg := by
  have hstore : (c.buf.store p).frameState = c.buf.frameState := rfl
  rcases hs : c.buf.frameState <;>
    simp only [processPair, dispatch, hstore, hs, overflowGuard_msg, frameInit, frameMessage,
      frameAnnunciators, frameControl, frameButton] <;>
    split_ifs <;> simp_all [publishMessage]

/-- The byte pair `p` ends a message. -/
def DmmContext.EndsMessage (c : DmmContext) (p : SniffByte) : Prop :=
  c.buf.frameState = .message ∧ (c.buf.store p).lastBytesAreEof = true

instance (c : DmmContext) (p : SniffByte) : Decidable (c.EndsMessage p) :=
  inferInstanceAs (Decidable (_ ∧ _))

/-- The text on display after a byte pair: only the end of a message changes it. -/
theorem processPair_main (c : DmmContext) (p : SniffByte) (t : Clock) :
    (processPair c p t).1.main = if c.EndsMessage p then c.msg.msgWork else c.main := by
  have hstore : (c.buf.store p).frameState = c.buf.frameState := rfl
  rcases hs : c.buf.frameState <;>
    simp only [processPair, dispatch, hstore, hs, overflowGuard_main, frameInit, frameMessage,
      frameAnnunciators, frameControl, frameButton, DmmContext.EndsMessage] <;>
    split_ifs <;> simp_all [publishMessage]

/-- The last reading after a byte pair. -/
theorem processPair_lastReading (c : DmmContext) (p : SniffByte) (t : Clock) :
    (processPair c p t).1.lastReading =
      if c.EndsMessage p then
        if c.msg.classify.validReading = true then c.msg.msgWork else c.lastReading
      else c.lastReading := by
  have hstore : (c.buf.store p).frameState = c.buf.frameState := rfl
  rcases hs : c.buf.frameState <;>
    simp only [processPair, dispatch, hstore, hs, overflowGuard_lastReading, frameInit,
      frameMessage, frameAnnunciators, frameControl, frameButton, DmmContext.EndsMessage] <;>
    split_ifs <;> simp_all [publishMessage]

/-! ## Runs over a stream of pairs -/

/-- A byte pair with the clock readings made while it is processed. -/
abbrev Timed : Type := SniffByte × Clock

/-- The context after a stream of byte pairs. -/
def consume (c : DmmContext) (w : List Timed) : DmmContext :=
  Machine.run (fun c x => (processPair c x.1 x.2).1) c w

/-- The frames acted upon while a stream of byte pairs is consumed. -/
def acted (c : DmmContext) (w : List Timed) : List Frame :=
  Machine.trace (fun c x => (processPair c x.1 x.2).1)
    (fun c x => (processPair c x.1 x.2).2.toList) c w

/-- The EOF test on a pair just stored. -/
theorem store_eof_iff {b : FrameBuffers} (hlen : b.bufLen < INPUT_BUF_SIZE) (p : SniffByte) :
    (b.store p).lastBytesAreEof = true ↔ p = eofPair := by
  obtain ⟨i, o⟩ := p
  simp [FrameBuffers.lastBytesAreEof, FrameBuffers.store, CArray.rd_wr_self _ hlen, eofPair]

/-- The newest input byte is the one just stored. -/
theorem store_last_input {b : FrameBuffers} (hlen : b.bufLen < INPUT_BUF_SIZE) (p : SniffByte) :
    (b.store p).inputBuf.rd ((b.store p).bufLen - 1) = p.input := by
  simp [FrameBuffers.store, CArray.rd_wr_self _ hlen]

/-- A frame boundary: no pair is collected and the next one starts a frame. -/
structure DmmContext.AtBoundary (c : DmmContext) : Prop where
  state : c.buf.frameState = .unknown
  len : c.buf.bufLen = 0

/-- Every state tests for EOF: after an EOF pair the parser is at a boundary. -/
theorem processPair_eof {c : DmmContext} (hlen : c.buf.bufLen < INPUT_BUF_SIZE) (t : Clock) :
    (processPair c eofPair t).1.AtBoundary := by
  have heof := (store_eof_iff hlen eofPair).mpr rfl
  have hbuf := processPair_buf c eofPair t
  rw [FrameBuffers.next_of_eof heof] at hbuf
  exact ⟨by rw [hbuf]; rfl, by rw [hbuf]; rfl⟩

/-- A run never leaves the frame buffer full. -/
theorem consume_len {c : DmmContext} (hlen : c.buf.bufLen < INPUT_BUF_SIZE) (w : List Timed) :
    (consume c w).buf.bufLen < INPUT_BUF_SIZE :=
  Machine.run_invariant (P := fun c : DmmContext => c.buf.bufLen < INPUT_BUF_SIZE)
    (fun c x _ => by rw [processPair_buf]; exact FrameBuffers.guarded_len _) hlen w

/-! ## Histories

What the decoder goes through: byte pairs consumed, the check of the SHIFT window
at the start of a call, resets handled, and interrupts in between. -/

/-- One step of the decoder's history. -/
inductive Event where
  /-- a byte pair is consumed -/
  | pair (p : SniffByte) (t : Clock)
  /-- the SHIFT window is checked -/
  | tick (now_us : UInt32)
  /-- a reset is handled -/
  | reset
  /-- an interrupt handler writes its part of the context -/
  | interrupt (sniff : SniffState) (dbg : Debug)

/-- The context after one step. -/
def DmmContext.step (c : DmmContext) : Event → DmmContext
  | .pair p t => (processPair c p t).1
  | .tick now_us => processShiftWindow c now_us
  | .reset => processReset c
  | .interrupt sniff dbg => { c with sniff := sniff, dbg := dbg }

/-- The FIFO's producer is an interrupt. -/
theorem fifoAppend_eq_step (c : DmmContext) :
    fifoAppend c = c.step (.interrupt (fifoAppend c).sniff (fifoAppend c).dbg) := by
  simp only [fifoAppend]
  split <;> rfl

/-- So is the reset line. -/
theorem decoder34401Reset_eq_step (c : DmmContext) (now_us : UInt32) :
    decoder34401Reset c now_us =
      c.step (.interrupt (decoder34401Reset c now_us).sniff (decoder34401Reset c now_us).dbg) :=
  rfl

/-- The loop of `decoder34401_process` consumes pairs and handles resets. -/
theorem processLoop_eq_run (n : Nat) (c : DmmContext) (clk : Nat → Clock) :
    ∃ es : List Event, processLoop n c clk = Machine.run DmmContext.step c es := by
  induction n generalizing c clk with
  | zero => exact ⟨[], rfl⟩
  | succ n ih =>
    rw [processLoop]
    split
    · exact ⟨[.reset], rfl⟩
    split
    · obtain ⟨es, hes⟩ := ih (processPair (fifoAdvance c) (c.sniff.byteFifo.rd c.sniff.fifoRd)
        (clk 0)).1 fun i => clk (i + 1)
      rw [hes]
      exact ⟨.interrupt (fifoAdvance c).sniff c.dbg ::
        .pair (c.sniff.byteFifo.rd c.sniff.fifoRd) (clk 0) :: es, rfl⟩
    · exact ⟨[], rfl⟩

/-- A call of `decoder34401_process` is a run of the decoder's history. -/
theorem decoder34401Process_eq_run (c : DmmContext) (clk : ProcessClock) :
    ∃ es : List Event, decoder34401Process c clk = Machine.run DmmContext.step c es := by
  obtain ⟨es, hes⟩ := processLoop_eq_run BYTE_FIFO_SIZE (processShiftWindow c clk.shift) clk.pair
  let c' := Machine.run DmmContext.step (processShiftWindow c clk.shift) es
  let dbg := { c'.dbg with maxProcessUs := max c'.dbg.maxProcessUs (clk.stop - clk.start) }
  refine ⟨.tick clk.shift :: es ++ [.interrupt c'.sniff dbg], ?_⟩
  rw [decoder34401Process, hes, Machine.run_append]
  rfl

/-- The contexts the decoder can be in. -/
def DmmContext.Reachable (c : DmmContext) : Prop :=
  Machine.Reachable (· = decoder34401Init) DmmContext.step c

theorem DmmContext.Reachable.consume {c : DmmContext} (h : c.Reachable) (w : List Timed) :
    (LcdPico.consume c w).Reachable := by
  induction w generalizing c with
  | nil => exact h
  | cons x w ih =>
    have h' : (processPair c x.1 x.2).1.Reachable :=
      Machine.Reachable.step (Event.pair x.1 x.2) h
    exact ih h'

/-- No step leaves the frame buffer full. -/
theorem DmmContext.step_len {c : DmmContext} (hc : c.buf.bufLen < INPUT_BUF_SIZE) (e : Event) :
    (c.step e).buf.bufLen < INPUT_BUF_SIZE := by
  cases e with
  | pair p t =>
    rw [DmmContext.step, processPair_buf]
    exact FrameBuffers.guarded_len _
  | tick now_us =>
    rw [DmmContext.step, processShiftWindow_buf]
    exact hc
  | reset => exact hc
  | interrupt sniff dbg => exact hc

/-- The frame buffer has room in every reachable context. -/
theorem DmmContext.Reachable.len {c : DmmContext} (h : c.Reachable) :
    c.buf.bufLen < INPUT_BUF_SIZE := by
  refine Machine.Reachable.invariant (P := fun c : DmmContext => c.buf.bufLen < INPUT_BUF_SIZE)
    ?_ (fun c e hc => DmmContext.step_len hc e) h
  rintro _ rfl
  decide

/-- The events that deliver the pairs `ps` at time 0. -/
def deliver (ps : List SniffByte) : List Event := ps.map fun p => .pair p ⟨0, 0⟩

/-- The context after the pairs `ps` from power-up. -/
def after (ps : List SniffByte) : DmmContext :=
  Machine.run DmmContext.step decoder34401Init (deliver ps)

theorem after_reachable (ps : List SniffByte) : (after ps).Reachable := by
  have hinit : decoder34401Init.Reachable := .init rfl
  exact Machine.Reachable.run hinit _

/-- The pairs of a message frame with the bytes `text`. -/
def messagePairs (text : List UInt8) : List SniffByte :=
  [⟨0x00, 0x00⟩, ⟨0x7f, 0x00⟩] ++ text.map (fun b => ⟨b, 0x00⟩) ++ [eofPair]

/-- The context after a message with the bytes of `s`, from power-up. -/
def afterMessage (s : String) : DmmContext := after (eofPair :: messagePairs (bytes s))

theorem afterMessage_reachable (s : String) : (afterMessage s).Reachable := after_reachable _

end LcdPico
