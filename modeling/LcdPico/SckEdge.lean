import LcdPico.ByteFifo

/-!
# The clock interrupt (`decoder34401_sckedge`)

At every edge of the bus clock the handler samples both data lines fifteen times,
lets the majority decide, and shifts one bit into each accumulator. Eight bits make
a pair for the FIFO. A gap in the middle of a byte ends it: what was collected is
replaced by an EOF pair.

`BusAction` is what happens to the decoder from outside: an edge, the reset line, or
the next action of `decoder34401_process`.
-/

namespace LcdPico

/-! ## The handler -/

def MAX_SCK_DELAY_US : UInt32 := 1500
/-- An odd number. -/
def SAMPLE_COUNT : Nat := 15

/-! Pins of the board (`boards/34401A.h`). -/

def DI_PIN : UInt32 := 16
def DO_PIN : UInt32 := 4

/-- What the handler reads at one edge: the clock three times, and all pins
`SAMPLE_COUNT` times. -/
structure Edge where
  now_us : UInt32
  pins : Vector UInt32 SAMPLE_COUNT
  sampled_us : UInt32
  end_us : UInt32

namespace Edge

/-- The number of samples in which the pin is high. -/
def high (e : Edge) (pin : UInt32) : Nat := e.pins.toList.countP fun p => p &&& (1 <<< pin) != 0

/-- The majority of the samples. -/
def level (e : Edge) (pin : UInt32) : Bool := SAMPLE_COUNT / 2 < e.high pin

/-- The samples differ. -/
def noisy (e : Edge) (pin : UInt32) : Bool := !(e.high pin == 0 || e.high pin == SAMPLE_COUNT)

end Edge

/-- The noise counters. -/
def noiseDebug (d : Debug) (e : Edge) : Debug :=
  { d with
    doNoiseCount := if e.noisy DO_PIN then d.doNoiseCount + 1 else d.doNoiseCount
    diNoiseCount := if e.noisy DI_PIN then d.diNoiseCount + 1 else d.diNoiseCount
    intLenUs := e.sampled_us - e.now_us }

/-- A gap in the middle of a byte: an EOF pair takes its place. -/
def midByteGap (c : DmmContext) (now_us : UInt32) : DmmContext :=
  let c := { c with dbg := { c.dbg with
    midByteGapInput := c.sniff.inputAcc
    midByteGapOutput := c.sniff.outputAcc
    midByteGapBits := c.sniff.byteLen } }
  let c := fifoAppend { c with sniff := { c.sniff with inputAcc := 0x00, outputAcc := 0xbb } }
  { c with dbg := { c.dbg with
    midByteGapCount := c.dbg.midByteGapCount + 1
    midByteGapLastTime := now_us
    midByteGapLastUs := c.dbg.sckGapUs
    midByteGapMaxUs := max c.dbg.midByteGapMaxUs c.dbg.sckGapUs } }

/-- Mid-byte gap detection (power-on / pause). -/
def detectGap (c : DmmContext) (now_us : UInt32) : DmmContext :=
  if c.sniff.lastUs > 0 then
    let gap := now_us - c.sniff.lastUs
    let c := { c with dbg := { c.dbg with
      sckGapUs := gap
      sckGapUsMax := max c.dbg.sckGapUsMax gap } }
    if c.sniff.byteLen ≠ 0 ∧ gap > MAX_SCK_DELAY_US then midByteGap c now_us else c
  else c

/-- Read in one bit from the DO and DI pins. -/
def shiftBit (s : SniffState) (do_pin di_pin : Bool) : SniffState :=
  { s with
    outputAcc := (s.outputAcc <<< 1) ||| (if do_pin then 1 else 0)
    inputAcc := (s.inputAcc <<< 1) ||| (if di_pin then 1 else 0)
    byteLen := s.byteLen + 1 }

def decoder34401Sckedge (c : DmmContext) (e : Edge) : DmmContext :=
  let c := detectGap { c with dbg := noiseDebug c.dbg e } e.now_us
  let c := { c with
    sniff := shiftBit { c.sniff with lastUs := e.now_us } (e.level DO_PIN) (e.level DI_PIN) }
  let c := if 8 ≤ c.sniff.byteLen then fifoAppend c else c
  { c with dbg := { c.dbg with
    sckCount := c.dbg.sckCount + 1
    intLenUs := e.end_us - e.now_us } }

/-! ## The bus -/

/-- What happens to the decoder. -/
inductive BusAction where
  /-- an edge of the clock -/
  | sckedge (e : Edge)
  /-- the reset line -/
  | reset (now_us : UInt32)
  /-- the decoder does its next action; `t` is what `micros32` reads -/
  | consumer (t : Clock)

namespace ProcessState

/-- One action on the bus. The accounts of the FIFO are not kept here. -/
def busStep (s : ProcessState) : BusAction → ProcessState
  | .sckedge e => { s with ctx := decoder34401Sckedge s.ctx e }
  | .reset now_us => { s with ctx := decoder34401Reset s.ctx now_us }
  | .consumer t => s.consumerStep t

/-- The states that any interleaving reaches from power-up. -/
def BusReachable (s : ProcessState) : Prop := Machine.Reachable (· = init) busStep s

end ProcessState

/-! ## The handler touches the sniff state only -/

theorem detectGap_eq_step (c : DmmContext) (now_us : UInt32) :
    ∃ sniff dbg, detectGap c now_us = c.step (.interrupt sniff dbg) := by
  simp only [detectGap]
  split
  · split
    · simp only [midByteGap, fifoAppend]
      split
      · exact ⟨_, _, rfl⟩
      · exact ⟨_, _, rfl⟩
    · exact ⟨_, _, rfl⟩
  · exact ⟨_, _, rfl⟩

/-- An edge is an interrupt of the decoder's history. -/
theorem decoder34401Sckedge_eq_step (c : DmmContext) (e : Edge) :
    ∃ sniff dbg, decoder34401Sckedge c e = c.step (.interrupt sniff dbg) := by
  obtain ⟨sniff, dbg, hgap⟩ := detectGap_eq_step { c with dbg := noiseDebug c.dbg e } e.now_us
  simp only [decoder34401Sckedge, hgap]
  split
  · simp only [fifoAppend]
    split
    · exact ⟨_, _, rfl⟩
    · exact ⟨_, _, rfl⟩
  · exact ⟨_, _, rfl⟩

/-! ## The sniff state -/

/-- The ring indices point into the FIFO, and fewer than eight bits are pending. -/
structure SniffState.Ok (s : SniffState) : Prop where
  rd : s.fifoRd < BYTE_FIFO_SIZE
  wr : s.fifoWr < BYTE_FIFO_SIZE
  bits : s.byteLen ≤ 7

theorem mask_lt (i : Nat) : i &&& BYTE_FIFO_MASK < BYTE_FIFO_SIZE := by
  rw [and_mask]
  exact Nat.mod_lt _ (by decide)

/-- An append leaves no bits pending, whether it finds room or not. -/
theorem fifoAppend_ok {c : DmmContext} (hrd : c.sniff.fifoRd < BYTE_FIFO_SIZE)
    (hwr : c.sniff.fifoWr < BYTE_FIFO_SIZE) : (fifoAppend c).sniff.Ok := by
  simp only [fifoAppend]
  split
  · exact ⟨hrd, hwr, by simp⟩
  · exact ⟨hrd, mask_lt _, by simp⟩

theorem detectGap_ok {c : DmmContext} (h : c.sniff.Ok) (now_us : UInt32) :
    (detectGap c now_us).sniff.Ok := by
  simp only [detectGap]
  split
  · split
    · exact fifoAppend_ok h.rd h.wr
    · exact h
  · exact h

/-- The eighth bit completes a pair. -/
theorem decoder34401Sckedge_ok {c : DmmContext} (h : c.sniff.Ok) (e : Edge) :
    (decoder34401Sckedge c e).sniff.Ok := by
  have hgap := detectGap_ok (c := { c with dbg := noiseDebug c.dbg e }) h e.now_us
  simp only [decoder34401Sckedge]
  split
  · exact fifoAppend_ok hgap.rd hgap.wr
  · rename_i hbits
    refine ⟨hgap.rd, hgap.wr, ?_⟩
    simp only [UInt8.le_iff_toNat_le, shiftBit] at hbits ⊢
    have h7 : (7 : UInt8).toNat = 7 := rfl
    have h8 : (8 : UInt8).toNat = 8 := rfl
    omega

theorem SniffState.Ok.of_view {c c' : DmmContext} (h : c.sniff.Ok)
    (hview : c'.fifoView = c.fifoView) : c'.sniff.Ok := by
  have hsniff : c'.sniff = c.sniff := congrArg DmmContext.FifoView.sniff hview
  rw [hsniff]
  exact h

/-- The decoder's actions keep the pending bits, and the read index in the ring. -/
theorem consumerStep_ok {s : ProcessState} (h : s.ctx.sniff.Ok) (t : Clock) :
    (s.consumerStep t).ctx.sniff.Ok := by
  cases hpc : s.pc with
  | idle =>
    simp only [ProcessState.consumerStep, hpc]
    exact h.of_view (processShiftWindow_fifoView _ _)
  | testFifo =>
    simp only [ProcessState.consumerStep, hpc]
    exact h
  | testReset =>
    simp only [ProcessState.consumerStep, hpc]
    exact h
  | check =>
    simp only [ProcessState.consumerStep, hpc]
    split
    · exact ⟨h.rd, h.wr, h.bits⟩
    · exact h
  | readIn =>
    simp only [ProcessState.consumerStep, hpc]
    exact h
  | readOut =>
    simp only [ProcessState.consumerStep, hpc]
    exact h
  | advance =>
    simp only [ProcessState.consumerStep, hpc]
    exact ⟨mask_lt _, h.wr, h.bits⟩
  | handle =>
    simp only [ProcessState.consumerStep, hpc]
    exact h.of_view (processPair_fifoView _ _ _)
  | finish =>
    simp only [ProcessState.consumerStep, hpc]
    exact h

namespace ProcessState

/-- What every interleaving keeps: the context is one of the decoder's history, and
the sniff state is in order. -/
structure BusInv (s : ProcessState) : Prop where
  history : s.ctx.Reachable
  sniff : s.ctx.sniff.Ok

theorem BusReachable.inv {s : ProcessState} (h : s.BusReachable) : s.BusInv := by
  refine Machine.Reachable.invariant (P := BusInv) ?_ ?_ h
  · rintro _ rfl
    exact ⟨.init rfl, ⟨by decide, by decide, by decide⟩⟩
  · rintro s a ⟨hctx, hsniff⟩
    cases a with
    | sckedge e =>
      obtain ⟨sniff, dbg, hstep⟩ := decoder34401Sckedge_eq_step s.ctx e
      refine ⟨?_, decoder34401Sckedge_ok hsniff e⟩
      rw [busStep, hstep]
      exact Machine.Reachable.step (Event.interrupt sniff dbg) hctx
    | reset now_us =>
      refine ⟨?_, ⟨hsniff.rd, hsniff.wr, by simp [busStep, decoder34401Reset]⟩⟩
      exact Machine.Reachable.step (Event.interrupt _ (decoder34401Reset s.ctx now_us).dbg) hctx
    | consumer t => exact ⟨consumerStep_reachable hctx t, consumerStep_ok hsniff t⟩

end ProcessState

end LcdPico
