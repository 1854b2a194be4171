import LcdPico.Bounds
import LcdPico.SckEdge
import LcdPico.Lib.CheckedArray

/-!
# The decoder with checked accesses

`f?` is the source function `f` once more, with every element of an array read and
written through a checked access: it gets stuck where the source would leave the
array. A checked function makes at least the accesses of the source; where the source
saves a read by `&&` it may make one more.

Under the bounds that every reachable state keeps, no checked function gets stuck,
and it computes what the model computes. `decoder_in_bounds` says so of every
action on the bus.
-/

namespace LcdPico

/-! ## Frame buffers -/

namespace FrameBuffers

def store? (b : FrameBuffers) (p : SniffByte) : Option FrameBuffers := do
  let inputBuf ← b.inputBuf.wr? b.bufLen p.input
  let outputBuf ← b.outputBuf.wr? b.bufLen p.output
  return { b with inputBuf := inputBuf, outputBuf := outputBuf, bufLen := b.bufLen + 1 }

def lastBytesAreEof? (b : FrameBuffers) : Option Bool :=
  if 0 < b.bufLen then do
    let input ← b.inputBuf.rd? (b.bufLen - 1)
    let output ← b.outputBuf.rd? (b.bufLen - 1)
    return input == 0x00 && output == 0xbb
  else return false

end FrameBuffers

/-- The header test of `FRAME_UNKNOWN`: `buf_len == 1 && ...`. -/
def opensButton? (b : FrameBuffers) : Option Bool :=
  if b.bufLen = 1 then do
    let input ← b.inputBuf.rd? 0
    let output ← b.outputBuf.rd? 0
    return input == 0x00 && output == 0x77
  else return false

def frameUnknown? (b : FrameBuffers) : Option FrameBuffers := do
  let eof ← b.lastBytesAreEof?
  let button ← opensButton? b
  if eof then return b.endFrame
  else if button then return { b with frameState := .button }
  else if 2 ≤ b.bufLen then do
    let input₀ ← b.inputBuf.rd? 0
    let input₁ ← b.inputBuf.rd? 1
    if input₀ = 0x00 ∧ input₁ &&& 0x7f = 0x7f then return { b with frameState := .message }
    else if input₀ &&& 0x7f = 0x7f ∧ input₁ = 0x00 then
      return { b with frameState := .annunciators }
    else return { b with frameState := .control }
  else return b

/-! ## Message assembly -/

namespace MessageAssembly

def dmmPutcSafe? (m : MessageAssembly) (c : UInt8) : Option MessageAssembly :=
  if DISPLAY_BUF_LEN - 1 ≤ m.msgIdx then return m
  else do
    let msgWork ← m.msgWork.wr? m.msgIdx (if isprint c then c else 0x20)
    let m' := { m with msgWork := msgWork, msgIdx := m.msgIdx + 1 }
    if m'.corruptMsg then return m'
    else if !isprint c || iscntrl c then return { m' with corruptMsg := true }
    else return m'

def resetWork? (m : MessageAssembly) : Option MessageAssembly :=
  if m.workNeedReset then do
    let msgWork ← m.msgWork.writeAll? (fun _ => some 0x20) (DISPLAY_BUF_LEN - 2)
    let msgWork ← msgWork.wr? (DISPLAY_BUF_LEN - 2) 0
    let msgWork ← msgWork.wr? (DISPLAY_BUF_LEN - 1) 0
    return {
      msgIdx := 0
      workNeedReset := false
      corruptMsg := false
      menuMsg := false
      validReading := false
      msgWork := msgWork
      blinkWork := 0 }
  else return m

def putByte? (m : MessageAssembly) (byte : UInt8) : Option MessageAssembly :=
  if byte = 0x84 then m.dmmPutcSafe? 0x2e
  else if byte = 0x86 then m.dmmPutcSafe? 0x2c
  else if byte = 0x8d then
    let m' :=
      if 0 < m.msgIdx then
        { m with blinkWork := m.blinkWork ||| UInt16.ofNat (1 <<< (m.msgIdx - 1)) }
      else m
    m'.dmmPutcSafe? 0x3a
  else if byte = 0x8c then m.dmmPutcSafe? 0x3a
  else if byte = 0x81 then return m
  else if byte = 0x00 then return m
  else m.dmmPutcSafe? byte

def messageByte? (m : MessageAssembly) (byte : UInt8) : Option MessageAssembly := do
  let m ← m.resetWork?
  m.putByte? byte

end MessageAssembly

/-- A scanner on the characters of an array, stuck at the end of the array. -/
def scanYy? (yy : Nat → Label) : Nat → List UInt8 → Option Bool
  | _, [] => none
  | q, c :: s =>
    match yy (gotoYy yy q c) with
    | .ret b => some b
    | _ => scanYy? yy (gotoYy yy q c) s

def MessageAssembly.classify? (m : MessageAssembly) : Option MessageAssembly :=
  if m.corruptMsg then return m
  else do
    let reading ← scanYy? validReadingYy 0 m.msgWork.toList
    let menu ← scanYy? inMenuYy 43 m.msgWork.toList
    let text ← scanYy? textDisplayYy 148 m.msgWork.toList
    if reading then return { m with validReading := true }
    else if menu then return { m with menuMsg := true }
    else if text then return m
    else return { m with corruptMsg := true }

/-! ## Handlers -/

def barScan? (inputBuf : CArray UInt8 INPUT_BUF_SIZE) (limit : Nat) :
    Nat → Nat → Int → Option Int
  | 0, _, barvalue => some barvalue
  | k + 1, cnt, barvalue =>
    if cnt < limit then do
      let c ← inputBuf.rd? (8 - (k + 1))
      if isdigit c then barScan? inputBuf limit k (cnt + 1) (10 * barvalue + (c.toNat - 0x30))
      else barScan? inputBuf limit k cnt barvalue
    else some barvalue

def barReading? (inputBuf : CArray UInt8 INPUT_BUF_SIZE) : Option (UInt8 × Int) := do
  let c ← inputBuf.rd? 2
  if isdigit c then do
    let barvalue ← barScan? inputBuf 4 6 0 0
    return (0, barvalue)
  else do
    let barvalue ← barScan? inputBuf 3 5 0 0
    return (1, if c == 0x2d then -barvalue else barvalue)

def updateBarGraphFromMessageFrame? (c : DmmContext) : Option DmmContext := do
  let (style, barvalue) ← barReading? c.buf.inputBuf
  if c.barStyle != style || c.bar != barvalue then
    return { c with
      barStyle := style
      bar := barvalue
      newDataCounter := c.newDataCounter + 1
      barCounter := c.barCounter + 1 }
  else return c

def decodeControlFrame? (c : DmmContext) : Option DmmContext :=
  if c.buf.bufLen < 2 then return c
  else do
    let input₀ ← c.buf.inputBuf.rd? 0
    let input₁ ← c.buf.inputBuf.rd? 1
    match controlBlink.lookup ((input₀.toUInt16 <<< 8) ||| input₁.toUInt16) with
    | some i =>
      return { c with
        blinkMask := UInt16.ofNat (1 <<< i)
        newDataCounter := c.newDataCounter + 1
        mainCounter := c.mainCounter + 1 }
    | none => return c

def buttonCode? (b : FrameBuffers) : Option UInt32 := do
  let output₀ ← b.outputBuf.rd? 0
  let output₁ ← b.outputBuf.rd? 1
  let output₂ ← b.outputBuf.rd? 2
  return (output₀.toUInt32 <<< 16) ||| (output₁.toUInt32 <<< 8) ||| output₂.toUInt32

def decodeButton? (c : DmmContext) (now_us : UInt32) : Option DmmContext := do
  let code ← buttonCode? c.buf
  if code = 7839183 then
    if !c.shift.active then
      return { c with shift := { startUs := now_us, pressCount := 1, active := true } }
    else
      return { c with shift := { c.shift with
        pressCount := c.shift.pressCount + 1
        startUs := now_us } }
  else
    let c := { c with shift := { c.shift with active := false, pressCount := 0 } }
    if c.annState &&& 0x0800 != 0 then
      return { c with
        annState := c.annState &&& ~~~0x0800
        newDataCounter := c.newDataCounter + 1
        annCounter := c.annCounter + 1 }
    else return c

def processReset? (c : DmmContext) : Option DmmContext := do
  let main ← c.main.writeAll? (fun _ => some 0) DISPLAY_BUF_LEN
  let main ← main.writeAll? (fun i => some ((bytes "SYSTEM RESET  ").getD i 0)) DISPLAY_BUF_LEN
  return { processReset c with main := main }

def publishMessage? (c : DmmContext) (now_us : UInt32) : Option DmmContext := do
  let m ← c.msg.classify?
  let main ← c.main.writeAll? m.msgWork.rd? DISPLAY_BUF_LEN
  let lastReading ←
    if m.validReading then c.lastReading.writeAll? m.msgWork.rd? DISPLAY_BUF_LEN
    else some c.lastReading
  let c ← updateBarGraphFromMessageFrame? { c with
    msg := m
    main := main
    lastReading := lastReading
    blinkMask := m.blinkWork
    newDataCounter := c.newDataCounter + 1
    mainCounter := c.mainCounter + 1
    dbg := mainMessageTiming c.dbg m.corruptMsg now_us }
  return { c with msg := { c.msg with workNeedReset := true } }

/-! ## One byte pair -/

def frameMessage? (c : DmmContext) (now_us : UInt32) (eof : Bool) : Option DmmContext :=
  if eof then do
    let c ← publishMessage? c now_us
    return c.endFrame
  else do
    let input ← c.buf.inputBuf.rd? (c.buf.bufLen - 1)
    let msg ← c.msg.messageByte? input
    return { c with msg := msg }

def frameAnnunciators? (c : DmmContext) (eof : Bool) : Option DmmContext :=
  if eof then
    if 4 ≤ c.buf.bufLen then do
      let h ← c.buf.inputBuf.rd? 3
      let l ← c.buf.inputBuf.rd? 2
      return (publishAnnunciators c h l).endFrame
    else return c.endFrame
  else return c

def frameControl? (c : DmmContext) (eof : Bool) : Option DmmContext :=
  if eof then do
    let c ← decodeControlFrame? c
    return c.endFrame
  else return c

def frameButton? (c : DmmContext) (now_us : UInt32) (eof : Bool) : Option DmmContext :=
  if eof then return c.endFrame
  else if 1 ≤ c.buf.bufLen then do
    let input ← c.buf.inputBuf.rd? (c.buf.bufLen - 1)
    if input = 0x66 then
      if 3 ≤ c.buf.bufLen then do
        let c ← decodeButton? c now_us
        return c.endFrame
      else return c.endFrame
    else return c
  else return c

def dispatch? (c : DmmContext) (now_us : UInt32) : Option DmmContext := do
  let eof ← c.buf.lastBytesAreEof?
  match c.buf.frameState with
  | .init => return if eof then c.endFrame else c
  | .unknown => do
    let buf ← frameUnknown? c.buf
    return { c with buf := buf }
  | .message => frameMessage? c now_us eof
  | .annunciators => frameAnnunciators? c eof
  | .control => frameControl? c eof
  | .button => frameButton? c now_us eof

def processPair? (c : DmmContext) (p : SniffByte) (t : Clock) : Option DmmContext := do
  let buf ← c.buf.store? p
  let c ← dispatch? { c with dbg := anyByteTiming c.dbg t.any, buf := buf } t.frame
  return overflowGuard c

/-! ## Interrupts -/

def fifoAppend? (c : DmmContext) : Option DmmContext := do
  let nextWr := (c.sniff.fifoWr + 1) &&& BYTE_FIFO_MASK
  let c ←
    if nextWr = c.sniff.fifoRd then
      some { c with dbg := { c.dbg with byteOverrunCount := c.dbg.byteOverrunCount + 1 } }
    else do
      let level : UInt32 :=
        (UInt32.ofNat nextWr - UInt32.ofNat c.sniff.fifoRd) &&& UInt32.ofNat BYTE_FIFO_MASK
      let byteFifo ← c.sniff.byteFifo.wr? c.sniff.fifoWr ⟨c.sniff.inputAcc, c.sniff.outputAcc⟩
      some { c with
        sniff := { c.sniff with byteFifo := byteFifo, fifoWr := nextWr }
        dbg := { c.dbg with fifoLevel := level, fifoLevelMax := max c.dbg.fifoLevelMax level } }
  return { c with sniff := { c.sniff with byteLen := 0 } }

def midByteGap? (c : DmmContext) (now_us : UInt32) : Option DmmContext := do
  let c := { c with dbg := { c.dbg with
    midByteGapInput := c.sniff.inputAcc
    midByteGapOutput := c.sniff.outputAcc
    midByteGapBits := c.sniff.byteLen } }
  let c ← fifoAppend? { c with sniff := { c.sniff with inputAcc := 0x00, outputAcc := 0xbb } }
  return { c with dbg := { c.dbg with
    midByteGapCount := c.dbg.midByteGapCount + 1
    midByteGapLastTime := now_us
    midByteGapLastUs := c.dbg.sckGapUs
    midByteGapMaxUs := max c.dbg.midByteGapMaxUs c.dbg.sckGapUs } }

def detectGap? (c : DmmContext) (now_us : UInt32) : Option DmmContext :=
  if c.sniff.lastUs > 0 then
    let gap := now_us - c.sniff.lastUs
    let c := { c with dbg := { c.dbg with
      sckGapUs := gap
      sckGapUsMax := max c.dbg.sckGapUsMax gap } }
    if c.sniff.byteLen ≠ 0 ∧ gap > MAX_SCK_DELAY_US then midByteGap? c now_us else some c
  else some c

def decoder34401Sckedge? (c : DmmContext) (e : Edge) : Option DmmContext := do
  let c ← detectGap? { c with dbg := noiseDebug c.dbg e } e.now_us
  let c := { c with
    sniff := shiftBit { c.sniff with lastUs := e.now_us } (e.level DO_PIN) (e.level DI_PIN) }
  let c ← if 8 ≤ c.sniff.byteLen then fifoAppend? c else some c
  return { c with dbg := { c.dbg with
    sckCount := c.dbg.sckCount + 1
    intLenUs := e.end_us - e.now_us } }

/-! ## Actions on the bus -/

namespace ProcessState

def consumerStep? (s : ProcessState) (t : Clock) : Option ProcessState :=
  match s.pc with
  | .check =>
    if s.ctx.sniff.resetReceived then do
      let ctx ← processReset? s.ctx
      return { s with ctx := ctx, pc := .finish }
    else return { s with pc := .readIn }
  | .readIn => do
    let slot ← s.ctx.sniff.byteFifo.rd? s.ctx.sniff.fifoRd
    return { s with input_byte := slot.input, pc := .readOut }
  | .readOut => do
    let slot ← s.ctx.sniff.byteFifo.rd? s.ctx.sniff.fifoRd
    return { s with output_byte := slot.output, pc := .advance }
  | .handle => do
    let ctx ← processPair? s.ctx ⟨s.input_byte, s.output_byte⟩ t
    return { s with ctx := ctx, pc := .testFifo }
  | _ => return s.consumerStep t

def busStep? (s : ProcessState) : BusAction → Option ProcessState
  | .sckedge e => do
    let ctx ← decoder34401Sckedge? s.ctx e
    return { s with ctx := ctx }
  | .reset now_us => return { s with ctx := decoder34401Reset s.ctx now_us }
  | .consumer t => s.consumerStep? t

end ProcessState

/-! ## No access is stuck: the frame buffers -/

namespace FrameBuffers

variable {b : FrameBuffers}

theorem store?_eq (h : b.bufLen < INPUT_BUF_SIZE) (p : SniffByte) :
    b.store? p = some (b.store p) := by
  simp only [store?, CArray.wr?_eq _ h]
  rfl

theorem lastBytesAreEof?_eq (h : b.bufLen ≤ INPUT_BUF_SIZE) :
    b.lastBytesAreEof? = some b.lastBytesAreEof := by
  rw [lastBytesAreEof?, lastBytesAreEof]
  by_cases hpos : 0 < b.bufLen
  · have hlast : b.bufLen - 1 < INPUT_BUF_SIZE := by omega
    rw [if_pos hpos, CArray.rd?_eq _ hlast, CArray.rd?_eq _ hlast]
    simp [hpos]
  · rw [if_neg hpos]
    simp [hpos]

end FrameBuffers

theorem frameUnknown?_eq {b : FrameBuffers} (h : b.bufLen ≤ INPUT_BUF_SIZE) :
    frameUnknown? b = some (frameUnknown b) := by
  have hbutton : opensButton? b =
      some (decide (b.bufLen = 1 ∧ b.inputBuf.rd 0 = 0x00 ∧ b.outputBuf.rd 0 = 0x77)) := by
    rw [opensButton?]
    by_cases hone : b.bufLen = 1
    · rw [if_pos hone, CArray.rd?_eq _ (by decide), CArray.rd?_eq _ (by decide)]
      simp only [Option.bind_eq_bind, Option.bind_some, hone, true_and, Bool.decide_and]
      rfl
    · rw [if_neg hone]
      simp [hone]
  simp only [frameUnknown?, frameUnknown, FrameBuffers.lastBytesAreEof?_eq h, hbutton,
    CArray.rd?_eq b.inputBuf (show 0 < INPUT_BUF_SIZE by decide),
    CArray.rd?_eq b.inputBuf (show 1 < INPUT_BUF_SIZE by decide), Option.bind_eq_bind,
    Option.bind_some, decide_eq_true_eq]
  split_ifs <;> rfl

/-! ## The message assembly -/

namespace MessageAssembly

variable {m : MessageAssembly}

theorem dmmPutcSafe?_eq (c : UInt8) : m.dmmPutcSafe? c = some (m.dmmPutcSafe c) := by
  rw [dmmPutcSafe?, dmmPutcSafe]
  by_cases hidx : DISPLAY_BUF_LEN - 1 ≤ m.msgIdx
  · rw [if_pos hidx, if_pos hidx]
    rfl
  · rw [if_neg hidx, if_neg hidx, CArray.wr?_eq _ (by omega)]
    simp only [Option.bind_eq_bind, Option.bind_some]
    split_ifs <;> rfl

theorem putByte?_eq (byte : UInt8) : m.putByte? byte = some (m.putByte byte) := by
  simp only [putByte?, putByte, dmmPutcSafe?_eq]
  split_ifs <;> rfl

/-- Fourteen spaces and two NULs, however they are written. -/
theorem blankText_of_rd {a : DisplayBuf} (hbelow : ∀ i < DISPLAY_BUF_LEN - 2, a.rd i = 0x20) :
    CArray.wr (CArray.wr a (DISPLAY_BUF_LEN - 2) 0) (DISPLAY_BUF_LEN - 1) 0 = blankText := by
  have hspaces : ∀ i < DISPLAY_BUF_LEN - 2, blankText.rd i = 0x20 := by decide
  apply CArray.ext_rd
  intro i hi
  by_cases hlast : i = DISPLAY_BUF_LEN - 1
  · rw [hlast, CArray.rd_wr_self _ (by decide)]
    rfl
  rw [CArray.rd_wr_ne _ (Ne.symm hlast)]
  by_cases hend : i = DISPLAY_BUF_LEN - 2
  · rw [hend, CArray.rd_wr_self _ (by decide)]
    rfl
  · have hlt : i < DISPLAY_BUF_LEN - 2 := by
      simp only [DISPLAY_BUF_LEN] at hi hlast hend ⊢
      omega
    rw [CArray.rd_wr_ne _ (Ne.symm hend), hbelow i hlt, hspaces i hlt]

theorem resetWork?_eq : m.resetWork? = some m.resetWork := by
  rw [resetWork?, resetWork]
  by_cases hreset : m.workNeedReset = true
  · obtain ⟨a, ha, hbelow, -⟩ := CArray.writeAll?_eq m.msgWork (f := fun _ => some 0x20)
      (g := fun _ => 0x20) (k := DISPLAY_BUF_LEN - 2) (by decide) (fun _ _ => rfl)
    rw [if_pos hreset, if_pos hreset, ha]
    simp only [Option.bind_eq_bind, Option.bind_some,
      CArray.wr?_eq _ (show DISPLAY_BUF_LEN - 2 < DISPLAY_BUF_LEN by decide),
      CArray.wr?_eq _ (show DISPLAY_BUF_LEN - 1 < DISPLAY_BUF_LEN by decide),
      blankText_of_rd hbelow]
    rfl
  · rw [if_neg hreset, if_neg hreset]
    rfl

theorem messageByte?_eq (byte : UInt8) : m.messageByte? byte = some (m.messageByte byte) := by
  rw [messageByte?, resetWork?_eq, Option.bind_eq_bind, Option.bind_some, putByte?_eq,
    messageByte]

end MessageAssembly

/-! ## The scanners -/

/-- No label goes on after a NUL. -/
def StopsAtNul (yy : Nat → Label) : Prop := ∀ q, ∃ b, yy (gotoYy yy q 0) = .ret b

/-- A scanner on a text that holds a NUL reads no further. -/
theorem scanYy?_eq {yy : Nat → Label} (hyy : StopsAtNul yy) (q : Nat) {s : List UInt8}
    (hs : (0 : UInt8) ∈ s) : scanYy? yy q s = some (scanYy yy q s) := by
  induction s generalizing q with
  | nil => cases hs
  | cons c s ih =>
    rw [scanYy?, scanYy]
    -- the scanner returns at the NUL; before it, the NUL is still ahead
    rcases List.mem_cons.mp hs with rfl | hs'
    · obtain ⟨b, hb⟩ := hyy q
      simp only [hb]
    · cases hq : yy (gotoYy yy q c) with
      | ret b => rfl
      | read arcs d => exact ih _ hs'
      | peek arcs d => exact ih _ hs'

/-- Beyond its labels a scanner has returned. -/
theorem stopsAtNul_of_le {yy : Nat → Label} {n : Nat} (hout : ∀ q, n ≤ q → yy q = .ret false)
    (hin : ∀ q < n, yy (gotoYy yy q 0) = .ret true ∨ yy (gotoYy yy q 0) = .ret false) :
    StopsAtNul yy := by
  intro q
  rcases Nat.lt_or_ge q n with hlt | hge
  · rcases hin q hlt with htrue | hfalse
    · exact ⟨true, htrue⟩
    · exact ⟨false, hfalse⟩
  · have hq := hout q hge
    exact ⟨false, by simp only [gotoYy, hq]⟩

theorem stopsAtNul_validReading : StopsAtNul validReadingYy := by
  refine stopsAtNul_of_le (n := 43) (fun q hq => ?_) (by decide +kernel)
  unfold validReadingYy
  split <;> first | rfl | omega

theorem stopsAtNul_inMenu : StopsAtNul inMenuYy := by
  refine stopsAtNul_of_le (n := 148) (fun q hq => ?_) (by decide +kernel)
  unfold inMenuYy
  split <;> first | rfl | omega

theorem stopsAtNul_textDisplay : StopsAtNul textDisplayYy := by
  refine stopsAtNul_of_le (n := 152) (fun q hq => ?_) (by decide +kernel)
  unfold textDisplayYy
  split <;> first | rfl | omega

/-- The NUL at the end of a text stops every scanner inside the array. -/
theorem MessageAssembly.classify?_eq {m : MessageAssembly} (htext : IsDisplayText m.msgWork) :
    m.classify? = some m.classify := by
  have hnul : (0 : UInt8) ∈ m.msgWork.toList := by
    have hlast : m.msgWork.rd 15 = 0 := htext.nul
    have hidx : 15 < DISPLAY_BUF_LEN := by decide
    rw [CArray.rd, Vector.getElem?_eq_getElem hidx, Option.getD_some] at hlast
    rw [Vector.mem_toList_iff, ← hlast]
    exact Vector.getElem_mem hidx
  have hreading : scanYy? validReadingYy 0 m.msgWork.toList =
      some (regexValidReading m.msgWork.toList) := scanYy?_eq stopsAtNul_validReading _ hnul
  have hmenu : scanYy? inMenuYy 43 m.msgWork.toList = some (regexInMenu m.msgWork.toList) :=
    scanYy?_eq stopsAtNul_inMenu _ hnul
  have htext : scanYy? textDisplayYy 148 m.msgWork.toList =
      some (regexTextDisplay m.msgWork.toList) := scanYy?_eq stopsAtNul_textDisplay _ hnul
  simp only [classify?, classify, hreading, hmenu, htext, Option.bind_eq_bind, Option.bind_some]
  split_ifs <;> rfl

/-! ## The handlers -/

theorem barScan?_eq (inputBuf : CArray UInt8 INPUT_BUF_SIZE) (limit k cnt : Nat) (v : Int) :
    barScan? inputBuf limit k cnt v = some (barScan inputBuf limit k cnt v) := by
  induction k generalizing cnt v with
  | zero => rfl
  | succ k ih =>
    have hidx : 8 - (k + 1) < INPUT_BUF_SIZE := Nat.lt_of_le_of_lt (Nat.sub_le _ _) (by decide)
    simp only [barScan?, barScan, CArray.rd?_eq _ hidx, Option.bind_eq_bind, Option.bind_some, ih]
    split_ifs <;> rfl

theorem barReading?_eq (inputBuf : CArray UInt8 INPUT_BUF_SIZE) :
    barReading? inputBuf = some (barReading inputBuf) := by
  simp only [barReading?, barReading, CArray.rd?_eq inputBuf (show 2 < INPUT_BUF_SIZE by decide),
    barScan?_eq, Option.bind_eq_bind, Option.bind_some]
  split_ifs <;> rfl

theorem updateBarGraphFromMessageFrame?_eq (c : DmmContext) :
    updateBarGraphFromMessageFrame? c = some (updateBarGraphFromMessageFrame c) := by
  simp only [updateBarGraphFromMessageFrame?, updateBarGraphFromMessageFrame, barReading?_eq,
    Option.bind_eq_bind, Option.bind_some]
  split_ifs <;> rfl

theorem decodeControlFrame?_eq (c : DmmContext) :
    decodeControlFrame? c = some (decodeControlFrame c) := by
  simp only [decodeControlFrame?, decodeControlFrame,
    CArray.rd?_eq c.buf.inputBuf (show 0 < INPUT_BUF_SIZE by decide),
    CArray.rd?_eq c.buf.inputBuf (show 1 < INPUT_BUF_SIZE by decide), Option.bind_eq_bind,
    Option.bind_some]
  split
  · rfl
  · generalize controlBlink.lookup _ = blink
    cases blink with
    | none => rfl
    | some i => rfl

theorem decodeButton?_eq (c : DmmContext) (now_us : UInt32) :
    decodeButton? c now_us = some (decodeButton c now_us) := by
  have hcode : buttonCode? c.buf = some (buttonCode c.buf) := by
    simp only [buttonCode?, CArray.rd?_eq c.buf.outputBuf (show 0 < INPUT_BUF_SIZE by decide),
      CArray.rd?_eq c.buf.outputBuf (show 1 < INPUT_BUF_SIZE by decide),
      CArray.rd?_eq c.buf.outputBuf (show 2 < INPUT_BUF_SIZE by decide)]
    rfl
  simp only [decodeButton?, decodeButton, hcode, Option.bind_eq_bind, Option.bind_some]
  split_ifs <;> rfl

theorem processReset?_eq (c : DmmContext) : processReset? c = some (processReset c) := by
  obtain ⟨a, ha, -⟩ := CArray.writeAll?_eq c.main (f := fun _ => some 0) (g := fun _ => 0)
    (Nat.le_refl DISPLAY_BUF_LEN) (fun _ _ => rfl)
  have hmain := CArray.writeAll?_all a (displayText (bytes "SYSTEM RESET  "))
    (f := fun i => some ((bytes "SYSTEM RESET  ").getD i 0)) (by decide)
  simp only [processReset?, ha, hmain, Option.bind_eq_bind, Option.bind_some]
  rfl

theorem publishMessage?_eq {c : DmmContext} (htext : IsDisplayText c.msg.msgWork)
    (now_us : UInt32) : publishMessage? c now_us = some (publishMessage c now_us) := by
  simp only [publishMessage?, publishMessage, MessageAssembly.classify?_eq htext,
    CArray.writeAll?_copy, updateBarGraphFromMessageFrame?_eq, Option.bind_eq_bind,
    Option.bind_some]
  split_ifs <;> rfl

/-! ## One byte pair -/

theorem dispatch?_eq {c : DmmContext} (hpos : 0 < c.buf.bufLen)
    (hle : c.buf.bufLen ≤ INPUT_BUF_SIZE)
    (htext : IsDisplayText c.msg.msgWork) (now_us : UInt32) :
    dispatch? c now_us = some (dispatch c now_us).1 := by
  have hlast : c.buf.bufLen - 1 < INPUT_BUF_SIZE := by omega
  simp only [dispatch?, FrameBuffers.lastBytesAreEof?_eq hle, Option.bind_eq_bind,
    Option.bind_some]
  cases hs : c.buf.frameState with
  | init =>
    simp only [dispatch, hs, frameInit]
    rfl
  | unknown =>
    simp only [dispatch, hs, frameUnknown?_eq hle]
    rfl
  | message =>
    simp only [dispatch, hs, frameMessage?, frameMessage, publishMessage?_eq htext,
      CArray.rd?_eq _ hlast, MessageAssembly.messageByte?_eq, Option.bind_eq_bind,
      Option.bind_some]
    split_ifs <;> rfl
  | annunciators =>
    simp only [dispatch, hs, frameAnnunciators?, frameAnnunciators,
      CArray.rd?_eq c.buf.inputBuf (show 3 < INPUT_BUF_SIZE by decide),
      CArray.rd?_eq c.buf.inputBuf (show 2 < INPUT_BUF_SIZE by decide), Option.bind_eq_bind,
      Option.bind_some]
    split_ifs <;> rfl
  | control =>
    simp only [dispatch, hs, frameControl?, frameControl, decodeControlFrame?_eq,
      Option.bind_eq_bind, Option.bind_some]
    split_ifs <;> rfl
  | button =>
    -- a pair has just been stored, so the test for one never fails
    have hone : 1 ≤ c.buf.bufLen := hpos
    simp only [dispatch, hs, frameButton?, frameButton, decodeButton?_eq, CArray.rd?_eq _ hlast,
      hone, true_and, if_true, Option.bind_eq_bind, Option.bind_some]
    split_ifs <;> rfl

theorem processPair?_eq {c : DmmContext} (hlen : c.buf.bufLen < INPUT_BUF_SIZE)
    (htext : IsDisplayText c.msg.msgWork) (p : SniffByte) (t : Clock) :
    processPair? c p t = some (processPair c p t).1 := by
  have hdispatch := dispatch?_eq
    (c := { c with dbg := anyByteTiming c.dbg t.any, buf := c.buf.store p })
    (Nat.succ_pos _) hlen htext t.frame
  simp only [processPair?, processPair, FrameBuffers.store?_eq hlen, Option.bind_eq_bind,
    Option.bind_some, hdispatch]
  rfl

/-! ## The interrupts -/

theorem fifoAppend?_eq {c : DmmContext} (h : c.sniff.fifoWr < BYTE_FIFO_SIZE) :
    fifoAppend? c = some (fifoAppend c) := by
  simp only [fifoAppend?, fifoAppend, CArray.wr?_eq _ h, Option.bind_eq_bind, Option.bind_some]
  split_ifs <;> rfl

theorem midByteGap?_eq {c : DmmContext} (h : c.sniff.fifoWr < BYTE_FIFO_SIZE) (now_us : UInt32) :
    midByteGap? c now_us = some (midByteGap c now_us) := by
  simp only [midByteGap?, midByteGap]
  rw [fifoAppend?_eq]
  · rfl
  · exact h

theorem detectGap?_eq {c : DmmContext} (h : c.sniff.fifoWr < BYTE_FIFO_SIZE) (now_us : UInt32) :
    detectGap? c now_us = some (detectGap c now_us) := by
  simp only [detectGap?, detectGap]
  split
  · split
    · apply midByteGap?_eq
      exact h
    · rfl
  · rfl

theorem decoder34401Sckedge?_eq {c : DmmContext} (h : c.sniff.Ok) (e : Edge) :
    decoder34401Sckedge? c e = some (decoder34401Sckedge c e) := by
  have hok := detectGap_ok (c := { c with dbg := noiseDebug c.dbg e }) h e.now_us
  have hgap := detectGap?_eq (c := { c with dbg := noiseDebug c.dbg e }) h.wr e.now_us
  simp only [decoder34401Sckedge?, decoder34401Sckedge, hgap, Option.bind_eq_bind,
    Option.bind_some]
  split
  · rw [fifoAppend?_eq]
    · rfl
    · exact hok.wr
  · rfl

/-! ## Actions on the bus -/

namespace ProcessState

/-- The decoder's next action makes no access outside an array. -/
theorem consumerStep?_eq {s : ProcessState} (h : s.BusInv) (t : Clock) :
    s.consumerStep? t = some (s.consumerStep t) := by
  cases hpc : s.pc with
  | idle =>
    simp only [consumerStep?, consumerStep, hpc]
    rfl
  | testFifo =>
    simp only [consumerStep?, consumerStep, hpc]
    rfl
  | testReset =>
    simp only [consumerStep?, consumerStep, hpc]
    rfl
  | check =>
    simp only [consumerStep?, consumerStep, hpc]
    rw [processReset?_eq]
    split <;> rfl
  | readIn =>
    simp only [consumerStep?, consumerStep, hpc]
    rw [CArray.rd?_eq _ h.sniff.rd]
    rfl
  | readOut =>
    simp only [consumerStep?, consumerStep, hpc]
    rw [CArray.rd?_eq _ h.sniff.rd]
    rfl
  | advance =>
    simp only [consumerStep?, consumerStep, hpc]
    rfl
  | handle =>
    simp only [consumerStep?, consumerStep, hpc]
    rw [processPair?_eq h.history.len h.history.holdsTexts.work]
    rfl
  | finish =>
    simp only [consumerStep?, consumerStep, hpc]
    rfl

theorem busStep?_eq {s : ProcessState} (h : s.BusInv) (a : BusAction) :
    s.busStep? a = some (s.busStep a) := by
  cases a with
  | sckedge e =>
    rw [busStep?, decoder34401Sckedge?_eq h.sniff]
    rfl
  | reset now_us => rfl
  | consumer t => exact consumerStep?_eq h t

end ProcessState

/-! ## Main result -/

/-- A display buffer holds printable characters and NULs, with a NUL at the end. -/
structure PrintableText (b : DisplayBuf) : Prop where
  nul : b.rd 15 = 0
  chars : ∀ i < DISPLAY_BUF_LEN, isprint (b.rd i) = true ∨ b.rd i = 0

theorem IsDisplayText.printableText {b : DisplayBuf} (h : IsDisplayText b) : PrintableText b := by
  refine ⟨h.nul, fun i hi => ?_⟩
  simp only [DISPLAY_BUF_LEN] at hi
  rcases Nat.lt_trichotomy i 14 with hlt | rfl | hgt
  · exact .inl (h.printable i hlt)
  · exact h.last.symm
  · obtain rfl : i = 15 := by omega
    exact .inr h.nul

/-- The state of the decoder within bounds. -/
structure DmmContext.InBounds (c : DmmContext) : Prop where
  bufLen : c.buf.bufLen ≤ 99
  msgIdx : c.msg.msgIdx ≤ 15
  byteLen : c.sniff.byteLen ≤ 7
  main : PrintableText c.main
  msgWork : PrintableText c.msg.msgWork
  lastReading : c.lastReading.rd 15 = 0
  blinkMask : c.blinkMask.toNat < 2 ^ 15
  bar : -999 ≤ c.bar ∧ c.bar ≤ 9999

/-- **The decoder stays in bounds**, in every state that an interleaving of clock
edges, resets and actions of the decoder reaches: its fields are within their bounds,
and whatever happens next, no access is outside its array. -/
theorem decoder_in_bounds {s : ProcessState} (h : s.BusReachable) :
    s.ctx.InBounds ∧ ∀ a : BusAction, s.busStep? a = some (s.busStep a) := by
  have hinv := h.inv
  have htexts := hinv.history.holdsTexts
  have hbounded := hinv.history.bounded
  refine ⟨?_, fun a => ProcessState.busStep?_eq hinv a⟩
  exact {
    bufLen := Nat.le_of_lt_succ hinv.history.len
    msgIdx := hbounded.msg.idx
    byteLen := hinv.sniff.bits
    main := htexts.main.printableText
    msgWork := htexts.work.printableText
    lastReading := hbounded.published.nul
    blinkMask := hbounded.published.blink
    bar := hbounded.published.bar }

/-- Eight edges with both lines high, and a ninth after a gap of two milliseconds. -/
theorem decoder_in_bounds_byte :
    let edge (now_us : UInt32) : Edge :=
      { now_us := now_us, pins := Vector.replicate _ 0xffffffff, sampled_us := 0, end_us := 0 }
    let s := Machine.run ProcessState.busStep ProcessState.init
      (List.replicate 9 (.sckedge (edge 10)) ++ [.sckedge (edge 2010)])
    s.ctx.pending = [⟨0xff, 0xff⟩, eofPair] ∧ s.ctx.sniff.byteLen = 1 ∧
      s.ctx.InBounds ∧ ∀ a : BusAction, s.busStep? a = some (s.busStep a) := by
  intro edge s
  have hinit : ProcessState.init.BusReachable := .init rfl
  have hs : s.BusReachable := Machine.Reachable.run hinit _
  exact ⟨by decide +kernel, by decide +kernel, decoder_in_bounds hs⟩

end LcdPico
