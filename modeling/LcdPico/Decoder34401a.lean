import LcdPico.Lib.CArray
import LcdPico.Regex34401a

/-!
# The front-panel decoder (`decoder_34401a.c`)

The decoder sniffs the meter's front-panel bus. Two interrupt handlers fill a
byte FIFO (`decoder34401Sckedge` shifts bits into bytes, `decoder34401Reset`
raises a flag), and `decoder34401Process`, called from the display loop, empties
it one byte pair at a time through a frame parser.

`dmm_context_t` is split along the section comments of its declaration, so that
a function that works on one section has the type to say so:

* `FrameBuffers` — frame buffers and parse state,
* `ShiftWindow` — SHIFT handling,
* `MessageAssembly` — message assembly,
* `SniffState` — internal sniff state, shared with the interrupts,
* `Debug` — the debug counters and times,

and the published fields at the top.

Every call of `micros32` is a reading supplied from outside. The functions that
act on a completed frame also return the frame (`Frame`), a value the code does
not have: it is the account of what the decoder acted upon.
-/

namespace LcdPico

/-! ## Constants and types (`decoder_34401a.h`) -/

def DISPLAY_BUF_LEN : Nat := 16
def BYTE_FIFO_SIZE : Nat := 256
def BYTE_FIFO_MASK : Nat := BYTE_FIFO_SIZE - 1
/-- `sizeof(ctx->input_buf)` -/
def INPUT_BUF_SIZE : Nat := 100

/-- `sniff_byte_t`: one byte from each direction of the bus. -/
structure SniffByte where
  input : UInt8
  output : UInt8
deriving DecidableEq, Repr, Inhabited

/-- `frame_state_t` -/
inductive FrameState where
  | init
  | unknown
  | message
  | annunciators
  | control
  | button
deriving DecidableEq, Repr

/-- The text buffers of the display. -/
abbrev DisplayBuf : Type := CArray UInt8 DISPLAY_BUF_LEN

/-- Minimal debug. -/
structure Debug where
  byteOverrunCount : UInt32 := 0
  bufOverflowCount : UInt32 := 0
  midByteGapCount : UInt32 := 0
  midByteGapBits : UInt8 := 0
  midByteGapInput : UInt8 := 0
  midByteGapOutput : UInt8 := 0
  midByteGapLastTime : UInt32 := 0
  midByteGapLastUs : UInt32 := 0
  midByteGapMaxUs : UInt32 := 0
  diNoiseCount : UInt32 := 0
  doNoiseCount : UInt32 := 0
  intLenUs : UInt32 := 0
  resetCount : UInt32 := 0
  intCount : UInt32 := 0
  sckCount : UInt32 := 0
  badMsgCount : UInt32 := 0
  badMsgLastTime : UInt32 := 0
  resetLastTime : UInt32 := 0
  intLastTime : UInt32 := 0
  sckGapUs : UInt32 := 0
  sckGapUsMax : UInt32 := 0
  mainGapUs : UInt32 := 0
  mainGapUsMax : UInt32 := 0
  mainLastTime : UInt32 := 0
  anyGapUs : UInt32 := 0
  anyGapUsMax : UInt32 := 0
  anyLastTime : UInt32 := 0
  fifoLevelMax : UInt32 := 0
  fifoLevel : UInt32 := 0
  maxProcessUs : UInt32 := 0
deriving DecidableEq

/-- Internal sniff state. `fifoWr` and `fifoRd` are `uint16_t` kept below
`BYTE_FIFO_SIZE` by masking. -/
structure SniffState where
  byteLen : UInt8
  inputAcc : UInt8
  outputAcc : UInt8
  byteFifo : CArray SniffByte BYTE_FIFO_SIZE
  fifoWr : Nat
  fifoRd : Nat
  lastUs : UInt32
  resetReceived : Bool

/-- Frame buffers and parse state. -/
structure FrameBuffers where
  inputBuf : CArray UInt8 INPUT_BUF_SIZE
  outputBuf : CArray UInt8 INPUT_BUF_SIZE
  bufLen : Nat
  frameState : FrameState

/-- SHIFT handling. -/
structure ShiftWindow where
  startUs : UInt32
  pressCount : UInt8
  active : Bool
deriving DecidableEq

/-- Message assembly. -/
structure MessageAssembly where
  msgIdx : Nat
  workNeedReset : Bool
  corruptMsg : Bool
  menuMsg : Bool
  validReading : Bool
  msgWork : DisplayBuf
  blinkWork : UInt16
deriving DecidableEq

/-- `dmm_context_t` -/
structure DmmContext where
  main : DisplayBuf
  lastReading : DisplayBuf
  annState : UInt16
  bar : Int
  barStyle : UInt8
  newDataCounter : UInt32
  mainCounter : UInt32
  annCounter : UInt32
  barCounter : UInt32
  blinkMask : UInt16
  dbg : Debug
  sniff : SniffState
  buf : FrameBuffers
  shift : ShiftWindow
  msg : MessageAssembly

/-! ## Character classes (C locale, `char` unsigned) -/

def isprint (c : UInt8) : Bool := 0x20 ≤ c && c ≤ 0x7e
def iscntrl (c : UInt8) : Bool := c < 0x20 || c == 0x7f
def isdigit (c : UInt8) : Bool := 0x30 ≤ c && c ≤ 0x39

/-- The bytes of an ASCII literal. -/
def bytes (s : String) : List UInt8 := s.toList.map fun c => c.val.toUInt8

/-- `strncpy(dst, s, DISPLAY_BUF_LEN)` into a display buffer: the rest is NUL. -/
def displayText (s : List UInt8) : DisplayBuf := Vector.ofFn fun i => s.getD i 0

/-- Fourteen spaces and two NULs. -/
def blankText : DisplayBuf := displayText (List.replicate (DISPLAY_BUF_LEN - 2) 0x20)

/-! ## Frames -/

/-- What a frame is acted upon as. -/
inductive FrameKind where
  | message
  | annunciators
  | control
  | button
deriving DecidableEq, Repr

/-- A frame the decoder acts upon, with all its byte pairs. -/
structure Frame where
  kind : FrameKind
  pairs : List SniffByte
deriving DecidableEq, Repr

namespace FrameBuffers

/-- The pairs collected so far. -/
def pairs (b : FrameBuffers) : List SniffByte :=
  List.zipWith SniffByte.mk (b.inputBuf.pre b.bufLen) (b.outputBuf.pre b.bufLen)

/-- `input_buf[buf_len] = ...; output_buf[buf_len] = ...; buf_len++;` -/
def store (b : FrameBuffers) (p : SniffByte) : FrameBuffers :=
  { b with
    inputBuf := b.inputBuf.wr b.bufLen p.input
    outputBuf := b.outputBuf.wr b.bufLen p.output
    bufLen := b.bufLen + 1 }

def lastBytesAreEof (b : FrameBuffers) : Bool :=
  0 < b.bufLen && b.inputBuf.rd (b.bufLen - 1) == 0x00 && b.outputBuf.rd (b.bufLen - 1) == 0xbb

def endFrame (b : FrameBuffers) : FrameBuffers :=
  { b with bufLen := 0, frameState := .unknown }

end FrameBuffers

def DmmContext.endFrame (c : DmmContext) : DmmContext := { c with buf := c.buf.endFrame }

/-! ## Handlers -/

def processShiftWindow (c : DmmContext) (now_us : UInt32) : DmmContext :=
  if !c.shift.active then c
  else if now_us - c.shift.startUs > 300000 then
    let c :=
      if c.shift.pressCount &&& 1 != 0 then
        { c with
          annState := c.annState ^^^ 0x0800
          newDataCounter := c.newDataCounter + 1
          annCounter := c.annCounter + 1 }
      else c
    { c with shift := { c.shift with pressCount := 0, active := false } }
  else c

/-- The digit loop of `updateBarGraphFromMessageFrame`; `k` positions are left
before index 8, so `st = 8 - k`. -/
def barScan (inputBuf : CArray UInt8 INPUT_BUF_SIZE) (limit : Nat) : Nat → Nat → Int → Int
  | 0, _, barvalue => barvalue
  | k + 1, cnt, barvalue =>
    if cnt < limit then
      if isdigit (inputBuf.rd (8 - (k + 1))) then
        barScan inputBuf limit k (cnt + 1)
          (10 * barvalue + ((inputBuf.rd (8 - (k + 1))).toNat - 0x30))
      else barScan inputBuf limit k cnt barvalue
    else barvalue

/-- The style and value `updateBarGraphFromMessageFrame` reads off the buffer.
Four digits at most are read, so the `int16_t` casts change nothing. -/
def barReading (inputBuf : CArray UInt8 INPUT_BUF_SIZE) : UInt8 × Int :=
  if isdigit (inputBuf.rd 2) then (0, barScan inputBuf 4 6 0 0)
  else (1, if inputBuf.rd 2 == 0x2d then -barScan inputBuf 3 5 0 0 else barScan inputBuf 3 5 0 0)

def updateBarGraphFromMessageFrame (c : DmmContext) : DmmContext :=
  let (style, barvalue) := barReading c.buf.inputBuf
  if c.barStyle != style || c.bar != barvalue then
    { c with
      barStyle := style
      bar := barvalue
      newDataCounter := c.newDataCounter + 1
      barCounter := c.barCounter + 1 }
  else c

def publishAnnunciators (c : DmmContext) (h l : UInt8) : DmmContext :=
  let state : UInt16 := (h.toUInt16 <<< 8) ||| l.toUInt16
  let newState : UInt16 := (state &&& 0xF7FF) ||| (c.annState &&& 0x0800)
  if newState != c.annState then
    { c with
      annState := newState
      newDataCounter := c.newDataCounter + 1
      annCounter := c.annCounter + 1 }
  else c

namespace MessageAssembly

def dmmPutcSafe (m : MessageAssembly) (c : UInt8) : MessageAssembly :=
  if DISPLAY_BUF_LEN - 1 ≤ m.msgIdx then m
  else
    let m' := { m with
      msgWork := m.msgWork.wr m.msgIdx (if isprint c then c else 0x20)
      msgIdx := m.msgIdx + 1 }
    if m'.corruptMsg then m'
    else if !isprint c || iscntrl c then { m' with corruptMsg := true }
    else m'

/-- The lazy reset at the head of `messageByte`. -/
def resetWork (m : MessageAssembly) : MessageAssembly :=
  if m.workNeedReset then
    { msgIdx := 0
      workNeedReset := false
      corruptMsg := false
      menuMsg := false
      validReading := false
      msgWork := blankText
      blinkWork := 0 }
  else m

/-- The `switch (byte)` of `messageByte`. -/
def putByte (m : MessageAssembly) (byte : UInt8) : MessageAssembly :=
  if byte = 0x84 then m.dmmPutcSafe 0x2e
  else if byte = 0x86 then m.dmmPutcSafe 0x2c
  else if byte = 0x8d then
    -- the character before blinks
    let m' :=
      if 0 < m.msgIdx then
        { m with blinkWork := m.blinkWork ||| UInt16.ofNat (1 <<< (m.msgIdx - 1)) }
      else m
    m'.dmmPutcSafe 0x3a
  else if byte = 0x8c then m.dmmPutcSafe 0x3a
  else if byte = 0x81 then m
  else if byte = 0x00 then m
  else m.dmmPutcSafe byte

def messageByte (m : MessageAssembly) (byte : UInt8) : MessageAssembly :=
  m.resetWork.putByte byte

/-- The classification of a message at its EOF. -/
def classify (m : MessageAssembly) : MessageAssembly :=
  if m.corruptMsg then m
  else if regexValidReading m.msgWork.toList then { m with validReading := true }
  else if regexInMenu m.msgWork.toList then { m with menuMsg := true }
  else if regexTextDisplay m.msgWork.toList then m
  else { m with corruptMsg := true }

end MessageAssembly

/-- The commands `decodeControlFrame` knows, with the character each makes blink. -/
def controlBlink : List (UInt16 × Nat) :=
  [(0x0049, 0), (0x7149, 1), (0x6249, 2), (0x1349, 3), (0x5449, 4), (0x2549, 5),
   (0x3649, 6), (0x4749, 7), (0x3849, 8), (0x4949, 9), (0x5A49, 10), (0x2B49, 11)]

def decodeControlFrame (c : DmmContext) : DmmContext :=
  if c.buf.bufLen < 2 then c
  else
    let cmd : UInt16 := ((c.buf.inputBuf.rd 0).toUInt16 <<< 8) ||| (c.buf.inputBuf.rd 1).toUInt16
    match controlBlink.lookup cmd with
    | some i =>
      { c with
        blinkMask := UInt16.ofNat (1 <<< i)
        newDataCounter := c.newDataCounter + 1
        mainCounter := c.mainCounter + 1 }
    | none => c

def processReset (c : DmmContext) : DmmContext :=
  { c with
    shift := { c.shift with pressCount := 0, active := false }
    msg := { c.msg with
      workNeedReset := true
      corruptMsg := false
      menuMsg := false
      validReading := false }
    main := displayText (bytes "SYSTEM RESET  ")
    annState := 0
    blinkMask := 0
    annCounter := c.annCounter + 1
    newDataCounter := c.newDataCounter + 1
    mainCounter := c.mainCounter + 1
    sniff := { c.sniff with resetReceived := false } }

/-- `fifo_append`. The level is the masked difference of the two indices. -/
def fifoAppend (c : DmmContext) : DmmContext :=
  let nextWr := (c.sniff.fifoWr + 1) &&& BYTE_FIFO_MASK
  let c :=
    if nextWr = c.sniff.fifoRd then
      { c with dbg := { c.dbg with byteOverrunCount := c.dbg.byteOverrunCount + 1 } }
    else
      let level : UInt32 :=
        (UInt32.ofNat nextWr - UInt32.ofNat c.sniff.fifoRd) &&& UInt32.ofNat BYTE_FIFO_MASK
      { c with
        sniff := { c.sniff with
          byteFifo := c.sniff.byteFifo.wr c.sniff.fifoWr ⟨c.sniff.inputAcc, c.sniff.outputAcc⟩
          fifoWr := nextWr }
        dbg := { c.dbg with fifoLevel := level, fifoLevelMax := max c.dbg.fifoLevelMax level } }
  { c with sniff := { c.sniff with byteLen := 0 } }

/-! ## Public API -/

def decoder34401Init : DmmContext where
  main := blankText
  lastReading := displayText []
  annState := 0
  bar := 0
  barStyle := 0
  newDataCounter := 0
  mainCounter := 0
  annCounter := 0
  barCounter := 0
  blinkMask := 0
  dbg := {}
  sniff :=
    { byteLen := 0
      inputAcc := 0
      outputAcc := 0
      byteFifo := Vector.replicate BYTE_FIFO_SIZE ⟨0, 0⟩
      fifoWr := 0
      fifoRd := 0
      lastUs := 0
      resetReceived := false }
  buf :=
    { inputBuf := Vector.replicate INPUT_BUF_SIZE 0
      outputBuf := Vector.replicate INPUT_BUF_SIZE 0
      bufLen := 0
      frameState := .init }
  shift := { startUs := 0, pressCount := 0, active := false }
  msg :=
    { msgIdx := 0
      workNeedReset := true
      corruptMsg := false
      menuMsg := false
      validReading := false
      msgWork := blankText
      blinkWork := 0 }

def decoder34401Reset (c : DmmContext) (now_us : UInt32) : DmmContext :=
  { c with
    dbg := { c.dbg with resetLastTime := now_us, resetCount := c.dbg.resetCount + 1 }
    sniff := { c.sniff with byteLen := 0, resetReceived := true } }

/-- The two readings of `micros32` while one byte pair is processed: the
any-byte timing, and the one in the frame state's branch. -/
structure Clock where
  any : UInt32
  frame : UInt32
deriving DecidableEq, Repr, Inhabited

/-- Any-byte timing debug. -/
def anyByteTiming (d : Debug) (now_us : UInt32) : Debug :=
  let d :=
    if d.anyLastTime > 0 then
      { d with
        anyGapUs := now_us - d.anyLastTime
        anyGapUsMax := max d.anyGapUsMax (now_us - d.anyLastTime) }
    else d
  { d with anyLastTime := now_us }

/-- Main-message timing debug, with the count of bad messages before it. -/
def mainMessageTiming (d : Debug) (corrupt : Bool) (now_us : UInt32) : Debug :=
  let d :=
    if corrupt then { d with badMsgLastTime := now_us, badMsgCount := d.badMsgCount + 1 } else d
  let d :=
    if d.mainLastTime > 0 then
      { d with
        mainGapUs := now_us - d.mainLastTime
        mainGapUsMax := max d.mainGapUsMax (now_us - d.mainLastTime) }
    else d
  { d with mainLastTime := now_us }

def frameInit (c : DmmContext) : DmmContext :=
  if c.buf.lastBytesAreEof then c.endFrame else c

def frameUnknown (b : FrameBuffers) : FrameBuffers :=
  if b.lastBytesAreEof then b.endFrame
  else if b.bufLen = 1 ∧ b.inputBuf.rd 0 = 0x00 ∧ b.outputBuf.rd 0 = 0x77 then
    { b with frameState := .button }
  else if 2 ≤ b.bufLen then
    if b.inputBuf.rd 0 = 0x00 ∧ b.inputBuf.rd 1 &&& 0x7f = 0x7f then
      { b with frameState := .message }
    else if b.inputBuf.rd 0 &&& 0x7f = 0x7f ∧ b.inputBuf.rd 1 = 0x00 then
      { b with frameState := .annunciators }
    else { b with frameState := .control }
  else b

/-- The publication of a message at its EOF. -/
def publishMessage (c : DmmContext) (now_us : UInt32) : DmmContext :=
  let m := c.msg.classify
  let c := { c with
    msg := m
    main := m.msgWork
    lastReading := if m.validReading then m.msgWork else c.lastReading
    blinkMask := m.blinkWork
    newDataCounter := c.newDataCounter + 1
    mainCounter := c.mainCounter + 1
    dbg := mainMessageTiming c.dbg m.corruptMsg now_us }
  let c := updateBarGraphFromMessageFrame c
  { c with msg := { c.msg with workNeedReset := true } }

def frameMessage (c : DmmContext) (now_us : UInt32) : DmmContext × Option Frame :=
  if c.buf.lastBytesAreEof then
    ((publishMessage c now_us).endFrame, some ⟨.message, c.buf.pairs⟩)
  else
    ({ c with msg := c.msg.messageByte (c.buf.inputBuf.rd (c.buf.bufLen - 1)) }, none)

def frameAnnunciators (c : DmmContext) : DmmContext × Option Frame :=
  if c.buf.lastBytesAreEof then
    if 4 ≤ c.buf.bufLen then
      ((publishAnnunciators c (c.buf.inputBuf.rd 3) (c.buf.inputBuf.rd 2)).endFrame,
        some ⟨.annunciators, c.buf.pairs⟩)
    else (c.endFrame, none)
  else (c, none)

def frameControl (c : DmmContext) : DmmContext × Option Frame :=
  if c.buf.lastBytesAreEof then
    ((decodeControlFrame c).endFrame, some ⟨.control, c.buf.pairs⟩)
  else (c, none)

/-- The button code in the first three output bytes. -/
def buttonCode (b : FrameBuffers) : UInt32 :=
  ((b.outputBuf.rd 0).toUInt32 <<< 16) ||| ((b.outputBuf.rd 1).toUInt32 <<< 8) |||
    (b.outputBuf.rd 2).toUInt32

/-- What a complete button frame does. -/
def decodeButton (c : DmmContext) (now_us : UInt32) : DmmContext :=
  if buttonCode c.buf = 7839183 then
    if !c.shift.active then
      { c with shift := { startUs := now_us, pressCount := 1, active := true } }
    else
      { c with shift := { c.shift with
          pressCount := c.shift.pressCount + 1
          startUs := now_us } }
  else
    let c := { c with shift := { c.shift with active := false, pressCount := 0 } }
    if c.annState &&& 0x0800 != 0 then
      { c with
        annState := c.annState &&& ~~~0x0800
        newDataCounter := c.newDataCounter + 1
        annCounter := c.annCounter + 1 }
    else c

def frameButton (c : DmmContext) (now_us : UInt32) : DmmContext × Option Frame :=
  if c.buf.lastBytesAreEof then (c.endFrame, none)
  else if 1 ≤ c.buf.bufLen ∧ c.buf.inputBuf.rd (c.buf.bufLen - 1) = 0x66 then
    if 3 ≤ c.buf.bufLen then
      ((decodeButton c now_us).endFrame, some ⟨.button, c.buf.pairs⟩)
    else (c.endFrame, none)
  else (c, none)

/-- `switch (ctx->frame_state)` -/
def dispatch (c : DmmContext) (now_us : UInt32) : DmmContext × Option Frame :=
  match c.buf.frameState with
  | .init => (frameInit c, none)
  | .unknown => ({ c with buf := frameUnknown c.buf }, none)
  | .message => frameMessage c now_us
  | .annunciators => frameAnnunciators c
  | .control => frameControl c
  | .button => frameButton c now_us

/-- Avoid buffer overflow in bad sync conditions. -/
def overflowGuard (c : DmmContext) : DmmContext :=
  if INPUT_BUF_SIZE ≤ c.buf.bufLen then
    { c.endFrame with dbg := { c.dbg with bufOverflowCount := c.dbg.bufOverflowCount + 1 } }
  else c

/-- One byte pair through the loop of `decoder34401_process`, from the any-byte
timing on, with the frame acted upon, if any. -/
def processPair (c : DmmContext) (p : SniffByte) (t : Clock) : DmmContext × Option Frame :=
  let c := { c with dbg := anyByteTiming c.dbg t.any, buf := c.buf.store p }
  let (c, f) := dispatch c t.frame
  (overflowGuard c, f)

/-- `ctx->fifo_rd = (uint8_t)((ctx->fifo_rd + 1u) & BYTE_FIFO_MASK);` -/
def fifoAdvance (c : DmmContext) : DmmContext :=
  { c with sniff := { c.sniff with fifoRd := (c.sniff.fifoRd + 1) &&& BYTE_FIFO_MASK } }

/-- The loop of `decoder34401_process`, at most `n` turns of it. -/
def processLoop : Nat → DmmContext → (Nat → Clock) → DmmContext
  | 0, c, _ => c
  | n + 1, c, clk =>
    if c.sniff.resetReceived then processReset c
    else if c.sniff.fifoRd ≠ c.sniff.fifoWr then
      processLoop n (processPair (fifoAdvance c) (c.sniff.byteFifo.rd c.sniff.fifoRd) (clk 0)).1
        fun i => clk (i + 1)
    else c

/-- The readings of `micros32` in one call of `decoder34401_process`. -/
structure ProcessClock where
  start : UInt32
  shift : UInt32
  pair : Nat → Clock
  stop : UInt32

/-- `decoder34401_process`, run without an interrupt: the FIFO holds fewer than
`BYTE_FIFO_SIZE` pairs, so as many turns empty it. -/
def decoder34401Process (c : DmmContext) (clk : ProcessClock) : DmmContext :=
  let c := processLoop BYTE_FIFO_SIZE (processShiftWindow c clk.shift) clk.pair
  { c with dbg := { c.dbg with maxProcessUs := max c.dbg.maxProcessUs (clk.stop - clk.start) } }

end LcdPico
