import LcdPico.Framing

/-!
# What a message frame displays

A message is assembled in a work area that is reset lazily: the first payload
byte clears it when `msg_work_need_reset` is set. EOF in the message state and a
meter reset set the flag; the cut at 100 pairs does not, and a message without
payload never looks at it. The bar graph reads positions 2 to 7 of the input
buffer whatever the length of the frame.

`Inside` follows the decoder through a frame, relative to the context it entered
the frame from; `Inside.shown` says what is published at the EOF pair. From it,
`message_frame_determines` says for which frames the display is a function of the
frame alone.
-/

namespace LcdPico

/-! ## Message frames -/

/-- What the decoder shows of a message. -/
structure Shown where
  main : DisplayBuf
  blinkMask : UInt16
  bar : Int
  barStyle : UInt8
  corruptMsg : Bool
  menuMsg : Bool
  validReading : Bool
deriving DecidableEq

def DmmContext.shown (c : DmmContext) : Shown :=
  { main := c.main
    blinkMask := c.blinkMask
    bar := c.bar
    barStyle := c.barStyle
    corruptMsg := c.msg.corruptMsg
    menuMsg := c.msg.menuMsg
    validReading := c.msg.validReading }

/-- The two pairs that open a message frame. -/
structure MessageHeader where
  first : SniffByte
  second : SniffByte
  first_input : first.input = 0x00
  first_eof : first.output ≠ 0xbb
  first_button : first.output ≠ 0x77
  second_input : second.input &&& 0x7f = 0x7f

/-- A complete message frame of at most 100 pairs. -/
structure MessageFrame extends MessageHeader where
  payload : List SniffByte
  payload_eof : eofPair ∉ payload
  fits : payload.length + 3 ≤ INPUT_BUF_SIZE

/-- The pairs of the frame before the EOF pair. -/
def MessageHeader.opened (hd : MessageHeader) (payload : List SniffByte) : List SniffByte :=
  hd.first :: hd.second :: payload

/-- The pairs of the frame. -/
def MessageFrame.pairs (f : MessageFrame) : List SniffByte :=
  f.opened f.payload ++ [eofPair]

/-- The pair of an event. -/
def Event.pair? : Event → Option SniffByte
  | .pair p _ => some p
  | _ => none

/-- The events deliver exactly the pairs `ps`: the SHIFT window may be checked and
interrupts served between them, but no reset is handled. -/
def Delivers (w : List Event) (ps : List SniffByte) : Prop :=
  Event.reset ∉ w ∧ w.filterMap Event.pair? = ps

/-- The frame shows the same from every two contexts of `K`. -/
def MessageFrame.Determines (f : MessageFrame) (K : DmmContext → Prop) : Prop :=
  ∀ c₁ c₂, K c₁ → K c₂ → ∀ w₁ w₂, Delivers w₁ f.pairs → Delivers w₂ f.pairs →
    (Machine.run DmmContext.step c₁ w₁).shown = (Machine.run DmmContext.step c₂ w₂).shown

/-- All that the bar graph reads lies in the frame: positions 2 to 6 at least, or
position 5 and the three digits that end the scan there. -/
def MessageFrame.BarInFrame (f : MessageFrame) : Prop :=
  5 ≤ f.payload.length ∨
    f.payload.length = 4 ∧ ∀ p ∈ f.payload.tail, isdigit p.input = true

namespace MessageHeader

variable (hd : MessageHeader)

theorem first_ne_eof : hd.first ≠ eofPair := by
  intro h
  exact hd.first_eof (by rw [h]; rfl)

theorem first_ne_button : hd.first ≠ buttonHeader := by
  intro h
  exact hd.first_button (by rw [h]; rfl)

theorem second_ne_eof : hd.second ≠ eofPair := by
  intro h
  have := hd.second_input
  rw [h] at this
  exact absurd this (by decide)

/-- The header fixes the message state. -/
theorem stateOf_opened (payload : List SniffByte) :
    stateOf (hd.opened payload) = .message := by
  simp [stateOf, opened, hd.first_ne_button, pairKind, hd.first_input, hd.second_input,
    FrameKind.state]

/-- A message frame is ended by the EOF pair only. -/
theorem endsFrame_iff {acc todo : List SniffByte} {p : SniffByte} {payload : List SniffByte}
    (h : acc ++ p :: todo = hd.opened payload) : EndsFrame acc p ↔ p = eofPair := by
  refine ⟨fun hend => hend.resolve_right ?_, .inl⟩
  rintro ⟨hhead, -⟩
  cases acc with
  | nil => cases hhead
  | cons a acc =>
    rw [List.head?_cons, Option.some.injEq] at hhead
    rw [List.cons_append, opened, List.cons.injEq] at h
    exact hd.first_ne_button (h.1.symm.trans hhead)

end MessageHeader

/-! ## The decoder inside a message frame -/

/-- The payload bytes, one after the other, into the work area. -/
def MessageAssembly.payload (m : MessageAssembly) (ps : List SniffByte) : MessageAssembly :=
  Machine.run (fun m p => m.messageByte p.input) m ps

/-- `c` has collected the pairs `acc` of a message frame it entered from `c₀`. -/
structure Inside (c₀ c : DmmContext) (acc : List SniffByte) : Prop where
  parsed : c.buf.Parsed acc
  stale : ∀ i, acc.length ≤ i → c.buf.inputBuf.rd i = c₀.buf.inputBuf.rd i
  msg : c.msg = c₀.msg.payload (acc.drop 2)

theorem Inside.start {c : DmmContext} (h : c.AtBoundary) : Inside c c [] :=
  ⟨h.parsed, fun _ _ => rfl, rfl⟩

theorem Inside.tick {c₀ c : DmmContext} {acc : List SniffByte} (h : Inside c₀ c acc)
    (now_us : UInt32) : Inside c₀ (processShiftWindow c now_us) acc := by
  obtain ⟨hp, hs, hm⟩ := h
  refine ⟨?_, ?_, ?_⟩
  · rw [processShiftWindow_buf]
    exact hp
  · rw [processShiftWindow_buf]
    exact hs
  · rw [processShiftWindow_msg]
    exact hm

/-- The message assembly after one more pair of the header or the payload. -/
theorem Inside.step_msg {c₀ c : DmmContext} {hd : MessageHeader} {acc todo payload}
    (h : Inside c₀ c acc) {p : SniffByte} (hacc : acc ++ p :: todo = hd.opened payload)
    (hp : p ≠ eofPair) (t : Clock) :
    (processPair c p t).1.msg = c₀.msg.payload ((acc ++ [p]).drop 2) := by
  have hlen : c.buf.bufLen < INPUT_BUF_SIZE := by
    rw [h.parsed.holds.len]
    exact h.parsed.room
  have heof : ¬ (c.buf.store p).lastBytesAreEof = true := by
    rw [store_eof_iff hlen]
    exact hp
  have hstate := h.parsed.state
  rw [processPair_msg, if_neg heof, store_last_input hlen, h.msg]
  match acc, hacc, hstate with
  | [], _, hstate =>
    rw [if_neg (by rw [hstate]; decide)]
    rfl
  | [a], hacc, hstate =>
    -- one pair is collected: not a button header, and not classified yet
    obtain rfl : a = hd.first := by
      rw [List.singleton_append, MessageHeader.opened, List.cons.injEq] at hacc
      exact hacc.1
    rw [if_neg (by rw [hstate]; simp [stateOf, hd.first_ne_button])]
    rfl
  | a :: b :: rest, hacc, hstate =>
    obtain ⟨rfl, rfl, -⟩ : a = hd.first ∧ b = hd.second ∧ rest ++ p :: todo = payload := by
      simpa [MessageHeader.opened] using hacc
    rw [if_pos (hstate.trans (hd.stateOf_opened rest))]
    simp [MessageAssembly.payload, Machine.run_append]

/-- One more pair of the header or the payload. -/
theorem Inside.pair {c₀ c : DmmContext} {hd : MessageHeader} {acc todo payload}
    (h : Inside c₀ c acc) {p : SniffByte} (hacc : acc ++ p :: todo = hd.opened payload)
    (hp : p ≠ eofPair) (hroom : acc.length + 1 < INPUT_BUF_SIZE) (t : Clock) :
    Inside c₀ (processPair c p t).1 (acc ++ [p]) := by
  have hend : ¬ EndsFrame acc p := fun h => hp ((hd.endsFrame_iff hacc).mp h)
  refine ⟨?_, ?_, h.step_msg hacc hp t⟩
  · have hstep := (h.parsed.step_extends hend).1
    rw [if_neg (by omega), ← processPair_buf c p t] at hstep
    exact hstep
  · intro i hi
    have hne : acc.length ≠ i := by
      rw [List.length_append, List.length_singleton] at hi
      omega
    have hle : acc.length ≤ i := by
      rw [List.length_append] at hi
      omega
    have hlt : ((c.buf.store p).withState (stateOf (acc ++ [p]))).bufLen < INPUT_BUF_SIZE := by
      have := (h.parsed.holds.store h.parsed.room p).len
      rw [List.length_append, List.length_singleton] at this
      rw [FrameBuffers.withState, this]
      exact hroom
    rw [processPair_buf, h.parsed.next_extends hend, FrameBuffers.guarded_of_lt hlt,
      ← h.stale i hle]
    exact CArray.rd_wr_ne _ (by rw [h.parsed.holds.len]; exact hne) _

/-- The events that deliver a part of the frame. -/
theorem Inside.run {c₀ c : DmmContext} {hd : MessageHeader} {acc todo rest payload}
    (h : Inside c₀ c acc) (hacc : acc ++ todo ++ rest = hd.opened payload)
    (hp : eofPair ∉ payload) (hroom : (acc ++ todo).length < INPUT_BUF_SIZE) {w : List Event}
    (hw : Delivers w todo) : Inside c₀ (Machine.run DmmContext.step c w) (acc ++ todo) := by
  induction w generalizing c acc todo with
  | nil =>
    obtain rfl : todo = [] := hw.2.symm
    rw [List.append_nil]
    exact h
  | cons e w ih =>
    obtain ⟨hreset, hpairs⟩ := hw
    rw [List.mem_cons, not_or] at hreset
    cases e with
    | tick now_us => exact ih (h.tick now_us) hacc hroom ⟨hreset.2, hpairs⟩
    | reset => exact absurd rfl hreset.1
    | interrupt sniff dbg =>
      have hsame : Inside c₀ (c.step (.interrupt sniff dbg)) acc := ⟨h.parsed, h.stale, h.msg⟩
      exact ih hsame hacc hroom ⟨hreset.2, hpairs⟩
    | pair p t =>
      obtain rfl : p :: w.filterMap Event.pair? = todo := hpairs
      rw [List.append_assoc, List.cons_append] at hacc
      -- EOF is neither in the header nor in the payload
      have hne : p ≠ eofPair := by
        have hmem : p ∈ hd.opened payload := hacc ▸ by simp
        rintro rfl
        rcases List.mem_cons.mp hmem with h₁ | hmem
        · exact hd.first_ne_eof h₁.symm
        · rcases List.mem_cons.mp hmem with h₂ | hmem
          · exact hd.second_ne_eof h₂.symm
          · exact hp hmem
      have hshort : acc.length + 1 < INPUT_BUF_SIZE := by
        simp at hroom
        omega
      have hstep := h.pair hacc hne hshort t
      have hnext := ih hstep (by simpa using hacc) (by simpa using hroom) ⟨hreset.2, rfl⟩
      rw [List.append_assoc, List.singleton_append] at hnext
      exact hnext

/-! ## The bar graph reads a window of the input buffer -/

/-- What one byte does to the digits read and the value. -/
def barStep (limit : Nat) (s : Nat × Int) (byte : UInt8) : Nat × Int :=
  if s.1 < limit ∧ isdigit byte = true then (s.1 + 1, 10 * s.2 + (byte.toNat - 0x30)) else s

/-- The digits read and the value after the bytes `l`. -/
def barDigits (limit : Nat) (s : Nat × Int) (l : List UInt8) : Nat × Int :=
  l.foldl (barStep limit) s

/-- The reading, given the bytes from position 2 to position 7. -/
def windowReading : List UInt8 → UInt8 × Int
  | [] => (1, 0)
  | b :: l =>
    if isdigit b then (0, (barDigits 4 (0, 0) (b :: l)).2)
    else (1, if b == 0x2d then -(barDigits 3 (0, 0) l).2 else (barDigits 3 (0, 0) l).2)

/-- The bytes from position `8 - k` to position 7. -/
def upTo8 (buf : CArray UInt8 INPUT_BUF_SIZE) (k : Nat) : List UInt8 :=
  (List.range' (8 - k) k).map buf.rd

theorem barDigits_full {limit : Nat} {s : Nat × Int} (h : limit ≤ s.1) (l : List UInt8) :
    barDigits limit s l = s := by
  induction l with
  | nil => rfl
  | cons b l ih =>
    rw [barDigits, List.foldl_cons, barStep, if_neg (by omega)]
    exact ih

theorem upTo8_succ (buf : CArray UInt8 INPUT_BUF_SIZE) {k : Nat} (hk : k < 8) :
    upTo8 buf (k + 1) = buf.rd (8 - (k + 1)) :: upTo8 buf k := by
  rw [upTo8, List.range'_succ, List.map_cons, show 8 - (k + 1) + 1 = 8 - k by omega]
  rfl

theorem barScan_eq (buf : CArray UInt8 INPUT_BUF_SIZE) (limit : Nat) {k : Nat} (hk : k ≤ 8)
    (cnt : Nat) (v : Int) :
    barScan buf limit k cnt v = (barDigits limit (cnt, v) (upTo8 buf k)).2 := by
  induction k generalizing cnt v with
  | zero => rfl
  | succ k ih =>
    rw [upTo8_succ buf hk, barScan]
    by_cases hcnt : cnt < limit
    · rw [if_pos hcnt, barDigits, List.foldl_cons, barStep]
      by_cases hd : isdigit (buf.rd (8 - (k + 1))) = true
      · rw [if_pos hd, if_pos ⟨hcnt, hd⟩]
        exact ih (by omega) _ _
      · rw [if_neg hd, if_neg (fun h => hd h.2)]
        exact ih (by omega) _ _
    · rw [if_neg hcnt, barDigits_full (Nat.le_of_not_lt hcnt)]

theorem barReading_eq (buf : CArray UInt8 INPUT_BUF_SIZE) :
    barReading buf = windowReading (upTo8 buf 6) := by
  rw [barReading, upTo8_succ buf (by decide), windowReading, barScan_eq buf 4 (by decide),
    barScan_eq buf 3 (by decide), upTo8_succ buf (by decide)]

/-! ## What is published -/

/-- What the EOF pair publishes of an assembled message and a bar reading. -/
def published (m : MessageAssembly) (reading : UInt8 × Int) : Shown :=
  { main := m.classify.msgWork
    blinkMask := m.classify.blinkWork
    bar := reading.2
    barStyle := reading.1
    corruptMsg := m.classify.corruptMsg
    menuMsg := m.classify.menuMsg
    validReading := m.classify.validReading }

theorem publishMessage_shown (c : DmmContext) (now_us : UInt32) :
    (publishMessage c now_us).endFrame.shown = published c.msg (barReading c.buf.inputBuf) := by
  simp [publishMessage, published, DmmContext.endFrame, DmmContext.shown]

@[simp] theorem overflowGuard_shown (c : DmmContext) : (overflowGuard c).shown = c.shown := by
  rw [overflowGuard]
  split <;> rfl

/-- What lies at positions 2 to 7 when a frame entered from `c₀` ends. -/
def MessageFrame.window (f : MessageFrame) (c₀ : DmmContext) : List UInt8 :=
  (f.payload.map SniffByte.input ++ 0x00 :: upTo8 c₀.buf.inputBuf (5 - f.payload.length)).take 6

/-- The window, as the EOF pair finds it in the input buffer. -/
theorem Inside.window_eq {c₀ c : DmmContext} {f : MessageFrame}
    (h : Inside c₀ c (f.opened f.payload)) :
    upTo8 (c.buf.store eofPair).inputBuf 6 = f.window c₀ := by
  have hs := h.parsed.holds.store h.parsed.room eofPair
  apply List.ext_getElem
  · simp [upTo8, MessageFrame.window]
    omega
  · intro i hi₁ hi₂
    have hi : i < 6 := by simpa [upTo8] using hi₁
    simp only [upTo8, MessageFrame.window, List.getElem_map, List.getElem_range',
      List.getElem_take, List.getElem_append, List.length_map]
    rcases Nat.lt_trichotomy i f.payload.length with hlt | heq | hgt
    · -- a payload byte
      rw [dif_pos hlt, hs.input _ (by simp [MessageHeader.opened]; omega)]
      simp [MessageHeader.opened, Nat.add_comm 2 i, hlt]
    · -- the EOF byte
      subst heq
      rw [dif_neg (Nat.lt_irrefl _), hs.input _ (by simp [MessageHeader.opened]; omega)]
      simp [MessageHeader.opened, Nat.add_comm 2 f.payload.length, eofPair]
    · -- left over from before the frame
      have hpos : 8 - 6 + 1 * i = 8 - (5 - f.payload.length) + (i - f.payload.length - 1) := by
        omega
      have hne : c.buf.bufLen ≠ 8 - 6 + 1 * i := by
        rw [h.parsed.holds.len]
        simp [MessageHeader.opened]
        omega
      have hstale := h.stale (8 - 6 + 1 * i) (by simp [MessageHeader.opened]; omega)
      rw [dif_neg (by omega), FrameBuffers.store, CArray.rd_wr_ne _ hne, hstale, hpos]
      rw [List.getElem_cons, dif_neg (by omega)]
      simp

/-- The EOF pair publishes the payload, and the bar graph of the window. -/
theorem Inside.shown {c₀ c : DmmContext} {f : MessageFrame}
    (h : Inside c₀ c (f.opened f.payload)) (t : Clock) :
    (processPair c eofPair t).1.shown =
      published (c₀.msg.payload f.payload) (windowReading (f.window c₀)) := by
  have hs := h.parsed.holds.store h.parsed.room eofPair
  have heof := hs.eof_iff.mpr rfl
  have hstate : (c.buf.store eofPair).frameState = .message :=
    h.parsed.state.trans (f.stateOf_opened _)
  have hwindow := h.window_eq
  have hmsg : c.msg = c₀.msg.payload f.payload := h.msg
  simp only [processPair, dispatch, hstate, frameMessage, if_pos heof, overflowGuard_shown,
    publishMessage_shown, barReading_eq, hwindow, hmsg]

/-! ## A whole frame -/

@[simp] theorem processShiftWindow_shown (c : DmmContext) (now_us : UInt32) :
    (processShiftWindow c now_us).shown = c.shown := by
  simp only [processShiftWindow]
  repeat' split <;> try rfl

/-- Nothing that is shown changes without a pair or a reset. -/
theorem run_shown_of_delivers_nil {c : DmmContext} {w : List Event} (hw : Delivers w []) :
    (Machine.run DmmContext.step c w).shown = c.shown := by
  induction w generalizing c with
  | nil => rfl
  | cons e w ih =>
    obtain ⟨hreset, hpairs⟩ := hw
    rw [List.mem_cons, not_or] at hreset
    cases e with
    | tick now_us => exact (ih ⟨hreset.2, hpairs⟩).trans (processShiftWindow_shown c now_us)
    | reset => exact absurd rfl hreset.1
    | interrupt sniff dbg => exact ih ⟨hreset.2, hpairs⟩
    | pair p t => cases hpairs

/-- The events of a frame: those up to the last payload pair, the EOF pair, and what comes
after it. -/
theorem MessageFrame.split_events {f : MessageFrame} {w : List Event} (hw : Delivers w f.pairs) :
    ∃ w₁ t w₂, w = w₁ ++ .pair eofPair t :: w₂ ∧ Delivers w₁ (f.opened f.payload) ∧
      Delivers w₂ [] := by
  obtain ⟨hreset, hpairs⟩ := hw
  obtain ⟨w₁, w₂, rfl, hw₁, hw₂⟩ := List.filterMap_eq_append_iff.mp hpairs
  obtain ⟨ticks, e, w₃, rfl, hticks, he, hw₃⟩ := List.filterMap_eq_cons_iff.mp hw₂
  obtain ⟨t, rfl⟩ : ∃ t, e = .pair eofPair t := by
    cases e with
    | pair p t => exact ⟨t, by rw [Option.some.inj he]⟩
    | tick _ => cases he
    | reset => cases he
    | interrupt _ _ => cases he
  simp only [List.mem_append, List.mem_cons, not_or] at hreset
  refine ⟨w₁ ++ ticks, t, w₃, (List.append_assoc _ _ _).symm, ⟨?_, ?_⟩, hreset.2.2.2, hw₃⟩
  · simp [hreset.1, hreset.2.1]
  · rw [List.filterMap_append, hw₁, List.filterMap_eq_nil_iff.mpr hticks, List.append_nil]

/-- The decoder before the EOF pair of a frame. -/
theorem MessageFrame.inside (f : MessageFrame) {c : DmmContext} (h : c.AtBoundary)
    {w : List Event} (hw : Delivers w (f.opened f.payload)) :
    Inside c (Machine.run DmmContext.step c w) (f.opened f.payload) := by
  have hroom : ([] ++ f.opened f.payload).length < INPUT_BUF_SIZE := by
    have := f.fits
    simp only [List.nil_append, MessageHeader.opened, List.length_cons]
    omega
  have hall : [] ++ f.opened f.payload ++ [] = f.opened f.payload := List.append_nil _
  exact (Inside.start h).run hall f.payload_eof hroom hw

/-- What a frame shows, from any boundary. -/
theorem MessageFrame.run_shown (f : MessageFrame) {c : DmmContext} (h : c.AtBoundary)
    {w : List Event} (hw : Delivers w f.pairs) :
    (Machine.run DmmContext.step c w).shown =
      published (c.msg.payload f.payload) (windowReading (f.window c)) := by
  obtain ⟨w₁, t, w₂, rfl, hw₁, hw₂⟩ := f.split_events hw
  have hin := f.inside h hw₁
  rw [Machine.run_append, Machine.run_cons, run_shown_of_delivers_nil hw₂]
  exact Inside.shown hin t

/-! ## The lazy reset -/

/-- Two work areas that are due for a reset assemble the same message from the
first payload byte on. -/
theorem payload_of_workNeedReset {m₁ m₂ : MessageAssembly} (h₁ : m₁.workNeedReset = true)
    (h₂ : m₂.workNeedReset = true) {ps : List SniffByte} (hps : ps ≠ []) :
    m₁.payload ps = m₂.payload ps := by
  have hreset : m₁.resetWork = m₂.resetWork := by
    rw [MessageAssembly.resetWork, MessageAssembly.resetWork, if_pos h₁, if_pos h₂]
  cases ps with
  | nil => exact absurd rfl hps
  | cons p ps =>
    simp only [MessageAssembly.payload, Machine.run_cons, MessageAssembly.messageByte, hreset]

/-! ## The window and what is left over in it -/

theorem barDigits_append (limit : Nat) (s : Nat × Int) (l l' : List UInt8) :
    barDigits limit s (l ++ l') = barDigits limit (barDigits limit s l) l' :=
  List.foldl_append

/-- The value never gets smaller. -/
theorem barDigits_le (limit : Nat) {s : Nat × Int} (hs : 0 ≤ s.2) (l : List UInt8) :
    s.2 ≤ (barDigits limit s l).2 := by
  induction l generalizing s with
  | nil => exact Int.le_refl _
  | cons b l ih =>
    have hstep : s.2 ≤ (barStep limit s b).2 := by
      rw [barStep]
      split
      · rename_i h
        have := (isdigit_toNat h.2).1
        simp only
        omega
      · exact Int.le_refl _
    exact Int.le_trans hstep (ih (Int.le_trans hs hstep))

/-- No more digits are read than there are. -/
theorem barDigits_count (limit : Nat) (s : Nat × Int) (l : List UInt8) :
    (barDigits limit s l).1 ≤ s.1 + l.countP isdigit := by
  induction l generalizing s with
  | nil => exact Nat.le_refl _
  | cons b l ih =>
    have hstep := ih (barStep limit s b)
    rw [barDigits, List.foldl_cons]
    refine Nat.le_trans hstep ?_
    by_cases hb : isdigit b = true
    · have hone : (barStep limit s b).1 ≤ s.1 + 1 := by
        rw [barStep]
        split
        · exact Nat.le_refl _
        · exact Nat.le_succ _
      rw [List.countP_cons_of_pos hb]
      omega
    · have hsame : barStep limit s b = s := if_neg fun h => hb h.2
      rw [List.countP_cons_of_neg hb]
      exact Nat.add_le_add_right (Nat.le_of_eq (congrArg Prod.fst hsame)) _

theorem barDigits_zeros (limit n : Nat) (s : Nat × Int) :
    barDigits limit s (List.replicate n 0x00) = s := by
  induction n with
  | zero => rfl
  | succ n ih =>
    rw [List.replicate_succ, barDigits, List.foldl_cons, barStep,
      if_neg (fun h => absurd h.2 (by decide))]
    exact ih

/-- A digit left over is read while digits are still wanted. -/
theorem barDigits_ones (limit n : Nat) {s : Nat × Int} (hlt : s.1 < limit)
    (hs : 0 ≤ s.2) : s.2 < (barDigits limit s (List.replicate (n + 1) 0x31)).2 := by
  have hstep : barStep limit s 0x31 = (s.1 + 1, 10 * s.2 + 1) := by
    rw [barStep, if_pos ⟨hlt, by decide⟩]
    rfl
  have hle := barDigits_le limit (s := (s.1 + 1, 10 * s.2 + 1))
    (by simp only; omega) (List.replicate n 0x31)
  rw [List.replicate_succ, barDigits, List.foldl_cons, hstep]
  refine Int.lt_of_lt_of_le ?_ hle
  simp only
  omega

/-- Fewer digits in the frame than the scan wants: bytes left over show. -/
theorem windowReading_stale {b : UInt8} {l : List UInt8} (n : Nat)
    (h : l.countP isdigit < 3) :
    windowReading (b :: l ++ List.replicate (n + 1) 0x00) ≠
      windowReading (b :: l ++ List.replicate (n + 1) 0x31) := by
  intro heq
  rw [List.cons_append, List.cons_append, windowReading, windowReading] at heq
  by_cases hb : isdigit b = true
  · have hcount := barDigits_count 4 (0, 0) (b :: l)
    rw [List.countP_cons_of_pos hb] at hcount
    have hlt := barDigits_ones 4 n (s := barDigits 4 (0, 0) (b :: l)) (by omega)
      (barDigits_le 4 (Int.le_refl _) _)
    simp only [if_pos hb, ← List.cons_append, barDigits_append, barDigits_zeros,
      Prod.mk.injEq, true_and] at heq
    omega
  · have hcount := barDigits_count 3 (0, 0) l
    have hlt := barDigits_ones 3 n (s := barDigits 3 (0, 0) l) (by omega)
      (barDigits_le 3 (Int.le_refl _) _)
    simp only [if_neg hb, barDigits_append, barDigits_zeros, Prod.mk.injEq, true_and] at heq
    split at heq <;> omega

/-- Enough digits in the frame: the window reads the same from every context. -/
theorem MessageFrame.BarInFrame.windowReading_eq {f : MessageFrame} (h : f.BarInFrame)
    (c₁ c₂ : DmmContext) :
    windowReading (f.window c₁) = windowReading (f.window c₂) := by
  rcases h with h5 | ⟨h4, hdigits⟩
  · -- nothing is left over in the window
    have hnone : 5 - f.payload.length = 0 := by omega
    rw [MessageFrame.window, MessageFrame.window, hnone]
    rfl
  · obtain ⟨p, q, r, s, hpayload⟩ : ∃ p q r s, f.payload = [p, q, r, s] :=
      List.length_eq_four.mp h4
    rw [hpayload] at hdigits
    simp only [List.tail_cons, List.mem_cons, List.not_mem_nil, or_false, forall_eq_or_imp,
      forall_eq] at hdigits
    obtain ⟨hq, hr, hs⟩ := hdigits
    have hone (c : DmmContext) : f.window c =
        [p.input, q.input, r.input, s.input, 0x00, c.buf.inputBuf.rd 7] := by
      simp [MessageFrame.window, hpayload, upTo8]
    rw [hone, hone]
    by_cases hp : isdigit p.input = true
    · simp [windowReading, barDigits, barStep, hp, hq, hr, hs]
    · simp [windowReading, barDigits, barStep, hp, hq, hr, hs]

/-- A frame too short for the scan, in a buffer filled with one byte. -/
theorem MessageFrame.window_filled {f : MessageFrame} (h : f.payload.length ≤ 4)
    {c : DmmContext} {x : UInt8} (hx : ∀ i < 8, c.buf.inputBuf.rd i = x) :
    f.window c = f.payload.map SniffByte.input ++ 0x00 ::
      List.replicate (4 - f.payload.length + 1) x := by
  have hfill : upTo8 c.buf.inputBuf (5 - f.payload.length) =
      List.replicate (4 - f.payload.length + 1) x := by
    refine List.eq_replicate_iff.mpr ⟨by simp [upTo8]; omega, fun b hb => ?_⟩
    obtain ⟨i, hi, rfl⟩ := List.mem_map.mp hb
    exact hx i (by rw [List.mem_range'] at hi; obtain ⟨j, hj, rfl⟩ := hi; omega)
  rw [MessageFrame.window, hfill, List.take_of_length_le]
  simp
  omega

/-- Otherwise what lies in the buffer beyond the frame shows. -/
theorem MessageFrame.window_ne {f : MessageFrame} (h : ¬ f.BarInFrame) {c₁ c₂ : DmmContext}
    (h₁ : ∀ i < 8, c₁.buf.inputBuf.rd i = 0x00) (h₂ : ∀ i < 8, c₂.buf.inputBuf.rd i = 0x31) :
    windowReading (f.window c₁) ≠ windowReading (f.window c₂) := by
  have hshort : f.payload.length ≤ 4 := by
    by_contra hlong
    exact h (.inl (by omega))
  rw [f.window_filled hshort h₁, f.window_filled hshort h₂]
  rcases hpayload : f.payload with _ | ⟨p, rest⟩
  · have hne := windowReading_stale (b := 0x00) (l := []) 4 (by decide)
    exact hne
  · have hcount : (rest.map SniffByte.input ++ [0x00]).countP isdigit < 3 := by
      rw [List.countP_append, List.countP_map]
      have hzero : [(0x00 : UInt8)].countP isdigit = 0 := by decide
      have hle := List.countP_le_length (p := isdigit ∘ SniffByte.input) (l := rest)
      rw [hpayload, List.length_cons] at hshort
      by_contra hthree
      -- then all three are digits
      have hall : rest.countP (isdigit ∘ SniffByte.input) = rest.length := by omega
      refine h (.inr ⟨by rw [hpayload, List.length_cons]; omega, ?_⟩)
      rw [hpayload]
      exact List.countP_eq_length.mp hall
    have hne := windowReading_stale (b := p.input) (4 - (rest.length + 1)) hcount
    simpa using hne

/-! ## Frames cut off at 100 pairs -/

/-- The 100th pair of a message frame, when it is not EOF, brings the decoder to a
boundary with the work area as it is. -/
theorem Inside.cut {c₀ c : DmmContext} {hd : MessageHeader} {acc todo payload}
    (h : Inside c₀ c acc) {p : SniffByte} (hacc : acc ++ p :: todo = hd.opened payload)
    (hp : p ≠ eofPair) (hfull : acc.length + 1 = INPUT_BUF_SIZE) (t : Clock) :
    (processPair c p t).1.AtBoundary ∧
      (processPair c p t).1.msg = c₀.msg.payload ((acc ++ [p]).drop 2) := by
  have hend : ¬ EndsFrame acc p := fun h => hp ((hd.endsFrame_iff hacc).mp h)
  have hstep := (h.parsed.step_extends hend).1
  rw [if_pos hfull, ← processPair_buf c p t] at hstep
  exact ⟨⟨hstep.state, hstep.holds.len⟩, h.step_msg hacc hp t⟩

/-- The work area holds the text `t` in full and is not due for a reset. -/
structure MessageAssembly.Full (m : MessageAssembly) (t : DisplayBuf) : Prop where
  noReset : m.workNeedReset = false
  idx : DISPLAY_BUF_LEN - 1 ≤ m.msgIdx
  text : m.msgWork = t

/-- A full work area takes no more bytes. -/
theorem MessageAssembly.Full.messageByte {m : MessageAssembly} {t : DisplayBuf} (h : m.Full t)
    (byte : UInt8) : (m.messageByte byte).Full t := by
  obtain ⟨hreset, hidx, htext⟩ := h
  have hput (m' : MessageAssembly) (h' : m'.Full t) (c : UInt8) : (m'.dmmPutcSafe c).Full t := by
    rw [dmmPutcSafe, if_pos h'.idx]
    exact h'
  have hblink : (if 0 < m.msgIdx then
      { m with blinkWork := m.blinkWork ||| UInt16.ofNat (1 <<< (m.msgIdx - 1)) }
      else m).Full t := by
    split
    · exact ⟨hreset, hidx, htext⟩
    · exact ⟨hreset, hidx, htext⟩
  rw [MessageAssembly.messageByte, resetWork, if_neg (by rw [hreset]; decide), putByte]
  split
  · exact hput m ⟨hreset, hidx, htext⟩ _
  split
  · exact hput m ⟨hreset, hidx, htext⟩ _
  split
  · exact hput _ hblink _
  split
  · exact hput m ⟨hreset, hidx, htext⟩ _
  split
  · exact ⟨hreset, hidx, htext⟩
  split
  · exact ⟨hreset, hidx, htext⟩
  · exact hput m ⟨hreset, hidx, htext⟩ _

theorem MessageAssembly.Full.payload {m : MessageAssembly} {t : DisplayBuf} (h : m.Full t)
    (ps : List SniffByte) : (m.payload ps).Full t :=
  Machine.run_invariant (P := fun m => MessageAssembly.Full m t)
    (fun _ p h => h.messageByte p.input) h ps

/-! ## Histories without a cut

EOF and a reset leave the work area due for a reset, and so does every step but
the cut. -/

/-- The step is not the 100th pair of a message frame that goes on. -/
def NoCut (c : DmmContext) : Event → Prop
  | .pair p _ =>
    ¬ (c.buf.frameState = .message ∧ c.buf.bufLen + 1 = INPUT_BUF_SIZE ∧ p ≠ eofPair)
  | _ => True

/-- The work area is due for a reset, or a message frame is open. -/
structure DmmContext.DueOrOpen (c : DmmContext) : Prop where
  len : c.buf.bufLen < INPUT_BUF_SIZE
  due : c.msg.workNeedReset = true ∨ c.buf.frameState = .message

theorem DmmContext.DueOrOpen.step {c : DmmContext} (h : c.DueOrOpen) {e : Event}
    (he : NoCut c e) : (c.step e).DueOrOpen := by
  obtain ⟨hlen, hdue⟩ := h
  cases e with
  | tick now_us =>
    refine ⟨?_, ?_⟩
    · rw [DmmContext.step, processShiftWindow_buf]
      exact hlen
    · rw [DmmContext.step, processShiftWindow_buf, processShiftWindow_msg]
      exact hdue
  | reset => exact ⟨hlen, .inl rfl⟩
  | interrupt sniff dbg => exact ⟨hlen, hdue⟩
  | pair p t =>
    refine ⟨by rw [DmmContext.step, processPair_buf]; exact FrameBuffers.guarded_len _, ?_⟩
    rw [DmmContext.step, processPair_msg, processPair_buf]
    by_cases hstate : c.buf.frameState = .message
    · rw [if_pos hstate]
      by_cases heof : (c.buf.store p).lastBytesAreEof = true
      · rw [if_pos heof]
        exact .inl rfl
      · -- the frame goes on: it is not the 100th pair
        have hp : p ≠ eofPair := fun h => heof ((store_eof_iff hlen p).mpr h)
        have hroom : (c.buf.store p).bufLen < INPUT_BUF_SIZE := by
          have hne : c.buf.bufLen + 1 ≠ INPUT_BUF_SIZE := fun h => he ⟨hstate, h, hp⟩
          exact Nat.lt_of_le_of_ne hlen hne
        have hnext : (c.buf.store p).next = c.buf.store p := by
          have hs : (c.buf.store p).frameState = .message := hstate
          simp only [FrameBuffers.next, hs, if_neg heof]
        rw [hnext, FrameBuffers.guarded_of_lt hroom]
        exact .inr hstate
    · rw [if_neg hstate]
      exact .inl (hdue.resolve_right hstate)

/-- At a boundary after a history without a cut, the work area is due for a reset. -/
theorem workNeedReset_of_noCut {es : List Event}
    (h : Machine.Within DmmContext.step NoCut decoder34401Init es)
    (hb : (Machine.run DmmContext.step decoder34401Init es).AtBoundary) :
    (Machine.run DmmContext.step decoder34401Init es).msg.workNeedReset = true := by
  have hinit : decoder34401Init.DueOrOpen := ⟨by decide, .inl rfl⟩
  have hrun := Machine.run_within (P := DmmContext.DueOrOpen)
    (fun _ _ hc he => hc.step he) hinit h
  refine hrun.due.resolve_right ?_
  rw [hb.state]
  decide

/-! ## Contexts that tell frames apart -/

theorem delivers_deliver (ps : List SniffByte) : Delivers (deliver ps) ps := by
  refine ⟨by simp [deliver], ?_⟩
  rw [deliver, List.filterMap_map]
  exact List.filterMap_some

/-- A boundary with the work area due for a reset. -/
structure DmmContext.Fresh (c : DmmContext) : Prop where
  reachable : c.Reachable
  boundary : c.AtBoundary
  due : c.msg.workNeedReset = true

/-- The first boundary: the input buffer is still zero. -/
theorem fresh_empty : (after [eofPair]).Fresh ∧
    ∀ i < 8, (after [eofPair]).buf.inputBuf.rd i = 0x00 :=
  ⟨⟨after_reachable _, ⟨by decide, by decide⟩, by decide⟩, by decide⟩

/-- A control frame that fills the input buffer with digits. -/
def digitFrame : List SniffByte := List.replicate 8 ⟨0x31, 0x00⟩ ++ [eofPair]

theorem fresh_digits : (after (eofPair :: digitFrame)).Fresh ∧
    ∀ i < 8, (after (eofPair :: digitFrame)).buf.inputBuf.rd i = 0x31 :=
  ⟨⟨after_reachable _, ⟨by decide +kernel, by decide +kernel⟩, by decide +kernel⟩,
    by decide +kernel⟩

/-- The frame shows the same from every boundary with the work area due for a
reset exactly if the bar graph stays in the frame. -/
theorem MessageFrame.determines_fresh (f : MessageFrame) :
    f.Determines DmmContext.Fresh ↔ f.BarInFrame := by
  constructor
  · intro h
    by_contra hbar
    have hshown := h _ _ fresh_empty.1 fresh_digits.1 _ _ (delivers_deliver _) (delivers_deliver _)
    rw [f.run_shown fresh_empty.1.boundary (delivers_deliver _),
      f.run_shown fresh_digits.1.boundary (delivers_deliver _)] at hshown
    have hne := MessageFrame.window_ne hbar fresh_empty.2 fresh_digits.2
    exact hne (Prod.ext (congrArg Shown.barStyle hshown) (congrArg Shown.bar hshown))
  · intro hbar c₁ c₂ h₁ h₂ w₁ w₂ hw₁ hw₂
    have hne : f.payload ≠ [] := by
      intro hnil
      rcases hbar with h5 | ⟨h4, -⟩
      · rw [hnil] at h5
        exact absurd h5 (by decide)
      · rw [hnil] at h4
        exact absurd h4 (by decide)
    rw [f.run_shown h₁.boundary hw₁, f.run_shown h₂.boundary hw₂, hbar.windowReading_eq c₁ c₂,
      payload_of_workNeedReset h₁.due h₂.due hne]

/-! ## Work areas left full by a cut -/

/-- The header of the frames that are cut off below. -/
def cutHeader : MessageHeader where
  first := ⟨0x00, 0x00⟩
  second := ⟨0x7f, 0x00⟩
  first_input := rfl
  first_eof := by decide
  first_button := by decide
  second_input := by decide

/-- The context after a message frame of 98 times the pair `p`, cut off. -/
def afterCut (p : SniffByte) : DmmContext :=
  after ([eofPair] ++ (cutHeader.opened (List.replicate 97 p) ++ [p]))

theorem afterCut_spec {p : SniffByte} (hp : p ≠ eofPair) :
    (afterCut p).AtBoundary ∧
      (afterCut p).msg = (after [eofPair]).msg.payload (List.replicate 98 p) := by
  have hsplit : afterCut p =
      (processPair (Machine.run DmmContext.step (after [eofPair])
        (deliver (cutHeader.opened (List.replicate 97 p)))) p ⟨0, 0⟩).1 := by
    simp [afterCut, after, deliver, Machine.run_append, DmmContext.step]
  have hall : [] ++ cutHeader.opened (List.replicate 97 p) ++ [p] =
      cutHeader.opened (List.replicate 97 p ++ [p]) := rfl
  have hmem : eofPair ∉ List.replicate 97 p ++ [p] := by
    simp [hp.symm]
  have hroom : ([] ++ cutHeader.opened (List.replicate 97 p)).length < INPUT_BUF_SIZE := by
    simp [MessageHeader.opened, INPUT_BUF_SIZE]
  have hin := (Inside.start fresh_empty.1.boundary).run hall hmem hroom (delivers_deliver _)
  have hcut := hin.cut hall hp (by simp [MessageHeader.opened, INPUT_BUF_SIZE]) ⟨0, 0⟩
  rw [← hsplit] at hcut
  exact hcut

/-- After such a cut the work area is full. -/
theorem afterCut_full {p : SniffByte} (hp : p ≠ eofPair) {t : DisplayBuf}
    (ht : ((after [eofPair]).msg.payload (List.replicate 15 p)).Full t) :
    (afterCut p).msg.Full t := by
  rw [(afterCut_spec hp).2, show (98 : Nat) = 15 + 83 from rfl, ← List.replicate_append_replicate,
    MessageAssembly.payload, Machine.run_append]
  exact ht.payload _

/-- Without the flag, no frame fixes what is shown. -/
theorem MessageFrame.not_determines (f : MessageFrame) :
    ¬ f.Determines (fun c => c.Reachable ∧ c.AtBoundary) := by
  intro h
  have hX : (⟨0x58, 0x00⟩ : SniffByte) ≠ eofPair := by decide
  have hY : (⟨0x59, 0x00⟩ : SniffByte) ≠ eofPair := by decide
  have hbX := (afterCut_spec hX).1
  have hbY := (afterCut_spec hY).1
  have hshown := h (afterCut ⟨0x58, 0x00⟩) (afterCut ⟨0x59, 0x00⟩) ⟨after_reachable _, hbX⟩
    ⟨after_reachable _, hbY⟩ _ _ (delivers_deliver f.pairs) (delivers_deliver f.pairs)
  rw [f.run_shown hbX (delivers_deliver _), f.run_shown hbY (delivers_deliver _)] at hshown
  have htX := ((afterCut_full hX (t := displayText (List.replicate 15 0x58))
    ⟨by decide +kernel, by decide +kernel, by decide +kernel⟩).payload f.payload).text
  have htY := ((afterCut_full hY (t := displayText (List.replicate 15 0x59))
    ⟨by decide +kernel, by decide +kernel, by decide +kernel⟩).payload f.payload).text
  have hmain := congrArg Shown.main hshown
  simp only [published, classify_msgWork, htX, htY] at hmain
  exact absurd hmain (by decide)

/-! ## Main results -/

/-- **What a message frame displays.** From the boundaries with the work area due
for a reset, a frame displays the same exactly if the bar graph stays in the
frame; every boundary of a history without a cut is one of these; from the
others, no frame is safe. -/
theorem message_frame_determines (f : MessageFrame) :
    (f.Determines DmmContext.Fresh ↔ f.BarInFrame) ∧
    (∀ es, Machine.Within DmmContext.step NoCut decoder34401Init es →
      (Machine.run DmmContext.step decoder34401Init es).AtBoundary →
      (Machine.run DmmContext.step decoder34401Init es).Fresh) ∧
    ¬ f.Determines (fun c => c.Reachable ∧ c.AtBoundary) := by
  refine ⟨f.determines_fresh, fun es hcut hb => ?_, f.not_determines⟩
  have hinit : decoder34401Init.Reachable := .init rfl
  exact ⟨Machine.Reachable.run hinit es, hb, workNeedReset_of_noCut hcut hb⟩

/-- The message frame of the text `s`. -/
def textFrame (s : String) : List SniffByte :=
  cutHeader.opened ((bytes s).map fun x => ⟨x, 0x00⟩) ++ [eofPair]

/-- The message frame without payload. -/
def emptyFrame : MessageFrame :=
  { cutHeader with payload := [], payload_eof := List.not_mem_nil, fits := by decide }

/-- The digits of a reading of six characters lie in the frame. -/
def readingFrame : MessageFrame :=
  { cutHeader with
    payload := (bytes " 1.234").map fun x => ⟨x, 0x00⟩
    payload_eof := by decide
    fits := by decide }

theorem message_frame_determines_reading :
    readingFrame.BarInFrame ∧ readingFrame.Determines DmmContext.Fresh ∧
      (Machine.run DmmContext.step decoder34401Init (deliver [eofPair])).Fresh := by
  have hbar : readingFrame.BarInFrame := .inl (by decide)
  refine ⟨hbar, (message_frame_determines readingFrame).1.mpr hbar, ?_⟩
  exact (message_frame_determines readingFrame).2.1 (deliver [eofPair])
    ⟨fun h => absurd h.1 (by decide), trivial⟩
    ⟨by decide, by decide⟩

/-- A message frame without payload displays the message before it once more. -/
theorem message_frame_stale :
    let c₁ := after [eofPair]
    let c₂ := after (eofPair :: textFrame "HELLO")
    (c₁.Reachable ∧ c₁.AtBoundary) ∧ (c₂.Reachable ∧ c₂.AtBoundary) ∧
      (Machine.run DmmContext.step c₁ (deliver emptyFrame.pairs)).main = blankText ∧
      (Machine.run DmmContext.step c₂ (deliver emptyFrame.pairs)).main =
        displayText (bytes "HELLO         ") ∧
      ¬ ∀ f : MessageFrame, f.Determines (fun c => c.Reachable ∧ c.AtBoundary) := by
  have h₁ : (after [eofPair]).Reachable ∧ (after [eofPair]).AtBoundary :=
    ⟨after_reachable _, ⟨by decide, by decide⟩⟩
  have h₂ : (after (eofPair :: textFrame "HELLO")).Reachable ∧
      (after (eofPair :: textFrame "HELLO")).AtBoundary :=
    ⟨after_reachable _, ⟨by decide +kernel, by decide +kernel⟩⟩
  have hmain₁ : (Machine.run DmmContext.step (after [eofPair]) (deliver emptyFrame.pairs)).main =
      blankText := by decide +kernel
  have hmain₂ : (Machine.run DmmContext.step (after (eofPair :: textFrame "HELLO"))
      (deliver emptyFrame.pairs)).main = displayText (bytes "HELLO         ") := by decide +kernel
  refine ⟨h₁, h₂, hmain₁, hmain₂, fun h => ?_⟩
  have hshown := h emptyFrame _ _ h₁ h₂ _ _ (delivers_deliver _) (delivers_deliver _)
  have hmain := congrArg Shown.main hshown
  simp only [DmmContext.shown, hmain₁, hmain₂] at hmain
  exact absurd hmain (by decide)

end LcdPico
