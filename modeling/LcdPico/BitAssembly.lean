import LcdPico.SckEdge
import Mathlib.Data.List.Induction

/-!
# How bits become bytes (`decoder34401_sckedge`)

`BitGroups` says what the clock interrupt is for: the bits of both data lines are
gathered in groups of eight, a group that a gap in the clock cuts off is replaced by
an EOF pair, and a reset drops it. The handler keeps no group. It shifts into
accumulators that are never cleared, counts in `byte_len`, and takes the time stamp 0 for
"no edge yet": a gap after an edge at that time is not seen.

`Gathers` relates the two. `bit_groups_exact` follows them along the bus, as long as no gap
comes after an edge stamped 0.
-/

namespace LcdPico

/-! ## Bits, most significant first -/

/-- The number in the bits `bits`, behind the bits of `a`. -/
def bitsFrom (a : Nat) (bits : List Bool) : Nat := bits.foldl (fun n b => 2 * n + b.toNat) a

/-- The byte of eight bits. -/
def byteOf (bits : List Bool) : UInt8 := UInt8.ofNat (bitsFrom 0 bits)

theorem bitsFrom_snoc (a : Nat) (bits : List Bool) (b : Bool) :
    bitsFrom a (bits ++ [b]) = 2 * bitsFrom a bits + b.toNat := by
  rw [bitsFrom, List.foldl_append]
  rfl

/-- What was there before the bits moves up by as many places. -/
theorem bitsFrom_eq (a : Nat) (bits : List Bool) :
    bitsFrom a bits = a * 2 ^ bits.length + bitsFrom 0 bits := by
  induction bits using List.reverseRecOn with
  | nil => simp [bitsFrom]
  | append_singleton bits b ih =>
    have hplaces : a * (2 ^ bits.length * 2) = 2 * (a * 2 ^ bits.length) := by
      rw [Nat.mul_comm _ 2, Nat.mul_left_comm]
    rw [bitsFrom_snoc, bitsFrom_snoc, ih, List.length_append, List.length_singleton, Nat.pow_succ,
      hplaces]
    omega

/-- Eight bits push out what was there before them. -/
theorem ofNat_bitsFrom {bits : List Bool} (h : bits.length = 8) (a : Nat) :
    UInt8.ofNat (bitsFrom a bits) = byteOf bits := by
  apply UInt8.toNat_inj.mp
  rw [byteOf, UInt8.toNat_ofNat', UInt8.toNat_ofNat', bitsFrom_eq, h]
  exact Nat.mul_add_mod_self_right _ _ _

/-- One bit is shifted into an accumulator. -/
theorem shiftIn_ofNat (n : Nat) (b : Bool) :
    (UInt8.ofNat n <<< 1) ||| (if b then 1 else 0) = UInt8.ofNat (2 * n + b.toNat) := by
  have hbit : (if b then 1 else 0 : UInt8).toNat = b.toNat := by cases b <;> rfl
  have hlt : b.toNat < 2 ^ 1 := Bool.toNat_lt b
  have hdouble : (n % 2 ^ 8) <<< 1 % 2 ^ 8 = 2 ^ 1 * (n % 128) := by
    rw [Nat.shiftLeft_eq]
    omega
  apply UInt8.toNat_inj.mp
  rw [UInt8.toNat_or, UInt8.toNat_shiftLeft, UInt8.toNat_ofNat', UInt8.toNat_ofNat', hbit]
  change (n % 2 ^ 8) <<< 1 % 2 ^ 8 ||| b.toNat = _
  rw [hdouble, ← Nat.two_pow_add_eq_or_of_lt hlt]
  omega

/-! ## The reference -/

/-- The bits gathered, those of DI and DO at the same edge together; when the last edge came;
the pairs completed. -/
structure BitGroups where
  group : List (Bool × Bool)
  last : Option UInt32
  out : List SniffByte

namespace BitGroups

/-- Power-up. -/
def init : BitGroups := { group := [], last := none, out := [] }

/-- The edge at `now_us` comes after a gap, with a group partly filled. -/
def Gap (r : BitGroups) (now_us : UInt32) : Prop :=
  r.group ≠ [] ∧ (r.last.any fun t => now_us - t > MAX_SCK_DELAY_US) = true

instance (r : BitGroups) (now_us : UInt32) : Decidable (r.Gap now_us) :=
  inferInstanceAs (Decidable (_ ∧ _))

/-- A gap drops the group, and an EOF pair takes its place. -/
def cut (r : BitGroups) (now_us : UInt32) : BitGroups :=
  if r.Gap now_us then { r with group := [], out := r.out ++ [eofPair] } else r

/-- One more bit of each line; the eighth completes a pair. -/
def push (r : BitGroups) (bits : Bool × Bool) (now_us : UInt32) : BitGroups :=
  let group := r.group ++ [bits]
  if group.length = 8 then
    { group := []
      last := some now_us
      out := r.out ++ [⟨byteOf (group.map Prod.fst), byteOf (group.map Prod.snd)⟩] }
  else { r with group := group, last := some now_us }

def step (r : BitGroups) : BusAction → BitGroups
  | .sckedge e => (r.cut e.now_us).push (e.level DI_PIN, e.level DO_PIN) e.now_us
  | .reset _ => { r with group := [] }
  | .consumer _ => r

/-- No gap comes after an edge that was stamped 0. -/
def NoGapAfterZero (r : BitGroups) : BusAction → Prop
  | .sckedge e => ¬(r.last = some 0 ∧ r.Gap e.now_us)
  | _ => True

instance (r : BitGroups) : (a : BusAction) → Decidable (r.NoGapAfterZero a)
  | .sckedge _ => inferInstanceAs (Decidable (¬(_ ∧ _)))
  | .reset _ => .isTrue trivial
  | .consumer _ => .isTrue trivial

end BitGroups

/-! ## The handler, as far as the FIFO and the bits go -/

/-- The test of the gap detection. -/
def SniffState.SeesGap (s : SniffState) (now_us : UInt32) : Prop :=
  s.lastUs > 0 ∧ s.byteLen ≠ 0 ∧ now_us - s.lastUs > MAX_SCK_DELAY_US

instance (s : SniffState) (now_us : UInt32) : Decidable (s.SeesGap now_us) :=
  inferInstanceAs (Decidable (_ ∧ _))

/-- Appending depends on the FIFO and the accumulators only. -/
theorem fifoAppend_fifoView {c c' : DmmContext} (h : c.fifoView = c'.fifoView) :
    (fifoAppend c).fifoView = (fifoAppend c').fifoView := by
  have hsniff : c.sniff = c'.sniff := congrArg DmmContext.FifoView.sniff h
  have hoverrun : c.dbg.byteOverrunCount = c'.dbg.byteOverrunCount :=
    congrArg DmmContext.FifoView.overrun h
  have hlevel : c.dbg.fifoLevel = c'.dbg.fifoLevel := congrArg DmmContext.FifoView.level h
  simp only [fifoAppend, hsniff]
  split
  · simp only [DmmContext.fifoView, hoverrun, hlevel]
  · simp only [DmmContext.fifoView, hoverrun]

theorem detectGap_fifoView (c : DmmContext) (now_us : UInt32) :
    (detectGap c now_us).fifoView =
      if c.sniff.SeesGap now_us then (appendByte c eofPair).fifoView else c.fifoView := by
  rw [detectGap]
  by_cases hlast : c.sniff.lastUs > 0
  · rw [if_pos hlast]
    dsimp only
    by_cases hgap : c.sniff.byteLen ≠ 0 ∧ now_us - c.sniff.lastUs > MAX_SCK_DELAY_US
    · have hsees : c.sniff.SeesGap now_us := ⟨hlast, hgap⟩
      rw [if_pos hgap, if_pos hsees]
      exact fifoAppend_fifoView rfl
    · have hsees : ¬c.sniff.SeesGap now_us := fun h => hgap h.2
      rw [if_neg hgap, if_neg hsees]
      rfl
  · have hsees : ¬c.sniff.SeesGap now_us := fun h => hlast h.1
    rw [if_neg hlast, if_neg hsees]

/-- The context after the gap detection, as far as the FIFO and the bits go. -/
def gapHandled (c : DmmContext) (now_us : UInt32) : DmmContext :=
  if c.sniff.SeesGap now_us then appendByte c eofPair else c

/-- The sniff state after one more bit. -/
def bitShifted (c : DmmContext) (e : Edge) : DmmContext :=
  { c with
    sniff := shiftBit { c.sniff with lastUs := e.now_us } (e.level DO_PIN) (e.level DI_PIN) }

theorem bitShifted_fifoView {c c' : DmmContext} (h : c.fifoView = c'.fifoView) (e : Edge) :
    (bitShifted c e).fifoView = (bitShifted c' e).fifoView := by
  have hsniff : c.sniff = c'.sniff := congrArg DmmContext.FifoView.sniff h
  have hoverrun : c.dbg.byteOverrunCount = c'.dbg.byteOverrunCount :=
    congrArg DmmContext.FifoView.overrun h
  have hlevel : c.dbg.fifoLevel = c'.dbg.fifoLevel := congrArg DmmContext.FifoView.level h
  simp only [bitShifted, DmmContext.fifoView, hsniff, hoverrun, hlevel]

/-- The handler: a gap is handled, a bit is shifted in, and the eighth one completes a pair. -/
theorem decoder34401Sckedge_fifoView (c : DmmContext) (e : Edge) :
    (decoder34401Sckedge c e).fifoView =
      if 8 ≤ (bitShifted (gapHandled c e.now_us) e).sniff.byteLen then
        (fifoAppend (bitShifted (gapHandled c e.now_us) e)).fifoView
      else (bitShifted (gapHandled c e.now_us) e).fifoView := by
  have hgap : (detectGap { c with dbg := noiseDebug c.dbg e } e.now_us).fifoView =
      (gapHandled c e.now_us).fifoView := by
    rw [detectGap_fifoView, gapHandled]
    dsimp only
    split_ifs
    · exact fifoAppend_fifoView rfl
    · rfl
  have hbit := bitShifted_fifoView hgap e
  have hsniff := congrArg DmmContext.FifoView.sniff hbit
  have hlen := congrArg SniffState.byteLen hsniff
  dsimp only [DmmContext.fifoView] at hlen
  rw [← hlen, ← hbit, ← fifoAppend_fifoView hbit, decoder34401Sckedge]
  generalize detectGap { c with dbg := noiseDebug c.dbg e } e.now_us = d
  change DmmContext.fifoView (if 8 ≤ (bitShifted d e).sniff.byteLen then _ else _) = _
  split_ifs
  · rfl
  · rfl

/-! ## The bits in the accumulators -/

/-- The count and the accumulators hold `group`, above whatever was in them before. -/
structure SniffState.Holds (s : SniffState) (group : List (Bool × Bool)) : Prop where
  len : s.byteLen = UInt8.ofNat group.length
  input : ∃ a, s.inputAcc = UInt8.ofNat (bitsFrom a (group.map Prod.fst))
  output : ∃ a, s.outputAcc = UInt8.ofNat (bitsFrom a (group.map Prod.snd))

theorem SniffState.Holds.nil {s : SniffState} (h : s.byteLen = 0) : s.Holds [] :=
  ⟨h, ⟨s.inputAcc.toNat, by simp [bitsFrom]⟩, ⟨s.outputAcc.toNat, by simp [bitsFrom]⟩⟩

/-- One more bit of each line. -/
theorem SniffState.Holds.shiftBit {s : SniffState} {group : List (Bool × Bool)} (h : s.Holds group)
    (do_pin di_pin : Bool) :
    (shiftBit s do_pin di_pin).Holds (group ++ [(di_pin, do_pin)]) := by
  obtain ⟨hlen, ⟨a, hin⟩, ⟨b, hout⟩⟩ := h
  refine ⟨?_, ⟨a, ?_⟩, ⟨b, ?_⟩⟩
  · rw [LcdPico.shiftBit, hlen, List.length_append, List.length_singleton, UInt8.ofNat_add]
    rfl
  · rw [LcdPico.shiftBit, hin, shiftIn_ofNat, List.map_append, List.map_cons, List.map_nil,
      bitsFrom_snoc]
  · rw [LcdPico.shiftBit, hout, shiftIn_ofNat, List.map_append, List.map_cons, List.map_nil,
      bitsFrom_snoc]

/-- Eight bits are the whole of the accumulators. -/
theorem SniffState.Holds.pair {s : SniffState} {group : List (Bool × Bool)} (h : s.Holds group)
    (h8 : group.length = 8) :
    (⟨s.inputAcc, s.outputAcc⟩ : SniffByte) =
      ⟨byteOf (group.map Prod.fst), byteOf (group.map Prod.snd)⟩ := by
  obtain ⟨-, ⟨a, hin⟩, ⟨b, hout⟩⟩ := h
  rw [hin, hout, ofNat_bitsFrom (by rw [List.length_map, h8]),
    ofNat_bitsFrom (by rw [List.length_map, h8])]

/-- The sniff state is where the reference is, between two edges. -/
structure SniffState.Gathers (s : SniffState) (r : BitGroups) : Prop where
  holds : s.Holds r.group
  room : r.group.length < 8
  last : ∀ t, r.last = some t → s.lastUs = t
  fresh : r.last = none → r.group = []

namespace SniffState.Gathers

variable {s : SniffState} {r : BitGroups}

/-- The gap detection sees the gaps of the reference, but for those after an edge at 0. -/
theorem seesGap_iff (h : s.Gathers r) {now_us : UInt32}
    (hzero : ¬(r.last = some 0 ∧ r.Gap now_us)) :
    s.SeesGap now_us ↔ r.Gap now_us := by
  have hlen : s.byteLen ≠ 0 ↔ r.group ≠ [] := by
    have hroom := h.room
    rw [h.holds.len, Ne, ← UInt8.toNat_inj, UInt8.toNat_ofNat', Nat.mod_eq_of_lt (by omega)]
    exact not_congr List.length_eq_zero_iff
  constructor
  · rintro ⟨hpos, hbits, hgap⟩
    cases hlast : r.last with
    | none => exact absurd (h.fresh hlast) (hlen.mp hbits)
    | some t =>
      refine ⟨hlen.mp hbits, ?_⟩
      rw [hlast, ← h.last t hlast]
      exact decide_eq_true hgap
  · intro hgap
    cases hlast : r.last with
    | none => exact absurd (h.fresh hlast) hgap.1
    | some t =>
      have hdue := hgap.2
      rw [hlast, Option.any_some, decide_eq_true_eq, ← h.last t hlast] at hdue
      refine ⟨?_, hlen.mpr hgap.1, hdue⟩
      rw [h.last t hlast]
      refine UInt32.pos_iff_ne_zero.mpr fun ht => hzero ⟨?_, hgap⟩
      rw [hlast, ht]

/-- Only the bits and the time of the last edge matter. -/
theorem of_eq (h : s.Gathers r) {s' : SniffState} (hlen : s'.byteLen = s.byteLen)
    (hin : s'.inputAcc = s.inputAcc) (hout : s'.outputAcc = s.outputAcc)
    (hlast : s'.lastUs = s.lastUs) : s'.Gathers r := by
  obtain ⟨⟨hl, hi, ho⟩, hroom, ht, hfresh⟩ := h
  refine ⟨⟨?_, ?_, ?_⟩, hroom, ?_, hfresh⟩
  · rw [hlen]
    exact hl
  · rw [hin]
    exact hi
  · rw [hout]
    exact ho
  · rw [hlast]
    exact ht

/-- A reset drops the group. -/
theorem reset (h : s.Gathers r) {s' : SniffState} (hlen : s'.byteLen = 0)
    (hlast : s'.lastUs = s.lastUs) : s'.Gathers { r with group := [] } :=
  ⟨.nil hlen, Nat.zero_lt_succ _, fun t ht => hlast.trans (h.last t ht), fun _ => rfl⟩

end SniffState.Gathers

theorem fifoAppend_sniff (c : DmmContext) :
    (fifoAppend c).sniff.byteLen = 0 ∧ (fifoAppend c).sniff.lastUs = c.sniff.lastUs := by
  unfold fifoAppend
  dsimp only
  split
  · exact ⟨rfl, rfl⟩
  · exact ⟨rfl, rfl⟩

/-- After the gap detection, the sniff state is where the reference is. -/
theorem gapHandled_gathers {c : DmmContext} {r : BitGroups} (h : c.sniff.Gathers r)
    {now_us : UInt32} (hzero : ¬(r.last = some 0 ∧ r.Gap now_us)) :
    (gapHandled c now_us).sniff.Gathers (r.cut now_us) := by
  rw [gapHandled, BitGroups.cut]
  by_cases hgap : r.Gap now_us
  · rw [if_pos ((h.seesGap_iff hzero).mpr hgap), if_pos hgap]
    obtain ⟨hlen, hlast⟩ := fifoAppend_sniff
      { c with sniff := { c.sniff with inputAcc := eofPair.input, outputAcc := eofPair.output } }
    obtain ⟨hholds, hroom, ht, hfresh⟩ := h.reset hlen hlast
    exact ⟨hholds, hroom, ht, hfresh⟩
  · rw [if_neg fun hs => hgap ((h.seesGap_iff hzero).mp hs), if_neg hgap]
    exact h

/-! ## The bus -/

namespace ProcessState

/-- The state with the account that exactly the pairs `out` were appended, and accepted. -/
def accounted (s : ProcessState) (out : List SniffByte) : ProcessState :=
  { s with appended := out.map fun p => (p, true) }

/-- The pairs appended are those of the reference, and so are the bits gathered since. -/
structure Follows (s : ProcessState) (r : BitGroups) : Prop where
  fifo : (s.accounted r.out).Inv
  gathers : s.ctx.sniff.Gathers r

theorem accepted_accounted (s : ProcessState) (out : List SniffByte) :
    (s.accounted out).accepted = out := by
  simp [accepted, accounted, List.filter_map, Function.comp_def]

theorem Follows.out {s : ProcessState} {r : BitGroups} (h : s.Follows r) :
    s.consumed ++ s.ctx.pending = r.out :=
  h.fifo.content.trans (accepted_accounted s r.out)

/-- A pair is appended to a FIFO that is not full. -/
theorem inv_append {s : ProcessState} {out : List SniffByte} (h : (s.accounted out).Inv)
    (hacc : fifoAccepts s.ctx = true) (p : SniffByte) :
    ({ s with ctx := appendByte s.ctx p }.accounted (out ++ [p])).Inv := by
  have happend := h.append p
  rw [step, show (s.accounted out).ctx = s.ctx from rfl, hacc] at happend
  rw [accounted, List.map_append]
  exact happend

/-- The accounts do not matter to the decoder. -/
theorem consumerStep_accounted (s : ProcessState) (out : List SniffByte) (t : Clock) :
    (s.accounted out).consumerStep t = (s.consumerStep t).accounted out := by
  obtain ⟨ctx, pc, start, i, o, cons, app⟩ := s
  cases pc with
  | check =>
    by_cases hreset : ctx.sniff.resetReceived = true
    · simp [consumerStep, accounted, hreset]
    · simp [consumerStep, accounted, hreset]
  | idle | testFifo | testReset | readIn | readOut | advance | handle | finish => rfl

/-- The decoder's actions leave the bits alone. -/
theorem consumerStep_gathers {s : ProcessState} {r : BitGroups} (h : s.ctx.sniff.Gathers r)
    (t : Clock) : (s.consumerStep t).ctx.sniff.Gathers r := by
  have hview {c : DmmContext} (hc : c.fifoView = s.ctx.fifoView) : c.sniff.Gathers r := by
    rw [show c.sniff = s.ctx.sniff from congrArg DmmContext.FifoView.sniff hc]
    exact h
  cases hpc : s.pc with
  | idle =>
    simp only [consumerStep, hpc]
    exact hview (processShiftWindow_fifoView _ _)
  | check =>
    simp only [consumerStep, hpc]
    split
    · exact h.of_eq rfl rfl rfl rfl
    · exact h
  | advance =>
    simp only [consumerStep, hpc]
    exact h.of_eq rfl rfl rfl rfl
  | handle =>
    simp only [consumerStep, hpc]
    exact hview (processPair_fifoView _ _ _)
  | testFifo | testReset | readIn | readOut | finish =>
    simp only [consumerStep, hpc]
    exact h

/-- What is known at a point of `decoder34401_process` depends on the FIFO and on the reset
flag. -/
theorem AtPc.of_view {s : ProcessState} (h : s.AtPc) {c : DmmContext}
    (hview : c.fifoView = s.ctx.fifoView) : { s with ctx := c }.AtPc := by
  have hfifo := DmmContext.fifo_of_view hview
  have hsniff : c.sniff = s.ctx.sniff := congrArg DmmContext.FifoView.sniff hview
  rw [AtPc] at h ⊢
  simp only [hfifo, hsniff]
  exact h

/-- The gap detection, with room in the FIFO. -/
theorem Follows.gapHandled {s : ProcessState} {r : BitGroups} (h : s.Follows r)
    (hacc : fifoAccepts s.ctx = true) {now_us : UInt32}
    (hzero : ¬(r.last = some 0 ∧ r.Gap now_us)) :
    { s with ctx := gapHandled s.ctx now_us }.Follows (r.cut now_us) := by
  refine ⟨?_, gapHandled_gathers h.gathers hzero⟩
  have hiff := h.gathers.seesGap_iff hzero
  rw [LcdPico.gapHandled, BitGroups.cut]
  by_cases hgap : r.Gap now_us
  · rw [if_pos (hiff.mpr hgap), if_pos hgap]
    exact inv_append h.fifo hacc eofPair
  · rw [if_neg fun hs => hgap (hiff.mp hs), if_neg hgap]
    exact h.fifo

/-- The count after one more bit: it completes a pair if it is the eighth of its group. -/
theorem Follows.eight_le_iff {s : ProcessState} {r : BitGroups} (h : s.Follows r) (e : Edge) :
    8 ≤ (bitShifted s.ctx e).sniff.byteLen ↔ r.group.length = 7 := by
  have hroom := h.gathers.room
  have hlen : (bitShifted s.ctx e).sniff.byteLen = UInt8.ofNat (r.group.length + 1) := by
    change s.ctx.sniff.byteLen + 1 = _
    rw [h.gathers.holds.len, UInt8.ofNat_add]
    rfl
  rw [hlen, UInt8.le_iff_toNat_le, UInt8.toNat_ofNat', Nat.mod_eq_of_lt (by omega)]
  constructor
  · intro h'
    have h8 : 8 ≤ r.group.length + 1 := h'
    omega
  · intro h7
    rw [h7]
    decide

/-- A bit that does not complete a pair, or one that does. -/
theorem Follows.bit {s : ProcessState} {r : BitGroups} (h : s.Follows r) (e : Edge)
    (hacc : r.group.length = 7 → fifoAccepts s.ctx = true) {c : DmmContext}
    (hview : c.fifoView =
      if 8 ≤ (bitShifted s.ctx e).sniff.byteLen then (fifoAppend (bitShifted s.ctx e)).fifoView
      else (bitShifted s.ctx e).fifoView) :
    { s with ctx := c }.Follows (r.push (e.level DI_PIN, e.level DO_PIN) e.now_us) := by
  have height := h.eight_le_iff e
  obtain ⟨hfifo, hgathers⟩ := h
  have hstart : { s.ctx.sniff with lastUs := e.now_us }.Holds r.group :=
    ⟨hgathers.holds.len, hgathers.holds.input, hgathers.holds.output⟩
  have hholds := hstart.shiftBit (e.level DO_PIN) (e.level DI_PIN)
  have hshifted : ({ s with ctx := bitShifted s.ctx e }.accounted r.out).Inv :=
    hfifo.of_fifo rfl rfl rfl rfl rfl hfifo.atPc
  have hlen : (r.group ++ [(e.level DI_PIN, e.level DO_PIN)]).length = r.group.length + 1 :=
    List.length_append
  rw [BitGroups.push]
  by_cases h7 : r.group.length = 7
  · rw [if_pos (height.mpr h7)] at hview
    have hpair := hholds.pair (by rw [hlen, h7])
    have happend := inv_append hshifted (hacc h7)
      ⟨(bitShifted s.ctx e).sniff.inputAcc, (bitShifted s.ctx e).sniff.outputAcc⟩
    have hsniff : c.sniff = (fifoAppend (bitShifted s.ctx e)).sniff :=
      congrArg DmmContext.FifoView.sniff hview
    obtain ⟨hbits, hlast⟩ := fifoAppend_sniff (bitShifted s.ctx e)
    rw [if_pos (by rw [hlen, h7])]
    refine ⟨?_, ?_⟩
    · rw [← hpair]
      exact happend.of_view hview rfl rfl (happend.atPc.of_view hview)
    · refine ⟨.nil ?_, Nat.zero_lt_succ _, ?_, fun h => by cases h⟩
      · rw [← hbits]
        exact congrArg SniffState.byteLen hsniff
      · rintro t ht
        obtain rfl := Option.some.inj ht
        exact (congrArg SniffState.lastUs hsniff).trans hlast
  · rw [if_neg fun h => h7 (height.mp h)] at hview
    have hsniff : c.sniff = (bitShifted s.ctx e).sniff :=
      congrArg DmmContext.FifoView.sniff hview
    rw [if_neg (by omega)]
    refine ⟨hshifted.of_view hview rfl rfl (hshifted.atPc.of_view hview), ?_⟩
    refine ⟨?_, ?_, ?_, fun h => by cases h⟩
    · exact hsniff ▸ hholds
    · have hroom := hgathers.room
      rw [hlen]
      omega
    · rintro t ht
      obtain rfl := Option.some.inj ht
      exact congrArg SniffState.lastUs hsniff

/-- An edge that the FIFO has room for. -/
theorem Follows.sckedge {s : ProcessState} {r : BitGroups} (h : s.Follows r)
    (hacc : fifoAccepts s.ctx = true) {e : Edge} (hzero : ¬(r.last = some 0 ∧ r.Gap e.now_us)) :
    (s.busStep (.sckedge e)).Follows (r.step (.sckedge e)) := by
  have hgap := h.gapHandled hacc hzero
  refine hgap.bit e (fun h7 => ?_) (decoder34401Sckedge_fifoView s.ctx e)
  -- an edge that completes a pair comes after no gap
  have hnogap : ¬r.Gap e.now_us := by
    intro h'
    rw [BitGroups.cut, if_pos h'] at h7
    cases h7
  have hsees : ¬s.ctx.sniff.SeesGap e.now_us := fun hs =>
    hnogap ((h.gathers.seesGap_iff hzero).mp hs)
  dsimp only
  rw [LcdPico.gapHandled, if_neg hsees]
  exact hacc

theorem Follows.step {s : ProcessState} {r : BitGroups} (h : s.Follows r)
    (hacc : fifoAccepts s.ctx = true) {a : BusAction} (hzero : r.NoGapAfterZero a) :
    (s.busStep a).Follows (r.step a) := by
  cases a with
  | sckedge e => exact h.sckedge hacc hzero
  | reset now_us =>
    obtain ⟨hfifo, hgathers⟩ := h
    exact ⟨hfifo.reset now_us, hgathers.reset rfl rfl⟩
  | consumer t =>
    obtain ⟨hfifo, hgathers⟩ := h
    have hconsumer := hfifo.consumer t
    rw [consumerStep_accounted] at hconsumer
    exact ⟨hconsumer, consumerStep_gathers hgathers t⟩

/-- Along the bus, with room in the FIFO and no gap after an edge stamped 0. -/
theorem Follows.run {s : ProcessState} {r : BitGroups} (h : s.Follows r) {as : List BusAction}
    (hroom : Machine.Within busStep (fun s _ => fifoAccepts s.ctx = true) s as)
    (hzero : Machine.Within BitGroups.step BitGroups.NoGapAfterZero r as) :
    (Machine.run busStep s as).Follows (Machine.run BitGroups.step r as) := by
  induction as generalizing s r with
  | nil => exact h
  | cons a as ih =>
    obtain ⟨hacc, hroom⟩ := hroom
    obtain ⟨hgap, hzero⟩ := hzero
    exact ih (h.step hacc hgap) hroom hzero

theorem follows_init : ProcessState.init.Follows BitGroups.init := by
  refine ⟨Inv.init, ⟨.nil rfl, Nat.zero_lt_succ _, fun t ht => ?_, fun _ => rfl⟩⟩
  cases ht

end ProcessState

/-- **Bits are assembled into bytes exactly**, and a gap joins no two halves, on every run with
room in the FIFO in which no gap comes after an edge stamped 0. -/
theorem bit_groups_exact {as : List BusAction}
    (hroom : Machine.Within ProcessState.busStep (fun s _ => fifoAccepts s.ctx = true)
      ProcessState.init as)
    (hzero : Machine.Within BitGroups.step BitGroups.NoGapAfterZero BitGroups.init as) :
    (Machine.run ProcessState.busStep ProcessState.init as).consumed ++
        (Machine.run ProcessState.busStep ProcessState.init as).ctx.pending =
      (Machine.run BitGroups.step BitGroups.init as).out :=
  (ProcessState.follows_init.run hroom hzero).out

/-- An edge at `now_us`, with both lines low. -/
def lowEdge (now_us : UInt32) : BusAction :=
  .sckedge
    { now_us := now_us, pins := Vector.replicate _ 0, sampled_us := now_us, end_us := now_us }

theorem bit_groups_exact_gap :
    (Machine.run BitGroups.step BitGroups.init [lowEdge 10, lowEdge 2000]).out = [eofPair] ∧
      (Machine.run ProcessState.busStep ProcessState.init [lowEdge 10, lowEdge 2000]).consumed ++
          (Machine.run ProcessState.busStep ProcessState.init
            [lowEdge 10, lowEdge 2000]).ctx.pending =
        (Machine.run BitGroups.step BitGroups.init [lowEdge 10, lowEdge 2000]).out :=
  ⟨by decide +kernel, bit_groups_exact ⟨by decide +kernel, by decide +kernel, trivial⟩
    ⟨by decide +kernel, by decide +kernel, trivial⟩⟩

/-- A gap after an edge at time 0 is not seen: the reference completes a pair there, the
decoder none. -/
theorem bit_groups_gap_after_zero :
    Machine.Within ProcessState.busStep (fun s _ => fifoAccepts s.ctx = true) ProcessState.init
        [lowEdge 0, lowEdge 2000] ∧
      (Machine.run ProcessState.busStep ProcessState.init [lowEdge 0, lowEdge 2000]).consumed ++
          (Machine.run ProcessState.busStep ProcessState.init
            [lowEdge 0, lowEdge 2000]).ctx.pending = [] ∧
      (Machine.run BitGroups.step BitGroups.init [lowEdge 0, lowEdge 2000]).out = [eofPair] ∧
      ¬∀ as : List BusAction,
        Machine.Within ProcessState.busStep (fun s _ => fifoAccepts s.ctx = true)
            ProcessState.init as →
          (Machine.run ProcessState.busStep ProcessState.init as).consumed ++
              (Machine.run ProcessState.busStep ProcessState.init as).ctx.pending =
            (Machine.run BitGroups.step BitGroups.init as).out := by
  have hroom : Machine.Within ProcessState.busStep (fun s _ => fifoAccepts s.ctx = true)
      ProcessState.init [lowEdge 0, lowEdge 2000] :=
    ⟨by decide +kernel, by decide +kernel, trivial⟩
  have hpairs : (Machine.run ProcessState.busStep ProcessState.init
        [lowEdge 0, lowEdge 2000]).consumed ++
      (Machine.run ProcessState.busStep ProcessState.init
        [lowEdge 0, lowEdge 2000]).ctx.pending = [] := by decide +kernel
  have hout : (Machine.run BitGroups.step BitGroups.init [lowEdge 0, lowEdge 2000]).out =
      [eofPair] := by decide +kernel
  refine ⟨hroom, hpairs, hout, fun h => ?_⟩
  have heq := h _ hroom
  rw [hpairs, hout] at heq
  cases heq

end LcdPico
