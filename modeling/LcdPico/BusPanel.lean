import LcdPico.BitAssembly
import LcdPico.Lib.ByteBits
import LcdPico.Panel

/-!
# From the bus to the panel

The bits of the frames are clocked in one by one, and between any two edges the decoder may
get any number of its actions done. Whatever the interleaving, once the FIFO is empty and no
pair is left in the decoder's hands, it shows what the frames put on the panel
(`bus_shows_panel`).

Three facts meet here. The clock interrupt gathers the pairs that the bits spell
(`BitGroups.run_pairs`), the FIFO hands them on in order (`ProcessState.Follows`), and the
decoder goes through a history that delivers what it takes from the FIFO (`Handled`).
-/

namespace LcdPico

/-! ## Pairs as bits -/

/-- The levels of both data lines while the pair is clocked in. -/
def pairBits (p : SniffByte) : List (Bool × Bool) := (byteBits p.input).zip (byteBits p.output)

/-- The number made of its lowest `k` bits. -/
theorem bitsFrom_testBit (n k : Nat) :
    bitsFrom 0 ((List.range k).map fun i => n.testBit (k - 1 - i)) = n % 2 ^ k := by
  induction k with
  | zero => simp [bitsFrom, Nat.mod_one]
  | succ k ih =>
    have hrest : (List.range k).map ((fun i => n.testBit (k + 1 - 1 - i)) ∘ Nat.succ) =
        (List.range k).map fun i => n.testBit (k - 1 - i) := by
      refine List.map_congr_left fun i _ => ?_
      rw [Function.comp_apply]
      congr 1
      omega
    rw [List.range_succ_eq_map, List.map_cons, List.map_map, hrest]
    change bitsFrom (2 * 0 + (n.testBit (k + 1 - 1 - 0)).toNat) _ = _
    rw [bitsFrom_eq, ih, List.length_map, List.length_range, Nat.mod_pow_succ, Nat.mul_zero,
      Nat.zero_add, Nat.add_sub_cancel, Nat.sub_zero, Nat.toNat_testBit, Nat.mul_comm,
      Nat.add_comm]

theorem byteOf_byteBits (b : UInt8) : byteOf (byteBits b) = b := by
  have hbits := bitsFrom_testBit b.toNat 8
  rw [byteOf, byteBits]
  simp only [Nat.reduceSub] at hbits
  rw [hbits, Nat.mod_eq_of_lt b.toNat_lt]
  exact UInt8.ofNat_toNat

@[simp] theorem length_pairBits (p : SniffByte) : (pairBits p).length = 8 := by
  rw [pairBits, List.length_zip, length_byteBits, length_byteBits, Nat.min_self]

/-- The bits of a pair spell the pair. -/
theorem pair_of_bits (p : SniffByte) :
    (⟨byteOf ((pairBits p).map Prod.fst), byteOf ((pairBits p).map Prod.snd)⟩ : SniffByte) = p := by
  have hlen : (byteBits p.input).length = (byteBits p.output).length := by
    rw [length_byteBits, length_byteBits]
  rw [pairBits, List.map_fst_zip (Nat.le_of_eq hlen), List.map_snd_zip (Nat.le_of_eq hlen.symm),
    byteOf_byteBits, byteOf_byteBits]

/-! ## The pairs that are gathered -/

/-- The bit that an action clocks in. -/
def BusAction.bit? : BusAction → Option (Bool × Bool)
  | .sckedge e => some (e.level DI_PIN, e.level DO_PIN)
  | _ => none

namespace BitGroups

/-- No gap within a byte, and no reset. -/
def Unbroken (r : BitGroups) : BusAction → Prop
  | .sckedge e => ¬r.Gap e.now_us
  | .reset _ => False
  | .consumer _ => True

instance (r : BitGroups) : (a : BusAction) → Decidable (r.Unbroken a)
  | .sckedge _ => inferInstanceAs (Decidable (¬_))
  | .reset _ => .isFalse id
  | .consumer _ => .isTrue trivial

theorem Unbroken.noGapAfterZero {r : BitGroups} {a : BusAction} (h : r.Unbroken a) :
    r.NoGapAfterZero a := by
  cases a with
  | sckedge e => exact fun hz => h hz.2
  | reset now_us => exact h.elim
  | consumer t => trivial

/-- The bits of the pairs `ps`, behind those that are gathered, complete the pairs `ps`. -/
theorem run_pairs {r : BitGroups} {as : List BusAction} {ps : List SniffByte}
    (h : Machine.Within step Unbroken r as) (hlen : r.group.length < 8)
    (hbits : r.group ++ as.filterMap BusAction.bit? = ps.flatMap pairBits) :
    (Machine.run step r as).out = r.out ++ ps ∧ (Machine.run step r as).group = [] := by
  induction as generalizing r ps with
  | nil =>
    rw [List.filterMap_nil, List.append_nil] at hbits
    cases ps with
    | nil => exact ⟨(List.append_nil _).symm, hbits⟩
    | cons p ps =>
      rw [hbits, List.flatMap_cons, List.length_append, length_pairBits] at hlen
      omega
  | cons a as ih =>
    obtain ⟨ha, has⟩ := h
    cases a with
    | reset now_us => exact ha.elim
    | consumer t => exact ih has hlen hbits
    | sckedge e =>
      have hcut : r.cut e.now_us = r := by rw [cut, if_neg ha]
      have hstep : r.step (.sckedge e) =
          r.push (e.level DI_PIN, e.level DO_PIN) e.now_us := by rw [step, hcut]
      rw [Machine.run_cons]
      rw [hstep] at has ⊢
      have hbits' : r.group ++ [(e.level DI_PIN, e.level DO_PIN)] ++
          as.filterMap BusAction.bit? = ps.flatMap pairBits := by
        rw [List.append_assoc]
        exact hbits
      have hlen' : (r.group ++ [(e.level DI_PIN, e.level DO_PIN)]).length = r.group.length + 1 :=
        List.length_append
      by_cases h7 : r.group.length = 7
      · -- the eighth bit
        have hpush : r.push (e.level DI_PIN, e.level DO_PIN) e.now_us = _ :=
          if_pos (by rw [hlen', h7])
        rw [hpush] at has ⊢
        cases ps with
        | nil => exact absurd (congrArg List.length hbits') (by rw [List.length_append]; simp)
        | cons p ps =>
          rw [List.flatMap_cons] at hbits'
          obtain ⟨hgroup, hrest⟩ := List.append_inj hbits'
            (by rw [hlen', h7, length_pairBits])
          obtain ⟨hout, hend⟩ := ih has (Nat.zero_lt_succ _) hrest
          refine ⟨?_, hend⟩
          rw [hout]
          dsimp only
          rw [hgroup, pair_of_bits, List.append_assoc]
          rfl
      · have hpush : r.push (e.level DI_PIN, e.level DO_PIN) e.now_us = _ :=
          if_neg (by rw [hlen']; omega)
        rw [hpush] at has ⊢
        exact ih has (by dsimp only; omega) hbits'

end BitGroups

/-! ## What the decoder takes from the FIFO -/

namespace ProcessState

/-- The pair that is taken off the FIFO and not handled yet. -/
def inHand (s : ProcessState) : List SniffByte :=
  if s.pc = .handle then [⟨s.input_byte, s.output_byte⟩] else []

/-- From `s` to `s'`, the decoder has gone through the history `w`: it delivers the pairs taken
off the FIFO, but for the one in hand. -/
structure Handled (s s' : ProcessState) (w : List Event) : Prop where
  ctx : s'.ctx = Machine.run DmmContext.step s.ctx w
  reset : Event.reset ∉ w
  quiet : s'.ctx.sniff.resetReceived = false
  taken : ∃ ps, s'.consumed = s.consumed ++ ps ∧
    s.inHand ++ ps = w.filterMap Event.pair? ++ s'.inHand

/-- An action that takes no pair. -/
theorem Handled.of_idle {s s' : ProcessState} {w : List Event}
    (hctx : s'.ctx = Machine.run DmmContext.step s.ctx w) (hreset : Event.reset ∉ w)
    (hquiet : s'.ctx.sniff.resetReceived = false) (hconsumed : s'.consumed = s.consumed)
    (hpairs : w.filterMap Event.pair? = []) (hhand : s'.inHand = s.inHand) : s.Handled s' w := by
  refine ⟨hctx, hreset, hquiet, [], ?_, ?_⟩
  · rw [hconsumed, List.append_nil]
  · rw [hpairs, hhand, List.append_nil, List.nil_append]

theorem Handled.trans {s s' s'' : ProcessState} {w w' : List Event} (h : s.Handled s' w)
    (h' : s'.Handled s'' w') : s.Handled s'' (w ++ w') := by
  obtain ⟨hctx, hreset, -, ps, hps, hw⟩ := h
  obtain ⟨hctx', hreset', hquiet, qs, hqs, hw'⟩ := h'
  refine ⟨?_, ?_, hquiet, ps ++ qs, ?_, ?_⟩
  · rw [hctx', hctx, Machine.run_append]
  · rw [List.mem_append, not_or]
    exact ⟨hreset, hreset'⟩
  · rw [hqs, hps, List.append_assoc]
  · rw [← List.append_assoc, hw, List.append_assoc, hw', List.filterMap_append, List.append_assoc]

/-- The clock interrupt leaves the reset flag alone. -/
theorem decoder34401Sckedge_resetReceived (c : DmmContext) (e : Edge) :
    (decoder34401Sckedge c e).sniff.resetReceived = c.sniff.resetReceived := by
  have happend (c : DmmContext) :
      (fifoAppend c).sniff.resetReceived = c.sniff.resetReceived := by
    simp only [fifoAppend]
    split
    · rfl
    · rfl
  have hshifted : (bitShifted (gapHandled c e.now_us) e).sniff.resetReceived =
      c.sniff.resetReceived := by
    change (gapHandled c e.now_us).sniff.resetReceived = _
    rw [gapHandled]
    split
    · exact appendByte_resetReceived c eofPair
    · rfl
  have hview := congrArg DmmContext.FifoView.sniff (decoder34401Sckedge_fifoView c e)
  dsimp only [DmmContext.fifoView] at hview
  rw [hview]
  split
  · exact (happend _).trans hshifted
  · exact hshifted

/-- An action of the decoder, with no reset waiting. -/
theorem consumerStep_handled {s : ProcessState} (hquiet : s.ctx.sniff.resetReceived = false)
    (t : Clock) : ∃ w, s.Handled (s.consumerStep t) w := by
  have hsniff {c : DmmContext} (h : c.fifoView = s.ctx.fifoView) :
      c.sniff.resetReceived = false := by
    rw [show c.sniff = s.ctx.sniff from congrArg DmmContext.FifoView.sniff h]
    exact hquiet
  cases hpc : s.pc with
  | idle =>
    refine ⟨[.tick t.frame], .of_idle ?_ ?_ ?_ ?_ rfl ?_⟩
    · simp only [consumerStep, hpc]
      rfl
    · simp
    · simp only [consumerStep, hpc]
      exact hsniff (processShiftWindow_fifoView _ _)
    · simp only [consumerStep, hpc]
    · simp [inHand, consumerStep, hpc]
  | testFifo =>
    refine ⟨[], .of_idle ?_ List.not_mem_nil ?_ ?_ rfl ?_⟩
    · simp only [consumerStep, hpc]
      rfl
    · simp only [consumerStep, hpc]
      exact hquiet
    · simp only [consumerStep, hpc]
    · simp only [inHand, consumerStep, hpc]
      split_ifs <;> simp_all
  | testReset =>
    refine ⟨[], .of_idle ?_ List.not_mem_nil ?_ ?_ rfl ?_⟩
    · simp only [consumerStep, hpc]
      rfl
    · simp only [consumerStep, hpc]
      exact hquiet
    · simp only [consumerStep, hpc]
    · simp [inHand, consumerStep, hpc, hquiet]
  | check =>
    have hstep : s.consumerStep t = { s with pc := .readIn } := by
      simp [consumerStep, hpc, hquiet]
    rw [hstep]
    exact ⟨[], .of_idle rfl List.not_mem_nil hquiet rfl rfl (by simp [inHand, hpc])⟩
  | readIn =>
    refine ⟨[], .of_idle ?_ List.not_mem_nil ?_ ?_ rfl ?_⟩
    · simp only [consumerStep, hpc]
      rfl
    · simp only [consumerStep, hpc]
      exact hquiet
    · simp only [consumerStep, hpc]
    · simp [inHand, consumerStep, hpc]
  | readOut =>
    refine ⟨[], .of_idle ?_ List.not_mem_nil ?_ ?_ rfl ?_⟩
    · simp only [consumerStep, hpc]
      rfl
    · simp only [consumerStep, hpc]
      exact hquiet
    · simp only [consumerStep, hpc]
    · simp [inHand, consumerStep, hpc]
  | advance =>
    -- the pair is in hand now
    refine ⟨[.interrupt (fifoAdvance s.ctx).sniff s.ctx.dbg], ?_, ?_, ?_,
      [⟨s.input_byte, s.output_byte⟩], ?_, ?_⟩
    · simp only [consumerStep, hpc]
      rfl
    · simp
    · simp only [consumerStep, hpc]
      exact hquiet
    · simp only [consumerStep, hpc]
    · simp [inHand, consumerStep, hpc, Event.pair?]
  | handle =>
    refine ⟨[.pair ⟨s.input_byte, s.output_byte⟩ t], ?_, ?_, ?_, [], ?_, ?_⟩
    · simp only [consumerStep, hpc]
      rfl
    · simp
    · simp only [consumerStep, hpc]
      exact hsniff (processPair_fifoView _ _ _)
    · simp only [consumerStep, hpc, List.append_nil]
    · simp [inHand, consumerStep, hpc, Event.pair?]
  | finish =>
    refine ⟨[.interrupt s.ctx.sniff { s.ctx.dbg with
      maxProcessUs := max s.ctx.dbg.maxProcessUs (t.any - s.p_start) }],
      .of_idle ?_ ?_ ?_ ?_ rfl ?_⟩
    · simp only [consumerStep, hpc]
      rfl
    · simp
    · simp only [consumerStep, hpc]
      exact hquiet
    · simp only [consumerStep, hpc]
    · simp [inHand, consumerStep, hpc]

/-- An action on the bus other than a reset. -/
theorem busStep_handled {s : ProcessState} (hquiet : s.ctx.sniff.resetReceived = false)
    {r : BitGroups} {a : BusAction} (ha : r.Unbroken a) : ∃ w, s.Handled (s.busStep a) w := by
  cases a with
  | reset now_us => exact ha.elim
  | consumer t => exact consumerStep_handled hquiet t
  | sckedge e =>
    obtain ⟨sniff, dbg, hstep⟩ := decoder34401Sckedge_eq_step s.ctx e
    refine ⟨[.interrupt sniff dbg], .of_idle ?_ ?_ ?_ rfl rfl rfl⟩
    · exact hstep
    · simp
    · exact (decoder34401Sckedge_resetReceived s.ctx e).trans hquiet

theorem run_handled {s : ProcessState} (hquiet : s.ctx.sniff.resetReceived = false)
    {r : BitGroups} {as : List BusAction}
    (h : Machine.Within BitGroups.step BitGroups.Unbroken r as) :
    ∃ w, s.Handled (Machine.run busStep s as) w := by
  induction as generalizing s r with
  | nil => exact ⟨[], .of_idle rfl List.not_mem_nil hquiet rfl rfl rfl⟩
  | cons a as ih =>
    obtain ⟨ha, has⟩ := h
    obtain ⟨w, hw⟩ := busStep_handled hquiet ha
    obtain ⟨w', hw'⟩ := ih hw.quiet has
    exact ⟨w ++ w', hw.trans hw'⟩

/-- All that was clocked in is handled. -/
structure Drained (s : ProcessState) : Prop where
  pending : s.ctx.pending = []
  inHand : s.inHand = []

end ProcessState

/-! ## Main result -/

/-- The decoder after the actions `as` from power-up. -/
def onBus (as : List BusAction) : ProcessState :=
  Machine.run ProcessState.busStep ProcessState.init as

/-- The bits gathered by then. -/
def gathered (as : List BusAction) : BitGroups := Machine.run BitGroups.step BitGroups.init as

theorem onBus_append (as₀ as : List BusAction) :
    onBus (as₀ ++ as) = Machine.run ProcessState.busStep (onBus as₀) as :=
  Machine.run_append _ _ _ _

theorem gathered_append (as₀ as : List BusAction) :
    gathered (as₀ ++ as) = Machine.run BitGroups.step (gathered as₀) as :=
  Machine.run_append _ _ _ _

/-- After the actions `as` from power-up a frame can begin. -/
structure FrameAwaited (as : List BusAction) : Prop where
  bytes : (gathered as).group = []
  quiet : (onBus as).ctx.sniff.resetReceived = false
  drained : (onBus as).Drained
  between : (onBus as).ctx.Between

/-- **From the bus to the panel.** Whatever the interleaving of the clock and the decoder, once
the frames `fs` are clocked in and handled, the decoder shows what they make of the panel. -/
theorem bus_shows_panel {as₀ as : List BusAction} {fs : List WholeFrame}
    (hroom : Machine.Within ProcessState.busStep (fun s _ => fifoAccepts s.ctx = true)
      ProcessState.init (as₀ ++ as))
    (hzero : Machine.Within BitGroups.step BitGroups.NoGapAfterZero BitGroups.init as₀)
    (hawaited : FrameAwaited as₀)
    (hwhole : Machine.Within BitGroups.step BitGroups.Unbroken (gathered as₀) as)
    (hbits : as.filterMap BusAction.bit? = (fs.flatMap WholeFrame.pairs).flatMap pairBits)
    (hdrained : (onBus (as₀ ++ as)).Drained) :
    (onBus (as₀ ++ as)).ctx.Shows (Machine.run Panel.frame (onBus as₀).ctx.panel fs) ∧
      FrameAwaited (as₀ ++ as) := by
  obtain ⟨hbytes, hquiet, ⟨hpending₀, hhand₀⟩, hbetween⟩ := hawaited
  obtain ⟨hpending, hhand⟩ := hdrained
  -- the pairs that are gathered
  have hbits' : (gathered as₀).group ++ as.filterMap BusAction.bit? =
      (fs.flatMap WholeFrame.pairs).flatMap pairBits := by
    rw [hbytes]
    exact hbits
  obtain ⟨hout, hgroup⟩ := BitGroups.run_pairs hwhole (by rw [hbytes]; decide) hbits'
  -- those that the decoder takes from the FIFO
  have hzero' : Machine.Within BitGroups.step BitGroups.NoGapAfterZero BitGroups.init
      (as₀ ++ as) :=
    Machine.within_append.mpr ⟨hzero, hwhole.imp fun _ _ => BitGroups.Unbroken.noGapAfterZero⟩
  have htaken₀ := (ProcessState.follows_init.run (Machine.within_append.mp hroom).1 hzero).out
  have htaken := (ProcessState.follows_init.run hroom hzero').out
  rw [← onBus, ← gathered] at htaken₀ htaken
  obtain ⟨w, hctx, hreset, hquiet', ps, hps, hpairs⟩ := ProcessState.run_handled hquiet hwhole
  rw [← onBus_append] at hctx hquiet' hps hpairs
  rw [hpending₀, List.append_nil] at htaken₀
  rw [hpending, List.append_nil, hps, htaken₀, gathered_append, hout] at htaken
  obtain rfl := List.append_cancel_left htaken
  rw [hhand₀, hhand, List.nil_append, List.append_nil] at hpairs
  -- the history that they make
  obtain ⟨hshows, hbetween'⟩ :=
    (onBus as₀).ctx.shows_panel.frames hbetween ⟨hreset, hpairs.symm⟩
  rw [← hctx] at hshows hbetween'
  refine ⟨hshows, ?_, hquiet', ⟨hpending, hhand⟩, hbetween'⟩
  rw [gathered_append]
  exact hgroup

/-- The pins at an edge that carries the bits. -/
def bitPins (b : Bool × Bool) : UInt32 :=
  (if b.1 then 1 <<< DI_PIN else 0) ||| (if b.2 then 1 <<< DO_PIN else 0)

/-- The bits clocked in, one in 100 µs, and an action of the decoder after each. -/
def clockIn (now_us : UInt32) : List (Bool × Bool) → List BusAction
  | [] => []
  | b :: bits =>
    .sckedge
        { now_us := now_us
          pins := Vector.replicate _ (bitPins b)
          sampled_us := now_us
          end_us := now_us } ::
      .consumer ⟨now_us, now_us⟩ :: clockIn (now_us + 100) bits

/-- The message "A". -/
def letterFrame : WholeFrame :=
  { body := [⟨0x00, 0x00⟩, ⟨0x7f, 0x00⟩, ⟨0x41, 0x00⟩]
    last := eofPair
    goes_on := by decide
    ends := by decide
    fits := by decide
    payload := by decide
    announces := by decide }

/-- The first EOF pair after power-up. -/
def firstEof : List BusAction :=
  clockIn 100 (pairBits eofPair) ++ List.replicate 12 (.consumer ⟨0, 0⟩)

/-- The message, and then the decoder alone. -/
def letterClocked : List BusAction :=
  clockIn 5000 (letterFrame.pairs.flatMap pairBits) ++ List.replicate 40 (.consumer ⟨0, 0⟩)

theorem bus_shows_panel_letter :
    (onBus (firstEof ++ letterClocked)).ctx.Shows
        (Machine.run Panel.frame (onBus firstEof).ctx.panel [letterFrame]) ∧
      (Machine.run Panel.frame (onBus firstEof).ctx.panel [letterFrame]).text =
        displayText (bytes "A             ") := by
  have hawaited : FrameAwaited firstEof :=
    ⟨by decide +kernel, by decide +kernel, ⟨by decide +kernel, by decide +kernel⟩,
      ⟨by decide +kernel, by decide +kernel⟩, by decide +kernel⟩
  refine ⟨(bus_shows_panel (by decide +kernel) (by decide +kernel) hawaited (by decide +kernel)
    (by decide +kernel) ⟨by decide +kernel, by decide +kernel⟩).1, ?_⟩
  decide +kernel

end LcdPico
