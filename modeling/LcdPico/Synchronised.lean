import Mathlib.Data.List.Induction
import LcdPico.Framing

/-!
# Where a frame begins

A frame means something only if it is read from its beginning, and the beginning is
known by what precedes it: an EOF pair, or the 0x66 pair that closes a button frame.
At power-up the decoder waits for the first EOF pair (`FRAME_INIT`).

The overflow guard has the same exit as the end of a frame. A frame collected from
there on begins in the middle of something (`origin_of_acted`): as long as the
guard does not fire, every frame acted upon is synchronised
(`frames_synchronised`), and after it has fired one may not be
(`noise_then_frame`).
-/

namespace LcdPico

/-- The pair closes the button frame being collected. -/
def DmmContext.ClosesButton (c : DmmContext) (p : SniffByte) : Prop :=
  c.buf.frameState = .button ∧ p.input = 0x66

/-- The pair fills the frame buffer without ending a frame. -/
structure DmmContext.Overflows (c : DmmContext) (p : SniffByte) : Prop where
  full : c.buf.bufLen + 1 = INPUT_BUF_SIZE
  eof : p ≠ eofPair
  button : ¬ c.ClosesButton p

/-- The stream `w` from power-up stops where a frame begins. -/
def Synchronised (w : List Timed) : Prop :=
  ∃ u p t, w = u ++ [(p, t)] ∧ (p = eofPair ∨ (consume decoder34401Init u).ClosesButton p)

/-- The stream `w` from power-up stops where the overflow guard has fired. -/
def Overflowed (w : List Timed) : Prop :=
  ∃ u p t, w = u ++ [(p, t)] ∧ (consume decoder34401Init u).Overflows p

/-- The stream `w` ends with the pairs of the frame `f`, which begin after `s`. -/
def BeginsAfter (s w : List Timed) (f : Frame) : Prop :=
  ∃ r, w = s ++ r ∧ r.map Prod.fst = f.pairs

/-- Every frame acted upon in the stream `w` from power-up is synchronised. -/
def ActsSynchronised (w : List Timed) : Prop :=
  ∀ u p t v f, w = u ++ (p, t) :: v →
    (processPair (consume decoder34401Init u) p t).2 = some f →
    ∃ s, BeginsAfter s (u ++ [(p, t)]) f ∧ Synchronised s

/-- The overflow guard does not fire in the stream `w` from power-up. -/
def NoOverflow (w : List Timed) : Prop :=
  Machine.Within (fun c x => (processPair c x.1 x.2).1) (fun c x => ¬ c.Overflows x.1)
    decoder34401Init w

/-! ## The guard -/

/-- While the decoder waits for the first EOF pair it only collects. -/
theorem next_init {b : FrameBuffers} (h : b.frameState = .init) :
    b.next = if b.lastBytesAreEof then b.endFrame else b := by
  simp only [FrameBuffers.next, h]

/-- The buffer overflows exactly when the guard finds it full. -/
theorem overflows_iff {c : DmmContext} {acc : List SniffByte} (h : c.buf.Parsed acc)
    (p : SniffByte) :
    c.Overflows p ↔ ¬ EndsFrame acc p ∧ acc.length + 1 = INPUT_BUF_SIZE := by
  have hbutton : c.ClosesButton p ↔ acc.head? = some buttonHeader ∧ p.input = 0x66 := by
    rw [DmmContext.ClosesButton, h.state, stateOf_eq_button]
  rw [EndsFrame, not_or, ← hbutton, ← h.holds.len]
  constructor
  · rintro ⟨hfull, heof, hbtn⟩
    exact ⟨⟨heof, hbtn⟩, hfull⟩
  · rintro ⟨⟨heof, hbtn⟩, hfull⟩
    exact ⟨hfull, heof, hbtn⟩

/-! ## The origin of what is collected -/

/-- What has been collected since the last cut, and where the cut was. -/
structure CollectedSince (u s r : List Timed) : Prop where
  split : u = s ++ r
  parsed : (consume decoder34401Init u).buf.Parsed (r.map Prod.fst)
  origin : Synchronised s ∨ Overflowed s

/-- The decoder waits for the first EOF pair, or it has cut the stream somewhere. -/
def HasOrigin (u : List Timed) : Prop :=
  (consume decoder34401Init u).buf.frameState = .init ∨ ∃ s r, CollectedSince u s r

theorem consume_snoc (c : DmmContext) (u : List Timed) (x : Timed) :
    consume c (u ++ [x]) = (processPair (consume c u) x.1 x.2).1 := by
  rw [consume, Machine.run_append]
  rfl

/-- A cut directly after the newest pair. -/
theorem hasOrigin_cut {u : List Timed} {x : Timed}
    (hparsed : (consume decoder34401Init (u ++ [x])).buf.Parsed [])
    (horigin : Synchronised (u ++ [x]) ∨ Overflowed (u ++ [x])) : HasOrigin (u ++ [x]) :=
  .inr ⟨u ++ [x], [], (List.append_nil _).symm, hparsed, horigin⟩

/-- The guard cuts the stream while the decoder waits. -/
theorem cut_of_init {u : List Timed} {p : SniffByte} (t : Clock)
    (h : (consume decoder34401Init u).buf.frameState = .init)
    (hover : (consume decoder34401Init u).Overflows p) :
    (consume decoder34401Init (u ++ [(p, t)])).buf.Parsed [] := by
  have hlen := consume_len (c := decoder34401Init) (by decide) u
  rw [consume_snoc, processPair_buf,
    next_init (b := (consume decoder34401Init u).buf.store p) h,
    if_neg fun hl => hover.eof ((store_eof_iff hlen p).mp hl), FrameBuffers.guarded, if_pos]
  · exact FrameBuffers.parsed_endFrame _
  · exact Nat.le_of_eq hover.full.symm

/-- And while it collects a frame. -/
theorem CollectedSince.cut {u s r : List Timed} (h : CollectedSince u s r) {p : SniffByte}
    (t : Clock) (hover : (consume decoder34401Init u).Overflows p) :
    (consume decoder34401Init (u ++ [(p, t)])).buf.Parsed [] := by
  obtain ⟨hend, hfull⟩ := (overflows_iff h.parsed p).mp hover
  have hnext := (h.parsed.step_extends hend).1
  rw [if_pos hfull] at hnext
  rw [consume_snoc, processPair_buf]
  exact hnext

/-- One pair while the decoder waits. -/
theorem hasOrigin_of_init {u : List Timed} (x : Timed)
    (h : (consume decoder34401Init u).buf.frameState = .init) : HasOrigin (u ++ [x]) := by
  obtain ⟨p, t⟩ := x
  have hlen := consume_len (c := decoder34401Init) (by decide) u
  have hbuf := processPair_buf (consume decoder34401Init u) p t
  rw [next_init (b := (consume decoder34401Init u).buf.store p) h] at hbuf
  by_cases heof : p = eofPair
  · have hcut : (consume decoder34401Init (u ++ [(p, t)])).buf.Parsed [] := by
      rw [consume_snoc, hbuf, if_pos ((store_eof_iff hlen p).mpr heof)]
      exact FrameBuffers.parsed_endFrame _
    exact hasOrigin_cut hcut (.inl ⟨u, p, t, rfl, .inl heof⟩)
  -- the guard looks at the length in every state, this one included
  by_cases hfull : (consume decoder34401Init u).buf.bufLen + 1 = INPUT_BUF_SIZE
  · have hover : (consume decoder34401Init u).Overflows p := by
      refine ⟨hfull, heof, ?_⟩
      rintro ⟨hstate, -⟩
      rw [h] at hstate
      cases hstate
    exact hasOrigin_cut (cut_of_init t h hover) (.inr ⟨u, p, t, rfl, hover⟩)
  · refine .inl ?_
    rw [consume_snoc, hbuf, if_neg fun hl => heof ((store_eof_iff hlen p).mp hl),
      FrameBuffers.guarded_of_lt]
    · exact h
    · exact Nat.lt_of_le_of_ne hlen hfull

/-- One pair after a cut. -/
theorem CollectedSince.step {u s r : List Timed} (h : CollectedSince u s r) (x : Timed) :
    HasOrigin (u ++ [x]) := by
  obtain ⟨p, t⟩ := x
  have hbuf := processPair_buf (consume decoder34401Init u) p t
  by_cases hend : EndsFrame (r.map Prod.fst) p
  · have hcut : (consume decoder34401Init (u ++ [(p, t)])).buf.Parsed [] := by
      rw [consume_snoc, hbuf]
      rcases hend with rfl | ⟨hhead, hin⟩
      · exact h.parsed.step_eof.1
      · exact (h.parsed.step_button hhead hin).1
    -- what ends a frame is what synchronises the next one
    have hsync : p = eofPair ∨ (consume decoder34401Init u).ClosesButton p := by
      refine hend.imp_right fun hb => ⟨?_, hb.2⟩
      rw [h.parsed.state, stateOf_eq_button]
      exact hb.1
    exact hasOrigin_cut hcut (.inl ⟨u, p, t, rfl, hsync⟩)
  by_cases hfull : (r.map Prod.fst).length + 1 = INPUT_BUF_SIZE
  · -- the guard cuts, too, but what follows may be the middle of something
    have hover := (overflows_iff h.parsed p).mpr ⟨hend, hfull⟩
    exact hasOrigin_cut (h.cut t hover) (.inr ⟨u, p, t, rfl, hover⟩)
  · have hnext := (h.parsed.step_extends hend).1
    rw [if_neg hfull] at hnext
    refine .inr ⟨s, r ++ [(p, t)], ?_, ?_, h.origin⟩
    · rw [h.split, List.append_assoc]
    · rw [consume_snoc, hbuf, List.map_append]
      exact hnext

theorem hasOrigin (u : List Timed) : HasOrigin u := by
  induction u using List.reverseRecOn with
  | nil => exact .inl rfl
  | append_singleton u x ih =>
    rcases ih with hinit | ⟨s, r, hsince⟩
    · exact hasOrigin_of_init x hinit
    · exact hsince.step x

/-- A frame acted upon begins at a synchronised place or where the guard fired. -/
theorem origin_of_acted {u : List Timed} {p : SniffByte} {t : Clock} {f : Frame}
    (hf : (processPair (consume decoder34401Init u) p t).2 = some f) :
    ∃ s, BeginsAfter s (u ++ [(p, t)]) f ∧ (Synchronised s ∨ Overflowed s) := by
  rw [processPair_acts] at hf
  obtain ⟨hpairs, hkind, -⟩ := FrameBuffers.acts_eq_some hf
  -- no kind of frame is collected while waiting for the first EOF pair
  have hstate : (consume decoder34401Init u).buf.frameState ≠ .init := by
    rw [show (consume decoder34401Init u).buf.frameState = f.kind.state from hkind]
    cases f.kind <;> decide
  obtain ⟨s, r, hsince⟩ := (hasOrigin u).resolve_left hstate
  refine ⟨s, ⟨r ++ [(p, t)], ?_, ?_⟩, hsince.origin⟩
  · rw [hsince.split, List.append_assoc]
  · rw [hpairs, (hsince.parsed.holds.store hsince.parsed.room p).pairs_eq, List.map_append]
    rfl

/-- As long as the guard does not fire, every frame acted upon is synchronised. -/
theorem actsSynchronised_of_noOverflow {w : List Timed} (h : NoOverflow w) :
    ActsSynchronised w := by
  intro u p t v f hw hf
  obtain ⟨s, hbegins, hsync | ⟨u', p', t', rfl, hover⟩⟩ := origin_of_acted hf
  · exact ⟨s, hbegins, hsync⟩
  · -- the guard fired at the pair before the frame
    obtain ⟨r, hsplit, -⟩ := hbegins
    have hwhole : w = u' ++ (p', t') :: (r ++ v) := by
      rw [hw, List.append_cons, hsplit]
      simp
    rw [NoOverflow, hwhole, Machine.within_append] at h
    exact absurd hover h.2.1

/-! ## After the guard -/

/-- No place is both. -/
theorem Overflowed.not_synchronised {w : List Timed} (h : Overflowed w) : ¬ Synchronised w := by
  obtain ⟨u, p, t, rfl, hover⟩ := h
  rintro ⟨u', p', t', hsplit, hsync⟩
  obtain ⟨rfl, hx⟩ := List.append_inj' hsplit rfl
  obtain ⟨rfl, rfl⟩ := Prod.mk.inj (List.singleton_inj.mp hx)
  rcases hsync with heof | hbutton
  · exact hover.eof heof
  · exact hover.button hbutton

/-- The guard leaves the decoder at a frame boundary. -/
theorem Overflowed.parsed {w : List Timed} (h : Overflowed w) :
    (consume decoder34401Init w).buf.Parsed [] := by
  obtain ⟨u, p, t, rfl, hover⟩ := h
  rcases hasOrigin u with hinit | ⟨s, r, hsince⟩
  · exact cut_of_init t hinit hover
  · exact hsince.cut t hover

/-- An annunciator frame, up to its EOF pair. -/
def annunciatorPairs : List SniffByte := [⟨0x7f, 0⟩, ⟨0x00, 0⟩, ⟨0x12, 0⟩, ⟨0x34, 0⟩]

/-- The pairs `ps` at time 0. -/
def atZero (ps : List SniffByte) : List Timed := ps.map fun p => (p, ⟨0, 0⟩)

/-- From a boundary, the annunciator frame is acted upon at its EOF pair. -/
theorem acts_annunciators {c : DmmContext} (h : c.buf.Parsed []) :
    (processPair (consume c (atZero annunciatorPairs)) eofPair ⟨0, 0⟩).2 =
      some ⟨.annunciators, annunciatorPairs ++ [eofPair]⟩ := by
  have hbefore : acted c (atZero annunciatorPairs) = [] := by
    rw [acted_eq_splitFrom h]
    decide
  have hwhole : acted c (atZero annunciatorPairs ++ [(eofPair, ⟨0, 0⟩)]) =
      [⟨.annunciators, annunciatorPairs ++ [eofPair]⟩] := by
    rw [acted_eq_splitFrom h]
    decide
  rw [acted, Machine.trace_append] at hwhole
  rw [acted] at hbefore
  rw [hbefore, List.nil_append, Machine.trace_cons, Machine.trace_nil, List.append_nil] at hwhole
  exact Option.toList_eq_singleton_iff.mp hwhole

/-- Where the guard has fired, a frame that is not synchronised may follow. -/
theorem Overflowed.not_actsSynchronised {w : List Timed} (h : Overflowed w) :
    ¬ ActsSynchronised (w ++ atZero (annunciatorPairs ++ [eofPair])) := by
  intro hall
  have hact := acts_annunciators h.parsed
  have hsplit : w ++ atZero (annunciatorPairs ++ [eofPair]) =
      (w ++ atZero annunciatorPairs) ++ (eofPair, ⟨0, 0⟩) :: [] := by
    rw [List.append_assoc]
    rfl
  have hconsume : consume decoder34401Init (w ++ atZero annunciatorPairs) =
      consume (consume decoder34401Init w) (atZero annunciatorPairs) := Machine.run_append _ _ _ _
  rw [← hconsume] at hact
  -- as many pairs as the frame has follow `w`, so it begins right after `w`
  obtain ⟨s, ⟨r, hs, hr⟩, hsync⟩ := hall _ _ _ _ _ hsplit hact
  have hlen : (atZero annunciatorPairs ++ [(eofPair, (⟨0, 0⟩ : Clock))]).length = r.length := by
    have hlen' := congrArg List.length hr
    rw [List.length_map] at hlen'
    rw [hlen']
    rfl
  rw [List.append_assoc] at hs
  obtain ⟨rfl, -⟩ := List.append_inj' hs hlen
  exact h.not_synchronised hsync

/-! ## Main result -/

/-- **Only synchronised frames are acted upon**, in every stream in which the
overflow guard does not fire; where it has fired, one that is not may follow. -/
theorem frames_synchronised (w : List Timed) :
    (NoOverflow w → ActsSynchronised w) ∧
      (Overflowed w → ¬ ActsSynchronised (w ++ atZero (annunciatorPairs ++ [eofPair]))) :=
  ⟨actsSynchronised_of_noOverflow, Overflowed.not_actsSynchronised⟩

/-- A hundred pairs of noise from power-up. -/
def noise : List Timed :=
  atZero (List.replicate (INPUT_BUF_SIZE - 1) ⟨0x55, 0x00⟩) ++ [(⟨0x55, 0x00⟩, ⟨0, 0⟩)]

theorem noise_overflowed : Overflowed noise := by
  have hfull : (consume decoder34401Init (atZero (List.replicate (INPUT_BUF_SIZE - 1)
      (⟨0x55, 0x00⟩ : SniffByte)))).Overflows ⟨0x55, 0x00⟩ :=
    ⟨by decide +kernel, by decide, fun h => absurd h.2 (by decide)⟩
  exact ⟨_, _, _, rfl, hfull⟩

theorem frames_synchronised_annunciators :
    let w := atZero (eofPair :: annunciatorPairs ++ [eofPair])
    (acted decoder34401Init w).length = 1 ∧ ActsSynchronised w ∧
      ¬ ActsSynchronised (noise ++ atZero (annunciatorPairs ++ [eofPair])) := by
  intro w
  have hfree : NoOverflow w := by
    refine ⟨?_, ?_, ?_, ?_, ?_, ?_, trivial⟩ <;>
      exact fun h => absurd h.full (by decide +kernel)
  exact ⟨by decide +kernel, (frames_synchronised w).1 hfree,
    (frames_synchronised noise).2 noise_overflowed⟩

/-- The decoder, joined in the middle of a transmission, acts upon a frame before the
first EOF pair. -/
theorem noise_then_frame :
    (acted decoder34401Init (noise ++ atZero (annunciatorPairs ++ [eofPair]))).length = 1 ∧
      (∀ x ∈ noise ++ atZero annunciatorPairs, x.1 ≠ eofPair) ∧
      ¬ ActsSynchronised (noise ++ atZero (annunciatorPairs ++ [eofPair])) :=
  ⟨by decide +kernel, by decide, noise_overflowed.not_actsSynchronised⟩

end LcdPico
