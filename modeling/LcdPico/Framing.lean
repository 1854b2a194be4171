import LcdPico.DecoderStep

/-!
# Framing

The reference splitter cuts a stream of byte pairs into frames knowing only the
pairs collected since the last cut: no parser state, no buffer. The decoder acts
upon the frames of the splitter that are *complete* (`acted_eq_split`): it reads
two annunciator bytes out of a frame of at least four pairs, and a button code
out of a frame of at least three pairs that its 0x66 pair closes.

The link is `FrameBuffers.Parsed`: the six parser states are a function of the
pairs collected (`stateOf`).
-/

namespace LcdPico

/-- The pair that opens a button frame. -/
def buttonHeader : SniffByte := ⟨0x00, 0x77⟩

/-! ## The reference splitter -/

/-- The kind that the first two in-bytes fix. -/
def pairKind (p q : SniffByte) : FrameKind :=
  if p.input = 0x00 ∧ q.input &&& 0x7f = 0x7f then .message
  else if p.input &&& 0x7f = 0x7f ∧ q.input = 0x00 then .annunciators
  else .control

/-- The kind of an ended frame; none when it ended before its second pair was
classified. -/
def frameKind? : List SniffByte → Option FrameKind
  | [] => none
  | p :: f =>
    if p = buttonHeader then some .button
    else
      match f with
      | q :: _ :: _ => some (pairKind p q)
      | _ => none

/-- The frame made of the pairs of an ended frame. -/
def frameOf (f : List SniffByte) : Option Frame := (frameKind? f).map fun k => ⟨k, f⟩

/-- The pair ends the frame collected so far: EOF in any frame, 0x66 in a button
frame. -/
def EndsFrame (acc : List SniffByte) (p : SniffByte) : Prop :=
  p = eofPair ∨ acc.head? = some buttonHeader ∧ p.input = 0x66

instance (acc : List SniffByte) (p : SniffByte) : Decidable (EndsFrame acc p) :=
  inferInstanceAs (Decidable (_ ∨ _))

/-- The reference splitter, with the pairs collected so far. -/
def splitFrom (acc : List SniffByte) : List SniffByte → List Frame
  | [] => []
  | p :: s =>
    if EndsFrame acc p then (frameOf (acc ++ [p])).toList ++ splitFrom [] s
    else if acc.length + 1 = INPUT_BUF_SIZE then splitFrom [] s
    else splitFrom (acc ++ [p]) s

/-- The frames of a stream that starts at a frame boundary. -/
def split (s : List SniffByte) : List Frame := splitFrom [] s

/-- The frame holds what its kind is read for: two annunciator bytes, or a button
code closed by its 0x66 pair. -/
def Frame.complete (f : Frame) : Bool :=
  match f.kind with
  | .message | .control => true
  | .annunciators => 4 ≤ f.pairs.length
  | .button => 3 ≤ f.pairs.length && f.pairs.getLast?.map SniffByte.input == some 0x66

/-! ## What the splitter keeps of an ended frame -/

/-- The parser state of a frame kind. -/
def FrameKind.state : FrameKind → FrameState
  | .message => .message
  | .annunciators => .annunciators
  | .control => .control
  | .button => .button

/-- The parser state that the pairs collected determine. -/
def stateOf : List SniffByte → FrameState
  | [] => .unknown
  | p :: acc =>
    if p = buttonHeader then .button
    else
      match acc with
      | [] => .unknown
      | q :: _ => (pairKind p q).state

/-- The button state goes with the button header. -/
theorem stateOf_eq_button {acc : List SniffByte} :
    stateOf acc = .button ↔ acc.head? = some buttonHeader := by
  match acc with
  | [] => simp [stateOf]
  | [p] => by_cases hb : p = buttonHeader <;> simp [stateOf, hb]
  | p :: q :: _ =>
    by_cases hb : p = buttonHeader
    · simp [stateOf, hb]
    · simp only [stateOf, hb, if_false, List.head?_cons, Option.some.injEq, iff_false]
      unfold pairKind
      split_ifs <;> simp [FrameKind.state]

/-- A frame that EOF ends, by the parser state it ends in. -/
theorem frameOf_eof (acc : List SniffByte) :
    (frameOf (acc ++ [eofPair])).toList.filter Frame.complete =
      match stateOf acc with
      | .message => [⟨.message, acc ++ [eofPair]⟩]
      | .annunciators =>
        if 4 ≤ acc.length + 1 then [⟨.annunciators, acc ++ [eofPair]⟩] else []
      | .control => [⟨.control, acc ++ [eofPair]⟩]
      | _ => [] := by
  match acc with
  | [] => decide
  | [p] =>
    by_cases hb : p = buttonHeader
    · simp [frameOf, frameKind?, stateOf, hb, Frame.complete]
    · simp [frameOf, frameKind?, stateOf, hb]
  | p :: q :: rest =>
    by_cases hb : p = buttonHeader
    · -- the last pair is not a 0x66 pair
      have hc : Frame.complete ⟨.button, p :: q :: rest ++ [eofPair]⟩ = false := by
        simp only [Frame.complete, List.getLast?_append]
        simp [eofPair]
      have hkind : frameKind? (p :: q :: rest ++ [eofPair]) = some .button := by
        simp [frameKind?, hb]
      rw [frameOf, hkind, show stateOf (p :: q :: rest) = .button by simp [stateOf, hb]]
      simp only [Option.map_some, Option.toList_some, List.filter_cons, hc, List.filter_nil]
      rfl
    · have hkind : frameKind? (p :: q :: rest ++ [eofPair]) = some (pairKind p q) := by
        cases rest <;> simp [frameKind?, hb]
      have hstate : stateOf (p :: q :: rest) = (pairKind p q).state := by simp [stateOf, hb]
      rw [frameOf, hkind, hstate]
      rcases hk : pairKind p q
      · rfl
      · by_cases h4 : 1 ≤ rest.length
        · simp [FrameKind.state, Frame.complete, h4]
        · simp [FrameKind.state, Frame.complete, h4]
      · rfl
      · exact absurd hk (by unfold pairKind; split_ifs <;> simp)

/-- A button frame that a 0x66 pair ends. -/
theorem frameOf_button {acc : List SniffByte} {p : SniffByte}
    (hhead : acc.head? = some buttonHeader) (hin : p.input = 0x66) :
    (frameOf (acc ++ [p])).toList.filter Frame.complete =
      if 3 ≤ acc.length + 1 then [⟨.button, acc ++ [p]⟩] else [] := by
  obtain ⟨rest, rfl⟩ : ∃ rest, acc = buttonHeader :: rest := by
    cases acc with
    | nil => cases hhead
    | cons a rest => exact ⟨rest, by rw [Option.some.inj hhead]⟩
  have hc : Frame.complete ⟨.button, buttonHeader :: rest ++ [p]⟩ =
      decide (3 ≤ rest.length + 2) := by
    simp only [Frame.complete, List.getLast?_append]
    simp [hin]
  have hkind : frameKind? (buttonHeader :: rest ++ [p]) = some .button := by
    simp [frameKind?]
  by_cases h3 : 3 ≤ rest.length + 2
  · simp only [frameOf, hkind, Option.map_some, Option.toList_some, List.filter_cons, hc, h3,
      decide_true, if_true, List.filter_nil, List.length_cons]
  · simp only [frameOf, hkind, Option.map_some, Option.toList_some, List.filter_cons, hc, h3,
      decide_false, if_false, List.filter_nil, List.length_cons, Bool.false_eq_true]

/-! ## The parser follows the splitter -/

namespace FrameBuffers

/-- The parser has collected `acc` since the last cut, and is in the state that
goes with it. -/
structure Parsed (b : FrameBuffers) (acc : List SniffByte) : Prop where
  holds : b.Holds acc
  room : acc.length < INPUT_BUF_SIZE
  state : b.frameState = stateOf acc

/-- A frame acted upon consists of the pairs collected, in the state of its kind; a
button frame has at least three of them. -/
theorem acts_eq_some {b : FrameBuffers} {f : Frame} (h : b.acts = some f) :
    f.pairs = b.pairs ∧ b.frameState = f.kind.state ∧ (f.kind = .button → 3 ≤ b.bufLen) := by
  cases hs : b.frameState with
  | init =>
    simp only [acts, hs] at h
    cases h
  | unknown =>
    simp only [acts, hs] at h
    cases h
  | message =>
    simp only [acts, hs] at h
    obtain ⟨-, ⟨⟩⟩ := Option.ite_none_right_eq_some.mp h
    exact ⟨rfl, rfl, fun hk => by cases hk⟩
  | annunciators =>
    simp only [acts, hs] at h
    obtain ⟨-, ⟨⟩⟩ := Option.ite_none_right_eq_some.mp h
    exact ⟨rfl, rfl, fun hk => by cases hk⟩
  | control =>
    simp only [acts, hs] at h
    obtain ⟨-, ⟨⟩⟩ := Option.ite_none_right_eq_some.mp h
    exact ⟨rfl, rfl, fun hk => by cases hk⟩
  | button =>
    simp only [acts, hs] at h
    obtain ⟨⟨-, -, h3⟩, ⟨⟩⟩ := Option.ite_none_right_eq_some.mp h
    exact ⟨rfl, rfl, fun _ => h3⟩

theorem parsed_endFrame (b : FrameBuffers) : b.endFrame.Parsed [] :=
  ⟨Holds.nil rfl, Nat.zero_lt_succ _, rfl⟩

/-- EOF ends the frame in every state. -/
theorem Parsed.step_eof {b : FrameBuffers} {acc : List SniffByte} (h : b.Parsed acc) :
    (b.store eofPair).next.guarded.Parsed [] ∧
      (b.store eofPair).acts.toList =
        (frameOf (acc ++ [eofPair])).toList.filter Frame.complete := by
  have hs := h.holds.store h.room eofPair
  have heof := hs.eof_iff.mpr rfl
  have hlen : (b.store eofPair).bufLen = acc.length + 1 := by simpa using hs.len
  have hstate : (b.store eofPair).frameState = stateOf acc := h.state
  refine ⟨by rw [next_of_eof heof, guarded_endFrame]; exact parsed_endFrame _, ?_⟩
  rw [frameOf_eof, acts, hstate, hs.pairs_eq]
  simp only [heof, hlen]
  cases stateOf acc with
  | init =>
    rfl
  | unknown =>
    rfl
  | message =>
    rfl
  | annunciators =>
    by_cases h4 : 4 ≤ acc.length + 1
    · simp [h4]
    · simp [h4]
  | control =>
    rfl
  | button =>
    rfl

/-- A 0x66 pair ends a button frame. -/
theorem Parsed.step_button {b : FrameBuffers} {acc : List SniffByte} {p : SniffByte}
    (h : b.Parsed acc) (hhead : acc.head? = some buttonHeader) (hin : p.input = 0x66) :
    (b.store p).next.guarded.Parsed [] ∧
      (b.store p).acts.toList = (frameOf (acc ++ [p])).toList.filter Frame.complete := by
  have hs := h.holds.store h.room p
  have hlen : (b.store p).bufLen = acc.length + 1 := by simpa using hs.len
  have hstate : (b.store p).frameState = .button := h.state.trans (stateOf_eq_button.mpr hhead)
  have heof : (b.store p).lastBytesAreEof = false := by
    rw [← Bool.not_eq_true, hs.eof_iff]
    rintro rfl
    cases hin
  have hlast := hs.last_input.trans hin
  have hnext : (b.store p).next = (b.store p).endFrame := by
    simp only [next, hstate, heof]
    rw [if_neg Bool.false_ne_true, if_pos ⟨by omega, hlast⟩]
  refine ⟨by rw [hnext, guarded_endFrame]; exact parsed_endFrame _, ?_⟩
  rw [frameOf_button hhead hin, acts, hstate, hs.pairs_eq]
  simp only [heof, hlast, true_and]
  rw [hlen]
  by_cases h3 : 3 ≤ acc.length + 1
  · simp [h3]
  · simp [h3]

/-- A button frame goes on in its state. -/
theorem Parsed.next_button {b : FrameBuffers} {acc : List SniffByte} {p : SniffByte}
    (h : b.Parsed acc) (hend : ¬ EndsFrame acc p) (hhead : acc.head? = some buttonHeader) :
    (b.store p).next = b.store p := by
  have hs := h.holds.store h.room p
  have hstate : (b.store p).frameState = .button := h.state.trans (stateOf_eq_button.mpr hhead)
  have heof : ¬ (b.store p).lastBytesAreEof = true := by
    rw [hs.eof_iff]
    exact fun hp => hend (.inl hp)
  have hlast := hs.last_input
  simp only [next, hstate]
  rw [if_neg heof, if_neg]
  rintro ⟨-, h66⟩
  exact hend (.inr ⟨hhead, hlast.symm.trans h66⟩)

/-- The parse state after a pair that ends no frame: at most the state is set. -/
theorem Parsed.next_extends {b : FrameBuffers} {acc : List SniffByte} {p : SniffByte}
    (h : b.Parsed acc) (hend : ¬ EndsFrame acc p) :
    (b.store p).next = (b.store p).withState (stateOf (acc ++ [p])) := by
  have hs := h.holds.store h.room p
  have hlen : (b.store p).bufLen = acc.length + 1 := by simpa using hs.len
  have hstate : (b.store p).frameState = stateOf acc := h.state
  have heof : ¬ (b.store p).lastBytesAreEof = true := by
    rw [hs.eof_iff]
    exact fun hp => hend (.inl hp)
  match acc, h, hstate, hs, hlen, hend with
  | [], _, hstate, hs, hlen, _ =>
    -- the first pair: a button header, or still unclassified
    have hin := hs.input 0 (by simp)
    have hout := hs.output 0 (by simp)
    simp only [List.nil_append, List.getElem_cons_zero] at hin hout
    simp only [next, hstate, stateOf, frameUnknown, hin, hout, List.nil_append]
    rw [if_neg heof]
    by_cases hb : p = buttonHeader
    · rw [if_pos ⟨hlen, by rw [hb]; exact ⟨rfl, rfl⟩⟩, if_pos hb]
      rfl
    · rw [if_neg, if_neg (by rw [hlen]; decide), if_neg hb]
      · exact (withState_eq_self hstate).symm
      rintro ⟨-, hi, ho⟩
      exact hb (by cases p; simp_all [buttonHeader])
  | [q], h, hstate, hs, hlen, hend =>
    by_cases hb : q = buttonHeader
    · rw [h.next_button hend (by rw [hb]; rfl),
        withState_eq_self (hstate.trans (by simp [stateOf, hb]))]
    · -- the second pair classifies the frame
      have hin₀ := hs.input 0 (by simp)
      have hin₁ := hs.input 1 (by simp)
      simp only [List.cons_append, List.nil_append, List.getElem_cons_zero,
        List.getElem_cons_succ] at hin₀ hin₁
      simp only [stateOf, hb, if_false] at hstate
      simp only [next, hstate, frameUnknown, hin₀, hin₁, List.cons_append, List.nil_append,
        stateOf, hb, if_false]
      rw [if_neg heof, if_neg (by rw [hlen]; exact fun h => absurd h.1 (Nat.succ_ne_self _)),
        if_pos (by rw [hlen]; exact Nat.le_refl _)]
      unfold pairKind
      split_ifs <;> rfl
  | q :: r :: rest, h, hstate, hs, hlen, hend =>
    by_cases hb : q = buttonHeader
    · rw [h.next_button hend (by rw [hb]; rfl),
        withState_eq_self (hstate.trans (by simp [stateOf, hb]))]
    · -- a classified frame goes on in its state
      have hkind : stateOf (q :: r :: rest) = (pairKind q r).state := by simp [stateOf, hb]
      have hsame : stateOf (q :: r :: rest ++ [p]) = (pairKind q r).state := by
        simp [stateOf, hb]
      rw [hsame, withState_eq_self (hstate.trans hkind)]
      rw [hkind] at hstate
      unfold pairKind at hstate
      split_ifs at hstate <;> simp [next, hstate, FrameKind.state, heof]

/-- The parse state after a pair that ends no frame. -/
theorem Parsed.step_extends {b : FrameBuffers} {acc : List SniffByte} {p : SniffByte}
    (h : b.Parsed acc) (hend : ¬ EndsFrame acc p) :
    (b.store p).next.guarded.Parsed
        (if acc.length + 1 = INPUT_BUF_SIZE then [] else acc ++ [p]) ∧
      (b.store p).acts = none := by
  have hs := h.holds.store h.room p
  have hlen : (b.store p).bufLen = acc.length + 1 := by simpa using hs.len
  have heof : ¬ (b.store p).lastBytesAreEof = true := by
    rw [hs.eof_iff]
    exact fun hp => hend (.inl hp)
  refine ⟨?_, ?_⟩
  · rw [h.next_extends hend]
    split
    · rename_i hfull
      rw [guarded, if_pos (by rw [withState, hlen]; omega)]
      exact parsed_endFrame _
    · rename_i hfull
      have hroom := h.room
      rw [guarded_of_lt (by rw [withState, hlen]; omega)]
      exact ⟨⟨hs.len, hs.le, hs.input, hs.output⟩, by simp; omega, rfl⟩
  · have hstate : (b.store p).frameState = stateOf acc := h.state
    have hlast := hs.last_input
    rcases hst : stateOf acc <;> rw [hst] at hstate <;> simp only [acts, hstate]
    · rw [if_neg heof]
    · rw [if_neg fun h => heof h.1]
    · rw [if_neg heof]
    · rw [if_neg]
      rintro ⟨-, h66, -⟩
      exact hend (.inr ⟨stateOf_eq_button.mp hst, hlast.symm.trans h66⟩)

end FrameBuffers

/-! ## The decoder acts upon the complete frames of the splitter -/

/-- The frames acted upon, from a parse state that has collected `acc`. -/
theorem acted_eq_splitFrom {c : DmmContext} {acc : List SniffByte} (h : c.buf.Parsed acc)
    (w : List Timed) :
    acted c w = (splitFrom acc (w.map Prod.fst)).filter Frame.complete := by
  induction w generalizing c acc with
  | nil => rfl
  | cons x w ih =>
    obtain ⟨p, t⟩ := x
    have hbuf := processPair_buf c p t
    have hacts := processPair_acts c p t
    rw [acted, Machine.trace_cons, List.map_cons, splitFrom]
    by_cases hend : EndsFrame acc p
    · have hstep : (c.buf.store p).next.guarded.Parsed [] ∧ (c.buf.store p).acts.toList =
          (frameOf (acc ++ [p])).toList.filter Frame.complete := by
        rcases hend with rfl | ⟨hhead, hin⟩
        · exact h.step_eof
        · exact h.step_button hhead hin
      rw [← hbuf, ← hacts] at hstep
      rw [if_pos hend, List.filter_append, hstep.2]
      exact congrArg _ (ih hstep.1)
    · have hstep := h.step_extends hend
      rw [← hbuf, ← hacts] at hstep
      rw [if_neg hend, hstep.2]
      by_cases hfull : acc.length + 1 = INPUT_BUF_SIZE
      · rw [if_pos hfull] at hstep
        rw [if_pos hfull]
        exact ih hstep.1
      · rw [if_neg hfull] at hstep
        rw [if_neg hfull]
        exact ih hstep.1

theorem DmmContext.AtBoundary.parsed {c : DmmContext} (h : c.AtBoundary) : c.buf.Parsed [] :=
  ⟨FrameBuffers.Holds.nil h.len, Nat.zero_lt_succ _, h.state⟩

/-- From a boundary, the decoder acts upon the complete frames of the splitter. -/
theorem acted_eq_split {c : DmmContext} (h : c.AtBoundary) (w : List Timed) :
    acted c w = (split (w.map Prod.fst)).filter Frame.complete :=
  acted_eq_splitFrom h.parsed w

/-- After an EOF pair, whatever came before it, the decoder is at a boundary. -/
theorem consume_eof_atBoundary (w : List Timed) (t : Clock) :
    (consume decoder34401Init (w ++ [(eofPair, t)])).AtBoundary := by
  rw [consume, Machine.run_append]
  exact processPair_eof (consume_len (by decide) w) t

/-- **Framing.** From a boundary the decoder acts upon exactly the complete frames
of the reference splitter, and from power-up it is in step with the splitter
after the first EOF pair. -/
theorem framing_exact :
    (∀ c : DmmContext, c.AtBoundary → ∀ w : List Timed,
      acted c w = (split (w.map Prod.fst)).filter Frame.complete) ∧
    (∀ (p s : List Timed) (t : Clock) (c : DmmContext), c.AtBoundary →
      acted decoder34401Init (p ++ [(eofPair, t)] ++ s) =
        acted decoder34401Init (p ++ [(eofPair, t)]) ++ acted c s) := by
  refine ⟨fun c h w => acted_eq_split h w, fun p s t c h => ?_⟩
  have hb := consume_eof_atBoundary p t
  rw [acted, Machine.trace_append]
  congr 1
  exact (acted_eq_split hb s).trans (acted_eq_split h s).symm

theorem framing_exact_annunciators :
    let boundary : DmmContext := decoder34401Init.endFrame
    let annunciators : List SniffByte := [⟨0x7f, 0⟩, ⟨0x00, 0⟩, ⟨0x12, 0⟩, ⟨0x34, 0⟩, eofPair]
    let w : List Timed := annunciators.map fun p => (p, ⟨0, 0⟩)
    boundary.AtBoundary ∧
      acted boundary w = (split (w.map Prod.fst)).filter Frame.complete ∧
      (split (w.map Prod.fst)).filter Frame.complete = [⟨.annunciators, annunciators⟩] ∧
      acted decoder34401Init ([] ++ [(eofPair, ⟨0, 0⟩)] ++ w) =
        acted decoder34401Init ([] ++ [(eofPair, ⟨0, 0⟩)]) ++ acted boundary w := by
  intro boundary annunciators w
  have hb : boundary.AtBoundary := ⟨rfl, rfl⟩
  exact ⟨hb, framing_exact.1 boundary hb w, by decide, framing_exact.2 [] w ⟨0, 0⟩ boundary hb⟩

/-- The splitter cuts off an annunciator frame of three pairs, and a button frame
at EOF; the decoder acts upon neither. -/
theorem framing_incomplete :
    let boundary : DmmContext := decoder34401Init.endFrame
    let annunciators : List SniffByte := [⟨0x7f, 0⟩, ⟨0x00, 0⟩, eofPair]
    let button : List SniffByte := [buttonHeader, ⟨0x12, 0x9d⟩, ⟨0x34, 0xcf⟩, eofPair]
    (acted boundary (annunciators.map fun p => (p, ⟨0, 0⟩)) = [] ∧
      split annunciators = [⟨.annunciators, annunciators⟩]) ∧
    (acted boundary (button.map fun p => (p, ⟨0, 0⟩)) = [] ∧ split button = [⟨.button, button⟩]) ∧
    ¬ ∀ c : DmmContext, c.AtBoundary → ∀ w : List Timed, acted c w = split (w.map Prod.fst) := by
  refine ⟨⟨by decide, by decide⟩, ⟨by decide, by decide⟩, fun h => ?_⟩
  have := h decoder34401Init.endFrame ⟨rfl, rfl⟩
    ([⟨0x7f, 0⟩, ⟨0x00, 0⟩, eofPair].map fun p => (p, ⟨0, 0⟩))
  revert this
  decide

end LcdPico
