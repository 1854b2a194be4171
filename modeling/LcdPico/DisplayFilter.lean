import LcdPico.MessageFlags
import LcdPico.Redraw

/-!
# The anti-glitch filter (`display_status`)

A text that the decoder vouches for is published in the call that sees it. Any other
text is pending, and is published by a later call, 300 ms after the last call with
new data.

The runs are those of the decoder with `display_status` called at any point between
its steps. `History` records what the filter is judged by: when the text changed,
the calls with new data, and the verdict on the last message.
-/

namespace LcdPico

/-! ## What a call does -/

namespace DisplayState

variable (s : DisplayState) (now : Nat) (us : Nat → UInt32)

/-- The pending text is due. -/
def Due : Prop := 0 < s.vars.newDispTime ∧ s.vars.newDispTime + 300000 < now

/-- What a call of `display_status` does. -/
inductive StatusCall : Bool → DisplayState → Prop
  /-- no display -/
  | inactive {newData : Bool} : s.vars.displayActive = false → StatusCall newData s
  /-- the pending text is published -/
  | delayed : s.vars.displayActive = true → s.Due now → StatusCall false (s.showText.refresh us)
  /-- no text is due -/
  | waiting : s.vars.displayActive = true → ¬ s.Due now → StatusCall false (s.refresh us)
  /-- the text is published at once -/
  | vouched : s.vars.displayActive = true → s.dmm.vouched = true →
      StatusCall true ((s.layoutText now).showText.refresh us)
  /-- the text becomes pending -/
  | doubtful : s.vars.displayActive = true → s.dmm.vouched = false →
      StatusCall true ((s.layoutText now).refresh us)

theorem displayStatus_call (newData : Bool) :
    s.StatusCall now us newData (displayStatus s newData now us) := by
  rw [displayStatus]
  cases hactive : s.vars.displayActive with
  | false => exact .inactive hactive
  | true =>
    cases newData with
    | false =>
      have hdue : (s.vars.newDispTime > 0 && now > s.vars.newDispTime + 300000) = true ↔
          s.Due now := by
        rw [Bool.and_eq_true, decide_eq_true_iff, decide_eq_true_iff]
        exact Iff.rfl
      simp only [Bool.not_true, Bool.not_false, Bool.false_eq_true, if_false, if_true]
      split
      · rename_i h
        exact .delayed hactive (hdue.mp h)
      · rename_i h
        exact .waiting hactive (mt hdue.mpr h)
    | true =>
      simp only [Bool.not_true, Bool.false_eq_true, if_false]
      split
      · exact .vouched hactive ‹_›
      · exact .doubtful hactive (Bool.not_eq_true _ ▸ ‹_›)

/-- The display only reads the decoder, and is not switched on or off. -/
theorem displayStatus_frame (newData : Bool) :
    (displayStatus s newData now us).dmm = s.dmm ∧
      (displayStatus s newData now us).vars.displayActive = s.vars.displayActive := by
  have hcall := s.displayStatus_call now us newData
  generalize displayStatus s newData now us = s' at hcall
  cases hcall with
  | inactive _ => exact ⟨rfl, rfl⟩
  | delayed _ _ => exact ⟨rfl, rfl⟩
  | waiting _ _ => exact ⟨rfl, rfl⟩
  | vouched _ _ => exact ⟨rfl, rfl⟩
  | doubtful _ _ => exact ⟨rfl, rfl⟩

/-! ### What is drawn -/

/-- The call of `update_display` that a call makes. -/
def redraw : Update where
  newstate := s.vars.curDisp
  indFlags := s.dmm.annState.toUInt32
  forceRefresh := false
  us := us

/-- Both frame buffers hold what is remembered of them. -/
def Painted : Prop := ∀ k, (s.vars.screen.buffers k).Faithful

variable {s}

theorem Painted.refresh (h : s.Painted) :
    (s.refresh us).vars.screen.shown.fb = fullRedraw (s.redraw us) ∧ (s.refresh us).Painted := by
  have hkeep (l : Layer) (u : Update) (h : l.Faithful) : (updateLayer l u).Faithful :=
    (updateLayer_spec h u).2
  have hscreen : (s.refresh us).vars.screen =
      SwapChain.step otherLayer updateLayer s.vars.screen (s.redraw us) := rfl
  refine ⟨?_, ?_⟩
  · rw [hscreen, SwapChain.shown_step]
    exact (updateLayer_spec (h _) _).1
  · intro k
    rw [hscreen]
    exact SwapChain.step_invariant hkeep h _ k

/-- A call shows the cells on display and the annunciators, drawn from scratch. -/
theorem Painted.displayStatus (h : s.Painted) (newData : Bool) :
    (LcdPico.displayStatus s newData now us).Painted ∧
      (s.vars.displayActive = true →
        (LcdPico.displayStatus s newData now us).vars.screen.shown.fb =
          fullRedraw ((LcdPico.displayStatus s newData now us).redraw us)) := by
  have hcall := s.displayStatus_call now us newData
  generalize LcdPico.displayStatus s newData now us = s' at hcall
  -- the screen is only touched by the redraw at the end of the call
  have hrefresh {mid : DisplayState} (hmid : mid.vars.screen = s.vars.screen) :
      (mid.refresh us).Painted ∧ (s.vars.displayActive = true →
        (mid.refresh us).vars.screen.shown.fb = fullRedraw ((mid.refresh us).redraw us)) := by
    have hpainted : mid.Painted := by
      intro k
      rw [hmid]
      exact h k
    obtain ⟨hshown, hkept⟩ := hpainted.refresh us
    exact ⟨hkept, fun _ => hshown⟩
  cases hcall with
  | inactive hoff =>
    refine ⟨h, fun hon => ?_⟩
    rw [hoff] at hon
    exact absurd hon (by decide)
  | delayed _ _ => exact hrefresh rfl
  | waiting _ _ => exact hrefresh rfl
  | vouched _ _ => exact hrefresh rfl
  | doubtful _ _ => exact hrefresh rfl

end DisplayState

/-! ## Runs, and what an observer records of them -/

/-- A step of the decoder at a time, or a call of `display_status`. -/
inductive StatusEvent where
  | decoder (e : Event) (now : Nat)
  | status (newData : Bool) (now : Nat) (us : Nat → UInt32)

def DisplayState.step (s : DisplayState) : StatusEvent → DisplayState
  | .decoder e _ => { s with dmm := s.dmm.step e }
  | .status newData now us => displayStatus s newData now us

theorem DisplayState.Painted.step {s : DisplayState} (h : s.Painted) (e : StatusEvent) :
    (s.step e).Painted := by
  cases e with
  | decoder e now => exact h
  | status newData now us => exact (h.displayStatus now us newData).1

theorem DisplayState.step_displayActive (s : DisplayState) (e : StatusEvent) :
    (s.step e).vars.displayActive = s.vars.displayActive := by
  cases e with
  | decoder e now => rfl
  | status newData now us => exact (s.displayStatus_frame now us newData).2

/-- **A call shows the cells on display and the annunciators**, after any run with a
display. -/
theorem displayStatus_run_shows (es : List StatusEvent) (newData : Bool) (now : Nat)
    (us : Nat → UInt32) :
    (Machine.run DisplayState.step (displayInit true)
        (es ++ [.status newData now us])).vars.screen.shown.fb =
      fullRedraw ((Machine.run DisplayState.step (displayInit true)
        (es ++ [.status newData now us])).redraw us) := by
  have hrun : (Machine.run DisplayState.step (displayInit true) es).Painted ∧
      (Machine.run DisplayState.step (displayInit true) es).vars.displayActive = true := by
    refine Machine.run_invariant
      (P := fun s : DisplayState => s.Painted ∧ s.vars.displayActive = true) ?_
      ⟨fun _ => initLayer_faithful, rfl⟩ es
    rintro s e ⟨hpainted, hactive⟩
    exact ⟨hpainted.step e, by rw [s.step_displayActive e, hactive]⟩
  rw [Machine.run_append]
  exact (hrun.1.displayStatus now us newData).2 hrun.2

/-- What the decoder thought of a message when its frame ended. -/
structure Verdict where
  text : DisplayBuf
  validReading : Bool
  menuMsg : Bool
  corruptMsg : Bool

/-- The text `t` was found a valid reading or a menu text, and not corrupt. -/
structure Verdict.Vouches (v : Verdict) (t : DisplayBuf) : Prop where
  text : v.text = t
  notCorrupt : v.corruptMsg = false
  known : v.validReading = true ∨ v.menuMsg = true

def DmmContext.verdict (c : DmmContext) : Verdict where
  text := c.main
  validReading := c.msg.validReading
  menuMsg := c.msg.menuMsg
  corruptMsg := c.msg.corruptMsg

/-- What has happened up to a point of a run. -/
structure History where
  /-- when `main` changed last -/
  changedAt : Nat
  /-- the last call with new data since then -/
  newDataAt : Option Nat
  /-- the last call with new data, and `main` in it -/
  lastNewData : Option (Nat × DisplayBuf)
  /-- the last message, unless a reset came after it -/
  verdict : Option Verdict

/-- The last verdict after a step of the decoder. -/
def verdictAfter (v : Option Verdict) (c : DmmContext) : Event → Option Verdict
  | .pair p t => if c.EndsMessage p then some (c.step (.pair p t)).verdict else v
  | .tick _ => v
  | .reset => none
  | .interrupt _ _ => v

def History.step (h : History) (s : DisplayState) : StatusEvent → History
  | .decoder e now =>
    { h with
      changedAt := if (s.dmm.step e).main = s.dmm.main then h.changedAt else now
      newDataAt := if (s.dmm.step e).main = s.dmm.main then h.newDataAt else none
      verdict := verdictAfter h.verdict s.dmm e }
  | .status true now _ =>
    { h with newDataAt := some now, lastNewData := some (now, s.dmm.main) }
  | .status false _ _ => h

/-- A state with its history. -/
structure Watched where
  state : DisplayState
  history : History

namespace Watched

def step (o : Watched) (e : StatusEvent) : Watched where
  state := o.state.step e
  history := o.history.step o.state e

/-- Power-up, with or without a display. -/
def init (displayActive : Bool) : Watched where
  state := displayInit displayActive
  history := { changedAt := 0, newDataAt := none, lastNewData := none, verdict := none }

/-! ## What the history tells -/

/-- A flag that is set comes from the verdict on the text in `main`. -/
structure Justified (o : Watched) : Prop where
  consistent : o.state.dmm.Consistent
  vouched : o.state.dmm.vouched = true →
    ∃ v, o.history.verdict = some v ∧ v.Vouches o.state.dmm.main

theorem vouched_iff {c : DmmContext} :
    c.vouched = true ↔
      c.msg.corruptMsg = false ∧ (c.msg.validReading = true ∨ c.msg.menuMsg = true) := by
  rw [DmmContext.vouched, Bool.and_eq_true, Bool.or_eq_true, Bool.not_eq_true']

/-- The same message and text are vouched for as before. -/
theorem vouched_congr {c c' : DmmContext} (h : c'.msg = c.msg) : c'.vouched = c.vouched := by
  rw [DmmContext.vouched, DmmContext.vouched, h]

theorem justified_pair {v : Option Verdict} {c : DmmContext} (hc : c.Consistent)
    (h : c.vouched = true → ∃ w, v = some w ∧ w.Vouches c.main) (p : SniffByte) (t : Clock)
    (hvouched : (c.step (.pair p t)).vouched = true) :
    ∃ w, verdictAfter v c (.pair p t) = some w ∧ w.Vouches (c.step (.pair p t)).main := by
  rw [verdictAfter]
  by_cases hp : c.EndsMessage p
  · obtain ⟨hcorrupt, hknown⟩ := vouched_iff.mp hvouched
    exact ⟨_, if_pos hp, rfl, hcorrupt, hknown⟩
  · rw [if_neg hp]
    have hmsg := processPair_msg c p t
    have hmain := processPair_main c p t
    rw [if_neg hp] at hmain
    by_cases hstate : c.buf.frameState = .message
    · -- a message byte clears the flags
      exfalso
      rw [if_pos hstate, if_neg fun heof => hp ⟨hstate, heof⟩] at hmsg
      obtain ⟨-, hnomenu, hnovalid⟩ := MessageAssembly.messageByte_flags hc.inUse
        ((c.buf.store p).inputBuf.rd ((c.buf.store p).bufLen - 1))
      rw [← hmsg] at hnomenu hnovalid
      rcases (vouched_iff.mp hvouched).2 with hset | hset
      · exact absurd (hset.symm.trans hnovalid) (by decide)
      · exact absurd (hset.symm.trans hnomenu) (by decide)
    · rw [if_neg hstate] at hmsg
      have hmain' : (c.step (.pair p t)).main = c.main := hmain
      rw [hmain']
      exact h ((vouched_congr hmsg).symm.trans hvouched)

theorem Justified.step {o : Watched} (h : o.Justified) (e : StatusEvent) :
    (o.step e).Justified := by
  obtain ⟨hc, hvouched⟩ := h
  cases e with
  | decoder e now =>
    refine ⟨hc.step e, ?_⟩
    intro hset
    cases e with
    | pair p t => exact justified_pair hc hvouched p t hset
    | tick now_us =>
      have hmsg : (o.state.dmm.step (.tick now_us)).msg = o.state.dmm.msg := by
        rw [DmmContext.step, processShiftWindow_msg]
      have hmain : (o.state.dmm.step (.tick now_us)).main = o.state.dmm.main := by
        rw [DmmContext.step, processShiftWindow_main]
      obtain ⟨v, hv, hvouches⟩ := hvouched ((vouched_congr hmsg).symm.trans hset)
      rw [← hmain] at hvouches
      exact ⟨v, hv, hvouches⟩
    | reset =>
      have hno : (o.state.dmm.step .reset).vouched = false := rfl
      exact absurd (hno.symm.trans hset) (by decide)
    | interrupt sniff dbg => exact hvouched hset
  | status newData now us =>
    have hdmm : (o.step (.status newData now us)).state.dmm = o.state.dmm :=
      (o.state.displayStatus_frame now us newData).1
    have hverdict : (o.step (.status newData now us)).history.verdict = o.history.verdict := by
      cases newData <;> rfl
    refine ⟨?_, ?_⟩
    · rw [hdmm]
      exact hc
    · rw [hdmm, hverdict]
      exact hvouched

/-- What the variables of the filter hold. -/
structure Tracked (o : Watched) : Prop where
  /-- a pending text comes from the last call with new data -/
  pending : o.state.vars.displayActive = true → 0 < o.state.vars.newDispTime →
    o.history.lastNewData = some (o.state.vars.newDispTime, o.state.vars.curDispTxt)
  /-- `main` itself, seen with new data, is pending or published -/
  seen : o.state.vars.displayActive = true → ∀ t, o.history.newDataAt = some t →
    o.state.vars.curDispTxt = o.state.dmm.main ∧
      (o.state.vars.newDispTime = t ∨
        o.state.vars.newDispTime = 0 ∧ o.state.disp = o.state.dmm.main)

theorem Tracked.step {o : Watched} (h : o.Tracked) (e : StatusEvent) : (o.step e).Tracked := by
  obtain ⟨hpending, hseen⟩ := h
  cases e with
  | decoder e now =>
    refine ⟨hpending, ?_⟩
    intro hactive t ht
    -- a change of `main` would have cleared the record
    have hsame : (o.state.dmm.step e).main = o.state.dmm.main ∧ o.history.newDataAt = some t := by
      change (if _ then _ else _) = some t at ht
      split at ht
      · exact ⟨‹_›, ht⟩
      · exact absurd ht (by simp)
    have hmain : (o.step (.decoder e now)).state.dmm.main = o.state.dmm.main := hsame.1
    rw [hmain]
    exact hseen hactive t hsame.2
  | status newData now us =>
    have hcall := o.state.displayStatus_call now us newData
    have hstate : (o.step (.status newData now us)).state =
        displayStatus o.state newData now us := rfl
    generalize displayStatus o.state newData now us = s' at hcall hstate
    cases hcall with
    | inactive hno =>
      have hnot {P : Prop} (hactive : (o.step (.status newData now us)).state.vars.displayActive =
          true) : P := by
        rw [hstate, hno] at hactive
        exact absurd hactive (by decide)
      exact ⟨fun hactive => hnot hactive, fun hactive => hnot hactive⟩
    | delayed hactive hdue =>
      refine ⟨?_, ?_⟩
      · intro _ hpos
        rw [hstate] at hpos
        exact absurd hpos (Nat.lt_irrefl 0)
      · intro _ t ht
        rw [hstate]
        have htxt := (hseen hactive t ht).1
        exact ⟨htxt, .inr ⟨rfl, htxt⟩⟩
    | waiting hactive hdue =>
      refine ⟨?_, ?_⟩
      · intro _ hpos
        rw [hstate] at hpos ⊢
        exact hpending hactive hpos
      · intro _ t ht
        rw [hstate]
        exact hseen hactive t ht
    | vouched hactive hvouched =>
      refine ⟨?_, ?_⟩
      · intro _ hpos
        rw [hstate] at hpos
        exact absurd hpos (Nat.lt_irrefl 0)
      · intro _ t _
        rw [hstate]
        exact ⟨rfl, .inr ⟨rfl, rfl⟩⟩
    | doubtful hactive hvouched =>
      refine ⟨?_, ?_⟩
      · intro _ _
        rw [hstate]
        rfl
      · intro _ t ht
        rw [hstate]
        obtain rfl := Option.some.inj ht
        exact ⟨rfl, .inl rfl⟩

/-- The invariant of a run. -/
structure Sound (o : Watched) : Prop where
  justified : o.Justified
  tracked : o.Tracked

theorem Sound.step {o : Watched} (h : o.Sound) (e : StatusEvent) : (o.step e).Sound :=
  ⟨h.justified.step e, h.tracked.step e⟩

theorem sound_init (displayActive : Bool) : (init displayActive).Sound := by
  have hconsistent : decoder34401Init.Consistent := DmmContext.Reachable.consistent (.init rfl)
  refine ⟨⟨hconsistent, ?_⟩, ⟨?_, ?_⟩⟩
  · intro hset
    have hno : decoder34401Init.vouched = false := rfl
    exact absurd (hno.symm.trans hset) (by decide)
  · intro _ hpos
    exact absurd hpos (Nat.lt_irrefl 0)
  · intro _ t ht
    exact absurd ht (by simp [init])

/-! ## No doubtful text early -/

/-- The step changes the published text only to a text that the decoder vouches for,
or after 300 ms without new data. -/
def ChangesForReason (o : Watched) (e : StatusEvent) : Prop :=
  (o.step e).state.disp ≠ o.state.disp →
    ∃ newData now us, e = .status newData now us ∧
      ((o.step e).state.disp = o.state.dmm.main ∧
          (∃ v, o.history.verdict = some v ∧ v.Vouches (o.step e).state.disp) ∨
        newData = false ∧
          ∃ t, o.history.lastNewData = some (t, (o.step e).state.disp) ∧ t + 300000 ≤ now)

theorem Sound.changesForReason {o : Watched} (h : o.Sound) (e : StatusEvent) :
    o.ChangesForReason e := by
  intro hchange
  cases e with
  | decoder e now => exact absurd rfl hchange
  | status newData now us =>
    refine ⟨newData, now, us, rfl, ?_⟩
    have hcall := o.state.displayStatus_call now us newData
    have hstate : (o.step (.status newData now us)).state =
        displayStatus o.state newData now us := rfl
    generalize displayStatus o.state newData now us = s' at hcall hstate
    rw [hstate] at hchange ⊢
    cases hcall with
    | inactive hno => exact absurd rfl hchange
    | delayed hactive hdue =>
      exact .inr ⟨rfl, _, h.tracked.pending hactive hdue.1, Nat.le_of_lt hdue.2⟩
    | waiting hactive hdue => exact absurd rfl hchange
    | vouched hactive hvouched => exact .inl ⟨rfl, h.justified.vouched hvouched⟩
    | doubtful hactive hvouched => exact absurd rfl hchange

/-- **The filter shows no doubtful text early**, in any run. -/
theorem changes_for_reason (displayActive : Bool) (es : List StatusEvent) :
    Machine.Within step ChangesForReason (init displayActive) es :=
  Machine.within_of_invariant (fun _ e h => h.step e) (fun _ e h => h.changesForReason e)
    (sound_init displayActive) es

/-! ## A text that stays -/

/-- The call has no new data, comes more than 300 ms after the last change of `main`,
and `t` is the last call with new data since then. -/
def Settled (o : Watched) (now t : Nat) : Prop :=
  o.history.newDataAt = some t ∧ o.history.changedAt + 300000 < now

/-- A text that has stayed for 300 ms is published. -/
def TextArrives (o : Watched) : StatusEvent → Prop
  | .status false now us =>
    ∀ t, o.Settled now t → (o.step (.status false now us)).state.disp = o.state.dmm.main
  | _ => True

/-- When it is not published yet, the last call with new data is 300 ms ago too. -/
def TimerRanOut (o : Watched) : StatusEvent → Prop
  | .status false now _ =>
    ∀ t, o.Settled now t → o.state.disp ≠ o.state.dmm.main →
      o.state.vars.displayActive = true ∧ 0 < t ∧ t + 300000 < now
  | _ => True

theorem Tracked.textArrives_iff {o : Watched} (h : o.Tracked) (e : StatusEvent) :
    o.TextArrives e ↔ o.TimerRanOut e := by
  cases e with
  | decoder e now => exact Iff.rfl
  | status newData now us =>
    cases newData with
    | true => exact Iff.rfl
    | false =>
      refine forall₂_congr fun t ht => ?_
      have hcall := o.state.displayStatus_call now us false
      have hstate : (o.step (.status false now us)).state =
          displayStatus o.state false now us := rfl
      generalize displayStatus o.state false now us = s' at hcall hstate
      rw [hstate]
      cases hcall with
      | inactive hno =>
        refine ⟨fun hdisp hne => absurd hdisp hne, fun htimer => ?_⟩
        by_contra hne
        exact absurd (hno.symm.trans (htimer hne).1) (by decide)
      | delayed hactive hdue =>
        obtain ⟨htxt, htime⟩ := h.seen hactive t ht.1
        refine iff_of_true htxt fun hne => ?_
        rcases htime with hnew | ⟨-, hdisp⟩
        · rw [← hnew]
          exact ⟨hactive, hdue⟩
        · exact absurd hdisp hne
      | waiting hactive hdue =>
        -- the timer still runs from the last call with new data, or is cleared
        obtain ⟨-, htime⟩ := h.seen hactive t ht.1
        refine ⟨fun hdisp hne => absurd hdisp hne, fun htimer => ?_⟩
        by_contra hne
        rcases htime with hnew | ⟨-, hdisp⟩
        · obtain ⟨-, hpos, hlate⟩ := htimer hne
          rw [← hnew] at hpos hlate
          exact hdue ⟨hpos, hlate⟩
        · exact hne hdisp

/-- **A text that stays on the meter reaches the display**, in exactly the runs
whose calls meet the condition: the timer starts again with every call with new data. -/
theorem text_arrives_iff (displayActive : Bool) (es : List StatusEvent) :
    Machine.Within step TextArrives (init displayActive) es ↔
      Machine.Within step TimerRanOut (init displayActive) es :=
  Machine.within_congr (fun _ e h => h.step e) (fun _ e h => h.tracked.textArrives_iff e)
    (sound_init displayActive) es

/-- The byte pairs `ps`, at one time. -/
def deliverAt (now : Nat) (ps : List SniffByte) : List StatusEvent :=
  (deliver ps).map fun e => .decoder e now

/-- A message that is neither a reading nor a menu text, and 200 ms later an
annunciator, each with a call that sees the new data. -/
def messageThenAnnunciator : List StatusEvent :=
  deliverAt 1000 (eofPair :: messagePairs (bytes "HELLO")) ++ [.status true 1000 fun _ => 0] ++
    deliverAt 201000 ([⟨0x7f, 0x00⟩, ⟨0x00, 0x00⟩, ⟨0x01, 0x00⟩, ⟨0x00, 0x00⟩] ++ [eofPair]) ++
    [.status true 201000 fun _ => 0]

/-- The annunciator keeps the text from the display. -/
theorem text_held_back :
    (Machine.run step (init true) messageThenAnnunciator).Settled 400000 201000 ∧
      ¬ ∀ es, Machine.Within step TextArrives (init true) es := by
  have hsettled : (Machine.run step (init true) messageThenAnnunciator).history.newDataAt =
        some 201000 ∧
      (Machine.run step (init true) messageThenAnnunciator).history.changedAt + 300000 <
        400000 := by
    decide +kernel
  have hheld : ((Machine.run step (init true) messageThenAnnunciator).step
        (.status false 400000 fun _ => 0)).state.disp ≠
      (Machine.run step (init true) messageThenAnnunciator).state.dmm.main := by
    decide +kernel
  refine ⟨hsettled, ?_⟩
  intro h
  obtain ⟨-, harrives, -⟩ := Machine.within_append.mp
    (h (messageThenAnnunciator ++ [.status false 400000 fun _ => 0]))
  exact hheld (harrives 201000 hsettled)

end Watched

end LcdPico
