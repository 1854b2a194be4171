import LcdPico.Display

/-!
# The incremental redraw (`display.c`)

`update_display` copies only the cells and indicators that changed since it last
painted the same frame buffer. What it shows is what a redraw of everything would
show (`fullRedraw`).

`Layer.Faithful` is the invariant of a frame buffer: it holds the pictures of what is
remembered of it. A blinking cell may hold a picture of the other phase, but it is
drawn again each time. Indicators that share a place are drawn again each time too:
the first of them puts out what was there, and the others only draw over it
(`SlotOrder`).
-/

namespace LcdPico

/-! ## A redraw of everything -/

/-- The indicator of annunciator `i`. -/
def indicatorOf (i : Nat) : LcdIndicator := displayIndicators (lcdIndicatorMap.rd i)

/-- The annunciators with their indicator at `y`, in order. -/
def slotMembers (y : Int) : List Nat :=
  (List.range 16).filter fun i => decide (lcdIndicatorMap.rd i ≠ .blank ∧ (indicatorOf i).y = y)

/-- The picture of the annunciator `i`. -/
def indicatorPicture (i : Nat) : SlotPicture :=
  { tile := (indicatorOf i).tile, h := (indicatorOf i).rows }

/-- The picture at `y` when the annunciators `on` are active: the indicator of the
last one that is, or blank. -/
def slotShows (on : Nat → Bool) (y : Int) : SlotPicture :=
  (((slotMembers y).filter on).getLast?.map indicatorPicture).getD (blankSlot y)

/-- The frame buffer after a redraw of everything. -/
def fullRedraw (u : Update) : FrameBuffer where
  cells := Vector.ofFn fun i => drawCell (u.newstate.rd i) (u.us i)
  slots := slotShows fun i => u.indFlags.toNat.testBit i

/-- A frame buffer holds the pictures of what is remembered of it. -/
structure Layer.Faithful (l : Layer) : Prop where
  cells : ∀ i < DISPLAY_COLS, (l.displayState.rd i).blink = false →
    l.fb.cells.rd i = drawCell (l.displayState.rd i) 0
  slots : ∀ y, l.fb.slots y = slotShows (fun i => l.indicatorState.toNat.testBit i) y

/-! ## The cells -/

/-- The clock only matters to a blinking cell. -/
theorem drawCell_of_not_blink {cell : CellState} (h : cell.blink = false) (us : UInt32) :
    drawCell cell us = drawCell cell 0 := by
  simp [drawCell, h]

/-- A turn of the loop over the cells leaves the others alone. -/
theorem updateCell_ne (u : Update) (l : Layer) {i j : Nat} (h : i ≠ j) :
    (updateCell u l i).displayState.rd j = l.displayState.rd j ∧
      (updateCell u l i).fb.cells.rd j = l.fb.cells.rd j := by
  simp only [updateCell]
  split
  · exact ⟨CArray.rd_wr_ne _ h _, CArray.rd_wr_ne _ h _⟩
  · exact ⟨rfl, rfl⟩

/-- After its turn a cell is remembered and drawn as it should be. -/
theorem updateCell_self (u : Update) {l : Layer} {i : Nat} (hi : i < DISPLAY_COLS)
    (h : (l.displayState.rd i).blink = false →
      l.fb.cells.rd i = drawCell (l.displayState.rd i) 0) :
    (updateCell u l i).displayState.rd i = u.newstate.rd i ∧
      (updateCell u l i).fb.cells.rd i = drawCell (u.newstate.rd i) (u.us i) := by
  simp only [updateCell]
  split
  · exact ⟨CArray.rd_wr_self _ hi _, CArray.rd_wr_self _ hi _⟩
  · -- skipped: the cell is as remembered, and does not blink
    rename_i hskip
    generalize u.newstate.rd i = new at hskip ⊢
    generalize l.displayState.rd i = old at hskip h ⊢
    obtain ⟨c, flags, blink⟩ := new
    obtain ⟨c', flags', blink'⟩ := old
    simp only [Bool.or_eq_true, bne_iff_ne, not_or, not_not, Bool.not_eq_true] at hskip
    obtain ⟨⟨⟨⟨-, rfl⟩, rfl⟩, rfl⟩, rfl⟩ := hskip
    exact ⟨rfl, (h rfl).trans (drawCell_of_not_blink rfl _).symm⟩

/-- The loop over the first `n` cells. -/
theorem foldl_updateCell (u : Update) {l : Layer} (h : l.Faithful) {n : Nat}
    (hn : n ≤ DISPLAY_COLS) :
    let l' := (List.range n).foldl (updateCell u) l
    (∀ i < n, l'.displayState.rd i = u.newstate.rd i ∧
      l'.fb.cells.rd i = drawCell (u.newstate.rd i) (u.us i)) ∧
    ∀ i, n ≤ i → l'.displayState.rd i = l.displayState.rd i ∧
      l'.fb.cells.rd i = l.fb.cells.rd i := by
  induction n with
  | zero => exact ⟨fun i hi => absurd hi (Nat.not_lt_zero i), fun _ _ => ⟨rfl, rfl⟩⟩
  | succ n ih =>
    obtain ⟨hbefore, hafter⟩ := ih (Nat.le_of_succ_le hn)
    simp only [List.range_succ, List.foldl_append, List.foldl_cons, List.foldl_nil]
    generalize (List.range n).foldl (updateCell u) l = l' at hbefore hafter
    refine ⟨?_, ?_⟩
    · intro i hi
      rcases Nat.lt_succ_iff_lt_or_eq.mp hi with hlt | rfl
      · obtain ⟨hcell, hpic⟩ := updateCell_ne u l' (Nat.ne_of_gt hlt)
        rw [hcell, hpic]
        exact hbefore i hlt
      · apply updateCell_self u hn
        obtain ⟨hcell, hpic⟩ := hafter i (Nat.le_refl i)
        rw [hcell, hpic]
        exact h.cells i hn
    · intro i hi
      obtain ⟨hcell, hpic⟩ := updateCell_ne u l' (Nat.ne_of_lt hi)
      rw [hcell, hpic]
      exact hafter i (Nat.le_of_succ_le hi)

/-- The loop over the cells leaves the indicators alone. -/
theorem foldl_updateCell_slots (u : Update) (l : Layer) (is : List Nat) :
    (is.foldl (updateCell u) l).fb.slots = l.fb.slots ∧
      (is.foldl (updateCell u) l).indicatorState = l.indicatorState := by
  induction is generalizing l with
  | nil => exact ⟨rfl, rfl⟩
  | cons i is ih =>
    rw [List.foldl_cons, (ih _).1, (ih _).2]
    simp only [updateCell]
    split
    · exact ⟨rfl, rfl⟩
    · exact ⟨rfl, rfl⟩

/-! ## The indicators -/

/-- What one turn of the loop over the annunciators makes of the picture at the place
of annunciator `i`. -/
def slotStep (on was : Nat → Bool) (pic : SlotPicture) (i : Nat) : SlotPicture :=
  if on i = was i ∧ (indicatorOf i).mode = 0 then pic
  else if on i = true then indicatorPicture i
  else if (indicatorOf i).mode = 2 then pic
  else { tile := (displayIndicators .blank).tile, h := (indicatorOf i).rows }

/-- A turn of the loop over the annunciators, seen at one place. -/
theorem updateIndicator_apply (indFlags : UInt32) (indicatorState : UInt16)
    (slots : Int → SlotPicture) (i : Nat) (y : Int) :
    updateIndicator indFlags indicatorState slots i y =
      if lcdIndicatorMap.rd i ≠ .blank ∧ (indicatorOf i).y = y then
        slotStep (fun i => indFlags.toNat.testBit i) (fun i => indicatorState.toNat.testBit i)
          (slots y) i
      else slots y := by
  have hdraw (tile : Int) : drawIndicator slots (indicatorOf i) tile y =
      if (indicatorOf i).y = y then { tile := tile, h := (indicatorOf i).rows } else slots y := by
    rw [drawIndicator]
    by_cases hy : (indicatorOf i).y = y
    · rw [if_pos hy, ← hy, Function.update_self]
    · rw [if_neg hy, Function.update_of_ne (Ne.symm hy)]
  have hind : displayIndicators (lcdIndicatorMap.rd i) = indicatorOf i := rfl
  simp only [updateIndicator, hind]
  by_cases hblank : lcdIndicatorMap.rd i = .blank
  · rw [if_pos hblank, if_neg fun h => h.1 hblank]
  rw [if_neg hblank]
  by_cases hy : (indicatorOf i).y = y
  · rw [slotStep, if_pos (And.intro hblank hy)]
    split_ifs
    · rfl
    · rw [hdraw, if_pos hy, indicatorPicture]
    · rfl
    · rw [hdraw, if_pos hy]
  · rw [if_neg (fun h => hy h.2 : ¬ (lcdIndicatorMap.rd i ≠ .blank ∧ (indicatorOf i).y = y))]
    split_ifs
    · rfl
    · rw [hdraw, if_neg hy]
    · rfl
    · rw [hdraw, if_neg hy]

/-- The loop over the annunciators, seen at one place. -/
theorem foldl_updateIndicator (indFlags : UInt32) (indicatorState : UInt16)
    (slots : Int → SlotPicture) (y : Int) (is : List Nat) :
    is.foldl (updateIndicator indFlags indicatorState) slots y =
      (is.filter fun i =>
          decide (lcdIndicatorMap.rd i ≠ .blank ∧ (indicatorOf i).y = y)).foldl
        (slotStep (fun i => indFlags.toNat.testBit i) fun i => indicatorState.toNat.testBit i)
        (slots y) := by
  induction is generalizing slots with
  | nil => rfl
  | cons i is ih =>
    rw [List.foldl_cons, ih, updateIndicator_apply, List.filter_cons]
    by_cases h : lcdIndicatorMap.rd i ≠ .blank ∧ (indicatorOf i).y = y
    · rw [if_pos h, if_pos (decide_eq_true h), List.foldl_cons]
    · rw [if_neg h, if_neg (by simpa using h)]

/-- The indicators of a place: one of mode 0, or one of mode 1 and more of mode 2. -/
inductive SlotOrder (blank : SlotPicture) : List Nat → Prop
  | none : SlotOrder blank []
  | single {i : Nat} : (indicatorOf i).mode = 0 →
      blank = { tile := (displayIndicators .blank).tile, h := (indicatorOf i).rows } →
      SlotOrder blank [i]
  | shared {i : Nat} {is : List Nat} : (indicatorOf i).mode = 1 →
      blank = { tile := (displayIndicators .blank).tile, h := (indicatorOf i).rows } →
      (∀ j ∈ is, (indicatorOf j).mode = 2) → SlotOrder blank (i :: is)

/-- The indicators of the theme are in order. -/
theorem slotOrder (y : Int) : SlotOrder (blankSlot y) (slotMembers y) := by
  have hplace : ∀ i < 16, lcdIndicatorMap.rd i ≠ .blank →
      (∃ j ∈ List.range 16, slotMembers (indicatorOf i).y = [j] ∧ (indicatorOf j).mode = 0 ∧
        blankSlot (indicatorOf i).y =
          { tile := (displayIndicators .blank).tile, h := (indicatorOf j).rows }) ∨
      ∃ j ∈ List.range 16, (slotMembers (indicatorOf i).y).head? = some j ∧
        (indicatorOf j).mode = 1 ∧
        blankSlot (indicatorOf i).y =
          { tile := (displayIndicators .blank).tile, h := (indicatorOf j).rows } ∧
        ∀ k ∈ (slotMembers (indicatorOf i).y).tail, (indicatorOf k).mode = 2 := by
    decide +kernel
  cases hmembers : slotMembers y with
  | nil => exact .none
  | cons i is =>
    have hi : i ∈ slotMembers y := by
      rw [hmembers]
      exact List.mem_cons_self
    obtain ⟨hrange, hmem⟩ := List.mem_filter.mp hi
    obtain ⟨hblank, rfl⟩ := of_decide_eq_true hmem
    rcases hplace i (List.mem_range.mp hrange) hblank with
      ⟨j, -, hj, hmode, hpic⟩ | ⟨j, -, hj, hmode, hpic, htail⟩
    · rw [hmembers, List.cons.injEq] at hj
      obtain ⟨rfl, rfl⟩ := hj
      exact .single hmode hpic
    · rw [hmembers] at hj htail
      obtain rfl := Option.some.inj hj
      exact .shared hmode hpic htail

/-- Indicators of mode 2 are only drawn over what is there. -/
theorem foldl_slotStep_over (on was : Nat → Bool) {is : List Nat}
    (h : ∀ j ∈ is, (indicatorOf j).mode = 2) (pic : SlotPicture) :
    is.foldl (slotStep on was) pic = ((is.filter on).getLast?.map indicatorPicture).getD pic := by
  induction is generalizing pic with
  | nil => rfl
  | cons i is ih =>
    have hmode := h i List.mem_cons_self
    have hrest (j : Nat) (hj : j ∈ is) := h j (List.mem_cons_of_mem i hj)
    have hdrawn : ¬ (on i = was i ∧ (indicatorOf i).mode = 0) := by
      rw [hmode]
      exact fun h => absurd h.2 (by decide)
    rw [List.foldl_cons, ih hrest, slotStep, if_neg hdrawn]
    cases hon : on i with
    | true =>
      rw [if_pos rfl, List.filter_cons_of_pos hon, List.getLast?_cons]
      cases (is.filter on).getLast? with
      | none => rfl
      | some j => rfl
    | false =>
      rw [if_neg (by decide), if_pos hmode, List.filter_cons_of_neg (by rw [hon]; decide)]

/-- The loop leaves the picture of the annunciators that are active now. -/
theorem foldl_slotStep (on was : Nat → Bool) {is : List Nat} {blank pic : SlotPicture}
    (h : SlotOrder blank is)
    (hpic : pic = ((is.filter was).getLast?.map indicatorPicture).getD blank) :
    is.foldl (slotStep on was) pic = ((is.filter on).getLast?.map indicatorPicture).getD blank := by
  cases h with
  | none => exact hpic
  | @single i hmode hblank =>
    rw [List.foldl_cons, List.foldl_nil, slotStep]
    by_cases hsame : on i = was i
    · -- not drawn: the picture of the call before is still right
      rw [if_pos ⟨hsame, hmode⟩, hpic]
      simp only [List.filter_cons, List.filter_nil, hsame]
    · rw [if_neg fun h => hsame h.1]
      cases hon : on i with
      | true => simp [hon]
      | false => simp [hon, hmode, hblank]
  | @shared i is hmode hblank hover =>
    -- whatever was there, the first one is drawn over it, lit or blank
    have hdrawn : ¬ (on i = was i ∧ (indicatorOf i).mode = 0) := by
      rw [hmode]
      exact fun h => absurd h.2 (by decide)
    rw [List.foldl_cons, foldl_slotStep_over on was hover, slotStep, if_neg hdrawn]
    cases hon : on i with
    | true =>
      rw [if_pos rfl, List.filter_cons_of_pos hon, List.getLast?_cons]
      cases (is.filter on).getLast? with
      | none => rfl
      | some j => rfl
    | false =>
      rw [if_neg (by decide), if_neg (by rw [hmode]; decide), ← hblank,
        List.filter_cons_of_neg (by rw [hon]; decide)]

/-! ## A call, and a run -/

/-- The annunciator word is remembered. -/
theorem testBit_toUInt16 (flags : UInt32) {i : Nat} (hi : i < 16) :
    flags.toUInt16.toNat.testBit i = flags.toNat.testBit i := by
  rw [UInt32.toNat_toUInt16, Nat.testBit_mod_two_pow, decide_eq_true hi, Bool.true_and]

/-- Only the annunciators matter. -/
theorem slotShows_congr {on on' : Nat → Bool} (h : ∀ i < 16, on i = on' i) (y : Int) :
    slotShows on y = slotShows on' y := by
  have hfilter : (slotMembers y).filter on = (slotMembers y).filter on' := by
    apply List.filter_congr
    intro i hi
    exact h i (List.mem_range.mp (List.mem_of_mem_filter hi))
  rw [slotShows, slotShows, hfilter]

/-- A call redraws the frame buffer as a whole, and keeps it faithful. -/
theorem updateLayer_spec {l : Layer} (h : l.Faithful) (u : Update) :
    (updateLayer l u).fb = fullRedraw u ∧ (updateLayer l u).Faithful := by
  obtain ⟨hcells, -⟩ := foldl_updateCell u h (Nat.le_refl DISPLAY_COLS)
  obtain ⟨hslots, hstate⟩ := foldl_updateCell_slots u l (List.range DISPLAY_COLS)
  have hshows (y : Int) : (updateLayer l u).fb.slots y =
      slotShows (fun i => u.indFlags.toNat.testBit i) y := by
    simp only [updateLayer, hslots, hstate, foldl_updateIndicator]
    exact foldl_slotStep _ _ (slotOrder y) (h.slots y)
  have hdrawn (i : Nat) (hi : i < DISPLAY_COLS) :
      (updateLayer l u).displayState.rd i = u.newstate.rd i ∧
        (updateLayer l u).fb.cells.rd i = drawCell (u.newstate.rd i) (u.us i) := hcells i hi
  refine ⟨?_, ?_, ?_⟩
  · have hfb : (updateLayer l u).fb.cells = (fullRedraw u).cells := by
      apply CArray.ext_rd
      intro i hi
      rw [(hdrawn i hi).2, fullRedraw]
      simp [CArray.rd, hi]
    have hfs : (updateLayer l u).fb.slots = (fullRedraw u).slots := funext hshows
    calc (updateLayer l u).fb
        = ⟨(updateLayer l u).fb.cells, (updateLayer l u).fb.slots⟩ := rfl
      _ = fullRedraw u := by rw [hfb, hfs]
  · intro i hi hblink
    rw [(hdrawn i hi).1] at hblink ⊢
    rw [(hdrawn i hi).2, drawCell_of_not_blink hblink]
  · intro y
    rw [hshows]
    exact slotShows_congr (fun i hi => (testBit_toUInt16 u.indFlags hi).symm) y

theorem initLayer_faithful : initLayer.Faithful := by
  refine ⟨?_, ?_⟩
  · intro i hi _
    simp [initLayer, CArray.rd, hi]
  · intro y
    have hnone : (slotMembers y).filter (fun i => (0 : UInt16).toNat.testBit i) = [] := by simp
    simp only [slotShows, initLayer, hnone]
    rfl

/-- **The incremental redraw is a full redraw**: after any run of calls the frame
buffer shown is the one that the last call would draw from scratch. -/
theorem run_shows_fullRedraw (us : List Update) (u : Update) :
    (Machine.run updateDisplay initScreen (us ++ [u])).shown.fb = fullRedraw u := by
  have hstep : updateDisplay = SwapChain.step otherLayer updateLayer := rfl
  have hkeep (l : Layer) (u : Update) (h : l.Faithful) : (updateLayer l u).Faithful :=
    (updateLayer_spec h u).2
  have hshows (l : Layer) (u : Update) (h : l.Faithful) : (updateLayer l u).fb = fullRedraw u :=
    (updateLayer_spec h u).1
  have hinit (k : Fin 2) : (initScreen.buffers k).Faithful := initLayer_faithful
  rw [hstep]
  exact SwapChain.run_shows (Q := fun (u : Update) (l : Layer) => l.fb = fullRedraw u) hkeep hshows
    hinit us u

end LcdPico
