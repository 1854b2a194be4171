import LcdPico.ConfigJson

/-!
# The text of a mask (`bitmask_to_str`, `str_to_bitmask`)

The text of a mask is a list of runs of bits, with a comma between two runs. The loop
of `bitmask_to_str` writes a run when it has come to its end: what it has written so
far, and the run it is in, are the runs of the bits that it has been through
(`WritesRuns`). `str_to_bitmask` sets the bits of a run token by token.
-/

namespace LcdPico

variable {base : Nat}

/-! ## Runs of bits -/

/-- The text of the bits from the first number to the second. -/
def runText (base : Nat) (r : Nat × Nat) : CString :=
  if r.1 = r.2 then CText.utoa (r.1 + base)
  else CText.utoa (r.1 + base) ++ '-' :: CText.utoa (r.2 + base)

def runsText (base : Nat) (runs : List (Nat × Nat)) : CString :=
  List.intercalate [','] (runs.map (runText base))

/-- A bit is in one of the runs. -/
def InRuns (runs : List (Nat × Nat)) (j : Nat) : Prop := ∃ r ∈ runs, r.1 ≤ j ∧ j ≤ r.2

theorem inRuns_snoc (runs : List (Nat × Nat)) (r : Nat × Nat) (j : Nat) :
    InRuns (runs ++ [r]) j ↔ InRuns runs j ∨ r.1 ≤ j ∧ j ≤ r.2 := by
  simp [InRuns, or_and_right, exists_or]

theorem intercalate_snoc (sep : CString) {ls : List CString} (hne : ls ≠ []) (l : CString) :
    List.intercalate sep (ls ++ [l]) = List.intercalate sep ls ++ (sep ++ l) := by
  induction ls with
  | nil => exact absurd rfl hne
  | cons x ls ih =>
    cases ls with
    | nil => simp [List.intercalate_cons_cons, List.intercalate_singleton]
    | cons y ls =>
      have hrest := ih (List.cons_ne_nil _ _)
      rw [List.cons_append, List.cons_append, List.intercalate_cons_cons, ← List.cons_append,
        hrest, List.intercalate_cons_cons]
      simp

/-- One run more. -/
theorem runsText_snoc {runs : List (Nat × Nat)} (hne : runs ≠ []) (r : Nat × Nat) :
    runsText base (runs ++ [r]) = runsText base runs ++ ',' :: runText base r := by
  rw [runsText, List.map_append, List.map_singleton, intercalate_snoc _ (by simpa using hne)]
  rfl

/-- The last run gets longer. -/
theorem runsText_extend (runs : List (Nat × Nat)) {a b : Nat} (h : a < b) :
    runsText base (runs ++ [(a, b)]) =
      runsText base (runs ++ [(a, a)]) ++ '-' :: CText.utoa (b + base) := by
  have hone : runText base (a, a) = CText.utoa (a + base) := if_pos rfl
  have htwo : runText base (a, b) = CText.utoa (a + base) ++ '-' :: CText.utoa (b + base) :=
    if_neg (Nat.ne_of_lt h)
  rcases List.eq_nil_or_concat runs with rfl | ⟨rs, r, rfl⟩
  · simp [runsText, hone, htwo, List.intercalate_singleton]
  · have hne : rs.concat r ≠ [] := by simp
    rw [runsText_snoc hne, runsText_snoc hne, hone, htwo]
    simp

/-! ## What is written -/

/-- The variables of the loop, and the runs of the bits so far. -/
inductive WritesRuns (base : Nat) (range : Bool) : BitmaskText → List (Nat × Nat) → Prop where
  | start (prev : Int) (last : Nat) : WritesRuns base range ⟨[], 0, prev, last⟩ []
  | single (runs : List (Nat × Nat)) (a last : Nat) :
    WritesRuns base range ⟨runsText base (runs ++ [(a, a)]), 1, a, last⟩ (runs ++ [(a, a)])
  /-- the last run is not ended yet -/
  | run (runs : List (Nat × Nat)) {a b : Nat} (h : a < b) (hrange : range = true) :
    WritesRuns base range ⟨runsText base (runs ++ [(a, a)]), 2, b, b⟩ (runs ++ [(a, b)])

theorem length_utoa_le {n : Nat} (hn : n < 100) : (CText.utoa n).length ≤ 2 :=
  (Nat.length_toDigits_le_iff (by decide) (by decide)).mpr hn

/-- A text of which nothing is cut off. -/
theorem strncopy_of_length_lt {s : CString} {size : Nat} (h : s.length < size) :
    CText.strncopy s size = s := List.take_of_length_le (by omega)

/-- All runs end before a bit. -/
def RunsBelow (runs : List (Nat × Nat)) (i : Nat) : Prop := ∀ r ∈ runs, r.1 ≤ r.2 ∧ r.2 < i

theorem RunsBelow.snoc {runs : List (Nat × Nat)} {i : Nat} (h : RunsBelow runs i) {a b : Nat}
    (hab : a ≤ b) (hb : b < i) : RunsBelow (runs ++ [(a, b)]) i := by
  intro r hr
  rcases List.mem_append.mp hr with hr | hr
  · exact h r hr
  · obtain rfl := List.mem_singleton.mp hr
    exact ⟨hab, hb⟩

theorem RunsBelow.init {runs : List (Nat × Nat)} {r : Nat × Nat} {i k : Nat}
    (h : RunsBelow (runs ++ [r]) i) (hik : i ≤ k) :
    RunsBelow runs k ∧ r.1 ≤ r.2 ∧ r.2 < i := by
  refine ⟨?_, h r (List.mem_append_right _ (List.mem_singleton_self r))⟩
  intro q hq
  obtain ⟨hle, hlt⟩ := h q (List.mem_append_left _ hq)
  exact ⟨hle, Nat.lt_of_lt_of_le hlt hik⟩

theorem RunsBelow.mono {runs : List (Nat × Nat)} {i k : Nat} (h : RunsBelow runs i)
    (hik : i ≤ k) : RunsBelow runs k := fun r hr =>
  ⟨(h r hr).1, Nat.lt_of_lt_of_le (h r hr).2 hik⟩

/-- A bit that is set is in the runs from then on, and no other bit is new. -/
theorem WritesRuns.bit {range : Bool} {t : BitmaskText} {runs : List (Nat × Nat)} {mask i : Nat}
    (h : WritesRuns base range t runs) (hi : i + base < 100) (hbit : mask.testBit i = true)
    (hbelow : RunsBelow runs i) :
    ∃ runs', WritesRuns base range (bitmaskBit mask base range t i) runs' ∧
      RunsBelow runs' (i + 1) ∧ ∀ j, InRuns runs' j ↔ InRuns runs j ∨ j = i := by
  have hnum := length_utoa_le hi
  have hii : ∀ j, i ≤ j ∧ j ≤ i ↔ j = i := by omega
  cases h with
  | start prev last =>
    refine ⟨[] ++ [(i, i)], ?_, hbelow.mono (Nat.le_succ i) |>.snoc (Nat.le_refl i)
      (Nat.lt_succ_self i), ?_⟩
    · have htext : CText.strncopy (CText.utoa (i + base)) 3 = CText.utoa (i + base) :=
        strncopy_of_length_lt (by omega)
      have hrun : runsText base ([] ++ [(i, i)]) = CText.utoa (i + base) := by
        simp [runsText, runText, List.intercalate_singleton]
      have hsingle := @WritesRuns.single base range [] i last
      rw [hrun] at hsingle
      simp only [bitmaskBit, hbit, if_true, htext, List.nil_append]
      exact hsingle
    · intro j
      rw [inRuns_snoc, hii]
  | single runs a last =>
    obtain ⟨hruns, -, ha⟩ := hbelow.init (Nat.le_succ i)
    by_cases hnext : range = true ∧ (i : Int) - a = 1
    · -- the bit before it starts a run of several
      obtain ⟨hrange, hdiff⟩ := hnext
      refine ⟨runs ++ [(a, i)], ?_, hruns.snoc (Nat.le_of_lt ha) (Nat.lt_succ_self i), ?_⟩
      · simp only [bitmaskBit, hbit, if_true, hrange, hdiff, decide_true, Bool.and_true]
        exact WritesRuns.run runs ha rfl
      · intro j
        rw [inRuns_snoc, inRuns_snoc, or_assoc]
        apply or_congr_right
        simp only
        omega
    · have hcond : (range && decide ((i : Int) - a = 1)) = false := by simpa using hnext
      have htext : CText.strncopy (',' :: CText.utoa (i + base)) 4 =
          ',' :: CText.utoa (i + base) := by
        apply strncopy_of_length_lt
        rw [List.length_cons]
        omega
      have hone : runText base (i, i) = CText.utoa (i + base) := if_pos rfl
      refine ⟨(runs ++ [(a, a)]) ++ [(i, i)], ?_,
        (hbelow.mono (Nat.le_succ i)).snoc (Nat.le_refl i) (Nat.lt_succ_self i), ?_⟩
      · have hsingle := @WritesRuns.single base range (runs ++ [(a, a)]) i last
        rw [runsText_snoc (by simp), hone] at hsingle
        simp only [bitmaskBit, hbit, if_true, hcond, Bool.false_eq_true, if_false, htext]
        exact hsingle
      · intro j
        rw [inRuns_snoc, hii]
  | @run runs a b hab hrange =>
    obtain ⟨hruns, -, hb⟩ := hbelow.init (Nat.le_succ i)
    simp only at hb
    by_cases hnext : (i : Int) - b = 1
    · -- the run goes on
      have hai : a < i := Nat.lt_trans hab hb
      refine ⟨runs ++ [(a, i)], ?_, hruns.snoc (Nat.le_of_lt hai) (Nat.lt_succ_self i), ?_⟩
      · simp only [bitmaskBit, hbit, if_true, hnext, decide_true]
        exact WritesRuns.run runs hai hrange
      · intro j
        rw [inRuns_snoc, inRuns_snoc, or_assoc]
        apply or_congr_right
        simp only
        omega
    · have hnumb : (CText.utoa (b + base)).length ≤ 2 := length_utoa_le (by omega)
      have htext : CText.strncopy ('-' :: CText.utoa (b + base) ++ ',' :: CText.utoa (i + base)) 7 =
          '-' :: CText.utoa (b + base) ++ ',' :: CText.utoa (i + base) := by
        apply strncopy_of_length_lt
        simp only [List.length_append, List.length_cons]
        omega
      have hone : runText base (i, i) = CText.utoa (i + base) := if_pos rfl
      refine ⟨(runs ++ [(a, b)]) ++ [(i, i)], ?_,
        (hbelow.mono (Nat.le_succ i)).snoc (Nat.le_refl i) (Nat.lt_succ_self i), ?_⟩
      · have hsingle := @WritesRuns.single base range (runs ++ [(a, b)]) i b
        rw [runsText_snoc (by simp), hone, runsText_extend runs hab, List.append_assoc] at hsingle
        simp only [bitmaskBit, hbit, if_true, hnext, decide_false, Bool.false_eq_true, if_false,
          htext]
        exact hsingle
      · intro j
        rw [inRuns_snoc, hii]

/-- The loop up to a bit has written the runs of the bits below. -/
theorem writesRuns_range (mask : Nat) (range : Bool) {n : Nat} (hn : n + base ≤ 100) :
    ∃ runs, WritesRuns base range ((List.range n).foldl (bitmaskBit mask base range)
        { buf := [], state := 0, prev := -2, last := 0 }) runs ∧
      RunsBelow runs n ∧ ∀ j, InRuns runs j ↔ j < n ∧ mask.testBit j = true := by
  induction n with
  | zero =>
    refine ⟨[], WritesRuns.start _ _, fun r hr => absurd hr List.not_mem_nil, ?_⟩
    intro j
    simp [InRuns]
  | succ n ih =>
    obtain ⟨runs, hwrites, hbelow, hin⟩ := ih (by omega)
    rw [List.range_succ, List.foldl_append, List.foldl_cons, List.foldl_nil]
    cases hbit : mask.testBit n with
    | false =>
      refine ⟨runs, ?_, hbelow.mono (Nat.le_succ n), ?_⟩
      · rw [bitmaskBit, hbit]
        exact hwrites
      · intro j
        rw [hin, Nat.lt_succ_iff_lt_or_eq]
        constructor
        · exact fun h => ⟨Or.inl h.1, h.2⟩
        · rintro ⟨hlt | rfl, hj⟩
          · exact ⟨hlt, hj⟩
          · rw [hbit] at hj
            cases hj
    | true =>
      obtain ⟨runs', hwrites', hbelow', hin'⟩ := hwrites.bit (by omega) hbit hbelow
      refine ⟨runs', hwrites', hbelow', ?_⟩
      intro j
      rw [hin', hin, Nat.lt_succ_iff_lt_or_eq]
      constructor
      · rintro (h | rfl)
        · exact ⟨Or.inl h.1, h.2⟩
        · exact ⟨Or.inr rfl, hbit⟩
      · rintro ⟨hlt | rfl, hj⟩
        · exact Or.inl ⟨hlt, hj⟩
        · exact Or.inr rfl

/-- The end of the text: a run that is not ended yet. -/
theorem WritesRuns.text {range : Bool} {t : BitmaskText} {runs : List (Nat × Nat)} {n : Nat}
    (h : WritesRuns base range t runs) (hbelow : RunsBelow runs n) (hn : n + base ≤ 100) :
    (if range ∧ t.state = 2 then t.buf ++ CText.strncopy ('-' :: CText.utoa (t.last + base)) 12
      else t.buf) = runsText base runs := by
  cases h with
  | start prev last => simp [runsText, List.intercalate_nil]
  | single runs a last => simp
  | @run runs a b hab hrange =>
    obtain ⟨-, -, hb⟩ := hbelow.init (Nat.le_refl n)
    have hnum : (CText.utoa (b + base)).length ≤ 2 := length_utoa_le (by simp only at hb; omega)
    have htext :
        CText.strncopy ('-' :: CText.utoa (b + base)) 12 = '-' :: CText.utoa (b + base) := by
      apply strncopy_of_length_lt
      rw [List.length_cons]
      omega
    rw [runsText_extend runs hab, if_pos ⟨hrange, rfl⟩, htext]

/-! ## What is read -/

/-- Bits that are set one after the other. -/
theorem testBit_foldl_or (f : Nat → Nat) (n mask j : Nat) :
    ((List.range n).foldl (fun m i => m ||| 1 <<< f i) mask).testBit j =
      (mask.testBit j || decide (∃ i < n, f i = j)) := by
  induction n with
  | zero => simp
  | succ n ih =>
    rw [List.range_succ, List.foldl_append, List.foldl_cons, List.foldl_nil, Nat.testBit_or, ih,
      Nat.one_shiftLeft, Nat.testBit_two_pow, Bool.or_assoc]
    congr 1
    rw [← Bool.decide_or]
    apply decide_eq_decide.mpr
    simp only [Nat.lt_succ_iff_lt_or_eq, or_and_right, exists_or, exists_eq_left]

theorem notMem_utoa {c : Char} (hc : c.isDigit = false) (n : Nat) : c ∉ CText.utoa n := by
  intro hmem
  rw [CText.isDigit_of_mem_utoa hmem] at hc
  cases hc

/-- The numbers of a run. -/
theorem tokens_runText (r : Nat × Nat) :
    CText.tokens (CText.isChar '-') (runText base r) =
      if r.1 = r.2 then [CText.utoa (r.1 + base)]
      else [CText.utoa (r.1 + base), CText.utoa (r.2 + base)] := by
  have hword : ∀ n, CText.utoa n ≠ [] ∧ '-' ∉ CText.utoa n := fun n =>
    ⟨CText.utoa_ne_nil n, notMem_utoa rfl n⟩
  rw [runText]
  split_ifs with hr
  · have hone : ∀ w ∈ [CText.utoa (r.1 + base)], w ≠ [] ∧ '-' ∉ w := by simpa using hword _
    have h := CText.tokens_intercalate hone (List.cons_ne_nil _ _)
    rwa [List.intercalate_singleton] at h
  · have htwo : ∀ w ∈ [CText.utoa (r.1 + base), CText.utoa (r.2 + base)], w ≠ [] ∧ '-' ∉ w := by
      simpa using ⟨hword _, hword _⟩
    have h := CText.tokens_intercalate htwo (List.cons_ne_nil _ _)
    rwa [List.intercalate_cons_cons, List.intercalate_singleton, List.append_assoc] at h

/-- A run is read as its bits. -/
theorem bitmaskToken_testBit {len a b : Nat} (hab : a ≤ b) (hb : b < len) (hbase : len + base ≤ 100)
    (mask j : Nat) :
    (bitmaskToken len base mask (runText base (a, b))).testBit j =
      (mask.testBit j || decide (a ≤ j ∧ j ≤ b)) := by
  have hread (n : Nat) (hn : n < len) :
      strToInt (CText.utoa (n + base)) 10 = some ((n + base : Nat) : Int) :=
    strToInt_utoa (by omega)
  have hsub (n : Nat) : ((n + base : Nat) : Int) - base = n := by omega
  have hfirst : (0 : Int) ≤ a ∧ (a : Int) < len := by omega
  rw [bitmaskToken, tokens_runText]
  by_cases hr : a = b
  · subst hr
    have hone : a ≤ j ∧ j ≤ a ↔ a = j := by omega
    simp only [if_true, List.getElem?_cons_zero, List.getElem?_cons_succ, List.getElem?_nil,
      Option.bind_some, Option.bind_none, hread a hb, hsub, hfirst, and_self, Int.toNat_natCast,
      Nat.one_shiftLeft, Nat.testBit_or, Nat.testBit_two_pow, hone]
  · have hlt : (b : Int) > a ∧ (b : Int) < len := by omega
    have hidx (i : Nat) : ((a : Int) + 1 + (i : Int)).toNat = a + 1 + i := by omega
    have hmore : (∃ i < ((b : Int) - a).toNat, a + 1 + i = j) ↔ a < j ∧ j ≤ b := by
      constructor
      · rintro ⟨i, hi, rfl⟩
        omega
      · rintro ⟨hj, hjb⟩
        exact ⟨j - (a + 1), by omega, by omega⟩
    simp only [hr, if_false, List.getElem?_cons_zero, List.getElem?_cons_succ, Option.bind_some,
      hread a (by omega), hread b hb, hsub, hfirst, hlt, and_self, if_true, Int.toNat_natCast, hidx]
    rw [testBit_foldl_or fun i => a + 1 + i]
    simp only [hmore, Nat.one_shiftLeft, Nat.testBit_or, Nat.testBit_two_pow]
    rw [Bool.or_assoc, ← Bool.decide_or]
    congr 1
    apply decide_eq_decide.mpr
    omega

/-- The runs of a text are read as their bits. -/
theorem foldl_bitmaskToken_testBit {len : Nat} {runs : List (Nat × Nat)}
    (hruns : RunsBelow runs len) (hbase : len + base ≤ 100) (mask j : Nat) :
    ((runs.map (runText base)).foldl (bitmaskToken len base) mask).testBit j = true ↔
      mask.testBit j = true ∨ InRuns runs j := by
  induction runs generalizing mask with
  | nil => simp [InRuns]
  | cons r runs ih =>
    obtain ⟨a, b⟩ := r
    obtain ⟨hab, hb⟩ := hruns (a, b) (List.mem_cons_self ..)
    have hrest : RunsBelow runs len := fun q hq => hruns q (List.mem_cons_of_mem _ hq)
    rw [List.map_cons, List.foldl_cons, ih hrest, bitmaskToken_testBit hab hb hbase]
    simp [InRuns, or_assoc]

theorem runText_word {c : Char} (hc : c.isDigit = false) (hminus : c ≠ '-') (r : Nat × Nat) :
    runText base r ≠ [] ∧ c ∉ runText base r := by
  rw [runText]
  split_ifs with hr
  · exact ⟨CText.utoa_ne_nil _, notMem_utoa hc _⟩
  · refine ⟨by simp, ?_⟩
    rw [List.mem_append, List.mem_cons, not_or, not_or]
    exact ⟨notMem_utoa hc _, hminus, notMem_utoa hc _⟩

theorem tokens_runsText (runs : List (Nat × Nat)) :
    CText.tokens (CText.isChar ',') (runsText base runs) = runs.map (runText base) := by
  cases runs with
  | nil => simp [runsText, List.intercalate_nil]
  | cons r runs =>
    apply CText.tokens_intercalate
    · intro w hw
      obtain ⟨q, -, rfl⟩ := List.mem_map.mp hw
      exact runText_word rfl (by decide) q
    · simp

/-- No text of runs is the asterisk. -/
theorem runsText_not_star (runs : List (Nat × Nat)) :
    CText.strneq (runsText base runs) "*".toList 2 = false := by
  rw [CText.strneq, beq_eq_false_iff_ne]
  intro htake
  have hlen : (runsText base runs).length ≤ 2 := by
    have h := congrArg List.length htake
    rw [List.length_take] at h
    have hone : ("*".toList.take 2).length = 1 := rfl
    omega
  rw [List.take_of_length_le hlen] at htake
  have htokens := @tokens_runsText base runs
  rw [htake] at htokens
  have hmem : ['*'] ∈ runs.map (runText base) := by
    rw [← htokens]
    decide
  obtain ⟨r, -, hr⟩ := List.mem_map.mp hmem
  exact (runText_word (c := '*') rfl (by decide) r).2 (hr ▸ List.mem_singleton_self '*')

/-- Every mask is read back from its text. -/
theorem strToBitmask_bitmaskToStr {mask len : Nat} (hlen : 1 ≤ len) (hlen' : len ≤ 31)
    (hbase : base + len ≤ 100) (hmask : mask < 2 ^ len) (range : Bool) :
    strToBitmask (bitmaskToStr mask len base range) len base = some mask := by
  have hin : ¬(len < 1 ∨ len > 32) := by omega
  rw [bitmaskToStr, if_neg hin]
  by_cases hstar : range = false ∧ mask = 1 <<< len - 1
  · rw [if_pos hstar, hstar.2, strToBitmask, if_neg hin]
    rfl
  · have hnum : len + base ≤ 100 := by omega
    obtain ⟨runs, hwrites, hbelow, hbits⟩ := writesRuns_range mask range hnum
    rw [if_neg hstar]
    simp only
    rw [hwrites.text hbelow hnum, strToBitmask, if_neg hin, runsText_not_star]
    simp only [Bool.false_eq_true, if_false]
    rw [tokens_runsText]
    congr 1
    apply Nat.eq_of_testBit_eq
    intro j
    apply Bool.eq_iff_iff.mpr
    rw [foldl_bitmaskToken_testBit hbelow hnum, hbits, Nat.zero_testBit]
    constructor
    · rintro (h | h)
      · cases h
      · exact h.2
    · intro hj
      refine Or.inr ⟨?_, hj⟩
      by_contra hle
      have hpow := Nat.pow_le_pow_right (by decide : 0 < 2) (Nat.not_lt.mp hle)
      rw [Nat.testBit_lt_two_pow (Nat.lt_of_lt_of_le hmask hpow)] at hj
      cases hj

/-! ## The buffer -/

/-- The size of `buf`. -/
def bitmaskBufSize : Nat := 96 + 16

/-- `snprintf(s, n, ..)` behind the text so far, stuck outside `buf`: the text with what
is written of `str`. -/
def bitmaskPrint? (buf : CString) (n : Nat) (str : CString) : Option CString :=
  if buf.length + min n (str.length + 1) ≤ bitmaskBufSize then
    some (buf ++ CText.strncopy str n)
  else none

/-- `bitmaskBit`, with its writes checked. -/
def bitmaskBit? (mask base : Nat) (range : Bool) (t : BitmaskText) (i : Nat) :
    Option BitmaskText :=
  if mask.testBit i then do
    let consecutive : Bool := (i : Int) - t.prev = 1
    let t ←
      match t.state with
      | 0 => do
        let buf ← bitmaskPrint? t.buf 3 (CText.utoa (i + base))
        some { t with buf := buf, state := 1 }
      | 1 =>
        if range && consecutive then some { t with last := i, state := 2 }
        else do
          let buf ← bitmaskPrint? t.buf 4 (',' :: CText.utoa (i + base))
          some { t with buf := buf }
      | _ =>
        if consecutive then some { t with last := i }
        else do
          let buf ← bitmaskPrint? t.buf 7
            ('-' :: CText.utoa (t.last + base) ++ ',' :: CText.utoa (i + base))
          some { t with buf := buf, state := 1 }
    some { t with prev := i }
  else some t

/-- `bitmaskToStr`, with its writes checked. -/
def bitmaskToStr? (mask len base : Nat) (range : Bool) : Option CString :=
  if len < 1 ∨ len > 32 then some []
  else if range = false ∧ mask = 1 <<< len - 1 then some ['*']
  else do
    let t ← (List.range len).foldlM (bitmaskBit? mask base range)
      { buf := [], state := 0, prev := -2, last := 0 }
    if range ∧ t.state = 2 then bitmaskPrint? t.buf 12 ('-' :: CText.utoa (t.last + base))
    else some t.buf

/-- A bit takes three characters at most; in state 2 those of the last bit are not
written yet. -/
def BitmaskRoom (t : BitmaskText) (n : Nat) : Prop :=
  t.buf.length ≤ 3 * n ∧ (t.state ≠ 0 → t.state ≠ 1 → t.buf.length + 3 ≤ 3 * n)

theorem bitmaskPrint?_eq {buf str : CString} {n : Nat} (h : buf.length + n ≤ bitmaskBufSize) :
    bitmaskPrint? buf n str = some (buf ++ CText.strncopy str n) := by
  have hmin : buf.length + min n (str.length + 1) ≤ bitmaskBufSize := by omega
  exact if_pos hmin

theorem length_strncopy_le (s : CString) (n : Nat) : (CText.strncopy s n).length ≤ n - 1 :=
  List.length_take_le _ _

theorem bitmaskBit?_eq {t : BitmaskText} {i : Nat} (h : BitmaskRoom t i) (hi : i < 32)
    (mask base : Nat) (range : Bool) :
    bitmaskBit? mask base range t i = some (bitmaskBit mask base range t i) ∧
      BitmaskRoom (bitmaskBit mask base range t i) (i + 1) := by
  obtain ⟨buf, state, prev, last⟩ := t
  obtain ⟨hroom, htwo⟩ := h
  simp only at hroom htwo
  rw [bitmaskBit?, bitmaskBit]
  cases mask.testBit i with
  | false =>
    refine ⟨rfl, ?_, fun h0 h1 => ?_⟩
    · simp only [Bool.false_eq_true, if_false]
      omega
    · have hlast := htwo h0 h1
      simp only [Bool.false_eq_true, if_false]
      omega
  | true =>
    simp only [if_true]
    obtain _ | _ | state := state
    · have hfit : buf.length + 3 ≤ bitmaskBufSize := by
        rw [bitmaskBufSize]
        omega
      have hlen := length_strncopy_le (CText.utoa (i + base)) 3
      refine ⟨by rw [bitmaskPrint?_eq hfit]; rfl, ?_, fun _ h1 => absurd rfl h1⟩
      simp only [List.length_append]
      omega
    · by_cases hnext : (range && decide ((i : Int) - prev = 1)) = true
      · simp only [hnext, if_true]
        refine ⟨rfl, ?_, fun _ _ => ?_⟩
        · simp only
          omega
        · simp only
          omega
      · have hfit : buf.length + 4 ≤ bitmaskBufSize := by
          rw [bitmaskBufSize]
          omega
        have hlen := length_strncopy_le (',' :: CText.utoa (i + base)) 4
        simp only [hnext, Bool.false_eq_true, if_false]
        refine ⟨by rw [bitmaskPrint?_eq hfit]; rfl, ?_, fun _ h1 => absurd rfl h1⟩
        simp only [List.length_append]
        omega
    · have hlast := htwo (by omega) (by omega)
      by_cases hnext : decide ((i : Int) - prev = 1) = true
      · simp only [hnext, if_true]
        refine ⟨rfl, ?_, fun _ _ => ?_⟩
        · simp only
          omega
        · simp only
          omega
      · have hfit : buf.length + 7 ≤ bitmaskBufSize := by
          rw [bitmaskBufSize]
          omega
        have hlen := length_strncopy_le
          ('-' :: CText.utoa (last + base) ++ ',' :: CText.utoa (i + base)) 7
        simp only [hnext, Bool.false_eq_true, if_false]
        refine ⟨by rw [bitmaskPrint?_eq hfit]; rfl, ?_, fun _ h1 => absurd rfl h1⟩
        simp only [List.length_append] at hlen ⊢
        omega

theorem bitmaskLoop?_eq (mask base : Nat) (range : Bool) {n : Nat} (hn : n ≤ 32) :
    let start : BitmaskText := { buf := [], state := 0, prev := -2, last := 0 }
    let t := (List.range n).foldl (bitmaskBit mask base range) start
    (List.range n).foldlM (bitmaskBit? mask base range) start = some t ∧ BitmaskRoom t n := by
  intro start
  induction n with
  | zero => exact ⟨rfl, Nat.le_refl 0, fun h0 => absurd rfl h0⟩
  | succ n ih =>
    obtain ⟨hloop, hroom⟩ := ih (by omega)
    obtain ⟨hbit, hroom'⟩ := bitmaskBit?_eq hroom (by omega) mask base range
    rw [List.range_succ, List.foldlM_append, List.foldl_append, hloop]
    refine ⟨?_, hroom'⟩
    rw [Option.bind_eq_bind, Option.bind_some, List.foldlM_cons, hbit]
    rfl

/-- No write goes outside of `buf`. -/
theorem bitmaskToStr?_eq (mask len base : Nat) (range : Bool) :
    bitmaskToStr? mask len base range = some (bitmaskToStr mask len base range) := by
  rw [bitmaskToStr?, bitmaskToStr]
  by_cases hlen : len < 1 ∨ len > 32
  · rw [if_pos hlen, if_pos hlen]
  · rw [if_neg hlen, if_neg hlen]
    by_cases hstar : range = false ∧ mask = 1 <<< len - 1
    · rw [if_pos hstar, if_pos hstar]
    · rw [if_neg hstar, if_neg hstar]
      obtain ⟨hloop, hroom, -⟩ := bitmaskLoop?_eq mask base range (by omega : len ≤ 32)
      have hfit : ((List.range len).foldl (bitmaskBit mask base range)
          { buf := [], state := 0, prev := -2, last := 0 }).buf.length + 12 ≤ bitmaskBufSize := by
        rw [bitmaskBufSize]
        omega
      rw [hloop, Option.bind_eq_bind, Option.bind_some, bitmaskPrint?_eq hfit]
      exact (apply_ite some _ _ _).symm

/-! ## Main result -/

/-- Every mask of up to 31 bits is read back from its text, and no write on the way
goes outside of the buffer. -/
theorem bitmask_text_round_trip {mask len : Nat} (hlen : 1 ≤ len) (hlen' : len ≤ 31)
    (hbase : base + len ≤ 100) (hmask : mask < 2 ^ len) (range : Bool) :
    strToBitmask (bitmaskToStr mask len base range) len base = some mask ∧
      bitmaskToStr? mask len base range = some (bitmaskToStr mask len base range) :=
  ⟨strToBitmask_bitmaskToStr hlen hlen' hbase hmask range, bitmaskToStr?_eq mask len base range⟩

theorem bitmask_text_round_trip_runs :
    strToBitmask (bitmaskToStr 0b1101110 8 1 true) 8 1 = some 0b1101110 ∧
      bitmaskToStr? 0b1101110 8 1 true = some (bitmaskToStr 0b1101110 8 1 true) :=
  bitmask_text_round_trip (by decide) (by decide) (by decide) (by decide) true

end LcdPico
