import LcdPico.AccessList
import LcdPico.SaveReload

/-!
# Access lists survive printing, saving and reloading

An access list is set by a command (`acl_list_change`), printed by its query, and saved and
reloaded with the configuration (`acllist2json`, `json2acllist`). These treat
entries without a prefix differently: the command stops at one, so does the query
except at the first entry, the writer leaves them out, and the reader takes what
it finds. They agree on the tables that can arise, in which no network comes
after an entry without a prefix (`Ended`): each of them keeps the networks, and the
networks decide (`allowConnectionCb_congr`).
-/

namespace LcdPico

variable {F D : Type} {P : Platform F D}

/-! ## The text of a table -/

/-- What is printed of an entry. -/
def aclText (P : Platform F D) (acl : AclEntry) : CString :=
  P.ipaddrNtoa acl.ip ++ '/' :: CText.utoa acl.prefixLen.toNat

/-- What the query of `acl_list_change` prints from the second entry on. -/
def aclRestText (P : Platform F D) : List AclEntry → CString
  | [] => []
  | acl :: acls =>
    if acl.prefixLen = 0 then []
    else ", ".toList ++ aclText P acl ++ aclRestText P acls

/-- What the query of `acl_list_change` prints, before the end of the line. -/
def aclListText (P : Platform F D) {n : Nat} (acl : CArray AclEntry n) : CString :=
  match acl.toList with
  | [] => []
  | acl :: acls => aclText P acl ++ aclRestText P acls

/-- `clear_config`, then `json2acllist` of what `acllist2json` saves, if anything. -/
def reloadAcls (P : Platform F D) {n : Nat} (list : CArray AclEntry n) : CArray AclEntry n :=
  match acllist2json P list with
  | some ref => json2acllist P ref n
  | none => Vector.replicate n default

/-- The tables that arise: cleared ones, those that commands change, and those that are
loaded from something saved. -/
inductive AclReachable (P : Platform F D) {n : Nat} : CArray AclEntry n → Prop
  | cleared : AclReachable P (Vector.replicate n default)
  | changed {acl : CArray AclEntry n} (call : Call) :
      AclReachable P acl → AclReachable P (aclListChange call P acl).2
  | loaded {m : Nat} (saved : CArray AclEntry m) {ref : Json D} :
      acllist2json P saved = some ref → AclReachable P (json2acllist P ref n)

/-! ## Networks decide -/

/-- The entries in use. -/
def networks (acls : List AclEntry) : List AclEntry := acls.filter fun e => e.prefixLen > 0

/-- Entries that are not in use do not change the run of the loop. -/
theorem aclLoop_networks (src : IpAddr) (acls : List AclEntry) (aclcount : Nat) :
    aclLoop src (networks acls) aclcount = aclLoop src acls aclcount := by
  induction acls generalizing aclcount with
  | nil => rfl
  | cons e acls ih =>
    by_cases hpos : e.prefixLen > 0
    · have hkeep : networks (e :: acls) = e :: networks acls :=
        List.filter_cons_of_pos (decide_eq_true hpos)
      rw [hkeep, aclLoop, aclLoop, if_pos hpos, if_pos hpos, ih]
    · have hskip : networks (e :: acls) = networks acls :=
        List.filter_cons_of_neg (by simpa using hpos)
      rw [hskip, aclLoop, if_neg hpos, ih]

/-- Tables of the same networks decide alike. -/
theorem allowConnectionCb_congr {m n : Nat} {acls : CArray AclEntry m} {acls' : CArray AclEntry n}
    (h : networks acls.toList = networks acls'.toList) (src : Option IpAddr) :
    allowConnectionCb acls src = allowConnectionCb acls' src := by
  cases src with
  | none => rfl
  | some src => rw [allowConnectionCb, allowConnectionCb, ← aclLoop_networks, h, aclLoop_networks]

/-! ## Tables filled from the front -/

theorem toList_fill {α : Type} {n : Nat} (blank : α) (l : List α) :
    (CArray.fill blank l : CArray α n).toList =
      l.take n ++ List.replicate (n - l.length) blank := by
  apply List.ext_getElem
  · simp only [Vector.length_toList, List.length_append, List.length_take, List.length_replicate]
    omega
  · intro i hi _
    have hin : i < n := by rwa [Vector.length_toList] at hi
    rw [Vector.getElem_toList, CArray.getElem_fill, List.getElem_append]
    split_ifs with h
    · rw [List.length_take] at h
      rw [List.getElem_take, List.getD_eq_getElem _ _ (by omega)]
    · rw [List.length_take] at h
      rw [List.getElem_replicate, List.getD_eq_default _ _ (by omega)]

/-- The entries from the first one without a prefix on have none. -/
def Ended (acls : List AclEntry) : Prop :=
  acls.Pairwise fun e e' => e.prefixLen = 0 → e'.prefixLen = 0

theorem networks_fill {n : Nat} (l : List AclEntry) :
    networks (CArray.fill default l : CArray AclEntry n).toList = networks (l.take n) := by
  have hblank : networks (List.replicate (n - l.length) default) = [] := by
    rw [networks, List.filter_replicate]
    rfl
  rw [toList_fill, networks, List.filter_append]
  exact (congrArg _ hblank).trans (List.append_nil _)

theorem Ended.fill {n : Nat} {l : List AclEntry} (h : Ended l) :
    Ended (CArray.fill default l : CArray AclEntry n).toList := by
  rw [toList_fill, Ended, List.pairwise_append]
  refine ⟨h.sublist (List.take_sublist _ _), ?_, ?_⟩
  · exact List.pairwise_replicate.mpr (.inr fun _ => rfl)
  · intro e _ e' he' _
    rw [List.eq_of_mem_replicate he']
    rfl

theorem ended_of_pos {l : List AclEntry} (h : ∀ e ∈ l, e.prefixLen > 0) : Ended l :=
  List.Pairwise.imp_of_mem (fun he _ _ hzero => absurd (hzero ▸ h _ he) (by decide))
    (List.pairwise_of_forall (R := fun _ _ => True) fun _ _ => trivial)

/-! ## The command -/

/-- The elements up to the first that `isLast`. -/
def upToLast {α : Type} (isLast : α → Bool) : List α → List α
  | [] => []
  | x :: l => if isLast x then [x] else x :: upToLast isLast l

theorem upToLast_isPrefix {α : Type} (isLast : α → Bool) (l : List α) :
    upToLast isLast l <+: l := by
  induction l with
  | nil => exact List.prefix_rfl
  | cons x l ih =>
    rw [upToLast]
    split_ifs
    · exact List.cons_prefix_cons.mpr ⟨rfl, List.nil_prefix⟩
    · exact List.cons_prefix_cons.mpr ⟨rfl, ih⟩

/-- Nothing is cut off where nothing is last. -/
theorem upToLast_eq_self {α : Type} {isLast : α → Bool} {l : List α}
    (h : ∀ x ∈ l, isLast x = false) : upToLast isLast l = l := by
  induction l with
  | nil => rfl
  | cons x l ih =>
    have hx : isLast x = false := h x (List.mem_cons_self ..)
    rw [upToLast, hx, ih fun y hy => h y (List.mem_cons_of_mem _ hy)]
    rfl

/-- What the tokens of a list stand for. -/
def listed {α : Type} (parse : CString → Option α) (toks : List CString) : List α :=
  toks.filterMap fun t => parse (CText.trim t)

section Loop

variable {α : Type} {n : Nat} (parse : CString → Option α) (isLast : α → Bool)

theorem getElem_zeroFrom (a : CArray α n) (idx : Nat) (zero : α) {i : Nat} (hi : i < n) :
    (zeroFrom a idx zero)[i] = if i ≥ idx then zero else a[i] := by
  rw [zeroFrom, Vector.getElem_ofFn]
  rfl

theorem zeroFrom_zero (list : CArray α n) (zero : α) :
    zeroFrom list 0 zero = CArray.fill zero [] := by
  apply Vector.ext
  intro i hi
  rw [getElem_zeroFrom, if_pos (Nat.zero_le i), CArray.getElem_fill, List.getD_nil]

/-- An element behind those that are kept is kept, too. -/
theorem zeroFrom_wr (list : CArray α n) (zero x : α) (idx : Nat) :
    zeroFrom (list.wr idx x) (idx + 1) zero = (zeroFrom list idx zero).wr idx x := by
  apply Vector.ext
  intro i hi
  rw [getElem_zeroFrom]
  simp only [CArray.wr, Vector.getElem_setIfInBounds]
  rw [getElem_zeroFrom]
  by_cases h : idx = i
  · rw [if_pos h, if_pos h, if_neg (by omega)]
  · rw [if_neg h, if_neg h]
    split_ifs <;> first | rfl | omega

/-- The loop writes what is listed, up to the last, behind what it has written. -/
theorem listLoop_eq (zero : α) (toks : List CString) {list : CArray α n} {l : List α}
    (hl : zeroFrom list l.length zero = CArray.fill zero l) :
    zeroFrom (listLoop parse isLast toks list l.length).1
        (listLoop parse isLast toks list l.length).2 zero =
      CArray.fill zero (l ++ upToLast isLast (listed parse toks)) := by
  -- what is listed so far is in front, and everything behind counts as zeroed
  induction toks generalizing list l with
  | nil => simpa [listLoop, listed, upToLast] using hl
  | cons t toks ih =>
    rw [listLoop]
    split_ifs with hlt
    · cases hx : parse (CText.trim t) with
      | none =>
        have hskip : listed parse (t :: toks) = listed parse toks := List.filterMap_cons_none hx
        rw [hskip]
        exact ih hl
      | some x =>
        have hlisted : listed parse (t :: toks) = x :: listed parse toks :=
          List.filterMap_cons_some hx
        have hwr : zeroFrom (list.wr l.length x) (l.length + 1) zero =
            CArray.fill zero (l ++ [x]) := by
          rw [zeroFrom_wr, hl, CArray.fill_wr_length]
        rw [hlisted, upToLast]
        dsimp only
        split_ifs
        · exact hwr
        · have hrest := ih (l := l ++ [x]) (by rw [List.length_append]; exact hwr)
          rw [List.length_append, List.append_assoc] at hrest
          exact hrest
    · rw [hl, CArray.fill_append zero (Nat.le_of_not_lt hlt)]

/-- The loop goes on, unless nothing is listed. -/
theorem listLoop_advances (toks : List CString) (list : CArray α n) (idx : Nat) :
    (listLoop parse isLast toks list idx = (list, idx) ∧ (idx < n → listed parse toks = [])) ∨
      idx < (listLoop parse isLast toks list idx).2 := by
  induction toks generalizing list idx with
  | nil => exact .inl ⟨rfl, fun _ => rfl⟩
  | cons t toks ih =>
    rw [listLoop]
    split_ifs with hlt
    · cases hx : parse (CText.trim t) with
      | none =>
        have hskip : listed parse (t :: toks) = listed parse toks := List.filterMap_cons_none hx
        rw [hskip]
        exact ih list idx
      | some x =>
        dsimp only
        refine .inr ?_
        split_ifs
        · exact Nat.lt_succ_self idx
        · rcases ih (list.wr idx x) (idx + 1) with ⟨hstay, -⟩ | hmore
          · rw [hstay]
            exact Nat.lt_succ_self idx
          · exact Nat.lt_of_succ_lt hmore
    · exact .inl ⟨rfl, fun h => absurd h hlt⟩

/-- What a command leaves: the list as it was, or filled with what is listed. -/
theorem listChange_eq (zero : α) (call : Call) (list : CArray α n) :
    (listChange call parse isLast zero list).2 = list ∧
        (call.query = false → 0 < n →
          listed parse (CText.tokens (CText.isChar ',') call.args) = []) ∨
      (listChange call parse isLast zero list).2 = CArray.fill zero
        (upToLast isLast (listed parse (CText.tokens (CText.isChar ',') call.args))) := by
  have hloop := listLoop_eq parse isLast zero (CText.tokens (CText.isChar ',') call.args)
    (l := []) (zeroFrom_zero list zero)
  simp only [listChange]
  split_ifs with hquery hidx
  · exact .inl ⟨rfl, fun h => absurd hquery (by rw [h]; decide)⟩
  · rcases listLoop_advances parse isLast (CText.tokens (CText.isChar ',') call.args) list 0 with
      ⟨hstay, hnone⟩ | hmore
    · exact .inl ⟨by rw [hstay], fun _ => hnone⟩
    · omega
  · exact .inr hloop

end Loop

/-! ## No network after an entry without a prefix -/

theorem ended_upToLast (l : List AclEntry) : Ended (upToLast (·.prefixLen == 0) l) := by
  induction l with
  | nil => exact List.Pairwise.nil
  | cons e l ih =>
    rw [upToLast]
    split_ifs with hlast
    · exact List.pairwise_singleton _ _
    · refine List.pairwise_cons.mpr ⟨fun _ _ hzero => ?_, ih⟩
      rw [hzero] at hlast
      exact absurd rfl hlast

/-- What is loaded is what the items stand for, from the front. -/
theorem json2acllist_eq (item : Json D) (n : Nat) :
    json2acllist P item n =
      CArray.fill default (item.children.filterMap (itemValue (aclEntry P))) := by
  have hloop := jsonListLoop_eq (n := n) (aclEntry P) (default : AclEntry) item.children (l := [])
    (Nat.zero_le n)
  rwa [List.length_nil, CArray.fill_nil, List.nil_append] at hloop

/-- All that is saved is networks. -/
theorem saved_pos (hP : P.RoundTrips) {m : Nat} {saved : CArray AclEntry m} {ref : Json D}
    (h : acllist2json P saved = some ref) :
    ∀ e ∈ ref.children.filterMap (itemValue (aclEntry P)), e.prefixLen > 0 := by
  simp only [acllist2json, someArray] at h
  split_ifs at h
  obtain rfl := Option.some.inj h
  intro e he
  obtain ⟨o, ho, hvalue⟩ := List.mem_filterMap.mp he
  obtain ⟨e', -, hitem⟩ := List.mem_filterMap.mp ho
  simp only [aclItem] at hitem
  split_ifs at hitem with hpos
  obtain rfl := Option.some.inj hitem
  simp only [itemValue, Json.getStringValue, Option.bind_some, aclText_whole hP,
    aclEntry_printed hP, Option.some.injEq] at hvalue
  subst hvalue
  exact clampPrefix_pos hpos

theorem AclReachable.ended (hP : P.RoundTrips) {n : Nat} {acl : CArray AclEntry n}
    (h : AclReachable P acl) : Ended acl.toList := by
  induction h with
  | cleared =>
    rw [← CArray.fill_nil]
    exact Ended.fill List.Pairwise.nil
  | @changed acl call _ ih =>
    rcases listChange_eq (aclEntry P) (·.prefixLen == 0) default call acl with ⟨hsame, -⟩ | hfill
    · rwa [aclListChange, hsame]
    · rw [aclListChange, hfill]
      exact (ended_upToLast _).fill
  | loaded saved hsaved =>
    rw [json2acllist_eq]
    exact (ended_of_pos (saved_pos hP hsaved)).fill

theorem AclReachable.prefixLen_le {n : Nat} {acl : CArray AclEntry n} (h : AclReachable P acl) :
    acl.All fun e => e.prefixLen ≤ 32 := by
  induction h with
  | cleared => exact CArray.All.replicate (by decide)
  | changed call _ ih => exact aclListChange_all call ih
  | loaded => exact json2acllist_all _ _

/-- The networks of an ended list come first. -/
theorem Ended.networks_eq {l : List AclEntry} (h : Ended l) :
    networks l = l.takeWhile fun e => e.prefixLen ≠ 0 := by
  induction l with
  | nil => rfl
  | cons e l ih =>
    obtain ⟨hlater, hl⟩ := List.pairwise_cons.mp h
    by_cases hzero : e.prefixLen = 0
    · have hnone : ∀ x ∈ e :: l, ¬ decide (x.prefixLen > 0) = true := by
        intro x hx
        have hx0 : x.prefixLen = 0 := by
          rcases List.mem_cons.mp hx with rfl | hx
          · exact hzero
          · exact hlater x hx hzero
        rw [hx0]
        decide
      rw [networks, List.filter_eq_nil_iff.mpr hnone]
      simp [hzero]
    · have hpos : e.prefixLen > 0 := UInt8.pos_iff_ne_zero.mpr hzero
      have hkeep : networks (e :: l) = e :: networks l :=
        List.filter_cons_of_pos (decide_eq_true hpos)
      rw [hkeep, ih hl]
      simp [hzero]

theorem networks_networks (l : List AclEntry) : networks (networks l) = networks l := by
  rw [networks, networks, List.filter_filter]
  exact congrArg (List.filter · l) (funext fun _ => Bool.and_self _)

/-! ## What is printed is listed -/

/-- The characters of an address in dotted notation. -/
def DottedNtoa (P : Platform F D) : Prop :=
  ∀ ip, ∀ c ∈ P.ipaddrNtoa ip, c.isDigit = true ∨ c = '.'

theorem mem_aclText (hntoa : DottedNtoa P) {e : AclEntry} {c : Char} (h : c ∈ aclText P e) :
    CText.isSpace c = false ∧ CText.isChar ',' c = false := by
  have hdigit : c.isDigit = true → CText.isSpace c = false ∧ CText.isChar ',' c = false := by
    intro hc
    refine ⟨CText.isSpace_of_isDigit hc, beq_eq_false_iff_ne.mpr ?_⟩
    rintro rfl
    exact absurd hc (by decide)
  rcases List.mem_append.mp h with h | h
  · rcases hntoa _ c h with hc | rfl
    · exact hdigit hc
    · decide
  · rcases List.mem_cons.mp h with rfl | h
    · decide
    · exact hdigit (CText.isDigit_of_mem_utoa h)

/-- An entry is read back from its text, with white space around it. -/
theorem aclEntry_trim (hP : P.RoundTrips) (hntoa : DottedNtoa P) {e : AclEntry}
    (he : e.prefixLen ≤ 32) {ws : CString} (hws : ∀ c ∈ ws, CText.isSpace c = true) :
    aclEntry P (CText.trim (aclText P e ++ ws)) = some e := by
  have hne : aclText P e ≠ [] := List.append_ne_nil_of_right_ne_nil _ (List.cons_ne_nil _ _)
  have htrim : CText.trimEnd ws = [] := by
    rw [CText.trimEnd, List.reverse_eq_nil_iff, List.dropWhile_eq_nil_iff]
    exact fun c hc => hws c (List.mem_reverse.mp hc)
  rw [CText.trim_append (fun c hc => (mem_aclText hntoa hc).1) hne, htrim, List.append_nil,
    aclText, aclEntry_printed hP, clampPrefix_eq he]

/-- A word is listed, with white space after it. -/
theorem listed_word {ws : CString} (hws : ∀ c ∈ ws, CText.isSpace c = true) {w : CString}
    {e : AclEntry} (hne : w ≠ []) (hw : ∀ c ∈ w, CText.isChar ',' c = false)
    (hparse : ∀ ws, (∀ c ∈ ws, CText.isSpace c = true) →
      aclEntry P (CText.trim (w ++ ws)) = some e) :
    listed (aclEntry P) (CText.tokens (CText.isChar ',') (w ++ ws)) = [e] := by
  have hword : ∀ c ∈ w ++ ws, CText.isChar ',' c = false := by
    intro c hc
    rcases List.mem_append.mp hc with hc | hc
    · exact hw c hc
    · simpa [CText.isChar] using fun h : c = ',' => absurd (h ▸ hws c hc) (by decide)
  rw [CText.tokens_word hword (List.append_ne_nil_of_left_ne_nil hne _)]
  exact List.filterMap_cons_some (hparse ws hws)

/-- The words of the rest of the text stand for its entries. -/
theorem listed_aclRestText (hP : P.RoundTrips) (hntoa : DottedNtoa P) {acls : List AclEntry}
    (hacls : ∀ e ∈ acls, e.prefixLen ≤ 32) {ws : CString}
    (hws : ∀ c ∈ ws, CText.isSpace c = true) {w : CString} {e : AclEntry} (hne : w ≠ [])
    (hw : ∀ c ∈ w, CText.isChar ',' c = false)
    (hparse : ∀ ws, (∀ c ∈ ws, CText.isSpace c = true) →
      aclEntry P (CText.trim (w ++ ws)) = some e) :
    listed (aclEntry P) (CText.tokens (CText.isChar ',') (w ++ (aclRestText P acls ++ ws))) =
      e :: acls.takeWhile fun e => e.prefixLen ≠ 0 := by
  induction acls generalizing w e with
  | nil => exact listed_word hws hne hw hparse
  | cons a acls ih =>
    rw [aclRestText]
    split_ifs with hzero
    · have hstop : (a :: acls).takeWhile (fun e => e.prefixLen ≠ 0) = [] := by simp [hzero]
      rw [hstop]
      exact listed_word hws hne hw hparse
    · have hgo : (a :: acls).takeWhile (fun e => e.prefixLen ≠ 0) =
          a :: acls.takeWhile fun e => e.prefixLen ≠ 0 := by simp [hzero]
      have hhead : aclEntry P (CText.trim w) = some e := by
        have h := hparse [] (fun c hc => absurd hc List.not_mem_nil)
        rwa [List.append_nil] at h
      have htext : w ++ (", ".toList ++ aclText P a ++ aclRestText P acls ++ ws) =
          w ++ ',' :: ((' ' :: aclText P a) ++ (aclRestText P acls ++ ws)) := by
        simp
      have hword : ∀ c ∈ ' ' :: aclText P a, CText.isChar ',' c = false := by
        intro c hc
        rcases List.mem_cons.mp hc with rfl | hc
        · decide
        · exact (mem_aclText hntoa hc).2
      have hrest := ih (fun e he => hacls e (List.mem_cons_of_mem _ he)) (List.cons_ne_nil _ _)
        hword fun ws hws => aclEntry_trim hP hntoa (hacls a (List.mem_cons_self ..)) hws
      rw [htext, CText.tokens_word_append hw hne rfl, hgo, ← hrest]
      exact List.filterMap_cons_some hhead

/-! ## Main result -/

/-- A table is listed in its text, with white space after it. -/
theorem listed_aclListText (hP : P.RoundTrips) (hntoa : DottedNtoa P) {n : Nat}
    {acl : CArray AclEntry n} (h : AclReachable P acl) {e : AclEntry} {acls : List AclEntry}
    (hlist : acl.toList = e :: acls) {ws : CString} (hws : ∀ c ∈ ws, CText.isSpace c = true) :
    listed (aclEntry P) (CText.tokens (CText.isChar ',') (aclListText P acl ++ ws)) =
      e :: networks acls := by
  have hle : ∀ x ∈ e :: acls, x.prefixLen ≤ 32 := by
    intro x hx
    rw [← hlist] at hx
    exact h.prefixLen_le.mem hx
  have hended : Ended acls := by
    have hall := h.ended hP
    rw [hlist] at hall
    exact (List.pairwise_cons.mp hall).2
  have hne : aclText P e ≠ [] := List.append_ne_nil_of_right_ne_nil _ (List.cons_ne_nil _ _)
  rw [aclListText, hlist, List.append_assoc, hended.networks_eq]
  exact listed_aclRestText hP hntoa (fun x hx => hle x (List.mem_cons_of_mem _ hx)) hws hne
    (fun c hc => (mem_aclText hntoa hc).2)
    fun ws hws => aclEntry_trim hP hntoa (hle e (List.mem_cons_self ..)) hws

/-- What is listed has the networks of the table. -/
theorem networks_upToLast {e : AclEntry} {acls : List AclEntry} (h : Ended (e :: acls)) :
    networks (upToLast (·.prefixLen == 0) (e :: networks acls)) = networks (e :: acls) := by
  by_cases hzero : e.prefixLen = 0
  · have hlast : upToLast (·.prefixLen == 0) (e :: networks acls) = [e] := by simp [upToLast, hzero]
    have hnone : networks (e :: acls) = [] := by simp [h.networks_eq, hzero]
    rw [hlast, hnone]
    simp [networks, hzero]
  · have hnetworks : ∀ x ∈ networks acls, (x.prefixLen == 0) = false := by
      intro x hx
      have hpos := of_decide_eq_true (List.mem_filter.mp hx).2
      exact beq_eq_false_iff_ne.mpr (UInt8.pos_iff_ne_zero.mp hpos)
    have hall : upToLast (·.prefixLen == 0) (e :: networks acls) = e :: networks acls := by
      rw [upToLast, if_neg (by simpa using hzero), upToLast_eq_self hnetworks]
    have hkeep (l : List AclEntry) : networks (e :: l) = e :: networks l :=
      List.filter_cons_of_pos (decide_eq_true (UInt8.pos_iff_ne_zero.mpr hzero))
    rw [hall, hkeep, hkeep, networks_networks]

/-- Reloading keeps the networks. -/
theorem networks_reloadAcls (hP : P.RoundTrips) {n : Nat} {acl : CArray AclEntry n}
    (h : AclReachable P acl) : networks (reloadAcls P acl).toList = networks acl.toList := by
  have hfits : (networks acl.toList).length ≤ n := by
    have hle : (networks acl.toList).length ≤ acl.toList.length := List.length_filter_le _ _
    rwa [Vector.length_toList] at hle
  have hreload : reloadAcls P acl = CArray.fill default (networks acl.toList) :=
    json2acllist_acllist2json hP h.prefixLen_le
  rw [hreload, networks_fill, List.take_of_length_le hfits, networks_networks]

/-- So does setting any table to what is printed of a table. -/
theorem networks_aclListChange (hP : P.RoundTrips) (hntoa : DottedNtoa P) {n : Nat}
    {acl : CArray AclEntry n} (h : AclReachable P acl) (before : CArray AclEntry n) {call : Call}
    (hset : call.query = false) {ws : CString} (hws : ∀ c ∈ ws, CText.isSpace c = true)
    (hargs : call.args = aclListText P acl ++ ws) :
    networks (aclListChange call P before).2.toList = networks acl.toList := by
  cases hlist : acl.toList with
  | nil =>
    have hn : n = 0 := by rw [← acl.length_toList, hlist, List.length_nil]
    subst hn
    have hempty : (aclListChange call P before).2.toList = [] :=
      List.eq_nil_of_length_eq_zero Vector.length_toList
    rw [hempty]
  | cons e acls =>
    have hn : acls.length + 1 = n := by rw [← acl.length_toList, hlist, List.length_cons]
    have hlisted := listed_aclListText hP hntoa h hlist hws
    rw [← hargs] at hlisted
    rcases listChange_eq (aclEntry P) (·.prefixLen == 0) default call before with
      ⟨-, hnone⟩ | hfill
    · have hnil := hnone hset (by omega)
      rw [hlisted] at hnil
      cases hnil
    · have hfits : (upToLast (·.prefixLen == 0) (e :: networks acls)).length ≤ n := by
        have hlen : (networks acls).length ≤ acls.length := List.length_filter_le _ _
        have hprefix := (upToLast_isPrefix (·.prefixLen == 0) (e :: networks acls)).length_le
        rw [List.length_cons] at hprefix
        omega
      rw [aclListChange, hfill, hlisted, networks_fill, List.take_of_length_le hfits]
      exact networks_upToLast (hlist ▸ h.ended hP)

/-- **Access lists survive printing, saving and reloading**: the callbacks decide as
before. -/
theorem access_list_survives (hP : P.RoundTrips) (hntoa : DottedNtoa P) {n : Nat}
    {acl : CArray AclEntry n} (h : AclReachable P acl) (src : Option IpAddr) :
    (∀ (before : CArray AclEntry n) (call : Call), call.query = false →
      call.args = aclListText P acl ∨ call.args = aclListText P acl ++ ['\n'] →
      allowConnectionCb (aclListChange call P before).2 src = allowConnectionCb acl src) ∧
      allowConnectionCb (reloadAcls P acl) src = allowConnectionCb acl src := by
  refine ⟨fun before call hset hargs => ?_, ?_⟩
  · have hline : ∃ ws, (∀ c ∈ ws, CText.isSpace c = true) ∧
        call.args = aclListText P acl ++ ws := by
      rcases hargs with hargs | hargs
      · exact ⟨[], fun c hc => absurd hc List.not_mem_nil, by rw [hargs, List.append_nil]⟩
      · exact ⟨['\n'], List.forall_mem_singleton.mpr rfl, hargs⟩
    obtain ⟨ws, hws, hargs⟩ := hline
    exact allowConnectionCb_congr (networks_aclListChange hP hntoa h before hset hws hargs) src
  · exact allowConnectionCb_congr (networks_reloadAcls hP h) src

/-- Two networks, set, printed and set again: 192.168.1.7 may still connect, 192.168.2.7
may not. -/
theorem access_list_survives_networks :
    ∃ acl : CArray AclEntry 4, AclReachable hostPlatform acl ∧
      aclListText hostPlatform acl = "10.0.0.0/8, 192.168.1.0/24".toList ∧
      (∀ call : Call, call.query = false → call.args = aclListText hostPlatform acl →
        allowConnectionCb (aclListChange call hostPlatform acl).2 (some 0x0701a8c0) = 1) ∧
      allowConnectionCb (reloadAcls hostPlatform acl) (some 0x0702a8c0) = 0 := by
  have hreachable : AclReachable hostPlatform (n := 4) _ :=
    (AclReachable.cleared).changed ⟨[], "10.0.0.0/8,192.168.1.0/24, x".toList, false, []⟩
  have hsurvives := access_list_survives hostPlatform_roundTrips
    (fun _ _ hc => DottedQuad.mem_ntoa hc) hreachable
  refine ⟨_, hreachable, by decide +kernel, fun call hset hargs => ?_, ?_⟩
  · rw [(hsurvives _).1 _ call hset (.inl hargs)]
    decide +kernel
  · rw [(hsurvives _).2]
    decide +kernel

end LcdPico
