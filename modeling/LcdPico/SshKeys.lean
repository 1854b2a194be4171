import LcdPico.ConfigInvariant
import LcdPico.HostPlatform

/-!
# The numbers of the SSH public keys (`command.c`)

`SYS:SSH:PUBKEY?` counts the keys that it prints, `SYS:SSH:PUBKEY:DEL` takes the
number of a slot. The two agree on a key if every slot before it is printed.
-/

namespace LcdPico

variable {F D : Type} (P : Platform F D)

/-! ## The listing -/

/-- A line of the listing, with the slot it is printed from. -/
structure PubkeyLine where
  number : Nat
  slot : Nat
  text : CString
deriving DecidableEq

/-- The loop of `cmd_ssh_pubkey` over the slots. -/
def pubkeyLines (keys : CArray SshPublicKey SSH_MAX_PUB_KEYS) : List Nat → Nat → List PubkeyLine
  | [], _ => []
  | i :: slots, count =>
    let k := keys.rd i
    if k.isListed then
      { number := count + 1
        slot := i
        text := CText.utoa (count + 1) ++ ": ".toList ++ k.username.val ++ ", ".toList ++
          sshPubkeyToStr P k 255 } :: pubkeyLines keys slots (count + 1)
    else pubkeyLines keys slots count

/-- `cmd_ssh_pubkey`, with the lines that it prints. -/
def cmdSshPubkey (call : Call) (conf : SystemConfig F) : Int × List PubkeyLine :=
  if !call.query then (1, [])
  else (0, pubkeyLines P conf.sshPubKeys (List.range SSH_MAX_PUB_KEYS) 0)

/-- The slot holds a key that is printed. -/
def listedAt (keys : CArray SshPublicKey SSH_MAX_PUB_KEYS) (i : Nat) : Bool := (keys.rd i).isListed

variable {P}

section

variable {keys : CArray SshPublicKey SSH_MAX_PUB_KEYS} {slots : List Nat} {count : Nat}
  {line : PubkeyLine}

/-- The number of a line counts the lines up to it. -/
theorem number_of_mem_pubkeyLines (h : line ∈ pubkeyLines P keys slots count) :
    ∃ before after, slots = before ++ line.slot :: after ∧ listedAt keys line.slot = true ∧
      line.number = count + before.countP (listedAt keys) + 1 := by
  induction slots generalizing count with
  | nil => cases h
  | cons i slots ih =>
    rw [pubkeyLines] at h
    split_ifs at h with hlisted
    · rcases List.mem_cons.mp h with rfl | h
      · exact ⟨[], slots, rfl, hlisted, rfl⟩
      · obtain ⟨before, after, rfl, hline, hnumber⟩ := ih h
        refine ⟨i :: before, after, rfl, hline, ?_⟩
        rw [hnumber, List.countP_cons_of_pos (p := listedAt keys) hlisted]
        omega
    · obtain ⟨before, after, rfl, hline, hnumber⟩ := ih h
      refine ⟨i :: before, after, rfl, hline, ?_⟩
      rw [hnumber, List.countP_cons_of_neg (p := listedAt keys) hlisted]

/-- What precedes an element of `range` is the range up to it. -/
theorem range_eq_append {n i : Nat} {before after : List Nat}
    (h : List.range n = before ++ i :: after) : before = List.range i ∧ i < n := by
  have hlen := congrArg List.length h
  simp only [List.length_range, List.length_append, List.length_cons] at hlen
  have hi : i = before.length := by
    have hget := congrArg (fun l => l[before.length]?) h
    simpa [show before.length < n by omega] using hget.symm
  refine ⟨?_, by omega⟩
  have htake := congrArg (List.take i) h
  rw [hi, List.take_left, List.take_range] at htake
  rw [← htake, hi, Nat.min_eq_left (by omega)]

/-- A line of `cmd_ssh_pubkey`. -/
theorem mem_cmdSshPubkey {call : Call} {conf : SystemConfig F}
    (h : line ∈ (cmdSshPubkey P call conf).2) :
    line.slot < SSH_MAX_PUB_KEYS ∧ listedAt conf.sshPubKeys line.slot = true ∧
      line.number = (List.range line.slot).countP (listedAt conf.sshPubKeys) + 1 := by
  rw [cmdSshPubkey] at h
  split_ifs at h
  · cases h
  · obtain ⟨before, after, hslots, hlisted, hnumber⟩ := number_of_mem_pubkeyLines h
    obtain ⟨rfl, hslot⟩ := range_eq_append hslots
    refine ⟨hslot, hlisted, ?_⟩
    rw [hnumber, Nat.zero_add]

/-- No slot has a greater number in the listing. -/
theorem number_le_slot {call : Call} {conf : SystemConfig F}
    (h : line ∈ (cmdSshPubkey P call conf).2) : line.number ≤ line.slot + 1 := by
  obtain ⟨-, -, hnumber⟩ := mem_cmdSshPubkey h
  have hle := List.countP_le_length (p := listedAt conf.sshPubKeys) (l := List.range line.slot)
  rw [List.length_range] at hle
  omega

/-- The number of a line is that of its slot exactly if all slots up to it are
printed. -/
theorem number_eq_slot_iff {call : Call} {conf : SystemConfig F}
    (h : line ∈ (cmdSshPubkey P call conf).2) :
    line.number = line.slot + 1 ↔ ∀ i < line.number, listedAt conf.sshPubKeys i = true := by
  obtain ⟨-, hlisted, hnumber⟩ := mem_cmdSshPubkey h
  have hle := number_le_slot h
  have hall := List.countP_eq_length (p := listedAt conf.sshPubKeys) (l := List.range line.slot)
  rw [List.length_range] at hall
  constructor
  · intro heq i hi
    rcases Nat.lt_or_eq_of_le (Nat.le_of_lt_succ (heq ▸ hi)) with hlt | rfl
    · exact hall.mp (by omega) i (List.mem_range.mpr hlt)
    · exact hlisted
  · intro hbefore
    have hcount := List.countP_eq_length (p := listedAt conf.sshPubKeys)
      (l := List.range line.number)
    rw [List.length_range] at hcount
    have hlisted := hcount.mpr fun i hi => hbefore i (List.mem_range.mp hi)
    by_contra hne
    have hsub : (List.range line.number).Sublist (List.range line.slot) :=
      List.range_sublist.mpr (by omega)
    have hmono := hsub.countP_le (p := listedAt conf.sshPubKeys)
    omega

end

/-! ## Deleting the key of a line -/

/-- The key in the slot is gone, and all others are as they were. -/
def RemovesOnly (slot : Nat) (keys keys' : CArray SshPublicKey SSH_MAX_PUB_KEYS) : Prop :=
  (keys'.rd slot).pubkeySize = 0 ∧ ∀ i < SSH_MAX_PUB_KEYS, i ≠ slot → keys'.rd i = keys.rd i

/-- A command with a number as its argument. -/
def Call.HasNumber (call : Call) (n : Nat) : Prop :=
  call.query = false ∧ strToInt call.args 10 = some (n : Int)

/-- `SYS:SSH:PUBKEY:DEL` clears the slot of the number. -/
theorem cmdSshPubkeyDel_keys {call : Call} {n : Nat} (hn : call.HasNumber n) (hpos : 0 < n)
    (hmax : n ≤ SSH_MAX_PUB_KEYS) (conf : SystemConfig F) :
    (cmdSshPubkeyDel call conf).2.sshPubKeys =
      if (conf.sshPubKeys.rd (n - 1)).pubkeySize > 0 then
        conf.sshPubKeys.wr (n - 1) clearSshPublicKey
      else conf.sshPubKeys := by
  obtain ⟨hquery, hint⟩ := hn
  have hmax' : n ≤ 4 := hmax
  have hrange : ¬ ((n : Int) < 1 ∨ (n : Int) > SSH_MAX_PUB_KEYS) := by omega
  have hidx : ((n : Int) - 1).toNat = n - 1 := by omega
  simp only [cmdSshPubkeyDel, hquery, hint, Bool.false_eq_true, if_false, if_neg hrange, hidx]
  split_ifs <;> rfl

/-- The number of a line deletes the key of the line, and no other, exactly if all
slots up to the one of the number are printed. -/
theorem pubkey_del_iff {call query : Call} {conf : SystemConfig F} {line : PubkeyLine}
    (hline : line ∈ (cmdSshPubkey P query conf).2) (hcall : call.HasNumber line.number) :
    RemovesOnly line.slot conf.sshPubKeys (cmdSshPubkeyDel call conf).2.sshPubKeys ↔
      ∀ i < line.number, listedAt conf.sshPubKeys i = true := by
  obtain ⟨hslot, hlisted, hnumber⟩ := mem_cmdSshPubkey hline
  have hle := number_le_slot hline
  have hoccupied := SshPublicKey.pubkeySize_pos hlisted
  rw [← number_eq_slot_iff hline, cmdSshPubkeyDel_keys hcall (by omega) (by omega)]
  constructor
  · rintro ⟨hgone, -⟩
    by_contra hne
    have hother : line.number - 1 ≠ line.slot := by omega
    split_ifs at hgone
    · rw [CArray.rd_wr_ne _ hother] at hgone
      omega
    · omega
  · intro heq
    have hidx : line.number - 1 = line.slot := by omega
    rw [hidx, if_pos hoccupied]
    refine ⟨?_, fun i _ hi => CArray.rd_wr_ne _ hi.symm _⟩
    rw [CArray.rd_wr_self _ hslot]
    rfl

/-! ## Runs -/

/-- The commands that change the keys, and loading a configuration. -/
inductive KeyStep (D : Type) where
  | add (call : Call)
  | del (call : Call)
  /-- `clear_config` and `json_to_config`, as in `read_config` and `upload_config` -/
  | load (config : Json D)

section

variable [Inhabited F]

def keyStep (P : Platform F D) (conf : SystemConfig F) : KeyStep D → SystemConfig F
  | .add call => (cmdSshPubkeyAdd P call conf).2
  | .del call => (cmdSshPubkeyDel call conf).2
  | .load config => jsonToConfig P config (clearConfig P)

/-- The items of the keys in a configuration. -/
def pubkeyItems (config : Json D) : List (Json D) :=
  ((config.getObjectItem "ssh_pubkeys".toList).map Json.children).getD []

/-- Every item names a user. -/
def NamesUsers (items : List (Json D)) : Prop :=
  ∀ r ∈ items, ∀ user, r.getObjectItem "user".toList = some user →
    ∃ name ≠ [], user.getStringValue = some name

/-- A step that leaves no gap: the slot after a deleted one is free, every key that
is loaded has a user. -/
def LeavesNoGap (conf : SystemConfig F) : KeyStep D → Prop
  | .add _ => True
  | .del call => ∀ n, call.HasNumber n → 1 ≤ n → n < SSH_MAX_PUB_KEYS →
      (conf.sshPubKeys.rd n).pubkeySize = 0
  | .load config => NamesUsers (pubkeyItems config)

end

/-- Up to the last key, all slots are printed. -/
def Gapless (keys : CArray SshPublicKey SSH_MAX_PUB_KEYS) : Prop :=
  ∀ i j, i ≤ j → j < SSH_MAX_PUB_KEYS → 0 < (keys.rd j).pubkeySize → listedAt keys i = true

/-- The keys fill the slots below `idx`. -/
def FilledTo (idx : Nat) (keys : CArray SshPublicKey SSH_MAX_PUB_KEYS) : Prop :=
  (∀ i < idx, listedAt keys i = true) ∧
    ∀ j, idx ≤ j → j < SSH_MAX_PUB_KEYS → (keys.rd j).pubkeySize = 0

theorem FilledTo.gapless {idx : Nat} {keys : CArray SshPublicKey SSH_MAX_PUB_KEYS}
    (h : FilledTo idx keys) : Gapless keys := by
  intro i j hij hj hoccupied
  refine h.1 i ?_
  by_contra hi
  have hfree := h.2 j (by omega) hj
  omega

theorem filledTo_clear : FilledTo 0 (Vector.replicate SSH_MAX_PUB_KEYS clearSshPublicKey) := by
  refine ⟨fun i hi => absurd hi (Nat.not_lt_zero i), fun j _ hj => ?_⟩
  exact CArray.All.replicate (Q := fun k : SshPublicKey => k.pubkeySize = 0) rfl j hj

/-- A key in the first free slot. -/
theorem FilledTo.wr {idx : Nat} {keys : CArray SshPublicKey SSH_MAX_PUB_KEYS}
    (h : FilledTo idx keys) (hidx : idx < SSH_MAX_PUB_KEYS) {k : SshPublicKey}
    (hk : k.isListed = true) : FilledTo (idx + 1) (keys.wr idx k) := by
  refine ⟨fun i hi => ?_, fun j hj hmax => ?_⟩
  · rcases Nat.lt_or_eq_of_le (Nat.le_of_lt_succ hi) with hlt | rfl
    · rw [listedAt, CArray.rd_wr_ne _ (by omega)]
      exact h.1 i hlt
    · rw [listedAt, CArray.rd_wr_self _ hidx]
      exact hk
  · rw [CArray.rd_wr_ne _ (by omega)]
    exact h.2 j (by omega) hmax

/-- A free slot that is left free. -/
theorem FilledTo.wr_free {idx : Nat} {keys : CArray SshPublicKey SSH_MAX_PUB_KEYS}
    (h : FilledTo idx keys) {k : SshPublicKey} (hk : k.pubkeySize = 0) :
    FilledTo idx (keys.wr idx k) := by
  refine ⟨fun i hi => ?_, fun j hj hmax => ?_⟩
  · rw [listedAt, CArray.rd_wr_ne _ (by omega)]
    exact h.1 i hi
  · by_cases hij : idx = j
    · subst hij
      rw [CArray.rd_wr_self _ hmax]
      exact hk
    · rw [CArray.rd_wr_ne _ hij]
      exact h.2 j hj hmax

/-- A key with a name other than the empty one is printed. -/
theorem isListed_withUsername {k : SshPublicKey} (hk : 0 < k.pubkeySize) {name : CString}
    (hname : name ≠ []) : { k with username := CStr.copy name }.isListed = true := by
  have hlen : 0 < (CStr.copy name : CStr (MAX_USERNAME_LEN + 1)).val.length := by
    simp only [CStr.copy, CText.strncopy, List.length_take]
    exact Nat.lt_min.mpr ⟨by decide, List.length_pos_iff.mpr hname⟩
  rw [SshPublicKey.isListed, Bool.and_eq_true]
  exact ⟨decide_eq_true hk, decide_eq_true hlen⟩

/-- The loop of `json2sshpubkeys` fills the slots from the first one on. -/
theorem sshPubkeysLoop_filledTo {items : List (Json D)} (hitems : NamesUsers items)
    {keys : CArray SshPublicKey SSH_MAX_PUB_KEYS} {idx : Nat} (h : FilledTo idx keys)
    (hidx : idx < SSH_MAX_PUB_KEYS) : ∃ idx', FilledTo idx' (sshPubkeysLoop P items keys idx) := by
  induction items generalizing keys idx with
  | nil => exact ⟨idx, h⟩
  | cons r items ih =>
    have hrest : NamesUsers items := fun r' hr' => hitems r' (List.mem_cons_of_mem r hr')
    rw [sshPubkeysLoop]
    split
    rename_i keys' idx' hround
    -- a key that is refused leaves its slot free, and the index as it is
    have hkeys : FilledTo idx' keys' := by
      split at hround
      · rename_i user pkey huser _
        obtain ⟨name, hname, hval⟩ := hitems r (List.mem_cons_self ..) user huser
        cases hpkey : pkey.getStringValue with
        | none =>
          rw [hpkey] at hround
          obtain ⟨rfl, rfl⟩ := Prod.mk.inj hround
          exact h
        | some s =>
          simp only [hpkey, hval, Option.map_some, Option.getD_some] at hround
          split at hround
          · rename_i k hparse
            obtain ⟨rfl, rfl⟩ := Prod.mk.inj hround
            exact h.wr hidx (isListed_withUsername (strToSshPubkey_wellFormed hparse).pubkey_pos
              hname)
          · rename_i k hparse
            obtain ⟨rfl, rfl⟩ := Prod.mk.inj hround
            exact h.wr_free (strToSshPubkey_false hparse)
      · obtain ⟨rfl, rfl⟩ := Prod.mk.inj hround
        exact h
    split_ifs with hfull
    · exact ⟨idx', hkeys⟩
    · exact ih hrest hkeys (Nat.lt_of_not_le hfull)

/-- Without gaps, the first free slot is the one after the last key. -/
theorem Gapless.filledTo {keys : CArray SshPublicKey SSH_MAX_PUB_KEYS} (h : Gapless keys)
    {idx : Nat} (hidx : firstFreeSlot keys = some idx) :
    idx < SSH_MAX_PUB_KEYS ∧ FilledTo idx keys := by
  obtain ⟨hfree, hmem, hbefore⟩ := List.find?_range_eq_some.mp hidx
  have hmax := List.mem_range.mp hmem
  rw [decide_eq_true_iff] at hfree
  refine ⟨hmax, fun i hi => ?_, fun j hj hjmax => ?_⟩
  · have hoccupied : (keys.rd i).pubkeySize ≠ 0 := by simpa using hbefore i hi
    exact h i i (Nat.le_refl i) (Nat.lt_trans hi hmax) (Nat.pos_of_ne_zero hoccupied)
  · by_contra hoccupied
    have hlisted := h idx j hj hjmax (Nat.pos_of_ne_zero hoccupied)
    have hpos := SshPublicKey.pubkeySize_pos hlisted
    omega

/-- Deleting the last key leaves no gap. -/
theorem Gapless.clear {keys : CArray SshPublicKey SSH_MAX_PUB_KEYS} (h : Gapless keys) {i : Nat}
    (hnext : i + 1 < SSH_MAX_PUB_KEYS → (keys.rd (i + 1)).pubkeySize = 0) :
    Gapless (keys.wr i clearSshPublicKey) := by
  intro k j hkj hj hoccupied
  have hne : i ≠ j := by
    rintro rfl
    rw [CArray.rd_wr_self _ hj] at hoccupied
    exact absurd hoccupied (by decide)
  rw [CArray.rd_wr_ne _ hne] at hoccupied
  have hlt : j < i := by
    by_contra hle
    -- a key further on would mean one in slot `i + 1`
    have hlisted := h (i + 1) j (by omega) hj hoccupied
    have hpos := SshPublicKey.pubkeySize_pos hlisted
    have hfree := hnext (by omega)
    omega
  rw [listedAt, CArray.rd_wr_ne _ (by omega)]
  exact h k j hkj hj hoccupied

section

variable [Inhabited F]

/-- The sensors that are loaded leave the keys as they are. -/
theorem foldl_vsensorsStep_sshPubKeys (items : List (Json D)) (conf : SystemConfig F) :
    (items.foldl (vsensorsStep P) conf).sshPubKeys = conf.sshPubKeys := by
  induction items generalizing conf with
  | nil => rfl
  | cons item items ih =>
    rw [List.foldl_cons, ih, vsensorsStep]
    split <;> rfl

/-- Keys that are loaded with their users leave no gap. -/
theorem gapless_load {config : Json D} (hconfig : NamesUsers (pubkeyItems config)) :
    Gapless (jsonToConfig P config (clearConfig P)).sshPubKeys := by
  rw [jsonToConfig, foldl_vsensorsStep_sshPubKeys]
  simp only [jsonToSettings]
  cases hitem : config.getObjectItem "ssh_pubkeys".toList with
  | none => exact filledTo_clear.gapless
  | some list =>
    rw [pubkeyItems, hitem] at hconfig
    obtain ⟨idx, hfilled⟩ := sshPubkeysLoop_filledTo hconfig filledTo_clear (by decide)
    exact hfilled.gapless

/-- A step that leaves no gap keeps a table without gaps. -/
theorem Gapless.step {conf : SystemConfig F} (h : Gapless conf.sshPubKeys) {s : KeyStep D}
    (hs : LeavesNoGap conf s) : Gapless (keyStep P conf s).sshPubKeys := by
  cases s with
  | add call =>
    simp only [keyStep, cmdSshPubkeyAdd]
    split_ifs
    · exact h
    · cases hargs : pubkeyArgs P call.args with
      | none => exact h
      | some userKey =>
        obtain ⟨username, pubkey⟩ := userKey
        obtain ⟨hname, hkey⟩ := pubkeyArgs_wellFormed hargs
        dsimp only
        split
        · exact h
        · rename_i idx hidx
          obtain ⟨hmax, hfilled⟩ := h.filledTo hidx
          exact (hfilled.wr hmax (isListed_withUsername hkey.pubkey_pos hname)).gapless
  | del call =>
    simp only [keyStep, cmdSshPubkeyDel]
    split_ifs with hquery
    · exact h
    · split
      · exact h
      · rename_i idx hint
        split_ifs with hrange
        · exact h
        · have hnumber : call.HasNumber idx.toNat := by
            refine ⟨by simpa using hquery, ?_⟩
            rw [hint, Int.toNat_of_nonneg (by omega)]
          refine h.clear fun hnext => ?_
          have hidx : (idx - 1).toNat + 1 = idx.toNat := by omega
          rw [hidx] at hnext ⊢
          exact hs _ hnumber (by omega) hnext
        · exact h
  | load config => exact gapless_load hs

/-- After a run that leaves no gap. -/
theorem gapless_run {steps : List (KeyStep D)}
    (h : Machine.Within (keyStep P) LeavesNoGap (clearConfig P) steps) :
    Gapless (Machine.run (keyStep P) (clearConfig P) steps).sshPubKeys := by
  refine Machine.run_within (P := fun conf => Gapless conf.sshPubKeys) ?_ ?_ h
  · exact fun _ _ hconf hs => hconf.step hs
  · exact filledTo_clear.gapless

/-- A number that `SYS:SSH:PUBKEY?` prints is, for `SYS:SSH:PUBKEY:DEL`, the number of the same key
exactly if every slot up to the one of that number is printed. So it is after every
run whose steps leave no gap. -/
theorem pubkey_numbers (P : Platform F D) :
    (∀ (conf : SystemConfig F) (query call : Call) (line : PubkeyLine),
      line ∈ (cmdSshPubkey P query conf).2 → call.HasNumber line.number →
      (RemovesOnly line.slot conf.sshPubKeys (cmdSshPubkeyDel call conf).2.sshPubKeys ↔
        ∀ i < line.number, listedAt conf.sshPubKeys i = true)) ∧
    (∀ steps : List (KeyStep D),
      Machine.Within (keyStep P) LeavesNoGap (clearConfig P) steps →
      ∀ (query call : Call) (line : PubkeyLine),
        line ∈ (cmdSshPubkey P query (Machine.run (keyStep P) (clearConfig P) steps)).2 →
        call.HasNumber line.number →
        RemovesOnly line.slot (Machine.run (keyStep P) (clearConfig P) steps).sshPubKeys
          (cmdSshPubkeyDel call (Machine.run (keyStep P) (clearConfig P) steps)).2.sshPubKeys) := by
  refine ⟨fun conf query call line hline hcall => pubkey_del_iff hline hcall, ?_⟩
  intro steps hsteps query call line hline hcall
  obtain ⟨hslot, hlisted, -⟩ := mem_cmdSshPubkey hline
  have hle := number_le_slot hline
  refine (pubkey_del_iff hline hcall).mpr fun i hi => ?_
  exact gapless_run hsteps i line.slot (by omega) hslot (SshPublicKey.pubkeySize_pos hlisted)

end

/-! ## On the host platform -/

/-- `SYS:SSH:PUBKEY:ADD` of an Ed25519 key. -/
def addKey (user : String) : KeyStep (Option ℚ) :=
  .add
    { cmd := "ADD".toList
      args := user.toList ++ " ssh-ed25519 AAAAC3NzaC1lZDI1NTE5".toList
      query := false
      prevCmd := [] }

/-- `SYS:SSH:PUBKEY:DEL` -/
def delCall (n : String) : Call :=
  { cmd := "DEL".toList, args := n.toList, query := false, prevCmd := [] }

/-- `SYS:SSH:PUBKEY?` -/
def listCall : Call := { cmd := "PUBKEY".toList, args := [], query := true, prevCmd := [] }

/-- The configuration after the steps. -/
def keysAfter (steps : List (KeyStep (Option ℚ))) : SystemConfig ℚ :=
  Machine.run (keyStep hostPlatform) (clearConfig hostPlatform) steps

/-- The second line of a listing. -/
def bobLine : PubkeyLine := ⟨2, 1, "2: bob, ssh-ed25519 AAAAC3NzaC1lZDI1NTE5 ".toList⟩

theorem pubkey_numbers_twoKeys :
    bobLine ∈ (cmdSshPubkey hostPlatform listCall (keysAfter [addKey "ann", addKey "bob"])).2 ∧
      RemovesOnly bobLine.slot (keysAfter [addKey "ann", addKey "bob"]).sshPubKeys
        (cmdSshPubkeyDel (delCall "2") (keysAfter [addKey "ann", addKey "bob"])).2.sshPubKeys := by
  have hline : bobLine ∈
      (cmdSshPubkey hostPlatform listCall (keysAfter [addKey "ann", addKey "bob"])).2 := by
    decide +kernel
  unfold keysAfter at hline ⊢
  exact ⟨hline, (pubkey_numbers hostPlatform).2 [addKey "ann", addKey "bob"]
    ⟨trivial, trivial, trivial⟩ listCall (delCall "2") bobLine hline ⟨rfl, by decide +kernel⟩⟩

/-- After the first of three keys was deleted, the number of the third one deletes
the second one. -/
theorem pubkey_numbers_afterDel :
    let conf := keysAfter [addKey "ann", addKey "bob", addKey "cat", .del (delCall "1")]
    ⟨2, 2, "2: cat, ssh-ed25519 AAAAC3NzaC1lZDI1NTE5 ".toList⟩ ∈
        (cmdSshPubkey hostPlatform listCall conf).2 ∧
      (delCall "2").HasNumber 2 ∧
      ¬ RemovesOnly 2 conf.sshPubKeys (cmdSshPubkeyDel (delCall "2") conf).2.sshPubKeys ∧
      (conf.sshPubKeys.rd 1).username.val = "bob".toList ∧
      ((cmdSshPubkeyDel (delCall "2") conf).2.sshPubKeys.rd 1).pubkeySize = 0 := by
  refine ⟨by decide +kernel, ⟨rfl, by decide +kernel⟩, ?_, by decide +kernel, by decide +kernel⟩
  rintro ⟨hgone, -⟩
  exact absurd hgone (by decide +kernel)

end LcdPico
