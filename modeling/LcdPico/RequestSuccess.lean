import LcdPico.ConfigInvariant
import LcdPico.HostPlatform
import LcdPico.RangeCheck

/-!
# When success means that the request was carried out (`command.c`)

Three command functions whose result starts out as success: `cmd_ssh_pubkey_add` falls
through arguments that do not parse, `cmd_led` through numbers that it does not take, and
`cmd_vsensor_source` reads every word that `str2vsmode` does not know as `manual`. For
each, what success should mean is a property of the call and of the configurations before
and after it, and holds exactly on the calls that are not of these kinds.
-/

namespace LcdPico

variable {F D : Type} (P : Platform F D)

/-! ## SSH public keys -/

/-- A slot that was free holds the user name and the key in the arguments. -/
def KeyAdded (args : CString) (keys keys' : CArray SshPublicKey SSH_MAX_PUB_KEYS) : Prop :=
  ∃ username pubkey, pubkeyArgs P args = some (username, pubkey) ∧
    ∃ i < SSH_MAX_PUB_KEYS, (keys.rd i).pubkeySize = 0 ∧ (keys'.rd i).username.val = username ∧
      keys'.rd i = { pubkey with username := (keys'.rd i).username }

/-- The arguments hold a user name and a key, and the name fits unless there is no slot for
it. -/
def CompleteKey (args : CString) (keys : CArray SshPublicKey SSH_MAX_PUB_KEYS) : Prop :=
  ∃ username pubkey, pubkeyArgs P args = some (username, pubkey) ∧
    ((∀ i < SSH_MAX_PUB_KEYS, (keys.rd i).pubkeySize ≠ 0) ∨ username.length ≤ MAX_USERNAME_LEN)

theorem firstFreeSlot_none {keys : CArray SshPublicKey SSH_MAX_PUB_KEYS} :
    firstFreeSlot keys = none ↔ ∀ i < SSH_MAX_PUB_KEYS, (keys.rd i).pubkeySize ≠ 0 := by
  simp [firstFreeSlot]

theorem firstFreeSlot_some {keys : CArray SshPublicKey SSH_MAX_PUB_KEYS} {idx : Nat}
    (h : firstFreeSlot keys = some idx) :
    idx < SSH_MAX_PUB_KEYS ∧ (keys.rd idx).pubkeySize = 0 := by
  obtain ⟨hfree, hmem, -⟩ := List.find?_range_eq_some.mp h
  exact ⟨List.mem_range.mp hmem, of_decide_eq_true hfree⟩

theorem CStr.copy_val_iff {size : Nat} (src : CString) :
    (CStr.copy src : CStr size).val = src ↔ src.length ≤ size - 1 :=
  List.take_eq_self_iff src

theorem cmdSshPubkeyAdd_success (call : Call) (conf : SystemConfig F)
    (hq : call.query = false) :
    ((cmdSshPubkeyAdd P call conf).1 = 0 →
        KeyAdded P call.args conf.sshPubKeys (cmdSshPubkeyAdd P call conf).2.sshPubKeys) ↔
      CompleteKey P call.args conf.sshPubKeys := by
  simp only [cmdSshPubkeyAdd, hq, Bool.false_eq_true, if_false, CompleteKey]
  cases hargs : pubkeyArgs P call.args with
  | none => simp [KeyAdded, hargs]
  | some key =>
    obtain ⟨username, pubkey⟩ := key
    cases hslot : firstFreeSlot conf.sshPubKeys with
    | none =>
      have hfull := firstFreeSlot_none.mp hslot
      exact ⟨fun _ => ⟨username, pubkey, rfl, .inl hfull⟩, fun _ h => absurd h (by simp)⟩
    | some idx =>
      obtain ⟨hidx, hfree⟩ := firstFreeSlot_some hslot
      constructor
      · intro h
        obtain ⟨u, k, heq, i, hi, hfree', hname, hkey⟩ := h rfl
        rw [hargs] at heq
        obtain ⟨rfl, rfl⟩ := Prod.mk.inj (Option.some.inj heq)
        refine ⟨username, pubkey, rfl, .inr ?_⟩
        by_cases hi' : idx = i
        · subst hi'
          rw [CArray.rd_wr_self _ hidx] at hname
          exact (CStr.copy_val_iff username).mp hname
        · -- another slot is as free as it was, and no key is empty
          rw [CArray.rd_wr_ne _ hi'] at hkey
          obtain ⟨-, hwell⟩ := pubkeyArgs_wellFormed hargs
          have hpos := hwell.pubkey_pos
          rw [hkey] at hfree'
          exact absurd hfree' (Nat.pos_iff_ne_zero.mp hpos)
      · rintro ⟨u, k, heq, hfits⟩ -
        obtain ⟨rfl, rfl⟩ := Prod.mk.inj (Option.some.inj heq)
        have hlen : username.length ≤ MAX_USERNAME_LEN :=
          hfits.resolve_left fun hfull => hfull idx hidx hfree
        refine ⟨username, pubkey, hargs, idx, hidx, hfree, ?_⟩
        rw [CArray.rd_wr_self _ hidx]
        exact ⟨(CStr.copy_val_iff username).mpr hlen, rfl⟩

/-! ## The LED mode -/

/-- The argument is a number, and it is the LED mode. -/
def LedModeIs (args : CString) (ledMode : UInt8) : Prop :=
  ∃ mode, strToInt args 10 = some mode ∧ (ledMode.toNat : Int) = mode

/-- The argument is one of the three modes, or the mode the LED has anyway. -/
def LedModeTaken (args : CString) (ledMode : UInt8) : Prop :=
  ∃ mode, strToInt args 10 = some mode ∧
    (0 ≤ mode ∧ mode ≤ 2 ∨ mode = (ledMode.toNat : Int))

theorem cmdLed_success (call : Call) (conf : SystemConfig F) (hq : call.query = false) :
    ((cmdLed call conf).1 = 0 → LedModeIs call.args (cmdLed call conf).2.ledMode) ↔
      LedModeTaken call.args conf.ledMode := by
  simp only [cmdLed, hq, Bool.false_eq_true, if_false, LedModeIs, LedModeTaken]
  cases hmode : strToInt call.args 10 with
  | none => simp
  | some mode =>
    by_cases hrange : 0 ≤ mode ∧ mode ≤ 2
    · have hstored : ((UInt8.ofInt mode).toNat : Int) = mode := by
        rw [uint8_toNat_ofInt]
        omega
      simp [hrange, hstored]
    · simp only [hrange, if_false, Option.some.injEq, exists_eq_left', false_or, true_implies]
      exact eq_comm

/-! ## The source of a virtual sensor -/

/-- A word names a mode as `str2vsmode` compares: in any case, and by as many characters as
the name has. -/
def Names (tok : CString) (mode : VsMode) : Prop :=
  CText.strncaseeq tok (vsmode2str mode) (vsmode2str mode).length = true

instance (tok : CString) (mode : VsMode) : Decidable (Names tok mode) :=
  inferInstanceAs (Decidable (_ = true))

/-- Every mode that is read, `manual` apart, is named by the word. -/
theorem names_str2vsmode {tok : CString} (h : str2vsmode tok ≠ .manual) :
    Names tok (str2vsmode tok) := by
  unfold str2vsmode at h ⊢
  split_ifs with hmax hmin havg hdelta hint hi2c
  · exact hmax
  · exact hmin
  · exact havg
  · exact hdelta
  · exact hint
  · exact hi2c
  · rw [if_neg hmax, if_neg hmin, if_neg havg, if_neg hdelta, if_neg hint, if_neg hi2c] at h
    exact absurd rfl h

/-- A word that is read as `manual` names no other mode. -/
theorem eq_manual_of_names {tok : CString} (h : str2vsmode tok = .manual) {mode : VsMode}
    (hn : Names tok mode) : mode = .manual := by
  unfold str2vsmode at h
  split_ifs at h with hmax hmin havg hdelta hint hi2c
  cases mode with
  | manual => rfl
  | max => exact absurd hn hmax
  | min => exact absurd hn hmin
  | avg => exact absurd hn havg
  | delta => exact absurd hn hdelta
  | internal => exact absurd hn hint
  | i2c => exact absurd hn hi2c

/-- The first word names the mode of the sensor. -/
def SourceNamed (args : CString) (mode : VsMode) : Prop :=
  ∃ tok toks, CText.tokens (CText.isChar ',') args = tok :: toks ∧ Names tok mode

/-- The first word names no mode, and a temperature and a time-out follow. -/
def UnknownSource (args : CString) : Prop :=
  ∃ tok toks, CText.tokens (CText.isChar ',') args = tok :: toks ∧
    (∀ mode, ¬Names tok mode) ∧
    (toks[0]?.bind P.strtof).isSome ∧ (toks[1]?.bind (strToInt · 10)).isSome

/-- A source that is accepted has the mode that its first word is read as. -/
theorem sourceSetting_accepted {args : CString} {v : VsensorInput F}
    (h : (sourceSetting P args v).1 = 0) :
    ∃ tok toks, CText.tokens (CText.isChar ',') args = tok :: toks ∧
      (sourceSetting P args v).2.mode = str2vsmode tok ∧
      (str2vsmode tok = .manual →
        (toks[0]?.bind P.strtof).isSome ∧ (toks[1]?.bind (strToInt · 10)).isSome) := by
  simp only [sourceSetting] at h ⊢
  cases htoks : CText.tokens (CText.isChar ',') args with
  | nil =>
    rw [htoks] at h
    exact absurd h (by simp)
  | cons tok toks =>
    simp only [htoks] at h ⊢
    refine ⟨tok, toks, rfl, ?_⟩
    cases hmode : str2vsmode tok with
    | manual =>
      simp only [hmode] at h ⊢
      cases htemp : toks[0]?.bind P.strtof with
      | none => simp [htemp] at h
      | some temp =>
        cases htimeout : toks[1]?.bind (strToInt · 10) with
        | none => simp [htemp, htimeout] at h
        | some timeout => exact ⟨rfl, fun _ => ⟨rfl, rfl⟩⟩
    | i2c =>
      simp only [hmode] at h ⊢
      refine ⟨?_, fun h => by cases h⟩
      grind
    | internal =>
      -- the result is never success here
      simp only [hmode] at h
      split at h
      · split_ifs at h <;> exact absurd h (by simp)
      · exact absurd h (by simp)
    | max | min | avg | delta => simp [hmode] at h

/-- A word that is read as `manual` is accepted with the parameters of that mode. -/
theorem sourceSetting_manual {args : CString} (v : VsensorInput F) {tok : CString}
    {toks : List CString} (htoks : CText.tokens (CText.isChar ',') args = tok :: toks)
    (hmode : str2vsmode tok = .manual) (htemp : (toks[0]?.bind P.strtof).isSome)
    (htimeout : (toks[1]?.bind (strToInt · 10)).isSome) :
    (sourceSetting P args v).1 = 0 := by
  obtain ⟨temp, htemp⟩ := Option.isSome_iff_exists.mp htemp
  obtain ⟨timeout, htimeout⟩ := Option.isSome_iff_exists.mp htimeout
  simp only [sourceSetting, htoks, hmode, htemp, htimeout]

theorem sourceSetting_success (args : CString) (v : VsensorInput F) :
    ((sourceSetting P args v).1 = 0 → SourceNamed args (sourceSetting P args v).2.mode) ↔
      ¬UnknownSource P args := by
  constructor
  · rintro h ⟨tok, toks, htoks, hunknown, htemp, htimeout⟩
    have hmode : str2vsmode tok = .manual :=
      Decidable.byContradiction fun hne => hunknown _ (names_str2vsmode hne)
    obtain ⟨tok', toks', htoks', hnames⟩ := h (sourceSetting_manual P v htoks hmode htemp htimeout)
    rw [htoks] at htoks'
    obtain ⟨rfl, rfl⟩ := List.cons.inj htoks'
    exact hunknown _ hnames
  · intro h hres
    obtain ⟨tok, toks, htoks, hstored, hparams⟩ := sourceSetting_accepted P hres
    refine ⟨tok, toks, htoks, ?_⟩
    rw [hstored]
    by_cases hmode : str2vsmode tok = .manual
    · obtain ⟨htemp, htimeout⟩ := hparams hmode
      rw [hmode]
      refine Decidable.byContradiction fun hn => h ⟨tok, toks, htoks, fun mode hm => ?_, htemp,
        htimeout⟩
      obtain rfl := eq_manual_of_names hmode hm
      exact hn hm
    · exact names_str2vsmode hmode

/-! ## The three command functions -/

section Commands

variable [Inhabited F]

/-- The sensor in the header has the mode that the first word of the arguments names. -/
def SourceTaken (call : Call) (conf : SystemConfig F) : Prop :=
  ∃ sensor, sensorIn (getPrevCmdIndex call.prevCmd 0 - 1) = some sensor ∧
    SourceNamed call.args (conf.vsensors.rd sensor).mode

theorem cmdVsensorSource_success (call : Call) (conf : SystemConfig F)
    (hq : call.query = false) :
    ((cmdVsensorSource P call conf).1 = 0 → SourceTaken call (cmdVsensorSource P call conf).2) ↔
      ¬((sensorIn (getPrevCmdIndex call.prevCmd 0 - 1)).isSome ∧ UnknownSource P call.args) := by
  simp only [cmdVsensorSource, SourceTaken]
  cases hs : sensorIn (getPrevCmdIndex call.prevCmd 0 - 1) with
  | none => simp
  | some sensor =>
    have hsetting := sourceSetting_success P call.args (conf.vsensors.rd sensor)
    simpa [hq, CArray.rd_wr_self _ (sensorIn_lt hs)] using hsetting

/-- **Success means that the request was carried out**, exactly on the arguments that hold
all of a key, on the numbers that are LED modes, and on the sources whose name is known. -/
theorem request_success_iff (call : Call) (conf : SystemConfig F) :
    ((call.query = false → (cmdSshPubkeyAdd P call conf).1 = 0 →
        KeyAdded P call.args conf.sshPubKeys (cmdSshPubkeyAdd P call conf).2.sshPubKeys) ↔
      call.query = true ∨ CompleteKey P call.args conf.sshPubKeys) ∧
    ((call.query = false → (cmdLed call conf).1 = 0 →
        LedModeIs call.args (cmdLed call conf).2.ledMode) ↔
      call.query = true ∨ LedModeTaken call.args conf.ledMode) ∧
    ((call.query = false → (cmdVsensorSource P call conf).1 = 0 →
        SourceTaken call (cmdVsensorSource P call conf).2) ↔
      call.query = true ∨
        ¬((sensorIn (getPrevCmdIndex call.prevCmd 0 - 1)).isSome ∧
          UnknownSource P call.args)) := by
  cases hq : call.query with
  | true => simp
  | false =>
    simp only [true_implies, Bool.false_eq_true, false_or]
    exact ⟨cmdSshPubkeyAdd_success P call conf hq, cmdLed_success call conf hq,
      cmdVsensorSource_success P call conf hq⟩

end Commands

/-! ## On the host platform -/

/-- A unit without a header above it. -/
def plainCall (cmd args : String) : Call :=
  { cmd := cmd.toList, args := args.toList, query := false, prevCmd := [] }

/-- `CONF:VSENSOR1:SOURCE` -/
def sourceCall (args : String) : Call :=
  { plainCall "SOURCE" args with prevCmd := ["CONF".toList, "VSENSOR1".toList] }

/-- Success is reported to a key that is not one, to a number that is no LED mode, and to a
source that does not exist, which becomes `manual`. -/
theorem request_success_without_effect :
    let conf := clearConfig hostPlatform
    ((cmdSshPubkeyAdd hostPlatform (plainCall "ADD" "ann nonsense") conf).1 = 0 ∧
      ¬KeyAdded hostPlatform "ann nonsense".toList conf.sshPubKeys
        (cmdSshPubkeyAdd hostPlatform (plainCall "ADD" "ann nonsense") conf).2.sshPubKeys) ∧
    ((cmdLed (plainCall "LED" "9") conf).1 = 0 ∧
      ¬LedModeIs "9".toList (cmdLed (plainCall "LED" "9") conf).2.ledMode) ∧
    ((cmdVsensorSource hostPlatform (sourceCall "foo,25.0,30") conf).1 = 0 ∧
      ¬SourceTaken (sourceCall "foo,25.0,30")
        (cmdVsensorSource hostPlatform (sourceCall "foo,25.0,30") conf).2) := by
  intro conf
  have hargs : pubkeyArgs hostPlatform "ann nonsense".toList = none := by decide +kernel
  have hled : (cmdLed (plainCall "LED" "9") conf).2.ledMode = 0 := by decide +kernel
  have hnine : strToInt "9".toList 10 = some 9 := by decide +kernel
  have hsensor : sensorIn (getPrevCmdIndex (sourceCall "foo,25.0,30").prevCmd 0 - 1) = some 0 := by
    decide +kernel
  have htoks : CText.tokens (CText.isChar ',') "foo,25.0,30".toList =
      ["foo".toList, "25.0".toList, "30".toList] := by decide +kernel
  have hfoo : ∀ mode, ¬Names "foo".toList mode := by
    intro mode
    cases mode <;> decide +kernel
  refine ⟨⟨by decide +kernel, ?_⟩, ⟨by decide +kernel, ?_⟩, by decide +kernel, ?_⟩
  · rintro ⟨username, pubkey, h, -⟩
    rw [hargs] at h
    cases h
  · rintro ⟨mode, hmode, hstored⟩
    rw [hnine] at hmode
    obtain rfl := Option.some.inj hmode
    rw [hled] at hstored
    exact absurd hstored (by decide)
  · rintro ⟨sensor, -, tok, toks, h, hnames⟩
    rw [show (sourceCall "foo,25.0,30").args = "foo,25.0,30".toList from rfl, htoks] at h
    obtain ⟨rfl, -⟩ := List.cons.inj h
    exact hfoo _ hnames

end LcdPico
