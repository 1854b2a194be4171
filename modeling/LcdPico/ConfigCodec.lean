import LcdPico.ConfigJson
import LcdPico.MaskText
import LcdPico.Lib.Packed
import Mathlib.Data.List.Basic
import Mathlib.Data.List.TakeWhile

/-!
# Each kind of setting and its JSON item

What one item of the saved configuration gives back, for each of the ways in which
`config_to_json` writes a variable: always, unless it is zero, unless it is true,
unless it is empty, as a list. The functions from outside the firmware are assumed
to read back what they write (`Platform.RoundTrips`).
-/

namespace LcdPico

/-- What is relied on of the functions from outside: a written value is read back. -/
structure Platform.RoundTrips {F D : Type} (P : Platform F D) : Prop where
  /-- integers of 32 bits are doubles -/
  toInt_ofInt : ∀ i : Int, -2 ^ 31 ≤ i → i < 2 ^ 32 → P.toInt (P.ofInt i) = i
  toBool_zero : P.toBool (P.ofInt 0) = false
  toBool_one : P.toBool (P.ofInt 1) = true
  /-- floats are doubles -/
  toFloat_ofFloat : ∀ x, P.toFloat (P.ofFloat x) = x
  aton_ntoa : ∀ ip, P.ipaddrAton (P.ipaddrNtoa ip) = some ip
  ntoa_ne_nil : ∀ ip, P.ipaddrNtoa ip ≠ []
  ntoa_noSlash : ∀ ip, '/' ∉ P.ipaddrNtoa ip
  length_ntoa : ∀ ip, (P.ipaddrNtoa ip).length ≤ 15
  decode_encode : ∀ bytes, P.base64decodeRaw (P.base64encodeRaw bytes) = bytes
  encode_ne_nil : ∀ bytes, bytes ≠ [] → P.base64encodeRaw bytes ≠ []
  encode_noBlank : ∀ bytes, ' ' ∉ P.base64encodeRaw bytes
  /-- 172 symbols for 128 bytes, and line breaks -/
  length_encode : ∀ bytes, bytes.length ≤ 128 → (P.base64encodeRaw bytes).length ≤ 176
  sensorType_str : ∀ s,
    P.getI2cSensorType (P.i2cSensorTypeStr (P.getI2cSensorType s)) = P.getI2cSensorType s
  sensorType_zero : P.getI2cSensorType (P.i2cSensorTypeStr 0) = 0

/-- What of this a key needs to be read back from its text. -/
structure Platform.EncodesKeys {F D : Type} (P : Platform F D) : Prop where
  decode_encode : ∀ bytes, P.base64decodeRaw (P.base64encodeRaw bytes) = bytes
  encode_ne_nil : ∀ bytes, bytes ≠ [] → P.base64encodeRaw bytes ≠ []
  encode_noBlank : ∀ bytes, ' ' ∉ P.base64encodeRaw bytes
  length_encode : ∀ bytes, bytes.length ≤ 128 → (P.base64encodeRaw bytes).length ≤ 176

theorem Platform.RoundTrips.encodesKeys {F D : Type} {P : Platform F D} (hP : P.RoundTrips) :
    P.EncodesKeys :=
  ⟨hP.decode_encode, hP.encode_ne_nil, hP.encode_noBlank, hP.length_encode⟩

section

variable {F D : Type} {P : Platform F D} {obj : Json D} {name : CString}

/-! ## Numbers -/

/-- An item that is always written. -/
theorem jsonToNum_some {V : Type} {d : D} {ofDouble : D → V} {v : V} (var : V)
    (hitem : obj.getObjectItem name = some (.number d)) (hv : ofDouble d = v) :
    jsonToNum P obj name ofDouble var = v := by
  rw [jsonToNum, hitem]
  exact hv

/-- An item that is written under a condition, without which the variable keeps
its default. -/
theorem jsonToNum_ite {V : Type} {c : Prop} [Decidable c] {d : D} {ofDouble : D → V} {v var : V}
    (hitem : obj.getObjectItem name = if c then some (.number d) else none)
    (hv : ofDouble d = v) (hdefault : ¬ c → var = v) : jsonToNum P obj name ofDouble var = v := by
  rw [jsonToNum, hitem]
  split_ifs with hc
  · exact hv
  · exact hdefault hc

theorem toU8_ofInt (hP : P.RoundTrips) (v : UInt8) : toU8 P (P.ofInt v.toNat) = v := by
  have hv := v.toNat_lt
  have hmod : ((v.toNat : Int) % 2 ^ 8).toNat = v.toNat := by omega
  rw [toU8, hP.toInt_ofInt _ (by omega) (by omega), UInt8.ofInt, hmod,
    UInt8.ofNat_toNat]

theorem toU16_ofInt (hP : P.RoundTrips) (v : UInt16) : toU16 P (P.ofInt v.toNat) = v := by
  have hv := v.toNat_lt
  have hmod : ((v.toNat : Int) % 2 ^ 16).toNat = v.toNat := by omega
  rw [toU16, hP.toInt_ofInt _ (by omega) (by omega), UInt16.ofInt, hmod,
    UInt16.ofNat_toNat]

theorem toU32_ofInt (hP : P.RoundTrips) (v : UInt32) : toU32 P (P.ofInt v.toNat) = v := by
  have hv := v.toNat_lt
  have hmod : ((v.toNat : Int) % 2 ^ 32).toNat = v.toNat := by omega
  rw [toU32, hP.toInt_ofInt _ (by omega) (by omega), UInt32.ofInt, hmod,
    UInt32.ofNat_toNat]

theorem toI32_ofInt (hP : P.RoundTrips) {v : Int} (hv : -2 ^ 31 ≤ v ∧ v < 2 ^ 31) :
    toI32 P (P.ofInt v) = v := by
  rw [toI32, hP.toInt_ofInt _ hv.1 (by omega)]
  omega

theorem toBool_boolToNum (hP : P.RoundTrips) (b : Bool) :
    P.toBool (P.ofInt (if b then 1 else 0)) = b := by
  cases b
  · exact hP.toBool_zero
  · exact hP.toBool_one

/-! ## Strings, addresses and masks -/

/-- An empty string is left out, so the default comes back. -/
theorem jsonToString_eq {size : Nat} {s : CStr size} (var : CStr size)
    (hitem : obj.getObjectItem name = stringToJson s) :
    jsonToString obj name var = if s.val = [] then var else s := by
  rw [jsonToString, hitem, stringToJson]
  by_cases hs : s.val = []
  · simp [hs]
  · have hlen := List.length_pos_iff.mpr hs
    simp [hs, hlen, Json.getStringValue]

/-- Where the default is empty, every string comes back. -/
theorem jsonToString_empty {size : Nat} {s var : CStr size} (hvar : var.val = [])
    (hitem : obj.getObjectItem name = stringToJson s) : jsonToString obj name var = s := by
  rw [jsonToString_eq var hitem]
  split_ifs with hs
  · exact Subtype.ext (hvar.trans hs.symm)
  · rfl

/-- The bytes of a text are the text. -/
theorem bytesText_rawBytes {s : CString} (hs : ∀ c ∈ s, 0 < c.toNat ∧ c.toNat < 256) :
    bytesText (rawBytes s) = s := by
  have hbyte : ∀ c ∈ s, (UInt8.ofNat c.toNat).toNat = c.toNat := by
    intro c hc
    have := hs c hc
    simp only [UInt8.toNat_ofNat']
    omega
  have hnul : ∀ b ∈ rawBytes s, decide (b ≠ 0) = true := by
    intro b hb
    obtain ⟨c, hc, rfl⟩ := List.mem_map.mp hb
    have hpos := (hs c hc).1
    rw [decide_eq_true_iff]
    intro h
    rw [← hbyte c hc, h] at hpos
    exact absurd hpos (by decide)
  rw [bytesText, List.takeWhile_eq_self_iff.mpr hnul, rawBytes, List.map_map]
  conv_rhs => rw [← List.map_id s]
  refine List.map_congr_left fun c hc => ?_
  rw [Function.comp_apply, hbyte c hc, Char.ofNat_toNat, id]

theorem jsonToPasswd_eq (hP : P.RoundTrips) {size : Nat} {s var : CStr size}
    (hvar : var.val = []) (hs : ∀ c ∈ s.val, 0 < c.toNat ∧ c.toNat < 256)
    (hitem : obj.getObjectItem name = passwdToJson P s) : jsonToPasswd P obj name var = s := by
  rw [jsonToPasswd, hitem, passwdToJson]
  by_cases hempty : s.val = []
  · have heq : var = s := Subtype.ext (hvar.trans hempty.symm)
    simpa [hempty] using heq
  · have hlen := List.length_pos_iff.mpr hempty
    simp only [hlen, if_true, Option.bind_some, Json.getStringValue, base64decode, base64encode,
      hP.decode_encode, bytesText_rawBytes hs, CStr.copy_val]

theorem jsonToIp_eq (hP : P.RoundTrips) {ip : IpAddr}
    (hitem : obj.getObjectItem name = ipToJson P ip) : jsonToIp P obj name 0 = ip := by
  rw [jsonToIp, hitem, ipToJson]
  by_cases hip : ip = 0
  · simp [hip, ipAddrIsany]
  · have hany : ipAddrIsany ip = false := by simp [ipAddrIsany, hip]
    simp [hany, Json.getStringValue, hP.aton_ntoa]

/-- The mask of all sensors is left out, so no sensor comes back. -/
theorem jsonToBitmask_eq {mask : UInt16} (hmask : mask.toNat < 256)
    (hitem : obj.getObjectItem name =
      if mask.toNat ≠ 1 <<< VSENSOR_COUNT - 1 then bitmaskToJson mask VSENSOR_MAX_COUNT
      else none) :
    jsonToBitmask obj name 0 VSENSOR_MAX_COUNT = if mask = 255 then 0 else mask := by
  have hall : mask.toNat ≠ 1 <<< VSENSOR_COUNT - 1 ↔ mask ≠ 255 := by
    rw [ne_eq, ne_eq, ← UInt16.toNat_inj]
    exact Iff.rfl
  rw [jsonToBitmask, hitem]
  simp only [hall, bitmaskToJson]
  by_cases h255 : mask = 255
  · simp [h255]
  · by_cases hzero : mask = 0
    · simp [hzero]
    · have htext : strToBitmask (bitmaskToStr mask.toNat VSENSOR_MAX_COUNT 1 true)
          VSENSOR_MAX_COUNT 1 = some mask.toNat :=
        strToBitmask_bitmaskToStr (by decide) (by decide) (by decide) hmask true
      simp [h255, hzero, Json.getStringValue, htext]

/-! ## Lists -/

/-- The element that an item of a list stands for. -/
def itemValue {α : Type} (parse : CString → Option α) (o : Json D) : Option α :=
  o.getStringValue.bind parse

/-- A list item by item, as long as there is room in the array. -/
theorem jsonListLoop_eq {α : Type} {n : Nat} (parse : CString → Option α) (blank : α)
    (items : List (Json D)) {l : List α} (hl : l.length ≤ n) :
    jsonListLoop parse items (CArray.fill blank l : CArray α n) l.length =
      CArray.fill blank (l ++ items.filterMap (itemValue parse)) := by
  induction items generalizing l with
  | nil => simp [jsonListLoop]
  | cons o items ih =>
    rw [jsonListLoop]
    cases hval : o.getStringValue with
    | none =>
      have hskip : itemValue parse o = none := by rw [itemValue, hval, Option.bind_none]
      rw [List.filterMap_cons_none hskip]
      exact ih hl
    | some val =>
      cases hx : parse val with
      | none =>
        have hskip : itemValue parse o = none := by rw [itemValue, hval, Option.bind_some, hx]
        rw [List.filterMap_cons_none hskip]
        simp only [hx, ite_self]
        exact ih hl
      | some x =>
        have hparsed : itemValue parse o = some x := by rw [itemValue, hval, Option.bind_some, hx]
        rw [List.filterMap_cons_some hparsed]
        simp only [hx]
        split_ifs with hlt
        · have hroom : (l ++ [x]).length ≤ n := by
            rw [List.length_append]
            exact hlt
          have hstep := ih hroom
          rw [CArray.fill_wr_length]
          simpa using hstep
        · have hfull : n ≤ l.length := Nat.le_of_not_lt hlt
          rw [ih hl, CArray.fill_append blank hfull, CArray.fill_append blank hfull]

/-- Items that are read back make the list of the elements in use. -/
theorem filterMap_items {α : Type} (parse : CString → Option α) (keep : α → Bool)
    (toJson : α → Option (Json D)) {l : List α}
    (h : ∀ x ∈ l, (toJson x).bind (itemValue parse) = if keep x then some x else none) :
    (l.filterMap toJson).filterMap (itemValue parse) = l.filter keep := by
  rw [List.filterMap_filterMap, List.filterMap_congr h]
  exact congrFun List.filterMap_eq_filter l

/-- The addresses that are not 0.0.0.0 come back. -/
theorem json2iplist_iplist2json (hP : P.RoundTrips) {n : Nat} (list : CArray IpAddr n) :
    json2iplist P (iplist2json P list) n =
      CArray.fill 0 (list.toList.filter fun ip => !ipAddrIsany ip) := by
  have hloop := jsonListLoop_eq (n := n) P.ipaddrAton (0 : IpAddr)
    (iplist2json P list).children (l := []) (Nat.zero_le n)
  have hitems := filterMap_items P.ipaddrAton (fun ip => !ipAddrIsany ip) (ipItem P)
    (l := list.toList) fun ip _ => by
      cases hany : ipAddrIsany ip <;>
        simp [ipItem, itemValue, hany, Json.getStringValue, hP.aton_ntoa]
  rw [List.length_nil, CArray.fill_nil, List.nil_append] at hloop
  rw [json2iplist, hloop]
  exact congrArg _ hitems

/-- An entry is read back from what is printed of it, with its prefix clamped. -/
theorem aclEntry_printed (hP : P.RoundTrips) (e : AclEntry) :
    aclEntry P (P.ipaddrNtoa e.ip ++ '/' :: CText.utoa e.prefixLen.toNat) =
      some { e with prefixLen := UInt8.ofInt (clampInt e.prefixLen.toNat 0 32) } := by
  have hprefix := e.prefixLen.toNat_lt
  have hslash : ∀ c ∈ P.ipaddrNtoa e.ip, CText.isChar '/' c = false := by
    intro c hc
    simpa [CText.isChar] using fun h : c = '/' => hP.ntoa_noSlash e.ip (h ▸ hc)
  have hnum : ∀ c ∈ CText.utoa e.prefixLen.toNat, CText.isChar '/' c = false := by
    intro c hc
    have hdigit := CText.isDigit_of_mem_utoa hc
    simpa [CText.isChar] using fun h : c = '/' => absurd (h ▸ hdigit) (by decide)
  have hint : strToInt (CText.utoa e.prefixLen.toNat) 10 = some (e.prefixLen.toNat : Int) :=
    strToInt_utoa (by omega)
  rw [aclEntry, CText.tokens_word_append hslash (hP.ntoa_ne_nil _) rfl,
    CText.tokens_word hnum (CText.utoa_ne_nil _)]
  simp only [List.getElem?_cons_zero, List.getElem?_cons_succ, Option.bind_some, hP.aton_ntoa, hint]

/-- A prefix of 32 bits at most is not changed by clamping. -/
theorem clampPrefix_eq {p : UInt8} (hp : p ≤ 32) : UInt8.ofInt (clampInt p.toNat 0 32) = p := by
  have hle : p.toNat ≤ 32 := UInt8.le_iff_toNat_le.mp hp
  have hclamp : clampInt p.toNat 0 32 = p.toNat := by
    simp only [clampInt]
    omega
  have hmod : ((p.toNat : Int) % 2 ^ 8).toNat = p.toNat := by omega
  rw [hclamp, UInt8.ofInt, hmod, UInt8.ofNat_toNat]

/-- A prefix is not clamped to 0. -/
theorem clampPrefix_pos {p : UInt8} (hp : p > 0) : UInt8.ofInt (clampInt p.toNat 0 32) > 0 := by
  have hpos : 0 < p.toNat := UInt8.lt_iff_toNat_lt.mp hp
  have hclamp : 0 < clampInt p.toNat 0 32 ∧ clampInt p.toNat 0 32 ≤ 32 := by
    simp only [clampInt]
    omega
  rw [gt_iff_lt, UInt8.lt_iff_toNat_lt]
  simp only [UInt8.ofInt, UInt8.toNat_ofNat']
  have : (0 : UInt8).toNat = 0 := rfl
  omega

/-- The text of an entry is not cut off. -/
theorem aclText_whole (hP : P.RoundTrips) (e : AclEntry) :
    CText.strncopy (P.ipaddrNtoa e.ip ++ '/' :: CText.utoa e.prefixLen.toNat) 128 =
      P.ipaddrNtoa e.ip ++ '/' :: CText.utoa e.prefixLen.toNat := by
  have hprefix := e.prefixLen.toNat_lt
  have hdigits : (CText.utoa e.prefixLen.toNat).length ≤ 3 :=
    (Nat.length_toDigits_le_iff (by decide) (by decide)).mpr (by omega)
  have hlen := hP.length_ntoa e.ip
  refine List.take_of_length_le ?_
  simp only [List.length_append, List.length_cons]
  omega

/-- An entry is read back from its text. -/
theorem aclEntry_text (hP : P.RoundTrips) {e : AclEntry} (he : e.prefixLen ≤ 32) :
    aclEntry P (CText.strncopy (P.ipaddrNtoa e.ip ++ '/' :: CText.utoa e.prefixLen.toNat) 128) =
      some e := by
  rw [aclText_whole hP, aclEntry_printed hP, clampPrefix_eq he]

/-- The entries with a prefix come back. -/
theorem json2acllist_acllist2json (hP : P.RoundTrips) {n : Nat} {list : CArray AclEntry n}
    (hlist : list.All fun e => e.prefixLen ≤ 32) :
    (match acllist2json P list with
      | some ref => json2acllist P ref n
      | none => Vector.replicate n default) =
      CArray.fill default (list.toList.filter fun e => e.prefixLen > 0) := by
  have hloop := jsonListLoop_eq (n := n) (aclEntry P) (default : AclEntry)
    (list.toList.filterMap (aclItem P)) (l := []) (Nat.zero_le n)
  have hitems := filterMap_items (aclEntry P) (fun e => e.prefixLen > 0) (aclItem P)
    (l := list.toList) fun e he => by
      by_cases hpos : e.prefixLen > 0
      · simp [aclItem, itemValue, hpos, Json.getStringValue, aclEntry_text hP (hlist.mem he)]
      · simp [aclItem, hpos]
  rw [List.length_nil, CArray.fill_nil, List.nil_append] at hloop
  rw [acllist2json, someArray]
  by_cases hnone : (list.toList.filterMap (aclItem P)).length < 1
  · have hempty : list.toList.filterMap (aclItem P) = [] :=
      List.length_eq_zero_iff.mp (Nat.lt_one_iff.mp hnone)
    rw [hempty, List.filterMap_nil] at hitems
    rw [if_pos hnone, ← hitems, CArray.fill_nil]
  · rw [if_neg hnone, ← hitems, ← hloop]
    rfl

theorem acls_eq (hP : P.RoundTrips) {n : Nat} {list : CArray AclEntry n}
    (hlist : list.All fun e => e.prefixLen ≤ 32)
    (hitem : obj.getObjectItem name = acllist2json P list) :
    (match obj.getObjectItem name with
      | some ref => json2acllist P ref n
      | none => Vector.replicate n default) =
      CArray.fill default (list.toList.filter fun e => e.prefixLen > 0) := by
  rw [hitem]
  exact json2acllist_acllist2json hP hlist

/-! ## SSH public keys -/

/-- A key that is listed is one. -/
theorem SshPublicKey.pubkeySize_pos {k : SshPublicKey} (h : k.isListed = true) :
    0 < k.pubkeySize := by
  rw [isListed, Bool.and_eq_true, decide_eq_true_iff] at h
  exact h.1

/-- What a key that was parsed from its text is like. -/
structure SshPublicKey.WellFormed (k : SshPublicKey) : Prop where
  type_ne_nil : k.type.val ≠ []
  type_noBlank : ' ' ∉ k.type.val
  name_noBlank : ' ' ∉ k.name.val
  pubkey_pos : 0 < k.pubkeySize
  type_mem : memmem k.pubkey.val (rawBytes k.type.val) = true

/-- The text of a key is not cut off. -/
theorem sshPubkeyToStr_eq (hP : P.EncodesKeys) (k : SshPublicKey) :
    sshPubkeyToStr P k 256 =
      k.type.val ++ ' ' :: (P.base64encodeRaw k.pubkey.val ++ ' ' :: k.name.val) := by
  have htype := k.type.property
  have hname := k.name.property
  have hpubkey := hP.length_encode k.pubkey.val k.pubkey.property
  rw [sshPubkeyToStr, List.append_assoc]
  refine List.take_of_length_le ?_
  simp only [List.length_append, List.length_cons]
  omega

/-- A key is read back from its text. -/
theorem strToSshPubkey_str (hP : P.EncodesKeys) {k : SshPublicKey} (hk : k.WellFormed)
    (pk : SshPublicKey) :
    strToSshPubkey P (sshPubkeyToStr P k 256) pk = (true, { k with username := pk.username }) := by
  have hblank : ∀ s : CString, ' ' ∉ s → ∀ c ∈ s, CText.isChar ' ' c = false := by
    intro s hs c hc
    simpa [CText.isChar] using fun h : c = ' ' => hs (h ▸ hc)
  have hbytes : k.pubkey.val ≠ [] := List.length_pos_iff.mp hk.pubkey_pos
  have htokens : CText.tokens (CText.isChar ' ') (sshPubkeyToStr P k 256) =
      k.type.val :: P.base64encodeRaw k.pubkey.val ::
        CText.tokens (CText.isChar ' ') k.name.val := by
    rw [sshPubkeyToStr_eq hP,
      CText.tokens_word_append (hblank _ hk.type_noBlank) hk.type_ne_nil rfl,
      CText.tokens_word_append (hblank _ (hP.encode_noBlank _)) (hP.encode_ne_nil _ hbytes) rfl]
  have hkey : keyBytes P k.type.val (P.base64encodeRaw k.pubkey.val) = some k.pubkey := by
    have hsize : 0 < k.pubkey.val.length := hk.pubkey_pos
    simp only [keyBytes, hP.decode_encode]
    rw [dif_pos ⟨hsize, k.pubkey.property, hk.type_mem⟩]
  simp only [strToSshPubkey, htokens, CStr.copy_val, hkey]
  by_cases hname : k.name.val = []
  · have hempty : k.name = CStr.empty := Subtype.ext hname
    simp [hname, ← hempty]
  · simp [CText.tokens_word (hblank _ hk.name_noBlank) hname]

/-- The saved keys come back from the first slot on. -/
theorem sshPubkeysLoop_items (hP : P.RoundTrips) {ks done : List SshPublicKey}
    (hks : ∀ k ∈ ks, k.isListed = true ∧ k.WellFormed)
    (hlen : done.length + ks.length ≤ SSH_MAX_PUB_KEYS) :
    sshPubkeysLoop P (ks.filterMap (sshPubkeyItem P)) (CArray.fill clearSshPublicKey done)
      done.length = CArray.fill clearSshPublicKey (done ++ ks) := by
  induction ks generalizing done with
  | nil => simp [sshPubkeysLoop]
  | cons k ks ih =>
    obtain ⟨hlisted, hk⟩ := hks k (List.mem_cons_self ..)
    have hrest : ∀ k ∈ ks, k.isListed = true ∧ k.WellFormed := fun k' hk' =>
      hks k' (List.mem_cons_of_mem k hk')
    rw [List.length_cons] at hlen
    have hitem : sshPubkeyItem P k = some (.objectOf
        [("pubkey".toList, some (.string (sshPubkeyToStr P k 256))),
          ("user".toList, some (.string k.username.val))]) := if_pos hlisted
    have hparse := strToSshPubkey_str hP.encodesKeys hk
      ((CArray.fill clearSshPublicKey done : CArray _ SSH_MAX_PUB_KEYS).rd done.length)
    have hroom : (done ++ [k]).length + ks.length ≤ SSH_MAX_PUB_KEYS := by
      rw [List.length_append, List.length_singleton]
      omega
    have hnext := ih hrest hroom
    rw [List.append_assoc, List.length_append, List.singleton_append, List.length_singleton]
      at hnext
    rw [List.filterMap_cons_some hitem, sshPubkeysLoop]
    have huser : Json.getObjectItem (D := D) (.objectOf
        [("pubkey".toList, some (.string (sshPubkeyToStr P k 256))),
          ("user".toList, some (.string k.username.val))]) "user".toList =
        some (.string k.username.val) := rfl
    have hpubkey : Json.getObjectItem (D := D) (.objectOf
        [("pubkey".toList, some (.string (sshPubkeyToStr P k 256))),
          ("user".toList, some (.string k.username.val))]) "pubkey".toList =
        some (.string (sshPubkeyToStr P k 256)) := rfl
    simp only [huser, hpubkey, Json.getStringValue, hparse, Option.map_some, CStr.copy_val,
      Option.getD_some, CArray.fill_wr_length]
    split_ifs with hfull
    · -- the last slot is used, so no key is left
      have hnil : ks = [] := List.length_eq_zero_iff.mp (by omega)
      rw [hnil]
    · exact hnext

/-- The keys with a user come back. -/
theorem sshPubKeys_eq (hP : P.RoundTrips) {keys : CArray SshPublicKey SSH_MAX_PUB_KEYS}
    (hkeys : keys.All fun k => 0 < k.pubkeySize → k.WellFormed)
    (hitem : obj.getObjectItem name = sshpubkeys2json P keys) :
    (match obj.getObjectItem name with
      | some ref => json2sshpubkeys P ref
      | none => Vector.replicate _ clearSshPublicKey) =
      CArray.fill clearSshPublicKey (keys.toList.filter SshPublicKey.isListed) := by
  have hlisted : ∀ k ∈ keys.toList.filter SshPublicKey.isListed,
      k.isListed = true ∧ k.WellFormed := by
    intro k hk
    obtain ⟨hmem, hk⟩ := List.mem_filter.mp hk
    exact ⟨hk, hkeys.mem hmem (SshPublicKey.pubkeySize_pos hk)⟩
  have hlen : ([] : List SshPublicKey).length + (keys.toList.filter SshPublicKey.isListed).length ≤
      SSH_MAX_PUB_KEYS := by
    have := List.length_filter_le SshPublicKey.isListed keys.toList
    simpa using this
  have hloop := sshPubkeysLoop_items hP hlisted hlen
  have hitems : (keys.toList.filter SshPublicKey.isListed).filterMap (sshPubkeyItem P) =
      keys.toList.filterMap (sshPubkeyItem P) := by
    rw [List.filterMap_filter]
    refine List.filterMap_congr fun k _ => ?_
    split_ifs with hk
    · rfl
    · exact (if_neg hk).symm
  rw [hitems, List.nil_append, CArray.fill_nil] at hloop
  rw [hitem, sshpubkeys2json, someArray]
  by_cases hnone : (keys.toList.filterMap (sshPubkeyItem P)).length < 1
  · have hempty : keys.toList.filterMap (sshPubkeyItem P) = [] :=
      List.length_eq_zero_iff.mp (Nat.lt_one_iff.mp hnone)
    rw [hempty] at hloop
    rw [if_pos hnone, ← hloop]
    rfl
  · rw [if_neg hnone, ← hloop]
    rfl

/-! ## Virtual sensors -/

/-- A type that `get_i2c_sensor_type` can return, or none. -/
def KnownType (P : Platform F D) (t : UInt8) : Prop := t = 0 ∨ ∃ s, P.getI2cSensorType s = t

theorem KnownType.roundTrip (hP : P.RoundTrips) {t : UInt8} (h : KnownType P t) :
    P.getI2cSensorType (P.i2cSensorTypeStr t) = t := by
  rcases h with rfl | ⟨s, rfl⟩
  · exact hP.sensorType_zero
  · exact hP.sensorType_str s

/-- What a sensor keeps in every reachable configuration. -/
structure VsensorInput.Ok (P : Platform F D) (v : VsensorInput F) : Prop where
  i2cType : KnownType P v.i2cType
  timeout : -2 ^ 31 ≤ v.timeout ∧ v.timeout < 2 ^ 31

/-- The name, the mode, and the parameters that the mode uses. -/
def VsensorInput.relevant [Inhabited F] (v : VsensorInput F) : VsensorInput F :=
  { name := v.name
    mode := v.mode
    defaultTemp := if v.mode = .manual then v.defaultTemp else default
    timeout := if v.mode = .manual then v.timeout else 0
    tempOffset := if v.mode = .internal then v.tempOffset else default
    tempCoefficient := if v.mode = .internal then v.tempCoefficient else default
    i2cType := if v.mode = .i2c then v.i2cType else 0
    i2cAddr := if v.mode = .i2c then v.i2cAddr else 0 }

/-- The names of the items of a virtual sensor. -/
def vsensorNames : List CString :=
  ["id".toList, "name".toList, "mode".toList, "default_temp".toList, "timeout".toList,
    "i2c_type".toList, "i2c_addr".toList, "temp_offset".toList, "temp_coefficient".toList]

/-- Each name gets its own item. -/
theorem vsensorToJson_item {i : Nat} {s : VsensorInput F} {item : Option (Json D)}
    (h : ((vsensorFields P i s).find? fun f => Json.sameName name f.1) = some (name, item)) :
    (vsensorToJson P i s).getObjectItem name = item :=
  Json.getObjectItem_objectOf vsensorNames rfl (by decide +kernel) h

/-- A sensor is read back from its item, whatever it was before. -/
theorem jsonToVsensor_relevant [Inhabited F] (hP : P.RoundTrips) {s : VsensorInput F}
    (hs : s.Ok P) (i : Nat) (v : VsensorInput F) :
    (jsonToVsensor P (vsensorToJson P i s) v).relevant = s.relevant := by
  have hname : jsonToString (vsensorToJson P i s) "name".toList v.name = s.name := by
    have hitem : (vsensorToJson P i s).getObjectItem "name".toList =
        some (.string s.name.val) := rfl
    simp only [jsonToString, hitem, Option.bind_some, Json.getStringValue, CStr.copy_val]
  have hmode : (vsensorToJson P i s).getObjectItem "mode".toList =
      some (.string (vsmode2str s.mode)) := rfl
  have htemp : (vsensorToJson P i s).getObjectItem "default_temp".toList =
      if s.mode = .manual then some (.number (P.ofFloat s.defaultTemp)) else none :=
    vsensorToJson_item rfl
  have htimeout : (vsensorToJson P i s).getObjectItem "timeout".toList =
      if s.mode = .manual then some (numToJson P s.timeout) else none :=
    vsensorToJson_item rfl
  have htype : (vsensorToJson P i s).getObjectItem "i2c_type".toList =
      if s.mode = .i2c then some (.string (P.i2cSensorTypeStr s.i2cType)) else none :=
    vsensorToJson_item rfl
  have haddr : (vsensorToJson P i s).getObjectItem "i2c_addr".toList =
      if s.mode = .i2c then some (numToJson P s.i2cAddr.toNat) else none :=
    vsensorToJson_item rfl
  have hoffset : (vsensorToJson P i s).getObjectItem "temp_offset".toList =
      if s.mode = .internal then some (.number (P.ofFloat s.tempOffset)) else none :=
    vsensorToJson_item rfl
  have hcoefficient : (vsensorToJson P i s).getObjectItem "temp_coefficient".toList =
      if s.mode = .internal then some (.number (P.ofFloat s.tempCoefficient)) else none :=
    vsensorToJson_item rfl
  simp only [jsonToVsensor, hname, hmode, Json.getStringValue, Option.map_some, Option.getD_some,
    str2vsmode_vsmode2str]
  cases hm : s.mode
  case manual =>
    rw [if_pos hm] at htemp htimeout
    rw [jsonToNum_some _ htemp (hP.toFloat_ofFloat s.defaultTemp),
      jsonToNum_some _ htimeout (toI32_ofInt hP hs.timeout)]
    simp [VsensorInput.relevant, hm]
  case i2c =>
    rw [if_pos hm] at htype haddr
    rw [htype, jsonToNum_some _ haddr (toU8_ofInt hP s.i2cAddr)]
    simp [VsensorInput.relevant, hm, hs.i2cType.roundTrip hP]
  case internal =>
    rw [if_pos hm] at hoffset hcoefficient
    rw [jsonToNum_some _ hoffset (hP.toFloat_ofFloat s.tempOffset),
      jsonToNum_some _ hcoefficient (hP.toFloat_ofFloat s.tempCoefficient)]
    simp [VsensorInput.relevant, hm]
  all_goals simp [VsensorInput.relevant, hm]

/-- The item of sensor `i` is read into sensor `i`. -/
theorem vsensorsStep_item [Inhabited F] (hP : P.RoundTrips) {i : Nat} (hi : i < VSENSOR_COUNT)
    (s : VsensorInput F) (cfg : SystemConfig F) :
    ∃ vtemp, vsensorsStep P cfg (vsensorToJson P i s) =
      { cfg with
        vsensors := cfg.vsensors.wr i (jsonToVsensor P (vsensorToJson P i s) (cfg.vsensors.rd i))
        vtemp := vtemp } := by
  have hid : (vsensorToJson P i s).getObjectItem "id".toList = some (numToJson P i) := rfl
  have hi' : i < 8 := hi
  have hsensor : sensorIn (P.toInt (P.ofInt i)) = some i := by
    have hrange : (0 : Int) ≤ i ∧ (i : Int) < VSENSOR_COUNT := by omega
    rw [hP.toInt_ofInt _ (by omega) (by omega), sensorIn, if_pos hrange, Int.toNat_natCast]
  refine ⟨(vsensorsStep P cfg (vsensorToJson P i s)).vtemp, ?_⟩
  simp only [vsensorsStep, hid, Option.map_some, Option.getD_some, numToJson, Json.getNumberValue,
    hsensor]

/-- The items of all sensors are read into the sensors, and into nothing else
that is saved. -/
theorem foldl_vsensorsStep [Inhabited F] (hP : P.RoundTrips) (sensors : Nat → VsensorInput F)
    (cfg : SystemConfig F) {m : Nat} (hm : m ≤ VSENSOR_COUNT) :
    ∃ vsensors vtemp,
      ((List.range m).map fun i => vsensorToJson P i (sensors i)).foldl (vsensorsStep P) cfg =
        { cfg with vsensors := vsensors, vtemp := vtemp } ∧
      ∀ i < VSENSOR_COUNT, vsensors.rd i =
        if i < m then jsonToVsensor P (vsensorToJson P i (sensors i)) (cfg.vsensors.rd i)
        else cfg.vsensors.rd i := by
  induction m with
  | zero => exact ⟨cfg.vsensors, cfg.vtemp, rfl, fun i _ => (if_neg (Nat.not_lt_zero i)).symm⟩
  | succ m ih =>
    obtain ⟨vsensors, vtemp, hfold, hrd⟩ := ih (Nat.le_of_succ_le hm)
    obtain ⟨vtemp', hstep⟩ := vsensorsStep_item hP (Nat.lt_of_succ_le hm) (sensors m)
      { cfg with vsensors := vsensors, vtemp := vtemp }
    refine ⟨vsensors.wr m (jsonToVsensor P (vsensorToJson P m (sensors m)) (vsensors.rd m)), vtemp',
      ?_, ?_⟩
    · rw [List.range_succ, List.map_append, List.foldl_append, hfold]
      exact hstep
    · intro i hi
      by_cases him : m = i
      · subst him
        have hbefore := hrd m hi
        rw [if_neg (Nat.lt_irrefl m)] at hbefore
        rw [CArray.rd_wr_self _ hi, if_pos (Nat.lt_succ_self m), hbefore]
      · have hlt : i < m + 1 ↔ i < m := by omega
        rw [CArray.rd_wr_ne _ him, hrd i hi]
        simp only [hlt]

end

end LcdPico
