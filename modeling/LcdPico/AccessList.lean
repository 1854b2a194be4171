import LcdPico.Config

/-!
# Access lists

`ssh_allow_connection_cb` (`sshd.c`) and `telnet_allow_connection_cb` (`telnetd.c`)
decide from a table of networks which addresses may connect. An address is an
`ip_addr_t` in network byte order, so a prefix of its bits is a prefix of its octets,
each with its highest bit first (`addressBit`). An entry without a prefix is not
in use, and a table without networks lets everybody in.
-/

namespace LcdPico

/-! ## The decision -/

/-- `lwip_htonl`: the order of the bytes is reversed. -/
def lwipHtonl (x : UInt32) : UInt32 :=
  (x &&& 0xff) <<< 24 ||| (x &&& 0xff00) <<< 8 ||| (x &&& 0xff0000) >>> 8 |||
    (x &&& 0xff000000) >>> 24

/-- `make_netmask`. The callers have checked that the prefix is not 0, for which C's
shift would be undefined. -/
def makeNetmask (prefixLen : UInt8) : IpAddr :=
  let mask : UInt32 := 0xffffffff
  lwipHtonl (if prefixLen < 32 then mask <<< (32 - prefixLen.toUInt32) else mask)

/-- `ip_addr_netcmp` -/
def ipAddrNetcmp (addr1 addr2 netmask : IpAddr) : Bool :=
  (addr1 &&& netmask) == (addr2 &&& netmask)

/-- The loop over the entries: `ret` and `aclcount`. -/
def aclLoop (srcIp : IpAddr) : List AclEntry → Nat → Int × Nat
  | [], aclcount => (0, aclcount)
  | acl :: acls, aclcount =>
    if acl.prefixLen > 0 then
      if ipAddrNetcmp acl.ip srcIp (makeNetmask acl.prefixLen) then (1, aclcount + 1)
      else aclLoop srcIp acls (aclcount + 1)
    else aclLoop srcIp acls aclcount

/-- What the two callbacks do with their tables. -/
def allowConnectionCb {n : Nat} (acls : CArray AclEntry n) : Option IpAddr → Int
  | none => -1
  | some srcIp =>
    let (ret, aclcount) := aclLoop srcIp acls.toList 0
    if aclcount > 0 then ret else 1

/-- `ssh_allow_connection_cb` -/
def sshAllowConnectionCb {F : Type} (cfg : SystemConfig F) : Option IpAddr → Int :=
  allowConnectionCb cfg.sshAcls

/-- `telnet_allow_connection_cb` -/
def telnetAllowConnectionCb {F : Type} (cfg : SystemConfig F) : Option IpAddr → Int :=
  allowConnectionCb cfg.telnetAcls

/-! ## Bits of an address -/

/-- Where the `i`-th bit of an address is in the word: its octets come lowest first. -/
def bitIndex (i : Nat) : Nat := 8 * (i / 8) + (7 - i % 8)

/-- The `i`-th bit of an address, from the highest bit of its first octet on. -/
def addressBit (ip : IpAddr) (i : Nat) : Bool := ip.toNat.testBit (bitIndex i)

/-- Both addresses are in the same network. -/
def SameNet (prefixLen : UInt8) (a b : IpAddr) : Prop :=
  ∀ i < min prefixLen.toNat 32, addressBit a i = addressBit b i

/-- The list lets an address in: it names no network, or one of the address. -/
def Allowed (acls : List AclEntry) (src : IpAddr) : Prop :=
  (∀ e ∈ acls, ¬ e.prefixLen > 0) ∨ ∃ e ∈ acls, e.prefixLen > 0 ∧ SameNet e.prefixLen e.ip src

theorem bitIndex_lt {i : Nat} (hi : i < 32) : bitIndex i < 32 := by
  rw [bitIndex]
  omega

theorem bitIndex_bitIndex (i : Nat) : bitIndex (bitIndex i) = i := by
  simp only [bitIndex]
  omega

/-- The mask has the bits of the prefix. -/
theorem addressBit_makeNetmask {p : UInt8} (hpos : p > 0) {i : Nat} (hi : i < 32) :
    addressBit (makeNetmask p) i = decide (i < min p.toNat 32) := by
  have hshort : ∀ k < 32, 0 < k → ∀ i < 32,
      addressBit (makeNetmask (UInt8.ofNat k)) i = decide (i < k) := by
    decide +kernel
  have hlong : ∀ i < 32, addressBit 0xffffffff i = true := by decide +kernel
  by_cases hp : p < 32
  · have hk : p.toNat < 32 := UInt8.lt_iff_toNat_lt.mp hp
    have h := hshort p.toNat hk (UInt8.lt_iff_toNat_lt.mp hpos) i hi
    rwa [UInt8.ofNat_toNat, ← Nat.min_eq_left (Nat.le_of_lt hk)] at h
  · have hk : 32 ≤ p.toNat := Nat.le_of_not_lt fun h => hp (UInt8.lt_iff_toNat_lt.mpr h)
    have hmask : makeNetmask p = 0xffffffff := by
      rw [makeNetmask, if_neg hp]
      decide
    rw [hmask, hlong i hi, Nat.min_eq_right hk, decide_eq_true hi]

theorem addressBit_and (a b : IpAddr) (i : Nat) :
    addressBit (a &&& b) i = (addressBit a i && addressBit b i) := by
  rw [addressBit, UInt32.toNat_and, Nat.testBit_and]
  rfl

/-- Addresses with the same bits are the same. -/
theorem eq_of_addressBit {a b : IpAddr} (h : ∀ i < 32, addressBit a i = addressBit b i) :
    a = b := by
  refine UInt32.toNat_inj.mp (Nat.eq_of_testBit_eq fun j => ?_)
  by_cases hj : j < 32
  · have hbit := h (bitIndex j) (bitIndex_lt hj)
    rwa [addressBit, addressBit, bitIndex_bitIndex] at hbit
  · have hhigh (x : IpAddr) : x.toNat.testBit j = false :=
      Nat.testBit_lt_two_pow (Nat.lt_of_lt_of_le x.toNat_lt
        (Nat.pow_le_pow_right (by decide) (Nat.le_of_not_lt hj)))
    rw [hhigh a, hhigh b]

/-- Under the mask of a prefix, the addresses of one network are equal. -/
theorem ipAddrNetcmp_iff (a b : IpAddr) {p : UInt8} (hpos : p > 0) :
    ipAddrNetcmp a b (makeNetmask p) = true ↔ SameNet p a b := by
  rw [ipAddrNetcmp, beq_iff_eq]
  constructor
  · intro h i hi
    have hi32 : i < 32 := Nat.lt_of_lt_of_le hi (Nat.min_le_right _ _)
    have hbit := congrArg (addressBit · i) h
    simpa [addressBit_and, addressBit_makeNetmask hpos hi32, hi] using hbit
  · intro h
    refine eq_of_addressBit fun i hi32 => ?_
    rw [addressBit_and, addressBit_and, addressBit_makeNetmask hpos hi32]
    by_cases hi : i < min p.toNat 32
    · rw [h i hi]
    · rw [decide_eq_false hi, Bool.and_false, Bool.and_false]

open Classical in
/-- What the loop leaves: whether a network matches, and whether there is one. -/
theorem aclLoop_eq (src : IpAddr) (acls : List AclEntry) (aclcount : Nat) :
    ((aclLoop src acls aclcount).1 =
        if ∃ e ∈ acls, e.prefixLen > 0 ∧ SameNet e.prefixLen e.ip src then 1 else 0) ∧
      ((aclLoop src acls aclcount).2 > 0 ↔ aclcount > 0 ∨ ∃ e ∈ acls, e.prefixLen > 0) := by
  induction acls generalizing aclcount with
  | nil => simp [aclLoop]
  | cons e acls ih =>
    rw [aclLoop]
    by_cases hpos : e.prefixLen > 0
    · by_cases hmatch : SameNet e.prefixLen e.ip src
      · rw [if_pos hpos, if_pos ((ipAddrNetcmp_iff _ _ hpos).mpr hmatch)]
        simp [hpos, hmatch]
      · obtain ⟨hret, hcount⟩ := ih (aclcount + 1)
        rw [if_pos hpos, if_neg fun h => hmatch ((ipAddrNetcmp_iff _ _ hpos).mp h), hret, hcount]
        simp [hpos, hmatch]
    · obtain ⟨hret, hcount⟩ := ih aclcount
      rw [if_neg hpos, hret, hcount]
      simp [hpos]

open Classical in
/-- A callback lets in the addresses that its table allows. -/
theorem allowConnectionCb_eq {n : Nat} (acls : CArray AclEntry n) (src : IpAddr) :
    allowConnectionCb acls (some src) = if Allowed acls.toList src then 1 else 0 := by
  obtain ⟨hret, hcount⟩ := aclLoop_eq src acls.toList 0
  simp only [gt_iff_lt, Nat.lt_irrefl, false_or] at hret hcount
  simp only [allowConnectionCb, Allowed, gt_iff_lt, hret, hcount]
  by_cases hnet : ∃ e ∈ acls.toList, 0 < e.prefixLen
  · have hsome : ¬ ∀ e ∈ acls.toList, ¬ 0 < e.prefixLen := by
      obtain ⟨e, he, hpos⟩ := hnet
      exact fun h => h e he hpos
    simp only [hnet, hsome, if_true, false_or]
  · have hall : ∀ e ∈ acls.toList, ¬ 0 < e.prefixLen := fun e he hpos => hnet ⟨e, he, hpos⟩
    rw [if_neg hnet, if_pos (.inl hall)]

/-- **The access list decides as configured.** -/
theorem callbacks_decide {F : Type} (cfg : SystemConfig F) (src : IpAddr) :
    (sshAllowConnectionCb cfg (some src) = 1 ↔ Allowed cfg.sshAcls.toList src) ∧
      (¬ Allowed cfg.sshAcls.toList src → sshAllowConnectionCb cfg (some src) = 0) ∧
      (telnetAllowConnectionCb cfg (some src) = 1 ↔ Allowed cfg.telnetAcls.toList src) ∧
      (¬ Allowed cfg.telnetAcls.toList src → telnetAllowConnectionCb cfg (some src) = 0) := by
  have hdecide {n : Nat} (acls : CArray AclEntry n) :
      (allowConnectionCb acls (some src) = 1 ↔ Allowed acls.toList src) ∧
        (¬ Allowed acls.toList src → allowConnectionCb acls (some src) = 0) := by
    rw [allowConnectionCb_eq]
    by_cases h : Allowed acls.toList src
    · simp [h]
    · simp [h]
  exact ⟨(hdecide _).1, (hdecide _).2, (hdecide _).1, (hdecide _).2⟩

end LcdPico
