import LcdPico.Lib.CheckedArray
import LcdPico.Lib.Tlv
import Mathlib.Algebra.GroupWithZero.Nat

/-!
# The options of a DHCP request (`pico_dhcp_option_add_hook` in `dhcp.c`)

The hook copies the options away and writes them again, with two codes more in the
list of requested parameters (option 55). Every access to the copy and to the options
is checked. The cursors are `u16_t`; `N` is `DHCP_OPTIONS_LEN` of lwIP.
-/

namespace LcdPico

open Tlv CArray

def DHCP_OPTION_LOG : UInt8 := 7
def DHCP_OPTION_POSIX_TZ : UInt8 := 100

/-- of lwIP -/
def DHCP_REQUEST : UInt8 := 3

/-- The codes of options that are none: padding, and the end. -/
def DHCP_OPTION_PAD : UInt8 := 0
def DHCP_OPTION_END : UInt8 := 255

def newParameters : List UInt8 := [DHCP_OPTION_LOG, DHCP_OPTION_POSIX_TZ, 0]

/-- `sizeof(new_parameters) - 1` -/
def extraLen : UInt16 := UInt16.ofNat (newParameters.length - 1)

section

variable {N : Nat}

/-- What is written: the options, and the cursor. -/
structure Rebuild (N : Nat) where
  options : CArray UInt8 N
  new_ptr : UInt16

/-- `msg->options[new_ptr++] = x` -/
def Rebuild.put (s : Rebuild N) (x : UInt8) : Option (Rebuild N) := do
  let options ← s.options.wr? s.new_ptr.toNat x
  some ⟨options, s.new_ptr + 1⟩

/-- The bytes of a value are copied, from `tmp.options[old_ptr]` on. -/
def copyValue (tmp : CArray UInt8 N) : Nat → UInt16 → Rebuild N → Option (UInt16 × Rebuild N)
  | 0, old_ptr, s => some (old_ptr, s)
  | len + 1, old_ptr, s => do
    let x ← tmp.rd? old_ptr.toNat
    let s ← s.put x
    copyValue tmp len (old_ptr + 1) s

/-- One round of the loop: an option. -/
def rebuildOption (tmp : CArray UInt8 N) (old_ptr : UInt16) (s : Rebuild N) :
    Option (UInt16 × Rebuild N) := do
  let code ← tmp.rd? old_ptr.toNat
  let len ← tmp.rd? (old_ptr + 1).toNat
  let s ← s.put code
  let s ← s.put (if code = 55 then (len.toUInt16 + extraLen).toUInt8 else len)
  let (old_ptr, s) ← copyValue tmp len.toNat (old_ptr + 1 + 1) s
  let s ← if code = 55 then (newParameters.take extraLen.toNat).foldlM Rebuild.put s else some s
  some (old_ptr, s)

/-- The loop, for a number of rounds at most. -/
def rebuildOptions (tmp : CArray UInt8 N) (orig_len : UInt16) :
    Nat → UInt16 → Rebuild N → Option (Rebuild N)
  | 0, _, _ => none
  | fuel + 1, old_ptr, s =>
    if old_ptr < orig_len then do
      let (old_ptr, s) ← rebuildOption tmp old_ptr s
      rebuildOptions tmp orig_len fuel old_ptr s
    else some s

/-- `pico_dhcp_option_add_hook`: the options and `*options_len_ptr`. An option takes two
bytes, so there are fewer rounds than bytes. -/
def picoDhcpOptionAddHook (options : CArray UInt8 N) (msg_type : UInt8) (options_len : UInt16) :
    Option (CArray UInt8 N × UInt16) :=
  if msg_type ≠ DHCP_REQUEST then some (options, options_len)
  else if options_len.toNat + extraLen.toNat ≤ N then do
    let s ← rebuildOptions options options_len (options_len.toNat + 1) 0 ⟨options, 0⟩
    some (s.options, s.new_ptr)
  else none

end

/-! ## Cursors -/

section

variable {N : Nat}

/-- The bytes stand in the array from the cursor on. -/
def Reads (tmp : CArray UInt8 N) (cursor : UInt16) (bytes : List UInt8) : Prop :=
  bytes <+: tmp.toList.drop cursor.toNat

/-- What was written up to the cursor. -/
structure Written (s : Rebuild N) (out : List UInt8) : Prop where
  cursor : s.new_ptr.toNat = out.length
  bytes : s.options.pre out.length = out

theorem cursor_succ {p : UInt16} (h : p.toNat + 1 < 2 ^ 16) : (p + 1).toNat = p.toNat + 1 := by
  rw [UInt16.toNat_add, UInt16.toNat_one, Nat.mod_eq_of_lt h]

theorem Reads.head {tmp : CArray UInt8 N} {p : UInt16} {x : UInt8} {bytes : List UInt8}
    (h : Reads tmp p (x :: bytes)) : p.toNat < N ∧ tmp.rd? p.toNat = some x := by
  obtain ⟨rest, hrest⟩ := h
  have hget : tmp.toList[p.toNat]? = some x := by
    rw [← Nat.add_zero p.toNat, ← List.getElem?_drop, ← hrest]
    rfl
  obtain ⟨hlt, -⟩ := List.getElem?_eq_some_iff.mp hget
  rw [Vector.length_toList] at hlt
  rw [Vector.getElem?_toList] at hget
  rw [rd?_eq tmp hlt, rd, hget, Option.getD_some]
  exact ⟨hlt, rfl⟩

theorem Reads.tail {tmp : CArray UInt8 N} {p : UInt16} {x : UInt8} {bytes : List UInt8}
    (hN : N < 2 ^ 16) (h : Reads tmp p (x :: bytes)) : Reads tmp (p + 1) bytes := by
  obtain ⟨hlt, -⟩ := h.head
  obtain ⟨rest, hrest⟩ := h
  refine ⟨rest, ?_⟩
  rw [cursor_succ (by omega), ← List.drop_drop, ← hrest]
  rfl

theorem Reads.left {tmp : CArray UInt8 N} {p : UInt16} {bytes more : List UInt8}
    (h : Reads tmp p (bytes ++ more)) : Reads tmp p bytes :=
  (List.prefix_append bytes more).trans h

theorem Reads.right {tmp : CArray UInt8 N} {p p' : UInt16} {bytes more : List UInt8}
    (h : Reads tmp p (bytes ++ more)) (hp : p'.toNat = p.toNat + bytes.length) :
    Reads tmp p' more := by
  obtain ⟨rest, hrest⟩ := h
  refine ⟨rest, ?_⟩
  rw [hp, ← List.drop_drop, ← hrest, List.append_assoc, List.drop_left]

theorem Written.put {s : Rebuild N} {out : List UInt8} (h : Written s out) (hN : N < 2 ^ 16)
    (hroom : out.length < N) (x : UInt8) :
    ∃ s', s.put x = some s' ∧ Written s' (out ++ [x]) := by
  obtain ⟨hcursor, hbytes⟩ := h
  refine ⟨⟨s.options.wr s.new_ptr.toNat x, s.new_ptr + 1⟩, ?_, ?_, ?_⟩
  · rw [Rebuild.put, wr?_eq _ (by omega)]
    rfl
  · rw [cursor_succ (by omega), List.length_append, List.length_singleton, hcursor]
  · rw [List.length_append, List.length_singleton, hcursor, pre_wr_succ _ hroom, hbytes]

/-- Bytes are written one after the other. -/
theorem Written.putAll {s : Rebuild N} {out : List UInt8} (h : Written s out) (hN : N < 2 ^ 16)
    (bytes : List UInt8) (hroom : out.length + bytes.length ≤ N) :
    ∃ s', bytes.foldlM Rebuild.put s = some s' ∧ Written s' (out ++ bytes) := by
  induction bytes generalizing s out with
  | nil => exact ⟨s, rfl, by rwa [List.append_nil]⟩
  | cons x bytes ih =>
    rw [List.length_cons] at hroom
    obtain ⟨s', hput, hs'⟩ := h.put hN (by omega) x
    have hroom' : (out ++ [x]).length + bytes.length ≤ N := by
      rw [List.length_append, List.length_singleton]
      omega
    obtain ⟨s'', hall, hs''⟩ := ih hs' hroom'
    refine ⟨s'', ?_, ?_⟩
    · rw [List.foldlM_cons, hput]
      exact hall
    · rwa [List.append_assoc] at hs''

theorem copyValue_written {tmp : CArray UInt8 N} {p : UInt16} {s : Rebuild N}
    {out value : List UInt8} (hN : N < 2 ^ 16) (hread : Reads tmp p value)
    (h : Written s out) (hroom : out.length + value.length ≤ N) :
    ∃ p' s', copyValue tmp value.length p s = some (p', s') ∧
      p'.toNat = p.toNat + value.length ∧ Written s' (out ++ value) := by
  induction value generalizing p s out with
  | nil => exact ⟨p, s, rfl, rfl, by rwa [List.append_nil]⟩
  | cons x value ih =>
    rw [List.length_cons] at hroom
    obtain ⟨hlt, hx⟩ := hread.head
    obtain ⟨s', hput, hs'⟩ := h.put hN (by omega) x
    have hroom' : (out ++ [x]).length + value.length ≤ N := by
      rw [List.length_append, List.length_singleton]
      omega
    obtain ⟨p', s'', hcopy, hp', hs''⟩ := ih (hread.tail hN) hs' hroom'
    refine ⟨p', s'', ?_, ?_, ?_⟩
    · rw [List.length_cons, copyValue, hx, Option.bind_eq_bind, Option.bind_some, hput]
      exact hcopy
    · rw [hp', cursor_succ (by omega), List.length_cons]
      omega
    · rwa [List.append_assoc] at hs''

/-! ## The options -/

/-- An option as the hook leaves it. -/
def requestMore (o : Item) : Item :=
  if o.code = 55 then { o with value := o.value ++ [DHCP_OPTION_LOG, DHCP_OPTION_POSIX_TZ] } else o

/-- An option that the hook can write: two bytes more fit the length. -/
structure Extendable (o : Item) : Prop where
  wellFormed : o.WellFormed DHCP_OPTION_PAD DHCP_OPTION_END
  short : o.code = 55 → o.value.length ≤ 253

theorem requestMore_wellFormed {o : Item} (h : Extendable o) :
    (requestMore o).WellFormed DHCP_OPTION_PAD DHCP_OPTION_END := by
  obtain ⟨⟨hlen, hpad, hend⟩, hshort⟩ := h
  rw [requestMore]
  split_ifs with hcode
  · have hvalue := hshort hcode
    refine ⟨?_, hpad, hend⟩
    show (o.value ++ _).length < 256
    rw [List.length_append, List.length_cons, List.length_singleton]
    omega
  · exact ⟨hlen, hpad, hend⟩

/-- The bytes of an option as the hook writes them. -/
theorem requestMore_bytes {o : Item} (h : Extendable o) :
    (requestMore o).bytes =
      [o.code, if o.code = 55 then ((UInt8.ofNat o.value.length).toUInt16 + extraLen).toUInt8
        else UInt8.ofNat o.value.length] ++ o.value ++
      (if o.code = 55 then newParameters.take extraLen.toNat else []) := by
  rw [requestMore]
  split_ifs with hcode
  · have hlen : ((UInt8.ofNat o.value.length).toUInt16 + extraLen).toUInt8 =
        UInt8.ofNat (o.value.length + 2) := by
      have hshort := h.short hcode
      have hextra : extraLen.toNat = 2 := rfl
      apply UInt8.toNat_inj.mp
      rw [UInt16.toNat_toUInt8, UInt16.toNat_add, UInt8.toNat_toUInt16, UInt8.toNat_ofNat',
        UInt8.toNat_ofNat', hextra]
      omega
    rw [hlen, Item.bytes, List.length_append]
    rfl
  · rw [List.append_nil]
    rfl

/-- A round copies an option, and adds two bytes to option 55. -/
theorem rebuildOption_written {tmp : CArray UInt8 N} {p : UInt16} {s : Rebuild N}
    {out more : List UInt8} {o : Item} (hN : N < 2 ^ 16) (ho : Extendable o)
    (hread : Reads tmp p (o.bytes ++ more)) (h : Written s out)
    (hroom : out.length + (requestMore o).bytes.length ≤ N) :
    ∃ p' s', rebuildOption tmp p s = some (p', s') ∧ p'.toNat = p.toNat + o.bytes.length ∧
      Written s' (out ++ (requestMore o).bytes) := by
  have hread₁ : Reads tmp (p + 1) (UInt8.ofNat o.value.length :: (o.value ++ more)) :=
    hread.tail hN
  have hread₂ : Reads tmp (p + 1 + 1) (o.value ++ more) := hread₁.tail hN
  obtain ⟨hlt, hcode⟩ := hread.head
  obtain ⟨hlt₁, hlen⟩ := hread₁.head
  have hp₁ : (p + 1).toNat = p.toNat + 1 := cursor_succ (by omega)
  have hp₂ : (p + 1 + 1).toNat = p.toNat + 2 := by
    rw [cursor_succ (by omega), hp₁]
  have hvalue : (UInt8.ofNat o.value.length).toNat = o.value.length := by
    rw [UInt8.toNat_ofNat', Nat.mod_eq_of_lt ho.wellFormed.short]
  rw [requestMore_bytes ho] at hroom ⊢
  simp only [List.length_append, List.length_cons, List.length_nil] at hroom
  -- the code, the length, the value
  obtain ⟨s₁, hput₁, hs₁⟩ := h.put hN (by omega) o.code
  obtain ⟨s₂, hput₂, hs₂⟩ := hs₁.put hN (by rw [List.length_append, List.length_singleton]; omega)
    (if o.code = 55 then ((UInt8.ofNat o.value.length).toUInt16 + extraLen).toUInt8
      else UInt8.ofNat o.value.length)
  obtain ⟨p', s₃, hcopy, hp', hs₃⟩ := copyValue_written hN hread₂.left hs₂
    (by simp only [List.length_append, List.length_singleton]; omega)
  -- and the codes that are added
  obtain ⟨s₄, hadd, hs₄⟩ := hs₃.putAll hN
    (if o.code = 55 then newParameters.take extraLen.toNat else [])
    (by simp only [List.length_append, List.length_singleton]; omega)
  refine ⟨p', s₄, ?_, ?_, ?_⟩
  · simp only [rebuildOption, hcode, hlen, hput₁, hput₂, hvalue, hcopy, Option.bind_eq_bind,
      Option.bind_some]
    split_ifs at hadd ⊢ with h55
    · rw [hadd]
      rfl
    · obtain rfl := Option.some_inj.mp hadd
      rfl
  · rw [hp', hp₂, Item.length_bytes]
    omega
  · simpa only [List.append_assoc, List.cons_append, List.nil_append] using hs₄

/-- The loop writes the options, each as the hook leaves it. -/
theorem rebuildOptions_written {tmp : CArray UInt8 N} {orig_len p : UInt16} {s : Rebuild N}
    {out : List UInt8} {items : List Item} {fuel : Nat} (hN : N < 2 ^ 16)
    (hitems : ∀ o ∈ items, Extendable o) (hread : Reads tmp p (encode items))
    (hend : orig_len.toNat = p.toNat + (encode items).length) (h : Written s out)
    (hroom : out.length + (encode (items.map requestMore)).length ≤ N)
    (hfuel : items.length < fuel) :
    ∃ s', rebuildOptions tmp orig_len fuel p s = some s' ∧
      Written s' (out ++ encode (items.map requestMore)) := by
  induction items generalizing p s out fuel with
  | nil =>
    cases fuel with
    | zero => cases hfuel
    | succ fuel =>
      have hdone : ¬p < orig_len := by
        rw [UInt16.lt_iff_toNat_lt, hend, encode_nil, List.length_nil]
        omega
      rw [rebuildOptions, if_neg hdone, List.map_nil, encode_nil, List.append_nil]
      exact ⟨s, rfl, h⟩
  | cons o items ih =>
    cases fuel with
    | zero => cases hfuel
    | succ fuel =>
      rw [encode_cons] at hread hend
      rw [List.map_cons, encode_cons] at hroom ⊢
      rw [List.length_append] at hend hroom
      have hmore : p < orig_len := by
        rw [UInt16.lt_iff_toNat_lt, hend, Item.length_bytes]
        omega
      obtain ⟨p', s', hround, hp', hs'⟩ := rebuildOption_written hN
        (hitems o (List.mem_cons_self ..)) hread h (by omega)
      obtain ⟨s'', hloop, hs''⟩ := ih (fun o ho => hitems o (List.mem_cons_of_mem _ ho))
        (hread.right hp') (by omega) hs' (by rw [List.length_append]; omega)
        (Nat.lt_of_succ_lt_succ hfuel)
      refine ⟨s'', ?_, ?_⟩
      · rw [rebuildOptions, if_pos hmore, hround]
        exact hloop
      · rwa [List.append_assoc] at hs''

/-- Two bytes more for each option 55. -/
theorem length_encode_requestMore (items : List Item) :
    (encode (items.map requestMore)).length =
      (encode items).length + 2 * items.countP (·.code = 55) := by
  induction items with
  | nil => rfl
  | cons o items ih =>
    have ho : (requestMore o).bytes.length = o.bytes.length + if o.code = 55 then 2 else 0 := by
      rw [requestMore]
      split_ifs
      · simp
      · rfl
    rw [List.map_cons, encode_cons, encode_cons, List.length_append, List.length_append, ih, ho,
      List.countP_cons]
    simp only [decide_eq_true_eq]
    split_ifs <;> omega

theorem length_le_encode (items : List Item) : items.length ≤ (encode items).length := by
  induction items with
  | nil => exact Nat.le_refl 0
  | cons o items ih =>
    rw [encode_cons, List.length_append, Item.length_bytes, List.length_cons]
    omega

/-! ## Main result -/

/-- The hook turns the options of a request into the same options, with two more
requested parameters, and leaves other messages alone. -/
theorem dhcp_request_options (hN : N < 2 ^ 16) (options : CArray UInt8 N)
    (options_len : UInt16) (items : List Item)
    (hitems : ∀ o ∈ items, o.WellFormed DHCP_OPTION_PAD DHCP_OPTION_END)
    (hone : items.countP (·.code = 55) ≤ 1)
    (hshort : ∀ o ∈ items, o.code = 55 → o.value.length ≤ 253)
    (hlen : options_len.toNat = (encode items).length)
    (hbytes : options.pre options_len.toNat = encode items) (hfit : (encode items).length + 2 ≤ N)
    (msg_type : UInt8) :
    ∃ options' len', picoDhcpOptionAddHook options msg_type options_len = some (options', len') ∧
      (msg_type = DHCP_REQUEST →
        parse DHCP_OPTION_PAD DHCP_OPTION_END (options'.pre len'.toNat) =
            some (items.map requestMore) ∧
          len'.toNat = (encode (items.map requestMore)).length) ∧
      (msg_type ≠ DHCP_REQUEST → options' = options ∧ len' = options_len) := by
  by_cases hreq : msg_type = DHCP_REQUEST
  · have hall : ∀ o ∈ items, Extendable o := fun o ho => ⟨hitems o ho, hshort o ho⟩
    have hlength := length_encode_requestMore items
    have hcount := length_le_encode items
    have hextra : extraLen.toNat = 2 := rfl
    have hread : Reads options 0 (encode items) := by
      rw [← hbytes]
      exact List.take_prefix _ _
    have hstart : Written (⟨options, 0⟩ : Rebuild N) [] := ⟨rfl, rfl⟩
    have hend : options_len.toNat = (0 : UInt16).toNat + (encode items).length := by
      rw [hlen]
      exact (Nat.zero_add _).symm
    have hroom : ([] : List UInt8).length + (encode (items.map requestMore)).length ≤ N := by
      rw [List.length_nil]
      omega
    have hfuel : items.length < options_len.toNat + 1 := by omega
    obtain ⟨s, hloop, hs⟩ := rebuildOptions_written hN hall hread hend hstart hroom hfuel
    rw [List.nil_append] at hs
    refine ⟨s.options, s.new_ptr, ?_, ?_, ?_⟩
    · rw [picoDhcpOptionAddHook, if_neg (not_not.mpr hreq), if_pos (by omega), hloop]
      rfl
    · intro _
      refine ⟨?_, hs.cursor⟩
      rw [hs.cursor, hs.bytes]
      apply parse_encode
      intro o ho
      obtain ⟨o, hmem, rfl⟩ := List.mem_map.mp ho
      exact requestMore_wellFormed (hall o hmem)
    · exact fun hne => absurd hreq hne
  · refine ⟨options, options_len, ?_, fun h => absurd h hreq, fun _ => ⟨rfl, rfl⟩⟩
    rw [picoDhcpOptionAddHook, if_pos hreq]

end

/-- The type of the message, the requested parameters, and the host name. -/
def requestItems : List Item := [⟨53, [3]⟩, ⟨55, [1, 3, 6]⟩, ⟨12, [112]⟩]

def requestBytes : CArray UInt8 16 := #v[53, 1, 3, 55, 3, 1, 3, 6, 12, 1, 112, 0, 0, 0, 0, 0]

theorem dhcp_request_options_three :
    ∃ options' len',
      picoDhcpOptionAddHook requestBytes DHCP_REQUEST 11 = some (options', len') ∧
        parse DHCP_OPTION_PAD DHCP_OPTION_END (options'.pre len'.toNat) =
            some [⟨53, [3]⟩, ⟨55, [1, 3, 6, 7, 100]⟩, ⟨12, [112]⟩] ∧
          len' = 13 := by
  have hitems : ∀ o ∈ requestItems, o.WellFormed DHCP_OPTION_PAD DHCP_OPTION_END := by
    intro o ho
    simp only [requestItems, List.mem_cons, List.not_mem_nil, or_false] at ho
    rcases ho with rfl | rfl | rfl <;> exact ⟨by decide, by decide, by decide⟩
  obtain ⟨options', len', hhook, hreq, -⟩ := dhcp_request_options (by decide)
    requestBytes 11 requestItems hitems (by decide) (by decide) (by decide) (by decide)
    (by decide) DHCP_REQUEST
  obtain ⟨hparse, hlen⟩ := hreq rfl
  exact ⟨options', len', hhook, hparse, UInt16.toNat_inj.mp hlen⟩

end LcdPico
