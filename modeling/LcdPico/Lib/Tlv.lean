import Mathlib.Data.List.TakeDrop
import Mathlib.Tactic.Common

/-!
# Items with a code, a length, and a value

A sequence of items is written one after the other: the code, the length of the value
in one byte, and the value. Two codes are not those of items: one pads, one ends the
sequence. What is written is read back (`parse_encode`).
-/

namespace Tlv

/-- An item, before it is written. -/
structure Item where
  code : UInt8
  value : List UInt8
deriving DecidableEq

variable (pad stop : UInt8)

/-- The length fits a byte, and the code is that of an item. -/
structure Item.WellFormed (o : Item) : Prop where
  short : o.value.length < 256
  notPad : o.code ≠ pad
  notStop : o.code ≠ stop

def Item.bytes (o : Item) : List UInt8 := o.code :: UInt8.ofNat o.value.length :: o.value

def encode (items : List Item) : List UInt8 := items.flatMap Item.bytes

/-- The items up to the end; none if one of them is cut off. -/
def parse : List UInt8 → Option (List Item)
  | [] => some []
  | code :: rest =>
    if code = pad then parse rest
    else if code = stop then some []
    else
      match rest with
      | [] => none
      | len :: rest =>
        if len.toNat ≤ rest.length then
          (parse (rest.drop len.toNat)).map (⟨code, rest.take len.toNat⟩ :: ·)
        else none
termination_by bytes => bytes.length
decreasing_by
  · exact Nat.lt_succ_self _
  · rw [List.length_drop]
    exact Nat.lt_succ_of_le (Nat.le_succ_of_le (Nat.sub_le _ _))

@[simp] theorem encode_nil : encode [] = [] := rfl

theorem encode_cons (o : Item) (items : List Item) :
    encode (o :: items) = o.bytes ++ encode items := List.flatMap_cons

@[simp] theorem Item.length_bytes (o : Item) : o.bytes.length = o.value.length + 2 := rfl

variable {pad stop}

theorem parse_bytes_append {o : Item} (ho : o.WellFormed pad stop) (rest : List UInt8) :
    parse pad stop (o.bytes ++ rest) = (parse pad stop rest).map (o :: ·) := by
  obtain ⟨hshort, hpad, hstop⟩ := ho
  have hlen : (UInt8.ofNat o.value.length).toNat = o.value.length := by
    rw [UInt8.toNat_ofNat', Nat.mod_eq_of_lt hshort]
  rw [Item.bytes, List.cons_append, List.cons_append, parse, if_neg hpad, if_neg hstop]
  simp only [hlen, List.length_append, Nat.le_add_right, if_true, List.take_left, List.drop_left]

/-- What is written is read back. -/
theorem parse_encode {items : List Item} (h : ∀ o ∈ items, o.WellFormed pad stop) :
    parse pad stop (encode items) = some items := by
  induction items with
  | nil => rw [encode_nil, parse]
  | cons o items ih =>
    have hitems := ih fun o ho => h o (List.mem_cons_of_mem _ ho)
    rw [encode_cons, parse_bytes_append (h o (List.mem_cons_self ..)), hitems]
    rfl

end Tlv
