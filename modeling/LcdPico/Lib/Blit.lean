import Mathlib.Tactic.Common

/-!
# Rectangles of pixels in a linear memory

Several images lie in one memory, row after row. A block transfer copies a rectangle of one
image into another one.

* `pixel_blit` — the image that is copied into, pixel by pixel
* `Surface.ChangesIn` — what a copy leaves alone: the other pixels of the image, and the
  images in other places
-/

universe u

variable {α : Type u}

/-- An image in memory: the address of its first pixel, and the pixels of a row. -/
structure Surface where
  base : Nat
  width : Nat
deriving DecidableEq, Repr

namespace Surface

def addr (s : Surface) (x y : Nat) : Nat := s.base + (y * s.width + x)

/-- The pixel at `x` and `y`. -/
def pixel (s : Surface) (mem : Nat → α) (x y : Nat) : α := mem (s.addr x y)

/-- The row of a pixel, and its place in the row. -/
theorem addr_decode {s : Surface} {x : Nat} (hx : x < s.width) (y : Nat) :
    (s.addr x y - s.base) % s.width = x ∧ (s.addr x y - s.base) / s.width = y := by
  have hpos : 0 < s.width := Nat.zero_lt_of_lt hx
  rw [addr, Nat.add_sub_cancel_left, Nat.mul_comm]
  constructor
  · rw [Nat.mul_add_mod, Nat.mod_eq_of_lt hx]
  · rw [Nat.mul_add_div hpos, Nat.div_eq_of_lt hx, Nat.add_zero]

theorem le_addr (s : Surface) (x y : Nat) : s.base ≤ s.addr x y := Nat.le_add_right _ _

/-- The first `h` rows end where row `h` begins. -/
theorem addr_lt {s : Surface} {x y h : Nat} (hx : x < s.width) (hy : y < h) :
    s.addr x y < s.base + h * s.width := by
  have hrows : (y + 1) * s.width ≤ h * s.width := Nat.mul_le_mul_right _ hy
  rw [Nat.add_one_mul] at hrows
  rw [addr]
  omega

/-- `h` rows of one image and `k` rows of another one are in different places. -/
def Apart (s : Surface) (h : Nat) (t : Surface) (k : Nat) : Prop :=
  s.base + h * s.width ≤ t.base ∨ t.base + k * t.width ≤ s.base

instance (s : Surface) (h : Nat) (t : Surface) (k : Nat) : Decidable (s.Apart h t k) :=
  inferInstanceAs (Decidable (_ ∨ _))

/-- Fewer rows are apart as well. -/
theorem Apart.mono {s t : Surface} {h h' k k' : Nat} (hapart : s.Apart h t k) (hh : h' ≤ h)
    (hk : k' ≤ k) : s.Apart h' t k' := by
  obtain hlt | hlt := hapart
  · exact .inl (Nat.le_trans (Nat.add_le_add_left (Nat.mul_le_mul_right _ hh) _) hlt)
  · exact .inr (Nat.le_trans (Nat.add_le_add_left (Nat.mul_le_mul_right _ hk) _) hlt)

end Surface

/-- A rectangle of pixels. -/
structure PixelRect where
  x : Nat
  y : Nat
  w : Nat
  h : Nat
deriving DecidableEq, Repr

namespace PixelRect

def Contains (r : PixelRect) (x y : Nat) : Prop :=
  r.x ≤ x ∧ x < r.x + r.w ∧ r.y ≤ y ∧ y < r.y + r.h

instance (r : PixelRect) (x y : Nat) : Decidable (r.Contains x y) :=
  inferInstanceAs (Decidable (_ ∧ _))

theorem contains_offset {r : PixelRect} {dx dy : Nat} :
    r.Contains (r.x + dx) (r.y + dy) ↔ dx < r.w ∧ dy < r.h := by
  rw [Contains]
  omega

/-- The part `s` of a rectangle. -/
def part (r s : PixelRect) : PixelRect where
  x := r.x + s.x
  y := r.y + s.y
  w := s.w
  h := s.h

theorem part_contains {r s : PixelRect} {dx dy : Nat} :
    (r.part s).Contains (r.x + dx) (r.y + dy) ↔ s.Contains dx dy := by
  simp only [Contains, part]
  omega

theorem contains_of_part {r s : PixelRect} (hx : s.x + s.w ≤ r.w) (hy : s.y + s.h ≤ r.h) {x y : Nat}
    (h : (r.part s).Contains x y) : r.Contains x y := by
  simp only [Contains, part] at h ⊢
  omega

/-- Two rectangles have no pixel in common. -/
def Disjoint (r r' : PixelRect) : Prop :=
  r.x + r.w ≤ r'.x ∨ r'.x + r'.w ≤ r.x ∨ r.y + r.h ≤ r'.y ∨ r'.y + r'.h ≤ r.y

instance (r r' : PixelRect) : Decidable (r.Disjoint r') :=
  inferInstanceAs (Decidable (_ ∨ _))

theorem Disjoint.not_contains {r r' : PixelRect} (h : r.Disjoint r') {x y : Nat}
    (hin : r.Contains x y) : ¬r'.Contains x y := by
  rw [Disjoint] at h
  rw [Contains] at hin ⊢
  omega

end PixelRect

namespace Surface

variable {s t : Surface} {r : PixelRect} {x y k : Nat}

/-- The address is one of a pixel of the rectangle. -/
def Covers (s : Surface) (r : PixelRect) (a : Nat) : Prop :=
  ∃ x y, r.Contains x y ∧ s.addr x y = a

theorem not_covers_of_not_contains (hr : r.x + r.w ≤ s.width) (hx : x < s.width)
    (h : ¬r.Contains x y) : ¬s.Covers r (s.addr x y) := by
  rintro ⟨x', y', hin, haddr⟩
  obtain ⟨hcol, hrow⟩ := addr_decode hx y
  obtain ⟨hcol', hrow'⟩ := addr_decode (s := s) (Nat.lt_of_lt_of_le hin.2.1 hr) y'
  rw [haddr] at hcol' hrow'
  obtain rfl : x = x' := hcol.symm.trans hcol'
  obtain rfl : y = y' := hrow.symm.trans hrow'
  exact h hin

theorem not_covers_of_apart (hr : r.x + r.w ≤ s.width) (hapart : s.Apart (r.y + r.h) t k)
    (hx : x < t.width) (hy : y < k) : ¬s.Covers r (t.addr x y) := by
  rintro ⟨x', y', hin, haddr⟩
  have hle := t.le_addr x y
  have hlt := addr_lt hx hy
  have hle' := s.le_addr x' y'
  have hlt' := addr_lt (s := s) (Nat.lt_of_lt_of_le hin.2.1 hr) hin.2.2.2
  rw [Apart] at hapart
  omega

end Surface

/-- The memory after the rectangle at `sx` and `sy` of `src` went to `r` of `dst`. -/
def blit (dst : Surface) (r : PixelRect) (src : Surface) (sx sy : Nat) (mem : Nat → α) : Nat → α :=
  fun a =>
    let x := (a - dst.base) % dst.width
    let y := (a - dst.base) / dst.width
    if dst.base ≤ a ∧ r.Contains x y then src.pixel mem (sx + (x - r.x)) (sy + (y - r.y))
    else mem a

section Blit

variable {dst src t : Surface} {r : PixelRect} {sx sy : Nat} {mem : Nat → α} {x y k : Nat}

theorem pixel_blit (hx : x < dst.width) :
    dst.pixel (blit dst r src sx sy mem) x y =
      if r.Contains x y then src.pixel mem (sx + (x - r.x)) (sy + (y - r.y))
      else dst.pixel mem x y := by
  obtain ⟨hcol, hrow⟩ := Surface.addr_decode hx y
  rw [Surface.pixel, blit, hcol, hrow]
  simp only [Surface.le_addr, true_and]
  rfl

/-- A copy changes its rectangle only. -/
theorem blit_apply_of_not_covers {a : Nat} (ha : ¬dst.Covers r a) :
    blit dst r src sx sy mem a = mem a := by
  rw [blit]
  refine if_neg ?_
  rintro ⟨hle, hin⟩
  refine ha ⟨_, _, hin, ?_⟩
  rw [Surface.addr, Nat.mul_comm, Nat.div_add_mod, Nat.add_sub_cancel' hle]

end Blit

/-! ## What a copy leaves alone -/

/-- The memory changes in the rectangle `r` of the image at most. -/
def Surface.ChangesIn (s : Surface) (r : PixelRect) (mem mem' : Nat → α) : Prop :=
  ∀ a, ¬s.Covers r a → mem' a = mem a

namespace Surface.ChangesIn

variable {s t : Surface} {r r' : PixelRect} {mem mem' mem'' : Nat → α} {x y k : Nat}

theorem refl (s : Surface) (r : PixelRect) (mem : Nat → α) : s.ChangesIn r mem mem :=
  fun _ _ => rfl

theorem trans (h : s.ChangesIn r mem mem') (h' : s.ChangesIn r mem' mem'') :
    s.ChangesIn r mem mem'' := fun a ha => (h' a ha).trans (h a ha)

theorem mono (h : s.ChangesIn r mem mem') (hr : ∀ x y, r.Contains x y → r'.Contains x y) :
    s.ChangesIn r' mem mem' := by
  intro a ha
  refine h a fun hcov => ha ?_
  obtain ⟨x, y, hin, rfl⟩ := hcov
  exact ⟨x, y, hr x y hin, rfl⟩

theorem blit (s : Surface) (r : PixelRect) (src : Surface) (sx sy : Nat) (mem : Nat → α) :
    s.ChangesIn r mem (blit s r src sx sy mem) := fun _ => blit_apply_of_not_covers

/-- The other pixels of the image. -/
theorem pixel (h : s.ChangesIn r mem mem') (hr : r.x + r.w ≤ s.width) (hx : x < s.width)
    (hout : ¬r.Contains x y) : s.pixel mem' x y = s.pixel mem x y :=
  h _ (not_covers_of_not_contains hr hx hout)

/-- Another image. -/
theorem pixel_of_apart (h : s.ChangesIn r mem mem') (hr : r.x + r.w ≤ s.width)
    (hapart : s.Apart (r.y + r.h) t k) (hx : x < t.width) (hy : y < k) :
    t.pixel mem' x y = t.pixel mem x y :=
  h _ (not_covers_of_apart hr hapart hx hy)

end Surface.ChangesIn

/-! ## Pictures -/

/-- The rectangle `r` of an image shows `pic`. -/
def PixelRect.Shows (r : PixelRect) (img pic : Nat → Nat → α) : Prop :=
  ∀ dx < r.w, ∀ dy < r.h, img (r.x + dx) (r.y + dy) = pic dx dy

/-- The rectangle is the same in both images. -/
def PixelRect.SameIn (r : PixelRect) (img img' : Nat → Nat → α) : Prop :=
  r.Shows img' fun dx dy => img (r.x + dx) (r.y + dy)

/-- What changes elsewhere leaves the picture. -/
theorem PixelRect.Shows.of_disjoint {r r' : PixelRect} {img img' pic : Nat → Nat → α} {w : Nat}
    (h : r.Shows img pic) (hw : r.x + r.w ≤ w) (hdisj : r.Disjoint r')
    (hsame : ∀ x < w, ∀ y, ¬r'.Contains x y → img' x y = img x y) : r.Shows img' pic := by
  intro dx hdx dy hdy
  have hin := PixelRect.contains_offset.mpr ⟨hdx, hdy⟩
  rw [hsame _ (Nat.lt_of_lt_of_le (Nat.add_lt_add_left hdx _) hw) _ (hdisj.not_contains hin),
    h dx hdx dy hdy]

section Shows

variable {dst src : Surface} {r r' : PixelRect} {sx sy : Nat} {mem : Nat → α}
  {pic : Nat → Nat → α}

/-- What was copied is shown. -/
theorem shows_blit_self (hr : r.x + r.w ≤ dst.width) :
    r.Shows (dst.pixel (blit dst r src sx sy mem))
      fun dx dy => src.pixel mem (sx + dx) (sy + dy) := by
  intro dx hdx dy hdy
  rw [pixel_blit (by omega), if_pos (PixelRect.contains_offset.mpr ⟨hdx, hdy⟩),
    Nat.add_sub_cancel_left, Nat.add_sub_cancel_left]

/-- What was copied into a part of a rectangle lies over the picture. -/
theorem shows_blit_part (h : r.Shows (dst.pixel mem) pic) (hr : r.x + r.w ≤ dst.width) :
    r.Shows (dst.pixel (blit dst (r.part r') src (sx + r'.x) (sy + r'.y) mem)) fun dx dy =>
      if r'.Contains dx dy then src.pixel mem (sx + dx) (sy + dy) else pic dx dy := by
  intro dx hdx dy hdy
  rw [pixel_blit (by omega), h dx hdx dy hdy]
  simp only [PixelRect.part_contains]
  split
  · rename_i hin
    obtain ⟨hx, -, hy, -⟩ := hin
    rw [PixelRect.part]
    dsimp only
    rw [show sx + r'.x + (r.x + dx - (r.x + r'.x)) = sx + dx by omega,
      show sy + r'.y + (r.y + dy - (r.y + r'.y)) = sy + dy by omega]
  · rfl

end Shows
