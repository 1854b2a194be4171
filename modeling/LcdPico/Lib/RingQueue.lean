import LcdPico.Lib.CArray
import Mathlib.Data.Nat.ModEq

/-!
# Ring buffers as queues

A ring of `n` slots with a read and a write index, one slot kept free so that
equal indices mean empty. `queue` is the list the ring stands for; `push` and
`pop` are its two operations, each of which moves one index only:

* `queue_push` — a push that finds room appends to the queue;
* `queue_cons` — a pop of a ring that is not empty removes the head;
* `isFull_iff`, `isEmpty_iff` — the index tests, as lengths.

`head_push` is what a consumer interrupted by a producer relies on: a push never
changes the head of a queue that has one.
-/

/-- A ring of `n` slots. -/
structure RingQueue (α : Type) (n : Nat) where
  slots : CArray α n
  rd : Nat
  wr : Nat

namespace RingQueue

variable {α : Type} [Inhabited α] {n : Nat}

/-- Both indices point into the ring. -/
structure Ok (r : RingQueue α n) : Prop where
  rd_lt : r.rd < n
  wr_lt : r.wr < n

/-- The number of slots in use. -/
def level (r : RingQueue α n) : Nat := (r.wr + n - r.rd) % n

/-- The elements from the read index up to the write index. -/
def queue (r : RingQueue α n) : List α :=
  (List.range r.level).map fun k => r.slots.rd ((r.rd + k) % n)

def isFull (r : RingQueue α n) : Bool := (r.wr + 1) % n = r.rd

def isEmpty (r : RingQueue α n) : Bool := r.rd = r.wr

/-- Write at the write index, then move it. -/
def push (r : RingQueue α n) (x : α) : RingQueue α n :=
  { r with slots := r.slots.wr r.wr x, wr := (r.wr + 1) % n }

/-- Move the read index. -/
def pop (r : RingQueue α n) : RingQueue α n := { r with rd := (r.rd + 1) % n }

/-- The element at the read index. -/
def head (r : RingQueue α n) : α := r.slots.rd r.rd

/-! ## The level -/

omit [Inhabited α] in
theorem level_lt {r : RingQueue α n} (h : r.Ok) : r.level < n :=
  Nat.mod_lt _ (Nat.zero_lt_of_lt h.rd_lt)

omit [Inhabited α] in
/-- The write index is the level away from the read index. -/
theorem rd_add_level {r : RingQueue α n} (h : r.Ok) : (r.rd + r.level) % n = r.wr := by
  have hsum : r.rd + (r.wr + n - r.rd) = r.wr + n := by
    have := h.rd_lt
    omega
  rw [level, Nat.add_mod_mod, hsum, Nat.add_mod_right, Nat.mod_eq_of_lt h.wr_lt]

/-- Slots at different distances are different. -/
theorem dist_inj {n i j k : Nat} (hj : j < n) (hk : k < n) (h : (i + j) % n = (i + k) % n) :
    j = k := by
  have hmod : j ≡ k [MOD n] := Nat.ModEq.add_left_cancel' i h
  exact Nat.ModEq.eq_of_lt_of_lt hmod hj hk

omit [Inhabited α] in
theorem level_eq {r : RingQueue α n} (h : r.Ok) {k : Nat} (hk : k < n)
    (hwr : (r.rd + k) % n = r.wr) : r.level = k :=
  dist_inj (level_lt h) hk ((rd_add_level h).trans hwr.symm)

@[simp] theorem length_queue (r : RingQueue α n) : r.queue.length = r.level := by
  simp [queue]

omit [Inhabited α] in
/-- A full ring has one free slot. -/
theorem isFull_iff {r : RingQueue α n} (h : r.Ok) : r.isFull = true ↔ r.level = n - 1 := by
  have hpos : 0 < n := Nat.zero_lt_of_lt h.rd_lt
  have hstep : (r.rd + (r.level + 1)) % n = (r.wr + 1) % n := by
    rw [← Nat.add_assoc, Nat.add_mod, rd_add_level h, Nat.add_mod r.wr 1,
      Nat.mod_eq_of_lt h.wr_lt]
  rw [isFull, decide_eq_true_iff, ← hstep]
  constructor
  · intro hfull
    by_contra hne
    have hlt : r.level + 1 < n := by
      have := level_lt h
      omega
    have hzero : (r.rd + (r.level + 1)) % n = (r.rd + 0) % n := by
      rw [hfull, Nat.add_zero, Nat.mod_eq_of_lt h.rd_lt]
    exact absurd (dist_inj hlt hpos hzero) (Nat.succ_ne_zero _)
  · intro hlevel
    rw [hlevel, Nat.sub_add_cancel hpos, Nat.add_mod_right, Nat.mod_eq_of_lt h.rd_lt]

omit [Inhabited α] in
theorem isEmpty_iff {r : RingQueue α n} (h : r.Ok) : r.isEmpty = true ↔ r.level = 0 := by
  rw [isEmpty, decide_eq_true_iff]
  constructor
  · intro heq
    exact level_eq h (Nat.zero_lt_of_lt h.rd_lt)
      (by rw [Nat.add_zero, Nat.mod_eq_of_lt h.rd_lt, heq])
  · intro hzero
    have hwr := rd_add_level h
    rw [hzero, Nat.add_zero, Nat.mod_eq_of_lt h.rd_lt] at hwr
    exact hwr

/-! ## Push and pop -/

omit [Inhabited α] in
theorem Ok.push {r : RingQueue α n} (h : r.Ok) (x : α) : (r.push x).Ok :=
  ⟨h.rd_lt, Nat.mod_lt _ (Nat.zero_lt_of_lt h.rd_lt)⟩

omit [Inhabited α] in
theorem Ok.pop {r : RingQueue α n} (h : r.Ok) : r.pop.Ok :=
  ⟨Nat.mod_lt _ (Nat.zero_lt_of_lt h.rd_lt), h.wr_lt⟩

omit [Inhabited α] in
theorem level_push {r : RingQueue α n} (h : r.Ok) (hroom : r.isFull = false) (x : α) :
    (r.push x).level = r.level + 1 := by
  have hlt : r.level + 1 < n := by
    have hne : r.level ≠ n - 1 := fun heq => by
      rw [(isFull_iff h).mpr heq] at hroom
      exact Bool.noConfusion hroom
    have := level_lt h
    omega
  refine level_eq (h.push x) hlt ?_
  calc (r.rd + (r.level + 1)) % n
      = ((r.rd + r.level) % n + 1) % n := by rw [Nat.mod_add_mod, Nat.add_assoc]
    _ = (r.wr + 1) % n := by rw [rd_add_level h]

/-- A push that finds room appends. -/
theorem queue_push {r : RingQueue α n} (h : r.Ok) (hroom : r.isFull = false) (x : α) :
    (r.push x).queue = r.queue ++ [x] := by
  have hlevel := level_push h hroom x
  have hlast : (r.push x).slots.rd ((r.rd + r.level) % n) = x := by
    rw [rd_add_level h]
    exact CArray.rd_wr_self _ h.wr_lt _
  rw [queue, hlevel, List.range_succ, List.map_append, List.map_singleton]
  change _ ++ [(r.push x).slots.rd ((r.rd + r.level) % n)] = _
  rw [hlast, queue]
  congr 1
  refine List.map_congr_left fun k hk => ?_
  rw [List.mem_range] at hk
  -- the slot written is not in use
  refine CArray.rd_wr_ne _ ?_ _
  intro heq
  have hk' : k < n := Nat.lt_trans hk (level_lt h)
  rw [← rd_add_level h] at heq
  exact absurd (dist_inj (level_lt h) hk' heq) (Nat.ne_of_gt hk)

/-- The head of a queue that has one. -/
theorem queue_cons {r : RingQueue α n} (h : r.Ok) (hne : r.isEmpty = false) :
    r.queue = r.head :: r.pop.queue := by
  obtain ⟨k, hk⟩ : ∃ k, r.level = k + 1 := by
    refine Nat.exists_eq_succ_of_ne_zero fun hzero => ?_
    rw [(isEmpty_iff h).mpr hzero] at hne
    exact Bool.noConfusion hne
  have hpop : r.pop.level = k := by
    refine level_eq h.pop ?_ ?_
    · have := level_lt h
      omega
    · calc ((r.rd + 1) % n + k) % n
          = (r.rd + (k + 1)) % n := by rw [Nat.mod_add_mod, Nat.add_assoc, Nat.add_comm 1 k]
        _ = r.wr := by rw [← hk, rd_add_level h]
  rw [queue, hk, List.range_succ_eq_map, List.map_cons, List.map_map, Nat.add_zero,
    Nat.mod_eq_of_lt h.rd_lt, queue, hpop]
  refine congrArg _ (List.map_congr_left fun k _ => ?_)
  simp only [Function.comp_apply, pop, Nat.mod_add_mod]
  rw [Nat.add_assoc, Nat.add_comm 1 k]

/-- A push behind a head leaves the head. -/
theorem head_push {r : RingQueue α n} (hne : r.isEmpty = false) (x : α) :
    (r.push x).head = r.head := by
  refine CArray.rd_wr_ne _ ?_ _
  intro heq
  rw [isEmpty, heq, decide_eq_false_iff_not] at hne
  exact hne rfl

omit [Inhabited α] in
theorem isEmpty_push {r : RingQueue α n} (h : r.Ok) (hroom : r.isFull = false) (x : α) :
    (r.push x).isEmpty = false := by
  rw [← Bool.not_eq_true, isEmpty_iff (h.push x), level_push h hroom x]
  exact Nat.succ_ne_zero _

end RingQueue
