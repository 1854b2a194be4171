import LcdPico.ConfigJson
import LcdPico.Lib.Machine
import LcdPico.Lib.Packed

/-!
# Memory that persists over soft resets

`init_persistent_memory`, `update_persistent_memory` and `update_persistent_memory_tz`
(`lcd-pico.c`) keep a block of memory that is not cleared by a soft reset. A checksum tells
whether it is still the block; it is an arbitrary function `xcrc32` of what it covers.

A boot finds the last uptime that was stored and adds it to the total, but leaves it
stored. So a boot that stores none lets the next one add that of its predecessor
again. The total is the sum over all earlier boots exactly along the histories without
such a boot (`total_uptime_counts_once`); the checksum always matches.
-/

namespace LcdPico

/-- `PERSISTENT_MEMORY_ID` -/
def PERSISTENT_MEMORY_ID : UInt32 := 0x42c0ffee

/-- `sizeof(struct persistent_memory_block)` -/
def persistentMemorySize : UInt32 := 120

/-- `struct timespec` -/
structure Timespec where
  tvSec : Int64
  tvNsec : Int32
deriving DecidableEq, Inhabited

/-- `char timezone[64]` -/
abbrev TimezoneBuf : Type := CArray UInt8 64

/-- `strncopy(m->timezone, tz, sizeof(m->timezone))`, which fills with zeros -/
@[irreducible] def copyTimezone (tz : CString) : TimezoneBuf :=
  CArray.fill 0 ((rawBytes tz).take 63)

/-- What the checksum covers of `struct persistent_memory_block`. -/
structure PmemCovered where
  id : UInt32
  len : UInt32
  savedTime : Timespec
  uptime : UInt64
  prevUptime : UInt64
  totalUptime : UInt64
  warmstart : UInt32
  timezone : TimezoneBuf
deriving DecidableEq

/-- `struct persistent_memory_block` -/
structure PersistentMemoryBlock extends PmemCovered where
  crc32 : UInt32
deriving DecidableEq

/-- What a boot takes over from the block: the time zone and the time. -/
structure Restored where
  tz : Option CString
  time : Option Timespec
deriving DecidableEq

section

variable (xcrc32 : PmemCovered → UInt32)

/-- `update_persistent_memory_crc` -/
def updatePersistentMemoryCrc (m : PmemCovered) : PersistentMemoryBlock :=
  { m with crc32 := xcrc32 m }

/-- The block is found. -/
def Found (m : PersistentMemoryBlock) : Prop :=
  (m.id = PERSISTENT_MEMORY_ID ∧ m.len = persistentMemorySize) ∧ xcrc32 m.toPmemCovered = m.crc32

instance (m : PersistentMemoryBlock) : Decidable (Found xcrc32 m) :=
  inferInstanceAs (Decidable (_ ∧ _))

/-- `init_persistent_memory` -/
def initPersistentMemory (m : PersistentMemoryBlock) : PersistentMemoryBlock × Restored :=
  if Found xcrc32 m then
    let tz := bytesText m.timezone.toList
    let restored :=
      { tz := if tz.length > 0 then some tz else none
        time := if m.savedTime.tvSec > 0 then some m.savedTime else none }
    let m := m.toPmemCovered
    let m := if m.uptime ≠ 0 then
        { m with prevUptime := m.uptime, totalUptime := m.totalUptime + m.uptime }
      else m
    (updatePersistentMemoryCrc xcrc32 { m with warmstart := m.warmstart + 1 }, restored)
  else
    (updatePersistentMemoryCrc xcrc32
      { id := PERSISTENT_MEMORY_ID
        len := persistentMemorySize
        savedTime := ⟨0, 0⟩
        uptime := 0
        prevUptime := 0
        totalUptime := 0
        warmstart := 0
        timezone := Vector.replicate 64 0 }, { tz := none, time := none })

/-- `update_persistent_memory`: whether the mutex is entered, the time if the timer is
running, and the time since boot in microseconds. -/
def updatePersistentMemory (m : PersistentMemoryBlock) (entered : Bool) (t : Option Timespec)
    (now : UInt64) : PersistentMemoryBlock :=
  if entered then
    updatePersistentMemoryCrc xcrc32
      { m.toPmemCovered with savedTime := t.getD m.savedTime, uptime := now }
  else m

/-- `update_persistent_memory_tz` -/
def updatePersistentMemoryTz (m : PersistentMemoryBlock) (entered : Bool) (tz : CString) :
    PersistentMemoryBlock :=
  if entered then
    updatePersistentMemoryCrc xcrc32
      { m.toPmemCovered with timezone := copyTimezone tz }
  else m

end

/-! ## Histories of soft resets -/

/-- A call that changes the block. -/
inductive PmemCall where
  | update (entered : Bool) (t : Option Timespec) (now : UInt64)
  | updateTz (entered : Bool) (tz : CString)
deriving DecidableEq

/-- The calls of a boot, after its `init_persistent_memory`. -/
abbrev Boot : Type := List PmemCall

/-- The uptime that a call stores. -/
def PmemCall.recorded : PmemCall → Option UInt64
  | .update true _ now => some now
  | _ => none

/-- The last uptime that a boot stores. -/
def lastRecorded (b : Boot) : Option UInt64 := (b.filterMap PmemCall.recorded).getLast?

/-- What a boot counts for in the total. -/
def recordedUptime (b : Boot) : Nat := ((lastRecorded b).getD 0).toNat

section

variable (xcrc32 : PmemCovered → UInt32)

def pmemCall (m : PersistentMemoryBlock) : PmemCall → PersistentMemoryBlock
  | .update entered t now => updatePersistentMemory xcrc32 m entered t now
  | .updateTz entered tz => updatePersistentMemoryTz xcrc32 m entered tz

/-- The block when a boot has run `init_persistent_memory`, and the boots since the block
was initialised. -/
structure Started where
  mem : PersistentMemoryBlock
  earlier : List Boot

/-- The boot makes its calls, and the next one starts. -/
def nextBoot (s : Started) (b : Boot) : Started :=
  { mem := (initPersistentMemory xcrc32 (Machine.run (pmemCall xcrc32) s.mem b)).1
    earlier := s.earlier ++ [b] }

/-- The first boot, from the memory it finds. -/
def firstBoot (m : PersistentMemoryBlock) : Started :=
  { mem := (initPersistentMemory xcrc32 m).1, earlier := [] }

/-- The total is the sum over the earlier boots. -/
def UptimeCounted (s : Started) : Prop :=
  s.mem.totalUptime.toNat = (s.earlier.map recordedUptime).sum

/-- The stored checksum is that of the block. -/
def CrcMatches (m : PersistentMemoryBlock) : Prop := xcrc32 m.toPmemCovered = m.crc32

/-- The boot stores an uptime, or finds none stored, and the sum fits the variable. -/
def CountsOnce (s : Started) (b : Boot) : Prop :=
  (lastRecorded b ≠ none ∨ s.mem.uptime = 0) ∧
    ((s.earlier ++ [b]).map recordedUptime).sum < 2 ^ 64

/-! ## What each operation does -/

variable {xcrc32} {m : PersistentMemoryBlock}

theorem crcMatches_update (m : PmemCovered) :
    CrcMatches xcrc32 (updatePersistentMemoryCrc xcrc32 m) := rfl

theorem initPersistentMemory_found (m : PersistentMemoryBlock) :
    Found xcrc32 (initPersistentMemory xcrc32 m).1 := by
  by_cases hfound : Found xcrc32 m
  · rw [initPersistentMemory, if_pos hfound]
    by_cases huptime : m.uptime ≠ 0
    · simp only [if_pos huptime]
      exact ⟨hfound.1, crcMatches_update _⟩
    · simp only [if_neg huptime]
      exact ⟨hfound.1, crcMatches_update _⟩
  · rw [initPersistentMemory, if_neg hfound]
    exact ⟨⟨rfl, rfl⟩, crcMatches_update _⟩

/-- A boot adds the uptime it finds, and leaves it stored. -/
theorem initPersistentMemory_uptime (hfound : Found xcrc32 m) :
    (initPersistentMemory xcrc32 m).1.totalUptime = m.totalUptime + m.uptime := by
  rw [initPersistentMemory, if_pos hfound]
  by_cases huptime : m.uptime ≠ 0
  · simp only [if_pos huptime]
    rfl
  · simp only [if_neg huptime]
    rw [Decidable.not_not.mp huptime]
    exact (UInt64.add_zero _).symm

/-- A call updates the checksum, or nothing. -/
theorem pmemCall_found (hfound : Found xcrc32 m) (c : PmemCall) :
    Found xcrc32 (pmemCall xcrc32 m c) := by
  rcases c with ⟨_ | _, t, now⟩ | ⟨_ | _, tz⟩
  · exact hfound
  · exact ⟨hfound.1, crcMatches_update _⟩
  · exact hfound
  · exact ⟨hfound.1, crcMatches_update _⟩

variable (xcrc32) in
/-- A call stores its uptime and leaves the total as it is. -/
theorem pmemCall_uptime (m : PersistentMemoryBlock) (c : PmemCall) :
    (pmemCall xcrc32 m c).totalUptime = m.totalUptime ∧
      (pmemCall xcrc32 m c).uptime = c.recorded.getD m.uptime := by
  rcases c with ⟨_ | _, t, now⟩ | ⟨_ | _, tz⟩ <;> exact ⟨rfl, rfl⟩

variable (xcrc32) in
/-- So does a boot, with the last uptime it stores. -/
theorem calls_uptime (m : PersistentMemoryBlock) (b : Boot) :
    (Machine.run (pmemCall xcrc32) m b).totalUptime = m.totalUptime ∧
      (Machine.run (pmemCall xcrc32) m b).uptime = (lastRecorded b).getD m.uptime := by
  induction b using List.reverseRecOn with
  | nil => exact ⟨rfl, rfl⟩
  | append_singleton b c ih =>
    obtain ⟨htotal, huptime⟩ := ih
    obtain ⟨htotal', huptime'⟩ := pmemCall_uptime xcrc32
      (Machine.run (pmemCall xcrc32) m b) c
    rw [Machine.run_append, Machine.run_cons, Machine.run_nil, htotal', huptime', htotal, huptime]
    refine ⟨rfl, ?_⟩
    rw [lastRecorded, lastRecorded, List.filterMap_append, List.getLast?_append]
    cases hrec : c.recorded <;> simp [hrec]

/-- The checksum matches after each call. -/
theorem crcMatches_calls (hfound : Found xcrc32 m) (b : Boot) :
    Machine.Throughout (pmemCall xcrc32) (CrcMatches xcrc32) m b := by
  induction b generalizing m with
  | nil => exact hfound.2
  | cons c b ih => exact ⟨hfound.2, ih (pmemCall_found hfound c)⟩

/-! ## Main result -/

theorem sum_recorded_append (earlier : List Boot) (b : Boot) :
    ((earlier ++ [b]).map recordedUptime).sum =
      (earlier.map recordedUptime).sum + recordedUptime b := by
  rw [List.map_append, List.sum_append, List.map_singleton, List.sum_singleton]

theorem nextBoot_total {s : Started} (hfound : Found xcrc32 s.mem) (b : Boot) :
    (nextBoot xcrc32 s b).mem.totalUptime =
      s.mem.totalUptime + (lastRecorded b).getD s.mem.uptime := by
  obtain ⟨htotal, huptime⟩ := calls_uptime xcrc32 s.mem b
  have hrun : Found xcrc32 (Machine.run (pmemCall xcrc32) s.mem b) :=
    Machine.run_invariant (P := Found xcrc32) (fun _ c h => pmemCall_found h c) hfound b
  rw [nextBoot, initPersistentMemory_uptime hrun, htotal, huptime]

/-- The total stays the sum exactly when the boot counts once. -/
theorem uptimeCounted_nextBoot_iff {s : Started} (hfound : Found xcrc32 s.mem)
    (hcounted : UptimeCounted s) (b : Boot) :
    UptimeCounted (nextBoot xcrc32 s b) ↔ CountsOnce s b := by
  have hlt := (nextBoot xcrc32 s b).mem.totalUptime.toNat_lt
  have htotal := congrArg UInt64.toNat (nextBoot_total hfound b)
  rw [UInt64.toNat_add] at htotal
  rw [UptimeCounted] at hcounted
  rw [UptimeCounted, CountsOnce, show (nextBoot xcrc32 s b).earlier = s.earlier ++ [b] from rfl,
    sum_recorded_append, ← hcounted]
  cases hrec : lastRecorded b with
  | some now =>
    have hcount : recordedUptime b = now.toNat := by rw [recordedUptime, hrec, Option.getD_some]
    rw [hrec, Option.getD_some] at htotal
    rw [hcount]
    constructor
    · exact fun h => ⟨.inl (Option.some_ne_none now), by omega⟩
    · rintro ⟨-, hfits⟩
      omega
  | none =>
    have hcount : recordedUptime b = 0 := by rw [recordedUptime, hrec, Option.getD_none]; rfl
    -- the uptime that is found is that of an earlier boot, which counted it
    have huptime := s.mem.uptime.toNat_lt
    have hbefore := s.mem.totalUptime.toNat_lt
    rw [hrec, Option.getD_none] at htotal
    rw [hcount]
    constructor
    · intro h
      have hzero : s.mem.uptime.toNat = 0 := by omega
      exact ⟨.inr (UInt64.toNat_inj.mp hzero), by omega⟩
    · rintro ⟨hzero, -⟩
      have hzero : s.mem.uptime = 0 := hzero.resolve_left fun h => h rfl
      rw [hzero] at htotal
      have : (0 : UInt64).toNat = 0 := rfl
      omega

/-- **Total uptime counts every run once**, in the histories in which each boot does, and
in no others. The checksum matches after every operation. -/
theorem total_uptime_counts_once (hnew : ¬ Found xcrc32 m) (boots : List Boot) :
    Machine.Throughout (nextBoot xcrc32)
        (fun s => UptimeCounted s ∧
          ∀ b : Boot, Machine.Throughout (pmemCall xcrc32) (CrcMatches xcrc32) s.mem b)
        (firstBoot xcrc32 m) boots ↔
      Machine.Within (nextBoot xcrc32) CountsOnce (firstBoot xcrc32 m) boots := by
  -- a boot starts from a block that is found, with the right total
  refine Machine.throughout_iff_within (J := fun s => Found xcrc32 s.mem ∧ UptimeCounted s)
    ?_ ?_ ?_ ?_ boots
  · rintro s ⟨hfound, hcounted⟩
    exact ⟨hcounted, crcMatches_calls hfound⟩
  · rintro s b ⟨hfound, hcounted⟩ honce
    exact ⟨initPersistentMemory_found _, (uptimeCounted_nextBoot_iff hfound hcounted b).mpr honce⟩
  · rintro s b ⟨hfound, hcounted⟩ ⟨hnext, -⟩
    exact (uptimeCounted_nextBoot_iff hfound hcounted b).mp hnext
  · refine ⟨initPersistentMemory_found _, ?_⟩
    rw [UptimeCounted, firstBoot, initPersistentMemory, if_neg hnew]
    rfl

end

/-! ## Two histories -/

/-- Memory that is not yet the block. -/
def coldMemory : PersistentMemoryBlock :=
  { id := 0
    len := 0
    savedTime := ⟨0, 0⟩
    uptime := 3
    prevUptime := 0
    totalUptime := 7
    warmstart := 0
    timezone := Vector.replicate 64 0xaa
    crc32 := 1 }

/-- Two boots that store their uptimes, the first one twice, and a third. -/
theorem total_uptime_counts_once_updates :
    Machine.Throughout (nextBoot fun c => c.warmstart)
      (fun s => UptimeCounted s ∧ ∀ b : Boot,
        Machine.Throughout (pmemCall fun c => c.warmstart) (CrcMatches fun c => c.warmstart)
          s.mem b)
      (firstBoot (fun c => c.warmstart) coldMemory)
      [[.update true none 60000000, .updateTz true "UTC0".toList, .update true none 120000000],
        [.update true (some ⟨1700000000, 0⟩) 60000000, .update false none 90000000]] :=
  (total_uptime_counts_once (m := coldMemory) (by decide) _).mpr
    ⟨⟨.inl (by decide), by decide⟩, ⟨.inl (by decide), by decide⟩, trivial⟩

/-- A boot that stores no uptime: the five seconds of its predecessor count twice. -/
theorem total_uptime_counts_twice :
    (Machine.run (nextBoot fun c => c.warmstart) (firstBoot (fun c => c.warmstart) coldMemory)
        [[.update true none 5000000], []]).mem.totalUptime = 10000000 ∧
      ¬ UptimeCounted (Machine.run (nextBoot fun c => c.warmstart)
        (firstBoot (fun c => c.warmstart) coldMemory) [[.update true none 5000000], []]) := by
  rw [UptimeCounted]
  decide

end LcdPico
