import LcdPico.Config
import LcdPico.Lib.Machine
import Mathlib.Data.List.Forall2

/-!
# Messages to the log server (`log.c`, `syslog.c`)

`log_msg` cuts a message to its buffer, drops a newline at its end, and hands it to `syslog_msg`
if its priority is within the level. `syslog_msg` writes priority, time and host name in front of
it, each behind the last one and with a size of its own, and sends the whole as a packet. The
uptime goes to `syslog_msg` every hour, whatever the level is.

`LogRecord` is what the server is to learn, and `readPacket` how it reads a packet.

* `readPacket_syslogMsg` — a packet is read back, with the message up to its room
* `log_stream` — over all runs, the server learns of the messages within the level and of the
  uptimes, in order, while the client is open
-/

namespace LcdPico

/-! ## What is sent -/

def SYSLOG_MAX_MSG_LEN : Nat := 256

/-- The size of `buf` in `log_msg`. -/
def LOG_BUF_LEN : Nat := 256

/-- The fields of `struct tm` that are sent. -/
structure Tm where
  mon : Nat
  mday : Nat
  hour : Nat
  min : Nat
  sec : Nat
deriving DecidableEq, Repr

/-- What `localtime_r` makes of a time. -/
structure LocalTime extends Tm where
  mon_lt : mon < 12
  mday_lt : mday < 32
  hour_lt : hour < 24
  min_lt : min < 60
  sec_lt : sec < 61

/-- `%b` -/
def monthNames : List CString :=
  ["Jan".toList, "Feb".toList, "Mar".toList, "Apr".toList, "May".toList, "Jun".toList,
    "Jul".toList, "Aug".toList, "Sep".toList, "Oct".toList, "Nov".toList, "Dec".toList]

/-- A number of two places at least. -/
def padTwo (c : Char) (n : Nat) : CString := if n < 10 then c :: CText.utoa n else CText.utoa n

/-- `"%b %e %T "` -/
def timeText (tm : Tm) : CString :=
  monthNames.getD tm.mon [] ++ ' ' :: padTwo ' ' tm.mday ++ ' ' :: padTwo '0' tm.hour ++
    ':' :: padTwo '0' tm.min ++ ':' :: padTwo '0' tm.sec ++ [' ']

/-- `strftime` of a text; if it does not fit, nothing is said of the buffer. -/
def strftime? (size : Nat) (s : CString) : Option CString :=
  if s.length < size then some s else none

/-- `syslog_t`: one of the facilities, and a host name without blanks. `valid_hostname` lets no
blank through, and the server takes the first one for the end of the name. -/
structure Syslog where
  facility : Nat
  hostname : CStr 32
  facility_lt : facility < 24
  noBlank : ' ' ∉ hostname.val

/-- What `syslog_msg` puts in front of the message. -/
def syslogHeader? (syslog : Syslog) (tm : Tm) (severity : Nat) : Option CString := do
  let buf := CText.strncopy
    ('<' :: CText.utoa (syslog.facility <<< 3 ||| severity &&& 7) ++ ['>']) 6
  let time ← strftime? 18 (timeText tm)
  return buf ++ time ++ CText.strncopy (syslog.hostname.val ++ [' ']) 34

/-- `syslog_msg`, with the text that its arguments make: the packets it sends. `rtc_get_tm` may
find no time, and `pbuf_alloc` no memory. -/
def syslogMsg? (syslog : Option Syslog) (tm : Option Tm) (pbuf : Bool) (severity : Nat)
    (msg : CString) : Option (Int × List CString) :=
  match syslog with
  | none => some (1, [])
  | some syslog =>
    match tm with
    | none => some (2, [])
    | some tm => do
      let buf ← syslogHeader? syslog tm severity
      let buf := buf ++ CText.strncopy msg (SYSLOG_MAX_MSG_LEN - buf.length - 1)
      return (0, if pbuf then [buf] else [])

/-- The text that `log_msg` hands on. -/
def logText (text : CString) : CString :=
  let buf := CText.strncopy text LOG_BUF_LEN
  if buf.getLast? = some '\n' then buf.dropLast else buf

/-! ## What the server reads -/

/-- What the server is to learn of a message. -/
structure LogRecord where
  facility : Nat
  severity : Nat
  time : Tm
  hostname : CString
  message : CString
deriving DecidableEq, Repr

/-- Two places of a number, the first one perhaps blank. -/
def readTwo (a b : Char) : Nat := CText.digitsVal 10 (if a = ' ' then [b] else [a, b])

/-- A time in its 16 places, and what follows. -/
def readTime (s : CString) : Option (Tm × CString) :=
  (monthNames.idxOf? (s.take 3)).map fun mon =>
    ({ mon := mon
       mday := readTwo (s.getD 4 ' ') (s.getD 5 ' ')
       hour := readTwo (s.getD 7 ' ') (s.getD 8 ' ')
       min := readTwo (s.getD 10 ' ') (s.getD 11 ' ')
       sec := readTwo (s.getD 13 ' ') (s.getD 14 ' ') }, s.drop 16)

def readPacket (s : CString) : Option LogRecord :=
  match s with
  | '<' :: s =>
    match CText.strtol 10 s with
    | some (pri, '>' :: s) =>
      (readTime s).map fun (time, s) =>
        { facility := pri.toNat / 8
          severity := pri.toNat % 8
          time := time
          hostname := s.takeWhile (· ≠ ' ')
          message := (s.dropWhile (· ≠ ' ')).tail }
    | _ => none
  | _ => none

/-! ## A packet -/

theorem padTwo_spec {c : Char} (hc : c = ' ' ∨ c = '0') {n : Nat} (hn : n < 100) :
    ∃ a b, padTwo c n = [a, b] ∧ readTwo a b = n := by
  -- all the places there are: a number below 100, behind a blank or a zero
  have hall : ([' ', '0'].all fun c => (List.range 100).all fun n =>
      decide ((padTwo c n).length = 2 ∧
        readTwo ((padTwo c n).getD 0 ' ') ((padTwo c n).getD 1 ' ') = n)) = true := by
    decide +kernel
  have hc' := List.all_eq_true.mp hall c (by simpa using hc)
  obtain ⟨hlen, hread⟩ :=
    of_decide_eq_true (List.all_eq_true.mp hc' n (List.mem_range.mpr hn))
  obtain ⟨a, b, hab⟩ := List.length_eq_two.mp hlen
  rw [hab] at hread
  exact ⟨a, b, hab, hread⟩

theorem month_spec {m : Nat} (hm : m < 12) :
    ∃ a b c, monthNames.getD m [] = [a, b, c] ∧ monthNames.idxOf? [a, b, c] = some m := by
  have hall : ∀ m < 12, (monthNames.getD m []).length = 3 ∧
      monthNames.idxOf? (monthNames.getD m []) = some m := by decide +kernel
  obtain ⟨hlen, hidx⟩ := hall m hm
  obtain ⟨a, b, c, habc⟩ := List.length_eq_three.mp hlen
  rw [habc] at hidx
  exact ⟨a, b, c, habc, hidx⟩

/-- A time takes 16 places, and is read back. -/
theorem readTime_timeText (tm : LocalTime) (rest : CString) :
    (timeText tm.toTm).length = 16 ∧
      readTime (timeText tm.toTm ++ rest) = some (tm.toTm, rest) := by
  obtain ⟨m₁, m₂, m₃, hmon, hidx⟩ := month_spec tm.mon_lt
  obtain ⟨d₁, d₂, hmday, hd⟩ := padTwo_spec (.inl rfl) (Nat.lt_trans tm.mday_lt (by decide))
  obtain ⟨h₁, h₂, hhour, hh⟩ := padTwo_spec (.inr rfl) (Nat.lt_trans tm.hour_lt (by decide))
  obtain ⟨n₁, n₂, hmin, hn⟩ := padTwo_spec (.inr rfl) (Nat.lt_trans tm.min_lt (by decide))
  obtain ⟨s₁, s₂, hsec, hs⟩ := padTwo_spec (.inr rfl) (Nat.lt_trans tm.sec_lt (by decide))
  have htext : timeText tm.toTm =
      [m₁, m₂, m₃, ' ', d₁, d₂, ' ', h₁, h₂, ':', n₁, n₂, ':', s₁, s₂, ' '] := by
    rw [timeText, hmon, hmday, hhour, hmin, hsec]
    rfl
  rw [htext]
  refine ⟨rfl, ?_⟩
  have hread : readTime ([m₁, m₂, m₃, ' ', d₁, d₂, ' ', h₁, h₂, ':', n₁, n₂, ':', s₁, s₂, ' '] ++
      rest) = (monthNames.idxOf? [m₁, m₂, m₃]).map fun mon =>
        ({ mon := mon, mday := readTwo d₁ d₂, hour := readTwo h₁ h₂, min := readTwo n₁ n₂,
           sec := readTwo s₁ s₂ }, rest) := rfl
  rw [hread, hidx, hd, hh, hn, hs]
  rfl

/-- The priority has three digits at most, and the server takes it apart again. -/
theorem priority_spec (syslog : Syslog) (severity : Nat) :
    (CText.utoa (syslog.facility <<< 3 ||| severity &&& 7)).length ≤ 3 ∧
      (syslog.facility <<< 3 ||| severity &&& 7) < 2 ^ 31 ∧
      (syslog.facility <<< 3 ||| severity &&& 7) / 8 = syslog.facility ∧
      (syslog.facility <<< 3 ||| severity &&& 7) % 8 = severity % 8 := by
  have hall : ∀ facility < 24, ∀ severity < 8,
      (CText.utoa (facility <<< 3 ||| severity)).length ≤ 3 ∧
        (facility <<< 3 ||| severity) < 2 ^ 31 ∧
        (facility <<< 3 ||| severity) / 8 = facility ∧
        (facility <<< 3 ||| severity) % 8 = severity := by decide +kernel
  have hand : severity &&& 7 = severity % 8 := Nat.and_two_pow_sub_one_eq_mod severity 3
  rw [hand]
  exact hall _ syslog.facility_lt _ (Nat.mod_lt _ (by decide))

/-- What stands in front of the message, whole. -/
def syslogHeader (syslog : Syslog) (tm : Tm) (severity : Nat) : CString :=
  '<' :: CText.utoa (syslog.facility <<< 3 ||| severity &&& 7) ++ ['>'] ++ timeText tm ++
    (syslog.hostname.val ++ [' '])

/-- The characters of the message that are sent. -/
def messageRoom (syslog : Syslog) (tm : Tm) (severity : Nat) : Nat :=
  SYSLOG_MAX_MSG_LEN - (syslogHeader syslog tm severity).length - 2

/-- The parts fit into their sizes. -/
theorem syslogHeader?_eq (syslog : Syslog) (tm : LocalTime) (severity : Nat) :
    syslogHeader? syslog tm.toTm severity = some (syslogHeader syslog tm.toTm severity) := by
  obtain ⟨hdigits, -⟩ := priority_spec syslog severity
  obtain ⟨htime, -⟩ := readTime_timeText tm []
  have hhost : syslog.hostname.val.length ≤ 31 := syslog.hostname.property
  have hstrftime : strftime? 18 (timeText tm.toTm) = some (timeText tm.toTm) := by
    rw [strftime?, if_pos (by omega)]
  rw [syslogHeader?, hstrftime, Option.bind_eq_bind, Option.bind_some, CText.strncopy,
    CText.strncopy, List.take_of_length_le, List.take_of_length_le]
  · rfl
  · rw [List.length_append, List.length_singleton]
    omega
  · rw [List.length_append, List.length_cons, List.length_singleton]
    omega

example : syslogHeader? ⟨1, CStr.copy "lcdpico1".toList, by decide, by decide⟩ ⟨0, 2, 3, 4, 5⟩ 6 =
    some "<14>Jan  2 03:04:05 lcdpico1 ".toList := by decide +kernel

/-- There is room for a message of 200 characters. -/
theorem le_messageRoom (syslog : Syslog) (tm : LocalTime) (severity : Nat) :
    200 ≤ messageRoom syslog tm.toTm severity := by
  obtain ⟨hdigits, -⟩ := priority_spec syslog severity
  obtain ⟨htime, -⟩ := readTime_timeText tm []
  have hhost : syslog.hostname.val.length ≤ 31 := syslog.hostname.property
  simp only [messageRoom, syslogHeader, SYSLOG_MAX_MSG_LEN, List.length_append, List.length_cons,
    List.length_nil, htime]
  omega

def syslogRecord (syslog : Syslog) (tm : LocalTime) (severity : Nat) (msg : CString) :
    LogRecord where
  facility := syslog.facility
  severity := severity % 8
  time := tm.toTm
  hostname := syslog.hostname.val
  message := msg

/-- The packet fits into its buffer, and the server reads the record, with 200 characters of the
message at least. -/
def CarriesRecord (packet : CString) (r : LogRecord) : Prop :=
  packet.length < SYSLOG_MAX_MSG_LEN ∧
    ∃ n, 200 ≤ n ∧ readPacket packet = some { r with message := r.message.take n }

/-- The server reads the record. -/
theorem readPacket_header (syslog : Syslog) (tm : LocalTime) (severity : Nat) (msg : CString) :
    readPacket (syslogHeader syslog tm.toTm severity ++ msg) =
      some (syslogRecord syslog tm severity msg) := by
  obtain ⟨-, hlt, hfacility, hseverity⟩ := priority_spec syslog severity
  obtain ⟨-, htime⟩ := readTime_timeText tm (syslog.hostname.val ++ ' ' :: msg)
  have hsplit : syslogHeader syslog tm.toTm severity ++ msg =
      '<' :: (CText.utoa (syslog.facility <<< 3 ||| severity &&& 7) ++
        '>' :: (timeText tm.toTm ++ (syslog.hostname.val ++ ' ' :: msg))) := by
    simp only [syslogHeader, List.append_assoc, List.cons_append, List.nil_append]
  have hpri : CText.strtol 10 (CText.utoa (syslog.facility <<< 3 ||| severity &&& 7) ++
      '>' :: (timeText tm.toTm ++ (syslog.hostname.val ++ ' ' :: msg))) =
        some (((syslog.facility <<< 3 ||| severity &&& 7 : Nat) : Int),
          '>' :: (timeText tm.toTm ++ (syslog.hostname.val ++ ' ' :: msg))) := by
    refine CText.strtol_utoa_append hlt ?_
    rintro c hc
    obtain rfl := Option.some.inj hc
    decide
  -- the name ends at the first blank
  have hname : ∀ c ∈ syslog.hostname.val, (decide (c ≠ ' ')) = true := by
    intro c hc
    refine decide_eq_true ?_
    rintro rfl
    exact syslog.noBlank hc
  rw [hsplit, readPacket, hpri]
  change Option.map _ (readTime _) = _
  rw [htime, Option.map_some, Int.toNat_natCast, hfacility, hseverity]
  dsimp only
  rw [List.takeWhile_append_of_pos hname, List.dropWhile_append_of_pos hname,
    List.takeWhile_cons_of_neg (by decide), List.dropWhile_cons_of_neg (by decide),
    List.append_nil, List.tail_cons]
  rfl

/-- A packet carries its message. -/
theorem readPacket_syslogMsg (syslog : Syslog) (tm : LocalTime) (pbuf : Bool) (severity : Nat)
    (msg : CString) :
    ∃ packet, syslogMsg? (some syslog) (some tm.toTm) pbuf severity msg =
        some (0, if pbuf then [packet] else []) ∧
      CarriesRecord packet (syslogRecord syslog tm severity msg) := by
  have hroom := le_messageRoom syslog tm severity
  have hcut : CText.strncopy msg
      (SYSLOG_MAX_MSG_LEN - (syslogHeader syslog tm.toTm severity).length - 1) =
        msg.take (messageRoom syslog tm.toTm severity) := rfl
  refine ⟨syslogHeader syslog tm.toTm severity ++ msg.take (messageRoom syslog tm.toTm severity),
    ?_, ?_, messageRoom syslog tm.toTm severity, hroom, readPacket_header syslog tm severity _⟩
  · rw [syslogMsg?, syslogHeader?_eq, Option.bind_eq_bind, Option.bind_some]
    dsimp only
    rw [hcut]
    rfl
  · have hle := List.length_take_le (messageRoom syslog tm.toTm severity) msg
    rw [messageRoom] at hle hroom
    rw [List.length_append, messageRoom]
    omega

/-! ## The stream of messages -/

/-- `global_log_level`, `global_syslog_level`, and `syslog`. -/
structure LogState where
  globalLogLevel : Int
  globalSyslogLevel : Int
  syslog : Option Syslog

/-- What happens: each message with the time that `rtc_get_tm` finds, and whether `pbuf_alloc`
finds memory. -/
inductive LogEvent where
  /-- `set_log_level` -/
  | setLogLevel (level : Int)
  /-- `set_syslog_level` -/
  | setSyslogLevel (level : Int)
  /-- `syslog_open`, which may fail -/
  | syslogOpen (syslog : Option Syslog)
  /-- `syslog_close` -/
  | syslogClose
  /-- `log_msg` -/
  | logMsg (priority : Nat) (text : CString) (tm : Option LocalTime) (pbuf : Bool)
  /-- `syslog_msg`, as `wifi_poll` calls it for the uptime -/
  | syslogMsg (severity : Nat) (text : CString) (tm : Option LocalTime) (pbuf : Bool)

namespace LogState

def next (s : LogState) : LogEvent → LogState
  | .setLogLevel level => { s with globalLogLevel := level }
  | .setSyslogLevel level => { s with globalSyslogLevel := level }
  | .syslogOpen syslog => { s with syslog := syslog }
  | .syslogClose => { s with syslog := none }
  | .logMsg _ _ _ _ => s
  | .syslogMsg _ _ _ _ => s

/-- The packets that are sent. -/
def packets? (s : LogState) : LogEvent → Option (List CString)
  | .logMsg priority text tm pbuf =>
    if (priority : Int) > s.globalLogLevel ∧ (priority : Int) > s.globalSyslogLevel then some []
    else if (priority : Int) ≤ s.globalSyslogLevel then
      (syslogMsg? s.syslog (tm.map LocalTime.toTm) pbuf priority (logText text)).map Prod.snd
    else some []
  | .syslogMsg severity text tm pbuf =>
    (syslogMsg? s.syslog (tm.map LocalTime.toTm) pbuf severity text).map Prod.snd
  | _ => some []

/-- The messages that reach the server: those for which there is one, and time and memory. -/
def reaches (s : LogState) (tm : Option LocalTime) (pbuf : Bool) (severity : Nat) (msg : CString) :
    List LogRecord :=
  match s.syslog with
  | none => []
  | some syslog =>
    match tm with
    | none => []
    | some tm => if pbuf then [syslogRecord syslog tm severity msg] else []

/-- What the server is to learn: the level decides for `log_msg` alone. -/
def records (s : LogState) : LogEvent → List LogRecord
  | .logMsg priority text tm pbuf =>
    if (priority : Int) ≤ s.globalSyslogLevel then s.reaches tm pbuf priority (logText text) else []
  | .syslogMsg severity text tm pbuf => s.reaches tm pbuf severity text
  | _ => []

/-- The packets sent so far, with the state. -/
def step? (x : LogState × List CString) (e : LogEvent) : Option (LogState × List CString) :=
  (x.1.packets? e).map fun packets => (x.1.next e, x.2 ++ packets)

theorem syslogMsg?_carries (s : LogState) (tm : Option LocalTime) (pbuf : Bool) (severity : Nat)
    (msg : CString) :
    ∃ packets, (syslogMsg? s.syslog (tm.map LocalTime.toTm) pbuf severity msg).map Prod.snd =
        some packets ∧ List.Forall₂ CarriesRecord packets (s.reaches tm pbuf severity msg) := by
  rw [reaches]
  cases s.syslog with
  | none => exact ⟨[], rfl, .nil⟩
  | some syslog =>
    cases tm with
    | none => exact ⟨[], rfl, .nil⟩
    | some tm =>
      obtain ⟨packet, hsent, hcarries⟩ := readPacket_syslogMsg syslog tm pbuf severity msg
      rw [Option.map_some, hsent]
      cases pbuf with
      | false => exact ⟨[], rfl, .nil⟩
      | true => exact ⟨[packet], rfl, .cons hcarries .nil⟩

theorem packets?_carries (s : LogState) (e : LogEvent) :
    ∃ packets, s.packets? e = some packets ∧ List.Forall₂ CarriesRecord packets (s.records e) := by
  cases e with
  | setLogLevel level => exact ⟨[], rfl, .nil⟩
  | setSyslogLevel level => exact ⟨[], rfl, .nil⟩
  | syslogOpen syslog => exact ⟨[], rfl, .nil⟩
  | syslogClose => exact ⟨[], rfl, .nil⟩
  | logMsg priority text tm pbuf =>
    rw [packets?, records]
    by_cases hlevel : (priority : Int) ≤ s.globalSyslogLevel
    · rw [if_neg fun h => absurd h.2 (Int.not_lt.mpr hlevel), if_pos hlevel, if_pos hlevel]
      exact s.syslogMsg?_carries tm pbuf priority (logText text)
    · rw [if_neg hlevel, if_neg hlevel, ite_self]
      exact ⟨[], rfl, .nil⟩
  | syslogMsg severity text tm pbuf => exact s.syslogMsg?_carries tm pbuf severity text

theorem run_carries {s : LogState} {sent : List CString} {learnt : List LogRecord}
    (h : List.Forall₂ CarriesRecord sent learnt) (es : List LogEvent) :
    ∃ packets, es.foldlM step? (s, sent) = some (Machine.run next s es, packets) ∧
      List.Forall₂ CarriesRecord packets (learnt ++ Machine.trace next records s es) := by
  induction es generalizing s sent learnt with
  | nil => exact ⟨sent, rfl, by rw [Machine.trace_nil, List.append_nil]; exact h⟩
  | cons e es ih =>
    obtain ⟨packets, hpackets, hcarries⟩ := s.packets?_carries e
    obtain ⟨all, hrun, hall⟩ := @ih (s.next e) (sent ++ packets) _ (List.rel_append h hcarries)
    refine ⟨all, ?_, ?_⟩
    · rw [List.foldlM_cons, step?, hpackets]
      exact hrun
    · rw [Machine.trace_cons, ← List.append_assoc]
      exact hall

end LogState

/-- **The log server learns of the messages** within the level, and of the uptimes: while the
client is open and there are time and memory, in order and each one once, with their first
characters, 200 at least. No run gets stuck, and every packet fits into its buffer. -/
theorem log_stream (s : LogState) (es : List LogEvent) :
    ∃ packets, es.foldlM LogState.step? (s, []) =
        some (Machine.run LogState.next s es, packets) ∧
      List.Forall₂ CarriesRecord packets (Machine.trace LogState.next LogState.records s es) :=
  LogState.run_carries .nil es

end LcdPico
