import LcdPico.Config
import LcdPico.Decoder34401a
import LcdPico.Lib.CJson

/-!
# The status pages (`httpd.c`)

`csv_stats` and `json_stats` generate a document and hand it out in parts, from
static variables that all requests share. What lies behind the pointer `p` is a
text here; `buf` serves only to free the memory, and is left out.
-/

namespace LcdPico

abbrev ANNUNCIATOR_COUNT : Nat := 15
abbrev BUF_LEN : Nat := 1024

/-- `annunciator_names` -/
def annunciatorNames : List CString :=
  ["*".toList, "Adrs".toList, "Rmt".toList, "Man".toList, "Trig".toList, "Hold".toList,
    "Mem".toList, "Ratio".toList, "Math".toList, "ERROR".toList, "Rear".toList, "Shift".toList,
    "Diode".toList, "Continuity".toList, "4-Wire".toList]

/-- `struct system_state`, without the counters of the interrupts. -/
structure SystemState where
  dmm : DmmContext
  disp : CStr DISPLAY_BUF_LEN

/-- `st->dmm.ann_state & (1 << i)` -/
def SystemState.annunciator (st : SystemState) (i : Nat) : Bool := st.dmm.annState.toNat.testBit i

/-- The platform with what the status pages print by: `printf`, `math.h` and cJSON. -/
structure Printer (F D : Type) extends Platform F D where
  /-- `printf` of a number with so many decimals -/
  fixed : Nat → F → CString
  mul : D → D → D
  div : D → D → D
  /-- `round` -/
  round : D → D
  /-- `cJSON_Print` -/
  cjsonPrint : Json D → CString

section Documents

variable {F D : Type} [Inhabited F] (P : Printer F D) (st : SystemState)
  (cfg : SystemConfig F)

/-! ## The documents -/

/-- `strncatenate` (`util.c`) -/
def strncatenate (dst src : CString) (size : Nat) : CString :=
  if size - dst.length ≤ 1 then dst else dst ++ src.take (size - dst.length - 1)

/-- The rows that `csv_stats` prints, one after the other. -/
def csvRows : List CString :=
  ["display,\"".toList ++ st.disp.val ++ "\"\nannunciators,".toList] ++
    (List.range ANNUNCIATOR_COUNT).map (fun i =>
      (if i > 0 then [','] else []) ++
        if st.annunciator i then annunciatorNames.getD i [] else []) ++
    [['\n']] ++
    (List.range VSENSOR_COUNT).map (fun i =>
      "vsensor".toList ++ CText.utoa (i + 1) ++ ",\"".toList ++ (cfg.vsensors.rd i).name.val ++
        "\",".toList ++ P.fixed 1 (cfg.vtemp.rd i) ++ ',' :: P.fixed 0 (cfg.vhumidity.rd i) ++
        ',' :: P.fixed 0 (cfg.vpressure.rd i) ++ ['\n']) ++
    ["vref1,\"ADC Vref\",".toList ++ P.fixed 4 cfg.adcVref ++ ['\n']]

/-- The document of `csv_stats`: what fits of each row in `row`, what fits of
them in `buf`. -/
def csvDocument : CString :=
  (csvRows P st cfg).foldl (fun buf row => strncatenate buf (CText.strncopy row 128) BUF_LEN) []

/-- `round_decimal` (`util.c`) -/
def roundDecimal (val : D) (decimal : Nat) : D :=
  let f := P.ofInt (10 ^ decimal)
  P.div (P.round (P.mul val f)) f

/-- A virtual sensor in `json_stats`. -/
def vsensorStats (i : Nat) : Json D :=
  let number (x : F) : Json D := .number (roundDecimal P (P.ofFloat x) 1)
  let humidity := cfg.vhumidity.rd i
  let pressure := cfg.vpressure.rd i
  .objectOf
    [("sensor".toList, some (.number (P.ofInt (i + 1)))),
      ("name".toList, some (.string (cfg.vsensors.rd i).name.val)),
      ("temperature".toList, some (number (cfg.vtemp.rd i))),
      ("humidity".toList, if P.floatLe P.floatZero humidity then some (number humidity) else none),
      ("pressure".toList, if P.floatLe P.floatZero pressure then some (number pressure) else none)]

/-- The document of `json_stats`. -/
def jsonDocument : CString :=
  P.cjsonPrint (.objectOf
    [("display".toList, some (.string st.disp.val)),
      ("blink_mask".toList, some (.number (P.ofInt st.dmm.blinkMask.toNat))),
      ("annunciators".toList, some (.objectOf ((List.range ANNUNCIATOR_COUNT).map fun i =>
        (annunciatorNames.getD i [], some (.bool (st.annunciator i)))))),
      ("vsensors".toList, some (.array ((List.range VSENSOR_COUNT).map (vsensorStats P cfg))))])

end Documents

/-! ## Handing out a document in parts -/

/-- The static variables of a handler: `p` is the text it points to. -/
structure StatsState where
  p : CString
  part : UInt16
  bufLeft : Nat

/-- Static variables are zero at first. -/
def StatsState.init : StatsState := { p := [], part := 0, bufLeft := 0 }

/-- What a call returns: the text in `insert`, and `next_tag_part` where it is set. -/
structure Part where
  text : CString
  nextTagPart : Option UInt16

/-- The second half of `csv_stats` and `json_stats`: the next part is copied. -/
def copyPart (s : StatsState) (insertlen : Nat) : StatsState × Part :=
  let count := if s.bufLeft < insertlen - 1 then s.bufLeft else insertlen - 1
  let text := s.p.take count
  let s := { s with p := s.p.drop count, bufLeft := s.bufLeft - count }
  if s.bufLeft > 0 then
    ({ s with part := s.part + 1 }, { text := text, nextTagPart := some s.part })
  else ({ s with p := [] }, { text := text, nextTagPart := none })

/-- What `csv_stats` and `json_stats` have in common. There is no document when
memory runs out. -/
def statsPart (document : Option CString) (s : StatsState) (insertlen : Nat)
    (current_tag_part : UInt16) : StatsState × Part :=
  if current_tag_part = 0 then
    match document with
    | none => (s, { text := [], nextTagPart := none })
    | some buf => copyPart { p := buf, part := 1, bufLeft := buf.length } insertlen
  else copyPart s insertlen

section Handlers

variable {F D : Type} [Inhabited F] (P : Printer F D)

/-- `csv_stats`; `memory` says that `malloc` succeeds. -/
def csvStats (memory : Bool) (st : SystemState) (cfg : SystemConfig F) :
    StatsState → Nat → UInt16 → StatsState × Part :=
  statsPart (if memory then some (csvDocument P st cfg) else none)

/-- `json_stats`; `memory` says that cJSON succeeds. -/
def jsonStats (memory : Bool) (st : SystemState) (cfg : SystemConfig F) :
    StatsState → Nat → UInt16 → StatsState × Part :=
  statsPart (if memory then some (jsonDocument P st cfg) else none)

end Handlers

/-! ## What a call does -/

/-- The count of the characters left is right. -/
def StatsState.Ok (s : StatsState) : Prop := s.bufLeft = s.p.length

/-- A part is the beginning of the text that is left, and the rest is left. The
next part is asked for if there is a rest; then the part was not empty. -/
theorem copyPart_spec {s : StatsState} (hs : s.Ok) {insertlen : Nat} (hlen : 2 ≤ insertlen) :
    ∃ text rest, s.p = text ++ rest ∧ (rest ≠ [] → text ≠ []) ∧
      copyPart s insertlen =
        ({ p := rest, part := if rest = [] then s.part else s.part + 1, bufLeft := rest.length },
          { text := text, nextTagPart := if rest = [] then none else some s.part }) := by
  obtain ⟨p, part, bufLeft⟩ := s
  obtain rfl : bufLeft = p.length := hs
  refine ⟨p.take (insertlen - 1), p.drop (insertlen - 1), (List.take_append_drop ..).symm, ?_, ?_⟩
  · intro hrest htext
    rcases List.take_eq_nil_iff.mp htext with h | h
    · omega
    · rw [h, List.drop_nil] at hrest
      exact hrest rfl
  · by_cases hall : p.length ≤ insertlen - 1
    · have hcount : (if p.length < insertlen - 1 then p.length else insertlen - 1) = p.length := by
        split_ifs <;> omega
      simp only [copyPart, hcount, List.take_length, List.drop_length, Nat.sub_self]
      simp [List.take_of_length_le hall, List.drop_eq_nil_of_le hall]
    · have hcount : (if p.length < insertlen - 1 then p.length else insertlen - 1) =
          insertlen - 1 := by
        split_ifs <;> omega
      have hrest : p.drop (insertlen - 1) ≠ [] := by
        rw [ne_eq, List.drop_eq_nil_iff]
        exact hall
      have hleft : p.length - (insertlen - 1) > 0 := by omega
      simp only [copyPart, hcount, if_pos hleft, if_neg hrest, List.length_drop]

/-! ## The CSV document -/

theorem take_append_take (text more : CString) (n : Nat) :
    (text.take n ++ more).take n = (text ++ more).take n := by
  rw [List.take_append, List.take_append, List.take_take, Nat.min_self, List.length_take]
  congr 2
  omega

/-- What is cut off leaves room for the NUL. -/
theorem length_take_lt {size : Nat} (hsize : 0 < size) (text : CString) :
    (text.take (size - 1)).length < size := by
  rw [List.length_take]
  omega

/-- What is added is cut off where the buffer ends. -/
theorem strncatenate_eq {dst : CString} {size : Nat} (h : dst.length < size) (src : CString) :
    strncatenate dst src size = (dst ++ src).take (size - 1) := by
  have hdst : dst.take (size - 1) = dst := List.take_of_length_le (by omega)
  rw [strncatenate, List.take_append, hdst]
  split_ifs with hfull
  · have hnone : size - 1 - dst.length = 0 := by omega
    rw [hnone, List.take_zero, List.append_nil]
  · rw [Nat.sub_right_comm]

/-- Strings that are added one after the other are cut off as their concatenation is. -/
theorem foldl_strncatenate {dst : CString} {size : Nat} (h : dst.length < size)
    (srcs : List CString) :
    srcs.foldl (fun buf src => strncatenate buf src size) dst =
      (dst ++ srcs.flatten).take (size - 1) := by
  induction srcs generalizing dst with
  | nil =>
    rw [List.flatten_nil, List.append_nil, List.take_of_length_le (Nat.le_sub_one_of_lt h)]
    rfl
  | cons src srcs ih =>
    have hlt := length_take_lt (Nat.zero_lt_of_lt h) (dst ++ src)
    rw [List.foldl_cons, strncatenate_eq h, ih hlt, take_append_take, List.append_assoc,
      List.flatten_cons]

section

variable {F D : Type} [Inhabited F] (P : Printer F D) (st : SystemState) (cfg : SystemConfig F)

/-- The document is what fits of the rows, each cut off at the size of `row`. -/
theorem csvDocument_eq : csvDocument P st cfg =
    ((csvRows P st cfg).map (CText.strncopy · 128)).flatten.take (BUF_LEN - 1) := by
  have hempty : ([] : CString).length < BUF_LEN := by decide
  have hrows := foldl_strncatenate hempty ((csvRows P st cfg).map (CText.strncopy · 128))
  rwa [List.foldl_map, List.nil_append] at hrows

/-- The document fits in the buffer. -/
theorem length_csvDocument : (csvDocument P st cfg).length < BUF_LEN := by
  rw [csvDocument_eq]
  exact length_take_lt (by decide) _

end

end LcdPico
