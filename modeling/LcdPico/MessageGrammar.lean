import LcdPico.Lib.Regex
import LcdPico.Regex34401a

/-!
# The grammar of the messages (`regex_34401a.re`)

The scanners of `regex_34401a.c` are checked in, and the build does not generate
them again. Here are the rules of `regex_34401a.re` as regular expressions, and
what the scanners accept: a scanner answers yes as soon as some prefix of the text
is in the language of a rule.

`regex_valid_reading` accepts what its rules say. `regex_in_menu` and
`regex_text_display` accept what their rules say with two classes read another way
(`menutextCompiled`, `parameterCompiled`).
-/

namespace LcdPico

/-! ## Classes of bytes -/

/-- The bytes from `lo` to `hi`. -/
def byteRange (lo hi : Char) : List UInt8 :=
  (List.range (hi.toNat + 1 - lo.toNat)).map fun i => UInt8.ofNat (lo.toNat + i)

theorem mem_byteRange {lo hi : Char} {c : UInt8} (hlo : lo.toNat ≤ c.toNat)
    (hhi : c.toNat ≤ hi.toNat) : c ∈ byteRange lo hi := by
  refine List.mem_map.mpr ⟨c.toNat - lo.toNat, List.mem_range.mpr (by omega), ?_⟩
  rw [Nat.add_sub_cancel' hlo, UInt8.ofNat_toNat]

/-- A class `[...]`: ranges of characters. -/
structure ByteClass where
  ranges : List (Char × Char)
deriving DecidableEq

instance : CharClass ByteClass UInt8 where
  has k c := k.ranges.any fun r => r.1.toNat ≤ c.toNat && c.toNat ≤ r.2.toNat
  letters k := k.ranges.flatMap fun r => byteRange r.1 r.2
  mem_letters h := by
    obtain ⟨r, hr, hc⟩ := List.any_eq_true.mp h
    obtain ⟨hlo, hhi⟩ := Bool.and_eq_true_iff.mp hc
    exact List.mem_flatMap.mpr
      ⟨r, hr, mem_byteRange (of_decide_eq_true hlo) (of_decide_eq_true hhi)⟩

abbrev ByteRegex : Type := Regex ByteClass

/-- One character, or another. -/
def anyOf (s : String) : ByteRegex := .cls ⟨s.toList.map fun c => (c, c)⟩

/-- `"..."` -/
def literal (s : String) : ByteRegex := .inOrder (s.toList.map fun c => .cls ⟨[(c, c)]⟩)

/-- `'...'`, in upper or lower case. -/
def anyCase (s : String) : ByteRegex :=
  .inOrder (s.toList.map fun c =>
    .cls ⟨if c.isUpper then [(c, c), (c.toLower, c.toLower)] else [(c, c)]⟩)

/-! ## The rules -/

/-- `[ ]*` -/
def blanks : ByteRegex := .star (anyOf " ")

def digit : ByteRegex := .cls ⟨[('0', '9')]⟩

/-- `prefix` of `regex_valid_reading` -/
def unitPrefix : ByteRegex := anyOf "uUkKmMgG"

def units : ByteRegex :=
  .oneOf (["VDC", "VAC", "AAC", "ADC", "OHM", "HZ", "DB", "SEC"].map anyCase)

def reading : ByteRegex :=
  .inOrder [.opt (anyOf "+-"), blanks, .plus digit, .opt (.seq (anyOf ".") (.plus digit)), blanks,
    .opt unitPrefix, units, blanks]

/-- `misc` of `regex_valid_reading` -/
def overloadOpen : ByteRegex :=
  .inOrder [blanks, .alt (.inOrder [literal "OVL.D", .plus (anyOf " "), .opt unitPrefix, units])
    (literal "OPEN"), blanks]

/-- The rules of `regex_valid_reading` that return true. -/
def validReading : ByteRegex := .alt overloadOpen reading

/-- `menu` and `submenu`: a character of `head` and a text. -/
def menuLine (head menutext : ByteClass) : ByteRegex :=
  .inOrder [.cls head, anyOf ":", .plus (anyOf " "), .plus (.cls menutext), blanks]

/-- `menu`, with its `menutext` -/
def menu (menutext : ByteClass) : ByteRegex := menuLine ⟨[('A', 'Z')]⟩ menutext

/-- `submenu`, with its `menutext` -/
def submenu (menutext : ByteClass) : ByteRegex := menuLine ⟨[('0', '9')]⟩ menutext

/-- `misc` of `regex_in_menu` -/
def menuWords : ByteRegex :=
  .inOrder [blanks, .oneOf (["TOP OF MENU", "MENUS", "COMMANDS", "PARAMETER", "MENU BOTTOM",
    "CHANGE SAVED", "MIN VALUE", "MAX VALUE", "EXITING MENU", "NOT ENTERED",
    "NOT RELEVANT"].map anyCase), blanks]

/-- The rules of `regex_in_menu` that return true. -/
def inMenu (menutext : ByteClass) : ByteRegex :=
  .oneOf [menuWords, menu menutext, submenu menutext]

/-- The rule of `regex_text_display` that returns true. -/
def textDisplay (parameter : ByteClass) : ByteRegex := .plus (.cls parameter)

/-- Letters, the space, the slash and the minus sign. -/
def menutext : ByteClass := ⟨[('A', 'Z'), ('a', 'z'), (' ', ' '), ('/', '/'), ('-', '-')]⟩

/-- `[A-Za-z0-9 .,:;/^_+-]` -/
def parameter : ByteClass :=
  ⟨[('A', 'Z'), ('a', 'z'), ('0', '9')] ++ " .,:;/^_+-".toList.map fun c => (c, c)⟩

/-- `menutext`, as labels `yy81` and `yy91` have it. -/
def menutextCompiled : ByteClass := ⟨[(' ', ' '), ('/', 'a')]⟩

/-- `parameter`, as labels `yy148` and `yy150` have it. -/
def parameterCompiled : ByteClass := ⟨[(' ', ' '), ('+', ';'), ('A', 'a')]⟩

/-! ## The scanners -/

/-- The characters the `case` lines of a label cover. -/
def Label.active : Label → List UInt8
  | .read arcs _ | .peek arcs _ => arcs.flatMap fun a => byteRange a.1 a.2.1
  | .ret _ => []

/-- What the `default` of a label returns, when it returns at once. -/
def Label.idle (yy : Nat → Label) : Label → Option Bool
  | .read _ d | .peek _ d =>
    match yy d with
    | .ret b => some b
    | _ => none
  | .ret b => some b

theorem switchYych_of_not_active {arcs : List Arc} {d : Nat} {c : UInt8}
    (h : c ∉ arcs.flatMap fun a => byteRange a.1 a.2.1) : switchYych arcs d c = d := by
  have hnone : arcs.find? (fun a => a.covers c) = none := by
    rw [List.find?_eq_none]
    intro a ha hcovers
    obtain ⟨hlo, hhi⟩ := Bool.and_eq_true_iff.mp hcovers
    exact h (List.mem_flatMap.mpr
      ⟨a, ha, mem_byteRange (of_decide_eq_true hlo) (of_decide_eq_true hhi)⟩)
  rw [switchYych, hnone]
  rfl

/-- The label that is jumped to, or what it returns. -/
def jumpYy (yy : Nat → Label) (q : Nat) (c : UInt8) : Bool ⊕ Nat :=
  match yy (gotoYy yy q c) with
  | .ret b => .inl b
  | _ => .inr (gotoYy yy q c)

theorem jumpYy_of_idle {yy : Nat → Label} {q : Nat} {c : UInt8} {b : Bool}
    (hc : c ∉ (yy q).active) (hb : (yy q).idle yy = some b) : jumpYy yy q c = .inl b := by
  have hswitch {arcs : List Arc} {d : Nat} (hc : c ∉ arcs.flatMap fun a => byteRange a.1 a.2.1)
      (hb : (match yy d with | .ret b => some b | _ => none) = some b) :
      switchYych arcs d c = d ∧ yy d = .ret b := by
    refine ⟨switchYych_of_not_active hc, ?_⟩
    cases hd : yy d with
    | ret b' => rw [hd] at hb; rw [Option.some.inj hb]
    | read arcs' d' => rw [hd] at hb; cases hb
    | peek arcs' d' => rw [hd] at hb; cases hb
  cases hq : yy q with
  | read arcs d =>
    rw [hq] at hc hb
    obtain ⟨hd, hret⟩ := hswitch hc hb
    simp only [jumpYy, gotoYy, hq, hd, hret]
  | peek arcs d =>
    rw [hq] at hc hb
    obtain ⟨hd, hret⟩ := hswitch hc hb
    simp only [jumpYy, gotoYy, hq, hd, hret]
  | ret b' =>
    rw [hq] at hb
    obtain rfl := Option.some.inj hb
    simp only [jumpYy, gotoYy, hq]

/-- The labels of a scanner function. -/
def yyScanner (yy : Nat → Label) : Scanner Nat UInt8 where
  jump := jumpYy yy
  atEnd q := yy (gotoYy yy q 0) == .ret true
  active q := (yy q).active
  idle q := (yy q).idle yy
  jump_of_idle := jumpYy_of_idle

theorem scanYy_eq_run (yy : Nat → Label) (q : Nat) (s : List UInt8) :
    scanYy yy q s = (yyScanner yy).run q s := by
  induction s generalizing q with
  | nil => rfl
  | cons c s ih =>
    have hjump : (yyScanner yy).jump q c = jumpYy yy q c := rfl
    rw [scanYy, Scanner.run, hjump, jumpYy]
    cases yy (gotoYy yy q c) with
    | ret b => rfl
    | read arcs d => exact ih _
    | peek arcs d => exact ih _

/-! ## The labels and what is left to read -/

/-- The label after the text `s`, unless the scanner has answered. -/
def labelAfter (yy : Nat → Label) : Nat → List UInt8 → Option Nat
  | q, [] => some q
  | q, c :: s =>
    match jumpYy yy q c with
    | .inl _ => none
    | .inr q' => labelAfter yy q' s

/-- The labels that the sample texts lead through, each with what is left of the
rules there. -/
def labelTable (yy : Nat → Label) (q : Nat) (r : ByteRegex) (samples : List String) :
    List (Nat × ByteRegex) :=
  ((samples.flatMap fun s => (s.toList.map fun c => c.val.toUInt8).inits).filterMap fun p =>
    (labelAfter yy q p).map fun q' => (q', r.derivs p)).dedup

theorem mem_labelTable (yy : Nat → Label) (q : Nat) (r : ByteRegex) {samples : List String}
    (h : samples ≠ []) : (q, r) ∈ labelTable yy q r samples := by
  obtain ⟨s, hs⟩ := List.exists_mem_of_ne_nil samples h
  refine List.mem_dedup.mpr (List.mem_filterMap.mpr ⟨[], ?_, rfl⟩)
  exact List.mem_flatMap.mpr ⟨s, hs, (List.mem_inits _ _).mpr List.nil_prefix⟩

/-- A scanner whose labels are certified answers whether the text begins with a
word of the rules. -/
theorem scanYy_eq_begins {yy : Nat → Label} {q : Nat} {r : ByteRegex} {samples : List String}
    (h : samples ≠ []) (hcert : (yyScanner yy).certifies (labelTable yy q r samples) = true)
    (s : List UInt8) : scanYy yy q s = r.begins s := by
  rw [scanYy_eq_run]
  exact Scanner.run_eq_begins hcert (mem_labelTable yy q r h) s

theorem mem_labelTable_iff {yy : Nat → Label} {q : Nat} {r : ByteRegex} {samples : List String}
    {x : Nat × ByteRegex} :
    x ∈ labelTable yy q r samples ↔ ∃ s ∈ samples, x ∈ labelTable yy q r [s] := by
  simp only [labelTable, List.mem_dedup, List.mem_filterMap, List.mem_flatMap, List.mem_singleton,
    exists_eq_left]
  constructor
  · rintro ⟨p, ⟨s, hs, hp⟩, hx⟩
    exact ⟨s, hs, p, hp, hx⟩
  · rintro ⟨s, hs, p, hp, hx⟩
    exact ⟨p, ⟨s, hs, hp⟩, hx⟩

theorem labelTable_subset {samples more : List String} (h : samples ⊆ more) (yy : Nat → Label)
    (q : Nat) (r : ByteRegex) : labelTable yy q r samples ⊆ labelTable yy q r more := by
  intro x hx
  obtain ⟨s, hs, hmem⟩ := mem_labelTable_iff.mp hx
  exact mem_labelTable_iff.mpr ⟨s, h hs, hmem⟩

/-- The pairs that the texts of `part` lead through go on among those of `part` and
`next`. The pairs of `start` are left out. -/
def partSettles (yy : Nat → Label) (q : Nat) (r : ByteRegex) (start part next : List String) :
    Bool :=
  (labelTable yy q r part).all fun x =>
    (labelTable yy q r start).contains x ||
      (yyScanner yy).settles (labelTable yy q r (part ++ next)) x

theorem mem_start_or_settles {yy : Nat → Label} {q : Nat} {r : ByteRegex}
    {start part next samples : List String} (h : partSettles yy q r start part next = true)
    (hsub : part ++ next ⊆ samples) {x : Nat × ByteRegex} (hx : x ∈ labelTable yy q r part) :
    x ∈ labelTable yy q r start ∨
      ∃ table, table ⊆ labelTable yy q r samples ∧ (yyScanner yy).settles table x = true := by
  rcases Bool.or_eq_true_iff.mp (List.all_eq_true.mp h x hx) with hstart | hsettles
  · exact .inl (List.contains_iff_mem.mp hstart)
  · exact .inr ⟨_, labelTable_subset hsub yy q r, hsettles⟩

/-- The samples may be gone through part by part, and first what every part begins
with. -/
theorem certifies_labelTable {yy : Nat → Label} {q : Nat} {r : ByteRegex}
    {samples start next : List String} {parts : List (List String × List String)}
    (hstart : partSettles yy q r [] start next = true) (hnext : start ++ next ⊆ samples)
    (hparts : ∀ part ∈ parts, partSettles yy q r start part.1 part.2 = true)
    (hsub : ∀ part ∈ parts, part.1 ++ part.2 ⊆ samples)
    (hcover : samples ⊆ start ++ parts.flatMap Prod.fst) :
    (yyScanner yy).certifies (labelTable yy q r samples) = true := by
  have hbegin {x : Nat × ByteRegex} (hx : x ∈ labelTable yy q r start) :
      ∃ table, table ⊆ labelTable yy q r samples ∧ (yyScanner yy).settles table x = true :=
    (mem_start_or_settles hstart hnext hx).resolve_left (List.not_mem_nil)
  refine Scanner.certifies_of_parts fun x hx => ?_
  obtain ⟨s, hs, hmem⟩ := mem_labelTable_iff.mp hx
  rcases List.mem_append.mp (hcover hs) with hs | hs
  · exact hbegin (mem_labelTable_iff.mpr ⟨s, hs, hmem⟩)
  · obtain ⟨part, hpart, hs⟩ := List.mem_flatMap.mp hs
    have hx := mem_labelTable_iff.mpr ⟨s, hs, hmem⟩
    rcases mem_start_or_settles (hparts part hpart) (hsub part hpart) hx with hx | hsettles
    · exact hbegin hx
    · exact hsettles

def validReadingSamples : List String :=
  ["  0", " OPEN ", "+ 0", "0 ", "0.0", "0AAC", "0VDC", "0DB", "0KHZ", "0OHM", "0SEC", "OPEN",
    "OVL.D  AAC", "OVL.D VDC", "OVL.D DB", "OVL.D KHZ", "OVL.D OHM", "OVL.D SEC"]

def inMenuSamples : List String :=
  ["TOP OF MENU", "MENUS", "COMMANDS", "PARAMETER", "MENU BOTTOM", "CHANGE SAVED", "MIN VALUE",
    "MAX VALUE", "EXITING MENU", "NOT ENTERED", "NOT RELEVANT", "t", "m", "c", "p", "e", "n", "  ",
    " T", " M", " C", " P", " E", " N", "A:   ", "A: /  ", "0:   ", "0: /  "]

theorem validReading_certified : (yyScanner validReadingYy).certifies
    (labelTable validReadingYy 0 validReading validReadingSamples) = true := by decide +kernel

/-- The samples by the word they belong to, each with what else may follow its first
letter. A menu line may begin with any letter. -/
def inMenuParts : List (List String × List String) :=
  [(["TOP OF MENU", "t", " T"], ["A:   "]),
    (["MENUS", "MENU BOTTOM", "MIN VALUE", "MAX VALUE", "m", " M"], ["A:   "]),
    (["COMMANDS", "CHANGE SAVED", "c", " C"], ["A:   "]),
    (["PARAMETER", "p", " P"], ["A:   "]),
    (["EXITING MENU", "e", " E"], ["A:   "]),
    (["NOT ENTERED", "NOT RELEVANT", "n", " N"], ["A:   "]),
    (["A:   ", "A: /  "], []),
    (["0:   ", "0: /  "], [])]

/-- The samples for the first letters. -/
def inMenuNext : List String :=
  ["TOP OF MENU", "MENUS", "COMMANDS", "PARAMETER", "EXITING MENU", "NOT ENTERED", "t", "m", "c",
    "p", "e", "n", " T", " M", " C", " P", " E", " N", "A:   ", "0:   "]

theorem inMenuStart_settles : partSettles inMenuYy 43 (inMenu menutextCompiled) [] ["  "]
    inMenuNext = true := by decide +kernel

theorem inMenuParts_settle : ∀ part ∈ inMenuParts,
    partSettles inMenuYy 43 (inMenu menutextCompiled) ["  "] part.1 part.2 = true := by
  simp only [inMenuParts, List.forall_mem_cons]
  refine ⟨?_, ?_, ?_, ?_, ?_, ?_, ?_, ?_, List.forall_mem_nil _⟩ <;> decide +kernel

theorem inMenu_certified : (yyScanner inMenuYy).certifies
    (labelTable inMenuYy 43 (inMenu menutextCompiled) inMenuSamples) = true :=
  certifies_labelTable inMenuStart_settles (by decide) inMenuParts_settle (by decide) (by decide)

theorem textDisplay_certified : (yyScanner textDisplayYy).certifies
    (labelTable textDisplayYy 148 (textDisplay parameterCompiled) [" "]) = true := by
  decide +kernel

theorem regexValidReading_eq (s : List UInt8) : regexValidReading s = validReading.begins s :=
  scanYy_eq_begins (List.cons_ne_nil _ _) validReading_certified s

theorem regexInMenu_eq (s : List UInt8) :
    regexInMenu s = (inMenu menutextCompiled).begins s :=
  scanYy_eq_begins (List.cons_ne_nil _ _) inMenu_certified s

theorem regexTextDisplay_eq (s : List UInt8) :
    regexTextDisplay s = (textDisplay parameterCompiled).begins s :=
  scanYy_eq_begins (List.cons_ne_nil _ _) textDisplay_certified s

/-! ## Readings and what may follow them -/

/-- A scanner looks no further than the first NUL. -/
theorem begins_takeWhile_ne_nul {r : ByteRegex}
    (h : (r.classes.all fun k => !CharClass.has k (0 : UInt8)) = true) (s : List UInt8) :
    r.begins (s.takeWhile (· ≠ 0)) = r.begins s := by
  refine Regex.begins_takeWhile ?_ s
  intro k hk c hc
  apply decide_eq_true
  rintro rfl
  have hnul := List.all_eq_true.mp h k hk
  rw [hc] at hnul
  exact absurd hnul (by decide)

theorem anyOf_space : anyOf " " = .cls ⟨[(' ', ' ')]⟩ := by decide

/-- A class of one character. -/
theorem has_singleton {c : Char} (hc : c.toNat < 256) (x : UInt8) :
    CharClass.has (⟨[(c, c)]⟩ : ByteClass) x = true ↔ x = UInt8.ofNat c.toNat := by
  have heq : CharClass.has (⟨[(c, c)]⟩ : ByteClass) x = true ↔ x.toNat = c.toNat := by
    simp [CharClass.has]
    omega
  rw [heq]
  constructor
  · intro h
    rw [← h, UInt8.ofNat_toNat]
  · rintro rfl
    exact UInt8.toNat_ofNat_of_lt hc

/-- Nothing but spaces. -/
def IsBlank (s : List UInt8) : Prop := ∀ c ∈ s, c = 0x20

instance (s : List UInt8) : Decidable (IsBlank s) := inferInstanceAs (Decidable (∀ c ∈ s, c = 0x20))

theorem mem_blanks {s : List UInt8} : s ∈ blanks.lang ↔ IsBlank s := by
  rw [blanks, anyOf_space]
  constructor
  · intro h c hc
    obtain ⟨k, hk, hhas⟩ := Regex.exists_class_of_mem h hc
    obtain rfl := List.mem_singleton.mp hk
    exact (has_singleton (by decide) c).mp hhas
  · intro h
    induction s with
    | nil => exact Language.nil_mem_kstar _
    | cons c s ih =>
      have hc : CharClass.has (⟨[(' ', ' ')]⟩ : ByteClass) c = true :=
        (has_singleton (by decide) c).mpr (h c (List.mem_cons_self ..))
      have hs := ih fun c hc => h c (List.mem_cons_of_mem _ hc)
      exact Regex.cons_mem_star.mpr ⟨[], ⟨c, hc, rfl⟩, s, hs, rfl⟩

/-- The end of a rule: `[ ]*`. -/
theorem mem_blanks_eps {s : List UInt8} : s ∈ (Regex.seq blanks .eps).lang ↔ IsBlank s := by
  have hlang : (Regex.seq blanks .eps).lang = blanks.lang := mul_one _
  rw [hlang, mem_blanks]

/-- Spaces may follow the words of the rule. -/
def TakesBlanks (r : ByteRegex) : Prop :=
  ∀ s ∈ r.lang, ∀ v, IsBlank v → s ++ v ∈ r.lang

theorem takesBlanks_end : TakesBlanks (.seq blanks .eps) := by
  intro s hs v hv
  rw [mem_blanks_eps] at hs ⊢
  intro c hc
  rcases List.mem_append.mp hc with h | h
  · exact hs c h
  · exact hv c h

theorem TakesBlanks.seq {r s : ByteRegex} (h : TakesBlanks s) : TakesBlanks (.seq r s) := by
  rintro _ ⟨a, ha, b, hb, rfl⟩ v hv
  exact ⟨a, ha, b ++ v, h b hb v hv, (List.append_assoc a b v).symm⟩

theorem takesBlanks_validReading : TakesBlanks validReading := by
  rintro s (hs | hs) v hv
  · exact .inl (takesBlanks_end.seq.seq s hs v hv)
  · exact .inr (takesBlanks_end.seq.seq.seq.seq.seq.seq.seq s hs v hv)

/-- What is left of the rules of `regex_valid_reading`, at any place of a text. -/
def validReadingRests : List ByteRegex :=
  (labelTable validReadingYy 0 validReading validReadingSamples).map Prod.snd

theorem validReadingRests_closed : Regex.closedUnderDeriv validReadingRests = true := by
  decide +kernel

theorem validReadingRests_nullable : (validReadingRests.all fun r =>
    !r.nullable || decide (r = .seq blanks .eps)) = true := by decide +kernel

/-- Only spaces follow a reading in a longer one. -/
theorem isBlank_of_append_mem {s v : List UInt8} (hs : s ∈ validReading.lang)
    (hsv : s ++ v ∈ validReading.lang) : IsBlank v := by
  have hroot : validReading ∈ validReadingRests :=
    List.mem_map.mpr ⟨_, mem_labelTable validReadingYy 0 validReading (List.cons_ne_nil _ _), rfl⟩
  rw [← List.append_nil s, ← Regex.mem_derivs, ← Regex.nullable_iff] at hs
  rw [← Regex.mem_derivs] at hsv
  rcases Regex.derivs_mem_of_closed validReadingRests_closed hroot s with hempty | hmem
  · rw [hempty] at hs
    exact absurd hs Bool.false_ne_true
  · have hend := List.all_eq_true.mp validReadingRests_nullable _ hmem
    rw [hs, Bool.not_true, Bool.false_or] at hend
    rw [of_decide_eq_true hend] at hsv
    exact mem_blanks_eps.mp hsv

/-! ## Where grammar and scanners differ -/

/-- The text begins with a character of `head`, a colon, a space and a character
of `menutext`. -/
def opensMenu (head menutext : ByteClass) : List UInt8 → Bool
  | h :: colon :: space :: x :: _ =>
    CharClass.has head h && (decide (colon = 0x3a) && (decide (space = 0x20) &&
      CharClass.has menutext x))
  | _ => false

/-- The part of `menu` and `submenu` after the colon. -/
def menuRest (menutext : ByteClass) : ByteRegex :=
  .seq (.plus (.cls menutext)) (.seq blanks .eps)

/-- After the first space more of them may follow; where a space is `menutext`
they count as that. -/
theorem begins_blanks_menuRest {menutext : ByteClass} (hspace : CharClass.has menutext 0x20 = true)
    (s : List UInt8) :
    (Regex.seq blanks (menuRest menutext)).begins s =
      (s.head?.map fun x => CharClass.has menutext x).getD false := by
  cases s with
  | nil => rfl
  | cons x s =>
    change _ = CharClass.has menutext x
    cases hx : CharClass.has menutext x with
    | true =>
      rw [Regex.begins_iff]
      refine ⟨[x], List.prefix_append [x] s, ?_⟩
      have hstar : [] ∈ (Regex.star (.cls menutext)).lang := (Regex.nullable_iff _).mp rfl
      have hend : [] ∈ (Regex.seq blanks .eps).lang := (Regex.nullable_iff _).mp rfl
      have hplus : [x] ∈ (Regex.plus (.cls menutext)).lang :=
        ⟨[x], ⟨x, hx, rfl⟩, [], hstar, rfl⟩
      exact ⟨[], (Regex.nullable_iff _).mp rfl, [x], ⟨[x], hplus, [], hend, rfl⟩, rfl⟩
    | false =>
      have hempty : (Regex.seq blanks (menuRest menutext)).deriv x = .empty := by
        apply Regex.deriv_eq_empty
        intro k hk
        have hk' : k = ⟨[(' ', ' ')]⟩ ∨ k = menutext := by
          simpa [Regex.firsts, blanks, anyOf, menuRest, Regex.plus, Regex.nullable] using hk
        rcases hk' with rfl | rfl
        · rw [← Bool.not_eq_true]
          intro h
          have hx32 : x = 0x20 := by
            have : x.toNat = 0x20 := by
              simp [CharClass.has] at h
              omega
            exact UInt8.toNat_inj.mp this
          rw [hx32, hspace] at hx
          exact absurd hx (by decide)
        · exact hx
      rw [Regex.begins, hempty, Regex.begins_empty]
      rfl

theorem anyOf_colon : anyOf ":" = .cls ⟨[(':', ':')]⟩ := by decide

/-- The rules `menu` and `submenu` look at the first four characters. -/
theorem begins_menuLine {head menutext : ByteClass}
    (hspace : CharClass.has menutext 0x20 = true) (s : List UInt8) :
    (menuLine head menutext).begins s = opensMenu head menutext s := by
  have hshape : menuLine head menutext = .seq (.cls head) (.seq (.cls ⟨[(':', ':')]⟩)
      (.seq (.seq (.cls ⟨[(' ', ' ')]⟩) blanks) (menuRest menutext))) := by
    rw [menuLine, anyOf_colon, Regex.plus, anyOf_space, blanks, anyOf_space, menuRest, blanks,
      anyOf_space]
    rfl
  have hcolon (x : UInt8) : CharClass.has (⟨[(':', ':')]⟩ : ByteClass) x = decide (x = 0x3a) := by
    rw [Bool.eq_iff_iff, decide_eq_true_iff]
    exact has_singleton (by decide) x
  have hblank (x : UInt8) : CharClass.has (⟨[(' ', ' ')]⟩ : ByteClass) x = decide (x = 0x20) := by
    rw [Bool.eq_iff_iff, decide_eq_true_iff]
    exact has_singleton (by decide) x
  rw [hshape]
  match s with
  | [] => rfl
  | [h] => simp [opensMenu]
  | [h, b] => simp [opensMenu, Regex.begins_seq_assoc]
  | [h, b, d] => simp [opensMenu, Regex.begins_seq_assoc, begins_blanks_menuRest hspace]
  | h :: b :: d :: x :: s =>
    simp only [Regex.begins_cls_seq, Regex.begins_seq_assoc, begins_blanks_menuRest hspace, hcolon,
      hblank, opensMenu]
    rfl

theorem begins_textDisplay (parameter : ByteClass) (s : List UInt8) :
    (textDisplay parameter).begins s =
      (s.head?.map fun c => CharClass.has parameter c).getD false := by
  cases s with
  | nil => rfl
  | cons c s =>
    rw [textDisplay, Regex.plus, Regex.begins_cls_seq, Regex.begins_of_nullable rfl, Bool.and_true]
    rfl

/-- `[A-Z]` and `[0-9]`, the first characters of `menu` and `submenu`. -/
def menuHead : ByteClass := ⟨[('A', 'Z'), ('0', '9')]⟩

theorem begins_inMenu {menutext : ByteClass} (hspace : CharClass.has menutext 0x20 = true)
    (s : List UInt8) :
    (inMenu menutext).begins s = (menuWords.begins s || opensMenu menuHead menutext s) := by
  have hhead (x : UInt8) : CharClass.has menuHead x =
      (CharClass.has (⟨[('A', 'Z')]⟩ : ByteClass) x ||
        CharClass.has (⟨[('0', '9')]⟩ : ByteClass) x) := by
    simp [menuHead, CharClass.has]
  have hopens : opensMenu menuHead menutext s =
      (opensMenu ⟨[('A', 'Z')]⟩ menutext s || opensMenu ⟨[('0', '9')]⟩ menutext s) := by
    unfold opensMenu
    split
    · rw [hhead, Bool.and_or_distrib_right]
    · rfl
  rw [inMenu, Regex.oneOf, List.foldr_cons, List.foldr_cons, List.foldr_cons, List.foldr_nil,
    Regex.begins_alt, Regex.begins_alt, Regex.begins_alt, Regex.begins_empty, menu, submenu,
    begins_menuLine hspace, begins_menuLine hspace, hopens, Bool.or_false]

/-- What holds of each byte, checked one after the other. -/
theorem forall_byte {p : UInt8 → Bool}
    (h : ((List.range 256).all fun i => p (UInt8.ofNat i)) = true) (c : UInt8) : p c = true := by
  have hc := List.all_eq_true.mp h c.toNat (List.mem_range.mpr c.toNat_lt)
  rwa [UInt8.ofNat_toNat] at hc

/-- No word of the menu has a colon in second place. -/
theorem menuWords_of_opensMenu {head menutext : ByteClass} {s : List UInt8}
    (h : opensMenu head menutext s = true) : menuWords.begins s = false := by
  unfold opensMenu at h
  split at h
  · rename_i h₀ colon space x s
    obtain ⟨-, hrest⟩ := Bool.and_eq_true_iff.mp h
    obtain ⟨hcolon, -⟩ := Bool.and_eq_true_iff.mp hrest
    have hfirst := forall_byte (p := fun c => !(menuWords.deriv c).nullable &&
      decide ((menuWords.deriv c).deriv (0x3a : UInt8) = .empty)) (by decide +kernel) h₀
    obtain ⟨hnull, hempty⟩ := Bool.and_eq_true_iff.mp hfirst
    rw [of_decide_eq_true hcolon, Regex.begins, Regex.begins, of_decide_eq_true hempty,
      Regex.begins_empty, Bool.or_false, (Bool.not_eq_true' _).mp hnull]
    rfl
  · exact absurd h Bool.false_ne_true

/-- The characters that are in one of `menutext` and `menutextCompiled`, and not in
the other. -/
def menutextDrift : ByteClass := ⟨[('b', 'z'), ('-', '-'), ('0', '@'), ('[', '`')]⟩

/-- The characters that are in one of `parameter` and `parameterCompiled`, and not
in the other. -/
def parameterDrift : ByteClass := ⟨[('b', 'z'), ('[', ']'), ('`', '`')]⟩

theorem has_menutextDrift (c : UInt8) : CharClass.has menutextDrift c =
    (CharClass.has menutextCompiled c != CharClass.has menutext c) := by
  have h := forall_byte (p := fun c => CharClass.has menutextDrift c ==
    (CharClass.has menutextCompiled c != CharClass.has menutext c)) (by decide +kernel) c
  exact beq_iff_eq.mp h

theorem has_parameterDrift (c : UInt8) : CharClass.has parameterDrift c =
    (CharClass.has parameterCompiled c != CharClass.has parameter c) := by
  have h := forall_byte (p := fun c => CharClass.has parameterDrift c ==
    (CharClass.has parameterCompiled c != CharClass.has parameter c)) (by decide +kernel) c
  exact beq_iff_eq.mp h

/-- `regex_in_menu` answers what its rules say, except on the text of a menu line
whose first character drifted. -/
theorem regexInMenu_agrees_iff (s : List UInt8) :
    regexInMenu s = (inMenu menutext).begins s ↔ opensMenu menuHead menutextDrift s = false := by
  rw [regexInMenu_eq, begins_inMenu (by decide), begins_inMenu (by decide)]
  have hwords (t : ByteClass) (h : opensMenu menuHead t s = true) : menuWords.begins s = false :=
    menuWords_of_opensMenu h
  have hdrift : opensMenu menuHead menutextDrift s =
      (opensMenu menuHead menutextCompiled s != opensMenu menuHead menutext s) := by
    unfold opensMenu
    split
    · rename_i h₀ colon space x s
      rw [has_menutextDrift]
      cases CharClass.has menuHead h₀ <;> cases decide (colon = 0x3a) <;>
        cases decide (space = 0x20) <;> rfl
    · rfl
  rw [hdrift]
  cases hc : opensMenu menuHead menutextCompiled s with
  | true =>
    rw [hwords _ hc]
    cases opensMenu menuHead menutext s <;> decide
  | false =>
    cases hm : opensMenu menuHead menutext s with
    | true =>
      rw [hwords _ hm]
      decide
    | false => exact iff_of_true rfl rfl

/-- `regex_text_display` answers what its rule says, except on a text whose first
character drifted. -/
theorem regexTextDisplay_agrees_iff (s : List UInt8) :
    regexTextDisplay s = (textDisplay parameter).begins s ↔
      (s.head?.map fun c => CharClass.has parameterDrift c).getD false = false := by
  rw [regexTextDisplay_eq, begins_textDisplay, begins_textDisplay]
  cases s with
  | nil => exact iff_of_true rfl rfl
  | cons c s =>
    simp only [List.head?_cons, Option.map_some, Option.getD_some, has_parameterDrift]
    cases CharClass.has parameterCompiled c <;> cases CharClass.has parameter c <;> decide

end LcdPico
