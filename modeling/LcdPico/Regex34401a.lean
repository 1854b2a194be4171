import Mathlib.Tactic.Common

/-!
# The message scanners (`regex_34401a.c`)

The build compiles the checked-in output of re2c: three scanners written as
labelled `switch` statements, one label a state. A label is kept under its own
number, with its `case` lines in order, so that each table can be read against
the source line by line.

A scanner reads at most one character past the text it accepts. The text ends
with a NUL, and no `case` line of any label covers NUL.
-/

namespace LcdPico

/-- One `case 'lo' ... 'hi': goto yyN;` line. -/
abbrev Arc : Type := Char × Char × Nat

/-- The code at a label `yyN`. -/
inductive Label where
  /-- `yych = *++YYCURSOR;` and a `switch` with its `default` -/
  | read (arcs : List Arc) (dflt : Nat)
  /-- a `switch` on the character read before the jump -/
  | peek (arcs : List Arc) (dflt : Nat)
  /-- `return b;`, also through the `goto` of a restored marker -/
  | ret (b : Bool)
deriving DecidableEq

/-- The `case` line covers the character. -/
def Arc.covers (a : Arc) (c : UInt8) : Bool :=
  a.1.toNat ≤ c.toNat && c.toNat ≤ a.2.1.toNat

/-- Where a `switch (yych)` jumps. -/
def switchYych (arcs : List Arc) (dflt : Nat) (c : UInt8) : Nat :=
  ((arcs.find? fun a => a.covers c).map fun a => a.2.2).getD dflt

/-- Where label `q` jumps on the character `c`; a `peek` label that is jumped to
switches on the same character at once. -/
def gotoYy (yy : Nat → Label) (q : Nat) (c : UInt8) : Nat :=
  match yy q with
  | .read arcs d | .peek arcs d =>
    let t := switchYych arcs d c
    match yy t with
    | .peek arcs d => switchYych arcs d c
    | _ => t
  | .ret _ => q

/-- Run a scanner from label `q` on the text at its cursor. A missing character
is the terminating NUL. -/
def scanYy (yy : Nat → Label) : Nat → List UInt8 → Bool
  | q, [] => yy (gotoYy yy q 0) == .ret true
  | q, c :: s =>
    match yy (gotoYy yy q c) with
    | .ret b => b
    | _ => scanYy yy (gotoYy yy q c) s

/-! ## `regex_valid_reading` -/

/-- The `switch` shared by `yy12` and `yy13`. -/
def validReadingYy13 : List Arc :=
  [(' ', ' ', 12), ('A', 'A', 15), ('V', 'V', 15), ('a', 'a', 15), ('v', 'v', 15), ('D', 'D', 16),
   ('d', 'd', 16), ('G', 'G', 17), ('K', 'K', 17), ('M', 'M', 17), ('U', 'U', 17), ('g', 'g', 17),
   ('k', 'k', 17), ('m', 'm', 17), ('u', 'u', 17), ('H', 'H', 18), ('h', 'h', 18), ('O', 'O', 19),
   ('o', 'o', 19), ('S', 'S', 20), ('s', 's', 20)]

/-- The labels of `regex_valid_reading`. -/
def validReadingYy : Nat → Label
  | 0 => .peek [(' ', ' ', 3), ('+', '+', 4), ('-', '-', 4), ('0', '9', 5), ('O', 'O', 6)] 1
  | 1 => .ret false
  | 2 => .ret false
  | 3 => .read [(' ', ' ', 7), ('0', '9', 9), ('O', 'O', 10)] 2
  | 4 => .read [(' ', ' ', 11), ('0', '9', 9)] 2
  | 5 => .read [(' ', ' ', 13), ('A', 'A', 13), ('D', 'D', 13), ('G', 'H', 13), ('K', 'K', 13),
      ('M', 'M', 13), ('O', 'O', 13), ('S', 'S', 13), ('U', 'V', 13), ('a', 'a', 13),
      ('d', 'd', 13), ('g', 'h', 13), ('k', 'k', 13), ('m', 'm', 13), ('o', 'o', 13),
      ('s', 's', 13), ('u', 'v', 13), ('.', '.', 14), ('0', '9', 9)] 2
  | 6 => .read [('P', 'P', 21), ('V', 'V', 22)] 2
  | 7 => .read [(' ', ' ', 7), ('0', '9', 9), ('O', 'O', 10)] 8
  | 8 => .ret false
  | 9 => .read [(' ', ' ', 12), ('.', '.', 14), ('0', '9', 9), ('A', 'A', 15), ('V', 'V', 15),
      ('a', 'a', 15), ('v', 'v', 15), ('D', 'D', 16), ('d', 'd', 16), ('G', 'G', 17),
      ('K', 'K', 17), ('M', 'M', 17), ('U', 'U', 17), ('g', 'g', 17), ('k', 'k', 17),
      ('m', 'm', 17), ('u', 'u', 17), ('H', 'H', 18), ('h', 'h', 18), ('O', 'O', 19),
      ('o', 'o', 19), ('S', 'S', 20), ('s', 's', 20)] 8
  | 10 => .read [('P', 'P', 21), ('V', 'V', 22)] 8
  | 11 => .read [(' ', ' ', 11), ('0', '9', 9)] 8
  | 12 => .read validReadingYy13 8
  | 13 => .peek validReadingYy13 8
  | 14 => .read [('0', '9', 23)] 8
  | 15 => .read [('A', 'A', 24), ('D', 'D', 24), ('a', 'a', 24), ('d', 'd', 24)] 8
  | 16 => .read [('B', 'B', 25), ('b', 'b', 25)] 8
  | 17 => .read [('A', 'A', 15), ('V', 'V', 15), ('a', 'a', 15), ('v', 'v', 15), ('D', 'D', 16),
      ('d', 'd', 16), ('H', 'H', 18), ('h', 'h', 18), ('O', 'O', 19), ('o', 'o', 19),
      ('S', 'S', 20), ('s', 's', 20)] 8
  | 18 => .read [('Z', 'Z', 25), ('z', 'z', 25)] 8
  | 19 => .read [('H', 'H', 27), ('h', 'h', 27)] 8
  | 20 => .read [('E', 'E', 24), ('e', 'e', 24)] 8
  | 21 => .read [('E', 'E', 28)] 8
  | 22 => .read [('L', 'L', 29)] 8
  | 23 => .read [(' ', ' ', 12), ('0', '9', 23), ('A', 'A', 15), ('V', 'V', 15), ('a', 'a', 15),
      ('v', 'v', 15), ('D', 'D', 16), ('d', 'd', 16), ('G', 'G', 17), ('K', 'K', 17),
      ('M', 'M', 17), ('U', 'U', 17), ('g', 'g', 17), ('k', 'k', 17), ('m', 'm', 17),
      ('u', 'u', 17), ('H', 'H', 18), ('h', 'h', 18), ('O', 'O', 19), ('o', 'o', 19),
      ('S', 'S', 20), ('s', 's', 20)] 8
  | 24 => .read [('C', 'C', 25), ('c', 'c', 25)] 8
  | 25 => .read [(' ', ' ', 25)] 26
  | 26 => .ret true
  | 27 => .read [('M', 'M', 25), ('m', 'm', 25)] 8
  | 28 => .read [('N', 'N', 30)] 8
  | 29 => .read [('.', '.', 32)] 8
  | 30 => .read [(' ', ' ', 30)] 31
  | 31 => .ret true
  | 32 => .read [('D', 'D', 33)] 8
  | 33 => .read [(' ', ' ', 34)] 8
  | 34 => .read [(' ', ' ', 34), ('A', 'A', 35), ('V', 'V', 35), ('a', 'a', 35), ('v', 'v', 35),
      ('D', 'D', 36), ('d', 'd', 36), ('G', 'G', 37), ('K', 'K', 37), ('M', 'M', 37),
      ('U', 'U', 37), ('g', 'g', 37), ('k', 'k', 37), ('m', 'm', 37), ('u', 'u', 37),
      ('H', 'H', 38), ('h', 'h', 38), ('O', 'O', 39), ('o', 'o', 39), ('S', 'S', 40),
      ('s', 's', 40)] 8
  | 35 => .read [('A', 'A', 41), ('D', 'D', 41), ('a', 'a', 41), ('d', 'd', 41)] 8
  | 36 => .read [('B', 'B', 30), ('b', 'b', 30)] 8
  | 37 => .read [('A', 'A', 35), ('V', 'V', 35), ('a', 'a', 35), ('v', 'v', 35), ('D', 'D', 36),
      ('d', 'd', 36), ('H', 'H', 38), ('h', 'h', 38), ('O', 'O', 39), ('o', 'o', 39),
      ('S', 'S', 40), ('s', 's', 40)] 8
  | 38 => .read [('Z', 'Z', 30), ('z', 'z', 30)] 8
  | 39 => .read [('H', 'H', 42), ('h', 'h', 42)] 8
  | 40 => .read [('E', 'E', 41), ('e', 'e', 41)] 8
  | 41 => .read [('C', 'C', 30), ('c', 'c', 30)] 8
  | 42 => .read [('M', 'M', 30), ('m', 'm', 30)] 8
  | _ => .ret false

/-- A measured value, `OPEN`, or `OVL.D` with a unit. -/
def regexValidReading (s : List UInt8) : Bool := scanYy validReadingYy 0 s

/-! ## `regex_in_menu` -/

/-- The `switch` shared by `yy61` and `yy62`. -/
def inMenuYy62 : List Arc :=
  [(' ', ' ', 61), ('C', 'C', 64), ('c', 'c', 64), ('E', 'E', 65), ('e', 'e', 65), ('M', 'M', 66),
   ('m', 'm', 66), ('N', 'N', 67), ('n', 'n', 67), ('P', 'P', 68), ('p', 'p', 68), ('T', 'T', 69),
   ('t', 't', 69)]

/-- The labels of `regex_in_menu`. -/
def inMenuYy : Nat → Label
  | 43 => .peek [(' ', ' ', 46), ('0', '9', 47), ('A', 'B', 48), ('D', 'D', 48), ('F', 'L', 48),
      ('O', 'O', 48), ('Q', 'S', 48), ('U', 'Z', 48), ('C', 'C', 49), ('E', 'E', 50),
      ('M', 'M', 51), ('N', 'N', 52), ('P', 'P', 53), ('T', 'T', 54), ('c', 'c', 55),
      ('e', 'e', 56), ('m', 'm', 57), ('n', 'n', 58), ('p', 'p', 59), ('t', 't', 60)] 44
  | 44 => .ret false
  | 45 => .ret false
  | 46 => .read [(' ', ' ', 62), ('C', 'C', 62), ('E', 'E', 62), ('M', 'N', 62), ('P', 'P', 62),
      ('T', 'T', 62), ('c', 'c', 62), ('e', 'e', 62), ('m', 'n', 62), ('p', 'p', 62),
      ('t', 't', 62)] 45
  | 47 => .read [(':', ':', 70)] 45
  | 48 => .read [(':', ':', 71)] 45
  | 49 => .read [(':', ':', 71), ('H', 'H', 72), ('h', 'h', 72), ('O', 'O', 73),
      ('o', 'o', 73)] 45
  | 50 => .read [(':', ':', 71), ('X', 'X', 74), ('x', 'x', 74)] 45
  | 51 => .read [(':', ':', 71), ('A', 'A', 75), ('a', 'a', 75), ('E', 'E', 76), ('e', 'e', 76),
      ('I', 'I', 77), ('i', 'i', 77)] 45
  | 52 => .read [(':', ':', 71), ('O', 'O', 78), ('o', 'o', 78)] 45
  | 53 => .read [(':', ':', 71), ('A', 'A', 79), ('a', 'a', 79)] 45
  | 54 => .read [(':', ':', 71), ('O', 'O', 80), ('o', 'o', 80)] 45
  | 55 => .read [('H', 'H', 72), ('h', 'h', 72), ('O', 'O', 73), ('o', 'o', 73)] 45
  | 56 => .read [('X', 'X', 74), ('x', 'x', 74)] 45
  | 57 => .read [('A', 'A', 75), ('a', 'a', 75), ('E', 'E', 76), ('e', 'e', 76), ('I', 'I', 77),
      ('i', 'i', 77)] 45
  | 58 => .read [('O', 'O', 78), ('o', 'o', 78)] 45
  | 59 => .read [('A', 'A', 79), ('a', 'a', 79)] 45
  | 60 => .read [('O', 'O', 80), ('o', 'o', 80)] 45
  | 61 => .read inMenuYy62 63
  | 62 => .peek inMenuYy62 63
  | 63 => .ret false
  | 64 => .read [('H', 'H', 72), ('h', 'h', 72), ('O', 'O', 73), ('o', 'o', 73)] 63
  | 65 => .read [('X', 'X', 74), ('x', 'x', 74)] 63
  | 66 => .read [('A', 'A', 75), ('a', 'a', 75), ('E', 'E', 76), ('e', 'e', 76), ('I', 'I', 77),
      ('i', 'i', 77)] 63
  | 67 => .read [('O', 'O', 78), ('o', 'o', 78)] 63
  | 68 => .read [('A', 'A', 79), ('a', 'a', 79)] 63
  | 69 => .read [('O', 'O', 80), ('o', 'o', 80)] 63
  | 70 => .read [(' ', ' ', 81)] 63
  | 71 => .read [(' ', ' ', 82)] 63
  | 72 => .read [('A', 'A', 83), ('a', 'a', 83)] 63
  | 73 => .read [('M', 'M', 84), ('m', 'm', 84)] 63
  | 74 => .read [('I', 'I', 85), ('i', 'i', 85)] 63
  | 75 => .read [('X', 'X', 86), ('x', 'x', 86)] 63
  | 76 => .read [('N', 'N', 87), ('n', 'n', 87)] 63
  | 77 => .read [('N', 'N', 86), ('n', 'n', 86)] 63
  | 78 => .read [('T', 'T', 88), ('t', 't', 88)] 63
  | 79 => .read [('R', 'R', 89), ('r', 'r', 89)] 63
  | 80 => .read [('P', 'P', 90), ('p', 'p', 90)] 63
  | 81 => .read [(' ', ' ', 91), ('/', 'a', 91)] 63
  | 82 => .read [(' ', ' ', 93), ('/', 'a', 93)] 63
  | 83 => .read [('N', 'N', 95), ('n', 'n', 95)] 63
  | 84 => .read [('M', 'M', 96), ('m', 'm', 96)] 63
  | 85 => .read [('T', 'T', 97), ('t', 't', 97)] 63
  | 86 => .read [(' ', ' ', 98)] 63
  | 87 => .read [('U', 'U', 99), ('u', 'u', 99)] 63
  | 88 => .read [(' ', ' ', 100)] 63
  | 89 => .read [('A', 'A', 101), ('a', 'a', 101)] 63
  | 90 => .read [(' ', ' ', 102)] 63
  | 91 => .read [(' ', ' ', 91), ('/', 'a', 91)] 92
  | 92 => .ret true
  | 93 => .read [(' ', ' ', 93), ('/', 'a', 93)] 94
  | 94 => .ret true
  | 95 => .read [('G', 'G', 103), ('g', 'g', 103)] 63
  | 96 => .read [('A', 'A', 104), ('a', 'a', 104)] 63
  | 97 => .read [('I', 'I', 105), ('i', 'i', 105)] 63
  | 98 => .read [('V', 'V', 106), ('v', 'v', 106)] 63
  | 99 => .read [(' ', ' ', 107), ('S', 'S', 108), ('s', 's', 108)] 63
  | 100 => .read [('E', 'E', 110), ('e', 'e', 110), ('R', 'R', 111), ('r', 'r', 111)] 63
  | 101 => .read [('M', 'M', 112), ('m', 'm', 112)] 63
  | 102 => .read [('O', 'O', 113), ('o', 'o', 113)] 63
  | 103 => .read [('E', 'E', 114), ('e', 'e', 114)] 63
  | 104 => .read [('N', 'N', 115), ('n', 'n', 115)] 63
  | 105 => .read [('N', 'N', 116), ('n', 'n', 116)] 63
  | 106 => .read [('A', 'A', 117), ('a', 'a', 117)] 63
  | 107 => .read [('B', 'B', 118), ('b', 'b', 118)] 63
  | 108 => .read [(' ', ' ', 108)] 109
  | 109 => .ret true
  | 110 => .read [('N', 'N', 119), ('n', 'n', 119)] 63
  | 111 => .read [('E', 'E', 120), ('e', 'e', 120)] 63
  | 112 => .read [('E', 'E', 121), ('e', 'e', 121)] 63
  | 113 => .read [('F', 'F', 122), ('f', 'f', 122)] 63
  | 114 => .read [(' ', ' ', 123)] 63
  | 115 => .read [('D', 'D', 124), ('d', 'd', 124)] 63
  | 116 => .read [('G', 'G', 122), ('g', 'g', 122)] 63
  | 117 => .read [('L', 'L', 125), ('l', 'l', 125)] 63
  | 118 => .read [('O', 'O', 126), ('o', 'o', 126)] 63
  | 119 => .read [('T', 'T', 127), ('t', 't', 127)] 63
  | 120 => .read [('L', 'L', 128), ('l', 'l', 128)] 63
  | 121 => .read [('T', 'T', 129), ('t', 't', 129)] 63
  | 122 => .read [(' ', ' ', 130)] 63
  | 123 => .read [('S', 'S', 131), ('s', 's', 131)] 63
  | 124 => .read [('S', 'S', 108), ('s', 's', 108)] 63
  | 125 => .read [('U', 'U', 132), ('u', 'u', 132)] 63
  | 126 => .read [('T', 'T', 133), ('t', 't', 133)] 63
  | 127 => .read [('E', 'E', 134), ('e', 'e', 134)] 63
  | 128 => .read [('E', 'E', 135), ('e', 'e', 135)] 63
  | 129 => .read [('E', 'E', 136), ('e', 'e', 136)] 63
  | 130 => .read [('M', 'M', 137), ('m', 'm', 137)] 63
  | 131 => .read [('A', 'A', 138), ('a', 'a', 138)] 63
  | 132 => .read [('E', 'E', 108), ('e', 'e', 108)] 63
  | 133 => .read [('T', 'T', 139), ('t', 't', 139)] 63
  | 134 => .read [('R', 'R', 140), ('r', 'r', 140)] 63
  | 135 => .read [('V', 'V', 141), ('v', 'v', 141)] 63
  | 136 => .read [('R', 'R', 108), ('r', 'r', 108)] 63
  | 137 => .read [('E', 'E', 142), ('e', 'e', 142)] 63
  | 138 => .read [('V', 'V', 140), ('v', 'v', 140)] 63
  | 139 => .read [('O', 'O', 143), ('o', 'o', 143)] 63
  | 140 => .read [('E', 'E', 144), ('e', 'e', 144)] 63
  | 141 => .read [('A', 'A', 145), ('a', 'a', 145)] 63
  | 142 => .read [('N', 'N', 146), ('n', 'n', 146)] 63
  | 143 => .read [('M', 'M', 108), ('m', 'm', 108)] 63
  | 144 => .read [('D', 'D', 108), ('d', 'd', 108)] 63
  | 145 => .read [('N', 'N', 147), ('n', 'n', 147)] 63
  | 146 => .read [('U', 'U', 108), ('u', 'u', 108)] 63
  | 147 => .read [('T', 'T', 108), ('t', 't', 108)] 63
  | _ => .ret false

/-- A line of the front-panel menu. -/
def regexInMenu (s : List UInt8) : Bool := scanYy inMenuYy 43 s

/-! ## `regex_text_display` -/

/-- The labels of `regex_text_display`. -/
def textDisplayYy : Nat → Label
  | 148 => .peek [(' ', ' ', 150), ('+', ';', 150), ('A', 'a', 150)] 149
  | 149 => .ret false
  | 150 => .read [(' ', ' ', 150), ('+', ';', 150), ('A', 'a', 150)] 151
  | 151 => .ret true
  | _ => .ret false

/-- Any other text the front panel shows. -/
def regexTextDisplay (s : List UInt8) : Bool := scanYy textDisplayYy 148 s

example : regexInMenu ("A: MEAS MENU".toList.map fun c => c.val.toUInt8) = true := by decide

end LcdPico
