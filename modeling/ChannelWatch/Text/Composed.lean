import ChannelWatch.Text.Combining

/-!
# Composed form

An accented letter is one character or a letter and marks behind it. In composed form every text has one spelling: marks
stand in the order of their classes, and wherever a character and a mark that it meets make up another character, that one
stands for them. Korean syllables are composed by rule, all others by a table of pairs, which has the composed characters
that domain names may hold.
-/

namespace ChannelWatch.Text

/-- The composed characters. Under the second character of a pair stands the first one with the composed one. -/
def pairText : String :=
  "
  300: 61=E0 65=E8 69=EC 6E=1F9 6F=F2 75=F9 77=1E81 79=1EF3 E2=1EA7 EA=1EC1 F4=1ED3 FC=1DC 103=1EB1 113=1E15
  14D=1E51 1A1=1EDD 1B0=1EEB 3B1=1F70 3B5=1F72 3B7=1F74 3B9=1F76 3BF=1F78 3C5=1F7A 3C9=1F7C 3CA=1FD2 3CB=1FE2
  435=450 438=45D 1F00=1F02 1F01=1F03 1F10=1F12 1F11=1F13 1F20=1F22 1F21=1F23 1F30=1F32 1F31=1F33 1F40=1F42
  1F41=1F43 1F50=1F52 1F51=1F53 1F60=1F62 1F61=1F63 301: 61=E1 63=107 65=E9 67=1F5 69=ED 6B=1E31 6C=13A 6D=1E3F
  6E=144 6F=F3 70=1E55 72=155 73=15B 75=FA 77=1E83 79=FD 7A=17A E2=1EA5 E5=1FB E6=1FD E7=1E09 EA=1EBF EF=1E2F
  F4=1ED1 F5=1E4D F8=1FF FC=1D8 103=1EAF 113=1E17 14D=1E53 169=1E79 1A1=1EDB 1B0=1EE9 3B1=3AC 3B5=3AD 3B7=3AE
  3B9=3AF 3BF=3CC 3C5=3CD 3C9=3CE 3CA=390 3CB=3B0 433=453 43A=45C 1F00=1F04 1F01=1F05 1F10=1F14 1F11=1F15 1F20=1F24
  1F21=1F25 1F30=1F34 1F31=1F35 1F40=1F44 1F41=1F45 1F50=1F54 1F51=1F55 1F60=1F64 1F61=1F65 302: 61=E2 63=109 65=EA
  67=11D 68=125 69=EE 6A=135 6F=F4 73=15D 75=FB 77=175 79=177 7A=1E91 1EA1=1EAD 1EB9=1EC7 1ECD=1ED9 303: 61=E3
  65=1EBD 69=129 6E=F1 6F=F5 75=169 76=1E7D 79=1EF9 E2=1EAB EA=1EC5 F4=1ED7 103=1EB5 1A1=1EE1 1B0=1EEF 304: 61=101
  65=113 67=1E21 69=12B 6F=14D 75=16B 79=233 E4=1DF E6=1E3 F5=22D F6=22B FC=1D6 1EB=1ED 227=1E1 22F=231 3B1=1FB1
  3B9=1FD1 3C5=1FE1 438=4E3 443=4EF 1E37=1E39 1E5B=1E5D 306: 61=103 65=115 67=11F 69=12D 6F=14F 75=16D 229=1E1D
  3B1=1FB0 3B9=1FD0 3C5=1FE0 430=4D1 435=4D7 436=4C2 438=439 443=45E 1EA1=1EB7 307: 61=227 62=1E03 63=10B 64=1E0B
  65=117 66=1E1F 67=121 68=1E23 6D=1E41 6E=1E45 6F=22F 70=1E57 72=1E59 73=1E61 74=1E6B 77=1E87 78=1E8B 79=1E8F
  7A=17C 15B=1E65 161=1E67 1E63=1E69 105D2=105C9 105DA=105E4 308: 61=E4 65=EB 68=1E27 69=EF 6F=F6 74=1E97 75=FC
  77=1E85 78=1E8D 79=FF F5=1E4F 16B=1E7B 3B9=3CA 3C5=3CB 430=4D3 435=451 436=4DD 437=4DF 438=4E5 43E=4E7 443=4F1
  447=4F5 44B=4F9 44D=4ED 456=457 4D9=4DB 4E9=4EB 309: 61=1EA3 65=1EBB 69=1EC9 6F=1ECF 75=1EE7 79=1EF7 E2=1EA9
  EA=1EC3 F4=1ED5 103=1EB3 1A1=1EDF 1B0=1EED 30A: 61=E5 75=16F 77=1E98 79=1E99 30B: 6F=151 75=171 443=4F3 30C:
  61=1CE 63=10D 64=10F 65=11B 67=1E7 68=21F 69=1D0 6A=1F0 6B=1E9 6C=13E 6E=148 6F=1D2 72=159 73=161 74=165 75=1D4
  7A=17E FC=1DA 292=1EF 30F: 61=201 65=205 69=209 6F=20D 72=211 75=215 475=477 311: 61=203 65=207 69=20B 6F=20F
  72=213 75=217 313: 3B1=1F00 3B5=1F10 3B7=1F20 3B9=1F30 3BF=1F40 3C1=1FE4 3C5=1F50 3C9=1F60 314: 3B1=1F01 3B5=1F11
  3B7=1F21 3B9=1F31 3BF=1F41 3C1=1FE5 3C5=1F51 3C9=1F61 31B: 6F=1A1 75=1B0 323: 61=1EA1 62=1E05 64=1E0D 65=1EB9
  68=1E25 69=1ECB 6B=1E33 6C=1E37 6D=1E43 6E=1E47 6F=1ECD 72=1E5B 73=1E63 74=1E6D 75=1EE5 76=1E7F 77=1E89 79=1EF5
  7A=1E93 1A1=1EE3 1B0=1EF1 324: 75=1E73 325: 61=1E01 326: 73=219 74=21B 327: 63=E7 64=1E11 65=229 67=123 68=1E29
  6B=137 6C=13C 6E=146 72=157 73=15F 74=163 328: 61=105 65=119 69=12F 6F=1EB 75=173 32D: 64=1E13 65=1E19 6C=1E3D
  6E=1E4B 74=1E71 75=1E77 32E: 68=1E2B 330: 65=1E1B 69=1E2D 75=1E75 331: 62=1E07 64=1E0F 68=1E96 6B=1E35 6C=1E3B
  6E=1E49 72=1E5F 74=1E6F 7A=1E95 338: 3C=226E 3D=2260 3E=226F 2190=219A 2192=219B 2194=21AE 21D0=21CD 21D2=21CF
  21D4=21CE 2203=2204 2208=2209 220B=220C 2223=2224 2225=2226 223C=2241 2243=2244 2245=2247 2248=2249 224D=226D
  2261=2262 2264=2270 2265=2271 2272=2274 2273=2275 2276=2278 2277=2279 227A=2280 227B=2281 227C=22E0 227D=22E1
  2282=2284 2283=2285 2286=2288 2287=2289 2291=22E2 2292=22E3 22A2=22AC 22A8=22AD 22A9=22AE 22AB=22AF 22B2=22EA
  22B3=22EB 22B4=22EC 22B5=22ED 342: 3B1=1FB6 3B7=1FC6 3B9=1FD6 3C5=1FE6 3C9=1FF6 3CA=1FD7 3CB=1FE7 1F00=1F06
  1F01=1F07 1F20=1F26 1F21=1F27 1F30=1F36 1F31=1F37 1F50=1F56 1F51=1F57 1F60=1F66 1F61=1F67 653: 627=622 654:
  627=623 648=624 64A=626 6C1=6C2 6D2=6D3 6D5=6C0 655: 627=625 93C: 928=929 930=931 933=934 9BE: 9C7=9CB 9D7:
  9C7=9CC B3E: B47=B4B B56: B47=B48 B57: B47=B4C BBE: BC6=BCA BC7=BCB BD7: B92=B94 BC6=BCC C56: C46=C48 CC2: CC6=CCA
  CD5: CBF=CC0 CC6=CC7 CCA=CCB CD6: CC6=CC8 D3E: D46=D4A D47=D4B D57: D46=D4C DCA: DD9=DDA DDC=DDD DCF: DD9=DDC DDF:
  DD9=DDE 102E: 1025=1026 1B35: 1B05=1B06 1B07=1B08 1B09=1B0A 1B0B=1B0C 1B0D=1B0E 1B11=1B12 1B3A=1B3B 1B3C=1B3D
  1B3E=1B40 1B3F=1B41 1B42=1B43 3099: 3046=3094 304B=304C 304D=304E 304F=3050 3051=3052 3053=3054 3055=3056
  3057=3058 3059=305A 305B=305C 305D=305E 305F=3060 3061=3062 3064=3065 3066=3067 3068=3069 306F=3070 3072=3073
  3075=3076 3078=3079 307B=307C 309D=309E 30A6=30F4 30AB=30AC 30AD=30AE 30AF=30B0 30B1=30B2 30B3=30B4 30B5=30B6
  30B7=30B8 30B9=30BA 30BB=30BC 30BD=30BE 30BF=30C0 30C1=30C2 30C4=30C5 30C6=30C7 30C8=30C9 30CF=30D0 30D2=30D3
  30D5=30D6 30D8=30D9 30DB=30DC 30EF=30F7 30F0=30F8 30F1=30F9 30F2=30FA 30FD=30FE 309A: 306F=3071 3072=3074
  3075=3077 3078=307A 307B=307D 30CF=30D1 30D2=30D4 30D5=30D7 30D8=30DA 30DB=30DD 110BA: 11099=1109A 1109B=1109C
  110A5=110AB 11127: 11131=1112E 11132=1112F 1133E: 11347=1134B 11357: 11347=1134C 113B8: 113C2=113C7 113BB:
  11384=11385 113C2: 1138B=1138E 113C2=113C5 113C9: 11382=11383 11390=11391 113C2=113C8 114B0: 114B9=114BC 114BA:
  114B9=114BB 114BD: 114B9=114BE 115AF: 115B8=115BA 115B9=115BB 11930: 11935=11938 1611E: 1611E=16121 1611F:
  1611E=16123 16121=16126 16122=16127 16129=16124 16120: 1611E=16125 16121=16128 16129: 1611E=16122 16D67:
  16D63=16D69 16D67=16D68 16D69=16D6A"

/-- Two characters and the one that they make up. -/
structure CharPair where
  first : Nat
  second : Nat
  composed : Nat

/-- The pairs of characters that make up others. -/
def charPairs : List CharPair :=
  (Table.sections pairText).flatMap fun s => s.2.map fun word =>
    let (first, composed) := cutAt '=' word
    ⟨Table.number first, Table.number s.1, Table.number (composed.getD [])⟩

/-- The place of a pair in their order. -/
def pairKey (first second : Nat) : Nat :=
  first * Nat.pow 2 21 + second

/-- The pairs by the characters that they make up. -/
def pairTable : Table CharPair :=
  Table.ofRuns (charPairs.map fun p => ⟨p.composed, p.composed, p⟩)

/-- The composed characters by their pairs. -/
def composedTable : Table Nat :=
  Table.ofRuns (charPairs.map fun p => ⟨pairKey p.first p.second, pairKey p.first p.second, p.composed⟩)

namespace Syllable

/-- The first Korean syllable. -/
def start : Nat :=
  0xAC00

/-- How many Korean syllables there are. -/
def count : Nat :=
  11172

/-- The first leading consonant. -/
def leading : Nat :=
  0x1100

/-- The first vowel. -/
def vowel : Nat :=
  0x1161

/-- The place before the first trailing consonant: a syllable may have none. -/
def trailing : Nat :=
  0x11A7

/-- The parts of a syllable, by code point. -/
def parts? (n : Nat) : Option (List Nat) :=
  if start ≤ n ∧ n < start + count then
    let i := n - start
    let t := i % 28
    some ([leading + i / 588, vowel + i / 28 % 21] ++ if t = 0 then [] else [trailing + t])
  else none

/-- The syllable of a leading consonant and a vowel, or of a syllable without a trailing consonant and one. -/
def compose? (a b : Nat) : Option Nat :=
  if leading ≤ a ∧ a < leading + 19 ∧ vowel ≤ b ∧ b < vowel + 21 then
    some (start + ((a - leading) * 21 + (b - vowel)) * 28)
  else if start ≤ a ∧ a < start + count ∧ (a - start) % 28 = 0 ∧ trailing < b ∧ b < trailing + 28 then
    some (a + (b - trailing))
  else none

end Syllable

/-- The character that two make up. -/
def composePair? (a b : Char) : Option Char :=
  ((Syllable.compose? a.toNat b.toNat).or (composedTable.value? (pairKey a.toNat b.toNat))).map Char.ofNat

/-- The parts of a character made up of at most `depth` pairs inside one another. -/
def partsWithin : Nat → Char → List Char
  | 0, c => [c]
  | depth + 1, c =>
    match pairTable.value? c.toNat with
    | some p => partsWithin depth (Char.ofNat p.first) ++ [Char.ofNat p.second]
    | none => [c]

/-- How many pairs inside one another make up a character at most. -/
def maxDepth : Nat :=
  3

/-- The parts of a character that are not made up of others. -/
def parts (c : Char) : List Char :=
  if c.toNat < 0x80 then [c]
  else match Syllable.parts? c.toNat with
    | some ps => ps.map Char.ofNat
    | none => partsWithin maxDepth c

/-- A character with its combining class. -/
structure Ranked where
  rank : Nat
  char : Char

/-- A character put before an ordered text: a mark passes those of lower classes. -/
def place (c : Ranked) : List Ranked → List Ranked
  | [] => [c]
  | d :: rest => if d.rank ≠ 0 ∧ d.rank < c.rank then d :: place c rest else c :: d :: rest

/-- A text with its marks in the order of their classes; marks of one class keep theirs. -/
def orderMarks (text : List Char) : List Char :=
  ((text.map fun c => ⟨combiningClass c, c⟩).foldr place []).map Ranked.char

/-- What a composer has read: the text before the last character that marks combine with, that character, and the marks
behind it that it has not taken in. The text and the marks stand last first. -/
structure Composer where
  done : List Char
  base : Option Char
  marks : List Char

/-- The text that the composer has read, last character first. -/
def Composer.reversed (p : Composer) : List Char :=
  p.marks ++ p.base.toList ++ p.done

/-- Nothing stands between the character that marks combine with and a next one of some class. -/
def Composer.meets (p : Composer) (c : Nat) : Bool :=
  match p.marks with
  | [] => true
  | m :: _ => combiningClass m < c

/-- The composer reads a character. -/
def Composer.step (p : Composer) (c : Char) : Composer :=
  let composed := if p.meets (combiningClass c) then p.base.bind fun b => composePair? b c else none
  match composed with
  | some b => { p with base := some b }
  | none =>
    if combiningClass c = 0 then ⟨p.reversed, some c, []⟩
    else { p with marks := c :: p.marks }

/-- A text in composed form. -/
def compose (text : List Char) : List Char :=
  ((orderMarks (text.flatMap parts)).foldl Composer.step ⟨[], none, []⟩).reversed.reverse

end ChannelWatch.Text
