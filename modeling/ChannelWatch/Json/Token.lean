import ChannelWatch.Json.Value
import ChannelWatch.Text.Hex

/-!
# Tokens of a JSON text

`Token.ofText?` cuts a text into brackets, separators, words, numbers and string literals, or refuses it. It walks the
characters once with a `Lexer`, whose mode says what the characters read last have begun.
-/

namespace ChannelWatch.Json

/-- A token. -/
inductive Token
  | openArray
  | closeArray
  | openObject
  | closeObject
  | comma
  | colon
  | null
  | bool (b : Bool)
  | number (n : JsonNumber)
  | string (s : JsonText)

/-- Where a number literal stands: what it has last read decides what may come next and whether it may end. -/
inductive NumberPhase
  | sign
  | zero
  | whole
  | point
  | fraction
  | exponentMark
  | exponentSign
  | exponent

/-- The literal may end here. -/
def NumberPhase.complete : NumberPhase → Bool
  | zero | whole | fraction | exponent => true
  | sign | point | exponentMark | exponentSign => false

/-- The phase after one more character of a number, `none` where the character does not belong to it. -/
def NumberPhase.next? : NumberPhase → Char → Option NumberPhase
  | sign, c => if c = '0' then some zero else if Text.isDigit c then some whole else none
  | zero, c => if c = '.' then some point else if c = 'e' ∨ c = 'E' then some exponentMark else none
  | whole, c =>
    if Text.isDigit c then some whole
    else if c = '.' then some point else if c = 'e' ∨ c = 'E' then some exponentMark else none
  | point, c => if Text.isDigit c then some fraction else none
  | fraction, c =>
    if Text.isDigit c then some fraction else if c = 'e' ∨ c = 'E' then some exponentMark else none
  | exponentMark, c =>
    if Text.isDigit c then some exponent else if c = '+' ∨ c = '-' then some exponentSign else none
  | exponentSign, c => if Text.isDigit c then some exponent else none
  | exponent, c => if Text.isDigit c then some exponent else none

/-- What the backslash in a string literal has begun. -/
inductive Escape
  | none
  | begun
  | digits (count value : Nat)

/-- A string literal being read: its characters, last first, whether it still denotes a text, and a high surrogate that
waits for its partner. -/
structure Literal where
  chars : List Char
  sound : Bool
  high : Option Nat

/-- The literal with one more character; a surrogate still waiting stays alone. -/
def Literal.push (l : Literal) (c : Char) : Literal :=
  ⟨c :: l.chars, l.sound && l.high.isNone, none⟩

/-- The literal with one more code unit, given by its four digits. -/
def Literal.pushUnit (l : Literal) (unit : Nat) : Literal :=
  if 0xD800 ≤ unit ∧ unit ≤ 0xDBFF then ⟨l.chars, l.sound && l.high.isNone, some unit⟩
  else if 0xDC00 ≤ unit ∧ unit ≤ 0xDFFF then
    match l.high with
    | some high => ⟨Char.ofNat (0x10000 + (high - 0xD800) * 0x400 + (unit - 0xDC00)) :: l.chars, l.sound, none⟩
    | none => ⟨l.chars, false, none⟩
  else l.push (Char.ofNat unit)

/-- What the finished literal denotes. -/
def Literal.finish (l : Literal) : JsonText :=
  if l.sound ∧ l.high.isNone then some (String.ofList l.chars.reverse) else none

/-- What the lexer is in the middle of. -/
inductive Mode
  | between
  | word (rest : List Char) (token : Token)
  | number (phase : NumberPhase) (negative : Bool) (whole : Nat) (tail : List Char)
  | string (literal : Literal) (escape : Escape)

/-- A lexer between two characters: its mode and the tokens so far, last first. -/
structure Lexer where
  mode : Mode
  tokens : List Token

/-- The white space of JSON. -/
def isBlank (c : Char) : Bool :=
  c = ' ' || c = '\t' || c = '\n' || c = '\r'

/-- The lexer takes a character that begins a token or stands between two. -/
def Lexer.start? (tokens : List Token) (c : Char) : Option Lexer :=
  if isBlank c then some ⟨.between, tokens⟩
  else if c = '\x22' then some ⟨.string ⟨[], true, none⟩ .none, tokens⟩
  else if c = '[' then some ⟨.between, .openArray :: tokens⟩
  else if c = ']' then some ⟨.between, .closeArray :: tokens⟩
  else if c = '\x7b' then some ⟨.between, .openObject :: tokens⟩
  else if c = '\x7d' then some ⟨.between, .closeObject :: tokens⟩
  else if c = ',' then some ⟨.between, .comma :: tokens⟩
  else if c = ':' then some ⟨.between, .colon :: tokens⟩
  else if c = 'n' then some ⟨.word "ull".toList .null, tokens⟩
  else if c = 't' then some ⟨.word "rue".toList (.bool true), tokens⟩
  else if c = 'f' then some ⟨.word "alse".toList (.bool false), tokens⟩
  else if c = '-' then some ⟨.number .sign true 0 [], tokens⟩
  else if c = '0' then some ⟨.number .zero false 0 [], tokens⟩
  else if Text.isDigit c then some ⟨.number .whole false (c.toNat - 0x30) [], tokens⟩
  else none

/-- The character that a short escape stands for. -/
def shortEscape? (c : Char) : Option Char :=
  if c = '\x22' then some '\x22'
  else if c = '\\' then some '\\'
  else if c = '/' then some '/'
  else if c = 'b' then some '\x08'
  else if c = 'f' then some '\x0c'
  else if c = 'n' then some '\n'
  else if c = 'r' then some '\r'
  else if c = 't' then some '\t'
  else none

/-- The lexer takes a character inside a string literal. -/
def Lexer.inString? (literal : Literal) (tokens : List Token) : Escape → Char → Option Lexer
  | .none, c =>
    if c = '\x22' then some ⟨.between, .string literal.finish :: tokens⟩
    else if c = '\\' then some ⟨.string literal .begun, tokens⟩
    else if c.toNat < 0x20 then none
    else some ⟨.string (literal.push c) .none, tokens⟩
  | .begun, c =>
    if c = 'u' then some ⟨.string literal (.digits 0 0), tokens⟩
    else (shortEscape? c).map fun e => ⟨.string (literal.push e) .none, tokens⟩
  | .digits count value, c =>
    (Hex.value? c).map fun d =>
      if count = 3 then ⟨.string (literal.pushUnit (value * 16 + d)) .none, tokens⟩
      else ⟨.string literal (.digits (count + 1) (value * 16 + d)), tokens⟩

/-- The lexer takes a character of a number, or the one after it. -/
def Lexer.inNumber? (negative : Bool) (whole : Nat) (tail : List Char) (tokens : List Token) (phase : NumberPhase)
    (c : Char) : Option Lexer :=
  match phase.next? c with
  | some .zero => some ⟨.number .zero negative 0 [], tokens⟩
  | some .whole => some ⟨.number .whole negative (whole * 10 + (c.toNat - 0x30)) [], tokens⟩
  | some next => some ⟨.number next negative whole (c :: tail), tokens⟩
  | none =>
    if phase.complete then Lexer.start? (.number ⟨negative, whole, tail.reverse⟩ :: tokens) c else none

/-- The lexer takes one character. -/
def Lexer.step? (l : Lexer) (c : Char) : Option Lexer :=
  match l.mode with
  | .between => Lexer.start? l.tokens c
  | .word [] token => Lexer.start? (token :: l.tokens) c
  | .word (d :: rest) token => if c = d then some ⟨.word rest token, l.tokens⟩ else none
  | .number phase negative whole tail => Lexer.inNumber? negative whole tail l.tokens phase c
  | .string literal escape => Lexer.inString? literal l.tokens escape c

/-- The lexer takes the characters of a text. -/
def Lexer.run? : Lexer → List Char → Option Lexer
  | l, [] => some l
  | l, c :: cs =>
    match l.step? c with
    | some next => next.run? cs
    | none => none

/-- The tokens read when the text has ended, in order. -/
def Lexer.finish? (l : Lexer) : Option (List Token) :=
  match l.mode with
  | .between => some l.tokens.reverse
  | .word [] token => some (token :: l.tokens).reverse
  | .number phase negative whole tail =>
    if phase.complete then some (.number ⟨negative, whole, tail.reverse⟩ :: l.tokens).reverse else none
  | _ => none

/-- The tokens of a text. -/
def Token.ofText? (text : List Char) : Option (List Token) :=
  match Lexer.run? ⟨.between, []⟩ text with
  | some l => l.finish?
  | none => none

end ChannelWatch.Json
