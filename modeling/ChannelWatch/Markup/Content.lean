import ChannelWatch.Markup.Node
import ChannelWatch.Text.Hex

/-!
# Content of documents

What runs of text and attributes say: entities are put back into the characters they stand for, an attribute is a name,
an equals sign and a quoted value, and an element's name counts without what stands before its colon.
-/

namespace ChannelWatch.Markup

/-- Why a document does not say what is asked of it. -/
inductive MarkupFault
  | malformed
  | interruptedText
  deriving DecidableEq

/-- The character with a number, given by its digits: zero and surrogates have none. -/
def charOfDigits? (radix : Nat) (digits : List Char) : Option Char :=
  let value := digits.foldl (fun n c => do
    let n ← n
    let d ← Hex.value? c
    if d < radix then some (n * radix + d) else none) (some 0)
  match value with
  | some n => if digits.isEmpty ∨ n = 0 ∨ ¬n.isValidChar then none else some (Char.ofNat n)
  | none => none

/-- The character that an entity stands for, given by what is between its ampersand and its semicolon. -/
def entity? (name : List Char) : Option Char :=
  match name with
  | '#' :: 'x' :: digits => charOfDigits? 16 digits
  | '#' :: digits => charOfDigits? 10 digits
  | _ =>
    if name = "lt".toList then some '<'
    else if name = "gt".toList then some '>'
    else if name = "amp".toList then some '&'
    else if name = "apos".toList then some '\x27'
    else if name = "quot".toList then some '\x22'
    else none

/-- The text so far, last character first, with the text still to come unescaped; `name` is the entity being read, last
character first. -/
def unescapeFrom? (acc : List Char) : Option (List Char) → List Char → Option (List Char)
  | none, [] => some acc.reverse
  | some _, [] => none
  | none, c :: cs => if c = '&' then unescapeFrom? acc (some []) cs else unescapeFrom? (c :: acc) none cs
  | some name, c :: cs =>
    if c = ';' then
      match entity? name.reverse with
      | some e => unescapeFrom? (e :: acc) none cs
      | none => none
    else if c = '&' then none
    else unescapeFrom? acc (some (c :: name)) cs

/-- The text with its entities put back into characters. -/
def unescape? (text : List Char) : Option (List Char) :=
  unescapeFrom? [] none text

/-- The text of a part of a run. -/
def Chunk.value? : Chunk → Option (List Char)
  | .raw text => unescape? text
  | .verbatim text => some text

/-- The text of a run. -/
def runValue (chunks : List Chunk) : Except MarkupFault (List Char) :=
  match chunks.mapM Chunk.value? with
  | some parts => .ok parts.flatten
  | none => .error .malformed

/-- The text of an element that holds nothing else, from its children. Two runs with a document type declaration between
them interrupt each other. -/
def textOf : List Node → Except MarkupFault (List Char)
  | [] => .ok []
  | [.text chunks] => runValue chunks
  | .text first :: .text second :: _ => do
    let _ ← runValue first
    let _ ← runValue second
    throw .interruptedText
  | _ => .error .malformed

/-- An attribute: its name and its value as written. -/
structure Attribute where
  name : List Char
  value : List Char

/-- The parts of an attribute that may be read next. -/
inductive AttributePhase
  | before
  | name (acc : List Char)
  | equals (name : List Char)
  | quote (name : List Char)
  | value (name : List Char) (quote : Char) (acc : List Char)

/-- A reader between two characters of a tag: where it stands and the attributes so far, last first. -/
structure AttributeReader where
  phase : AttributePhase
  attributes : List Attribute

/-- The reader takes one character; `none` where no attribute can go on with it, or where one comes twice. -/
def AttributeReader.step? (r : AttributeReader) (c : Char) : Option AttributeReader :=
  match r.phase with
  | .before => if isBlank c then some r else some { r with phase := .name [c] }
  | .name acc =>
    if c = '=' then some { r with phase := .quote acc.reverse }
    else if isBlank c then some { r with phase := .equals acc.reverse }
    else some { r with phase := .name (c :: acc) }
  | .equals name =>
    if isBlank c then some r else if c = '=' then some { r with phase := .quote name } else none
  | .quote name =>
    if isBlank c then some r
    else if (c = '\x22' ∨ c = '\x27') ∧ r.attributes.all (·.name ≠ name) then
      some { r with phase := .value name c [] }
    else none
  | .value name quote acc =>
    if c = quote then some ⟨.before, ⟨name, acc.reverse⟩ :: r.attributes⟩
    else some { r with phase := .value name quote (c :: acc) }

/-- The attributes read when the tag has ended, in order. -/
def AttributeReader.finish? (r : AttributeReader) : Option (List Attribute) :=
  match r.phase with
  | .before => some r.attributes.reverse
  | _ => none

/-- The attributes of a tag, from what follows its name. -/
def attributes? (text : List Char) : Option (List Attribute) :=
  (text.foldl (fun r c => r.bind (·.step? c)) (some ⟨.before, []⟩)).bind AttributeReader.finish?

/-- A name without what stands before its first colon. -/
def localName (name : List Char) : List Char :=
  match Text.cutAt ':' name with
  | (_, some rest) => rest
  | (whole, none) => whole

/-- The name that an attribute counts by; one that declares a namespace keeps its whole name. -/
def Attribute.key (a : Attribute) : List Char :=
  if Text.startsWith "xmlns:".toList a.name then a.name else localName a.name

/-- An element that nobody asks for is passed over: only a run of text that it begins with is looked at, and it has to
be whole. -/
def skip (children : List Node) : Except MarkupFault Unit := do
  match children with
  | .text chunks :: _ => discard (runValue chunks)
  | _ => pure ()
  if Node.areWhole children then pure () else throw .malformed

end ChannelWatch.Markup
