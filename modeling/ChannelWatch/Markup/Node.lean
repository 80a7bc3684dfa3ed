import ChannelWatch.Markup.Token

/-!
# Marked-up documents

A document is a tree of elements and runs of text, as far as its text can be read: a `broken` node stands where an
element is cut short. Runs of text are trimmed: white space at the beginning and the end of a run does not count, except
in CDATA sections and beside them.
-/

namespace ChannelWatch.Markup

/-- A part of a run of text: text in which entities stand for characters, or the content of a CDATA section. -/
inductive Chunk
  | raw (text : List Char)
  | verbatim (text : List Char)

/-- A node of a document. -/
inductive Node
  | element (name : List Char) (attributes : List Char) (children : List Node)
  | text (chunks : List Chunk)
  | broken

/-- The parts of a run without white space at its beginning; blank parts before the first are dropped. -/
def trimStart : List Chunk → List Chunk
  | .raw text :: rest =>
    let text := text.dropWhile isBlank
    if text.isEmpty then trimStart rest else .raw text :: rest
  | chunks => chunks

/-- The parts of a run, last first, without white space at its end. -/
def trimEnd : List Chunk → List Chunk
  | .raw text :: rest => .raw (Text.dropEndWhile isBlank text) :: rest
  | chunks => chunks

/-- The children of an element, last first, with a run of text, given last part first, if there is anything in it. -/
def withRun (run : List Chunk) (children : List Node) : List Node :=
  match trimStart run.reverse with
  | [] => children
  | chunks => .text (trimEnd chunks.reverse).reverse :: children

/-- An element that is still open: its name, its attributes and its children so far, last first. -/
structure OpenElement where
  name : List Char
  attributes : List Char
  children : List Node

/-- A builder between two tokens: the open elements, innermost first, the nodes outside all of them, last first, the run
of text being read, last part first, and whether the tree is complete. -/
structure Builder where
  stack : List OpenElement
  top : List Node
  run : List Chunk
  done : Bool

/-- The builder puts a node into the innermost open element. Outside all elements the first one ends the document. -/
def Builder.add (b : Builder) (node : Node) : Builder :=
  match b.stack with
  | e :: rest => { b with stack := { e with children := node :: e.children } :: rest }
  | [] => { b with top := node :: b.top, done := true }

/-- The builder ends the run of text. -/
def Builder.endRun (b : Builder) : Builder :=
  match b.stack with
  | e :: rest => { b with stack := { e with children := withRun b.run e.children } :: rest, run := [] }
  | [] => { b with top := withRun b.run b.top, run := [] }

/-- The name of an element and its attributes, from what stands in its tag. -/
def cutName (tag : List Char) : List Char × List Char :=
  tag.span (!isBlank ·)

/-- The builder closes every open element: the innermost one is cut short. -/
def Builder.breakOff (b : Builder) : Builder :=
  let closed := b.stack.foldl
    (fun inner e => .element e.name e.attributes (inner :: e.children).reverse) Node.broken
  { b with stack := [], top := closed :: b.top, done := true }

/-- The builder takes one token. -/
def Builder.step (b : Builder) (t : Token) : Builder :=
  if b.done then b
  else match t with
    | .text raw => { b with run := .raw raw :: b.run }
    | .cdata content => { b with run := .verbatim content :: b.run }
    | .doctype => b.endRun
    | .opening tag =>
      let b := b.endRun
      let (name, attributes) := cutName tag
      { b with stack := ⟨name, attributes, []⟩ :: b.stack }
    | .empty tag =>
      let (name, attributes) := cutName tag
      b.endRun.add (.element name attributes [])
    | .closing name =>
      let b := b.endRun
      match b.stack with
      | e :: rest =>
        if e.name = name then
          { b with stack := rest }.add (.element e.name e.attributes e.children.reverse)
        else b.breakOff
      | [] => b.breakOff
    | .broken => b.endRun.breakOff

/-- The nodes of a document when its tokens have ended. -/
def Builder.finish (b : Builder) : List Node :=
  if b.done then b.top.reverse else b.endRun.breakOff.top.reverse

/-- The nodes of a text up to and with its first element. -/
def Node.ofText (text : List Char) : List Node :=
  ((Token.ofText text).foldl Builder.step ⟨[], [], [], false⟩).finish

mutual

/-- No element in the node is cut short. -/
def Node.isWhole : Node → Bool
  | .element _ _ children => Node.areWhole children
  | .text _ => true
  | .broken => false

/-- No element in the nodes is cut short. -/
def Node.areWhole : List Node → Bool
  | [] => true
  | n :: rest => n.isWhole && Node.areWhole rest

end

end ChannelWatch.Markup
