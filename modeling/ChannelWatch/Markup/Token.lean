import ChannelWatch.Text.Search

/-!
# Tokens of marked-up text

`Token.ofText` cuts an XML text into tags, runs of text, CDATA sections and document type declarations. Comments and
processing instructions leave no token. Where the text stops being XML the last token is `broken`, and the tokens before
it still count.
-/

namespace ChannelWatch.Markup

/-- The white space of XML. -/
def isBlank (c : Char) : Bool :=
  c = ' ' || c = '\t' || c = '\n' || c = '\r'

/-- A token. A tag carries what stands between its brackets, without the slash that closes it. -/
inductive Token
  | opening (tag : List Char)
  | empty (tag : List Char)
  | closing (name : List Char)
  | text (raw : List Char)
  | cdata (content : List Char)
  | doctype
  | broken

/-- What the lexer is in the middle of; texts stand last character first. -/
inductive Mode
  | text (acc : List Char)
  | bracket
  | tag (closing : Bool) (acc : List Char) (quote : Option Char)
  | declaration
  | comment (acc : List Char)
  | cdata (acc : List Char)
  | doctype (acc : List Char) (depth : Nat)
  | instruction (acc : List Char)
  | broken

/-- A lexer between two characters: its mode and the tokens so far, last first. -/
structure Lexer where
  mode : Mode
  tokens : List Token

/-- The tokens with a run of text, if it is not empty. -/
def Lexer.withText (acc : List Char) (tokens : List Token) : List Token :=
  if acc.isEmpty then tokens else .text acc.reverse :: tokens

/-- The token of a tag. -/
def Token.ofTag (closing : Bool) (acc : List Char) : Token :=
  if closing then .closing (acc.dropWhile isBlank).reverse
  else match acc with
    | '/' :: acc => .empty acc.reverse
    | _ => .opening acc.reverse

/-- The lexer goes on in a mode. -/
def Lexer.enter (mode : Mode) (tokens : List Token) : Lexer :=
  ⟨mode, tokens⟩

/-- The text is XML no more. -/
def Lexer.fail (tokens : List Token) : Lexer :=
  ⟨.broken, tokens⟩

/-- The lexer takes a character of a tag: a bracket inside quotation marks does not end it. -/
def Lexer.inTag (closing : Bool) (acc : List Char) (tokens : List Token) : Option Char → Char → Lexer
  | some q, c => .enter (.tag closing (c :: acc) (if c = q then none else some q)) tokens
  | none, c =>
    if c = '>' then .enter (.text []) (.ofTag closing acc :: tokens)
    else .enter (.tag closing (c :: acc) (if c = '\x22' ∨ c = '\x27' then some c else none)) tokens

/-- The lexer takes the character after `<!`. -/
def Lexer.inDeclaration (tokens : List Token) (c : Char) : Lexer :=
  if c = '-' then .enter (.comment [c]) tokens
  else if c = '[' then .enter (.cdata [c]) tokens
  else if c = 'D' ∨ c = 'd' then .enter (.doctype [c] 0) tokens
  else .fail tokens

/-- The lexer takes a character of a comment: it ends at the first `-->` that leaves room for its own beginning. -/
def Lexer.inComment (acc : List Char) (tokens : List Token) (c : Char) : Lexer :=
  if c = '>' ∧ 4 ≤ acc.length ∧ Text.startsWith "--".toList acc then
    if Text.startsWith "--".toList acc.reverse then .enter (.text []) tokens else .fail tokens
  else .enter (.comment (c :: acc)) tokens

/-- The lexer takes a character of a CDATA section: it ends at the first `]]>`. -/
def Lexer.inCData (acc : List Char) (tokens : List Token) (c : Char) : Lexer :=
  if c = '>' ∧ Text.startsWith "]]".toList acc then
    if acc.reverse.take 7 = "[CDATA[".toList then
      .enter (.text []) (.cdata ((acc.drop 2).reverse.drop 7) :: tokens)
    else .fail tokens
  else .enter (.cdata (c :: acc)) tokens

/-- The lexer takes a character of a document type declaration: it ends where its brackets are balanced, and has to say
something. -/
def Lexer.inDoctype (acc : List Char) (depth : Nat) (tokens : List Token) (c : Char) : Lexer :=
  if c = '>' ∧ depth = 0 then
    let content := acc.reverse
    if (content.take 7).map Char.toLower = "doctype".toList ∧ !(content.drop 7).all isBlank then
      .enter (.text []) (.doctype :: tokens)
    else .fail tokens
  else
    let depth := if c = '<' then depth + 1 else if c = '>' then depth - 1 else depth
    .enter (.doctype (c :: acc) depth) tokens

/-- The lexer takes a character of a processing instruction: it ends at the first `?>`. -/
def Lexer.inInstruction (acc : List Char) (tokens : List Token) (c : Char) : Lexer :=
  if c = '>' then
    match acc with
    | [] => .fail tokens
    | '?' :: _ => .enter (.text []) tokens
    | _ => .enter (.instruction (c :: acc)) tokens
  else .enter (.instruction (c :: acc)) tokens

/-- The lexer takes one character. -/
def Lexer.step (l : Lexer) (c : Char) : Lexer :=
  match l.mode with
  | .text acc => if c = '<' then .enter .bracket (Lexer.withText acc l.tokens) else .enter (.text (c :: acc)) l.tokens
  | .bracket =>
    if c = '!' then .enter .declaration l.tokens
    else if c = '?' then .enter (.instruction []) l.tokens
    else if c = '/' then .enter (.tag true [] none) l.tokens
    else .inTag false [] l.tokens none c
  | .tag closing acc quote => .inTag closing acc l.tokens quote c
  | .declaration => .inDeclaration l.tokens c
  | .comment acc => .inComment acc l.tokens c
  | .cdata acc => .inCData acc l.tokens c
  | .doctype acc depth => .inDoctype acc depth l.tokens c
  | .instruction acc => .inInstruction acc l.tokens c
  | .broken => l

/-- The tokens read when the text has ended, in order. -/
def Lexer.finish (l : Lexer) : List Token :=
  match l.mode with
  | .text acc => (Lexer.withText acc l.tokens).reverse
  | _ => (.broken :: l.tokens).reverse

/-- The tokens of a text; a byte order mark before it does not count. -/
def Token.ofText (text : List Char) : List Token :=
  let text := match text with
    | '\uFEFF' :: rest => rest
    | _ => text
  (text.foldl Lexer.step ⟨.text [], []⟩).finish

end ChannelWatch.Markup
