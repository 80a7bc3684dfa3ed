import ChannelWatch.Json.Token

/-!
# Reading JSON

`Json.read?` builds the value of a text from its tokens, keeping the arrays and objects that are still open on a stack.
-/

namespace ChannelWatch.Json

/-- An array or object that is still open: what it holds so far, last first. -/
inductive Frame
  | array (items : List Json)
  | object (members : List (JsonText × Json)) (key : JsonText)

/-- What a reader may take next. -/
inductive Expect
  | value
  | firstItem
  | firstKey (members : List (JsonText × Json))
  | key (members : List (JsonText × Json))
  | colon
  | next (v : Json)

/-- A reader between two tokens. -/
structure Reader where
  expect : Expect
  stack : List Frame

/-- The reader has a whole value: it goes into the innermost open array or object when the next token comes. -/
def Reader.give (stack : List Frame) (v : Json) : Reader :=
  ⟨.next v, stack⟩

/-- The reader takes the token that begins a value. -/
def Reader.begin? (stack : List Frame) : Token → Option Reader
  | .openArray => some ⟨.firstItem, .array [] :: stack⟩
  | .openObject => some ⟨.firstKey [], stack⟩
  | .null => some (.give stack .null)
  | .bool b => some (.give stack (.bool b))
  | .number n => some (.give stack (.number n))
  | .string s => some (.give stack (.string s))
  | _ => none

/-- The reader takes the token after a value: it says whether the innermost array or object goes on or ends. -/
def Reader.after? (v : Json) : List Frame → Token → Option Reader
  | .array items :: stack, .comma => some ⟨.value, .array (v :: items) :: stack⟩
  | .array items :: stack, .closeArray => some (.give stack (.array (v :: items).reverse))
  | .object members key :: stack, .comma => some ⟨.key ((key, v) :: members), stack⟩
  | .object members key :: stack, .closeObject => some (.give stack (.object ((key, v) :: members).reverse))
  | _, _ => none

/-- The reader takes one token. -/
def Reader.step? (r : Reader) (t : Token) : Option Reader :=
  match r.expect with
  | .value => Reader.begin? r.stack t
  | .firstItem =>
    match t, r.stack with
    | .closeArray, .array items :: stack => some (.give stack (.array items.reverse))
    | _, _ => Reader.begin? r.stack t
  | .firstKey members =>
    match t with
    | .string key => some ⟨.colon, .object members key :: r.stack⟩
    | .closeObject => some (.give r.stack (.object members.reverse))
    | _ => none
  | .key members =>
    match t with
    | .string key => some ⟨.colon, .object members key :: r.stack⟩
    | _ => none
  | .colon =>
    match t with
    | .colon => some ⟨.value, r.stack⟩
    | _ => none
  | .next v => Reader.after? v r.stack t

/-- The reader takes a list of tokens. -/
def Reader.run? : Reader → List Token → Option Reader
  | r, [] => some r
  | r, t :: ts =>
    match r.step? t with
    | some next => next.run? ts
    | none => none

/-- The value read when the tokens have ended: nothing may be open. -/
def Reader.finish? : Reader → Option Json
  | ⟨.next v, []⟩ => some v
  | _ => none

/-- The value of a list of tokens. -/
def ofTokens? (ts : List Token) : Option Json :=
  match Reader.run? ⟨.value, []⟩ ts with
  | some r => r.finish?
  | none => none

/-- The value of a text. -/
def read? (text : String) : Option Json :=
  match Token.ofText? text.toList with
  | some ts => ofTokens? ts
  | none => none

end ChannelWatch.Json
