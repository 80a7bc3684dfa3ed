import ChannelWatch.Json.Value

/-!
# Records in JSON

A record with known fields is written as an object with its fields in any order, or as an array of its fields in their
own order. In an object unknown keys are passed over, but every key must be a text and no known key may come twice. In
an array fields may be missing at the end and none may be left over.
-/

namespace ChannelWatch.Json

/-- The members of an object, if every key is a text. -/
def namedMembers? : List (JsonText × Json) → Option (List (String × Json))
  | [] => some []
  | (some k, v) :: rest => (namedMembers? rest).map ((k, v) :: ·)
  | (none, _) :: _ => none

/-- The value of a key that comes at most once: `none` if it comes twice, `some none` if it does not come. -/
def member? (members : List (String × Json)) (key : String) : Option (Option Json) :=
  match members.filter (·.1 = key) with
  | [] => some none
  | [m] => some (some m.2)
  | _ => none

/-- The values given for the fields of a record, in the order of its keys, `none` for a field that is not given. -/
def fields? (keys : List String) : Json → Option (List (Option Json))
  | object members =>
    match namedMembers? members with
    | some named => keys.mapM (member? named)
    | none => none
  | array items =>
    if items.length ≤ keys.length then
      some (items.map some ++ List.replicate (keys.length - items.length) none)
    else none
  | _ => none

/-- The field's value read with `decode`, or the default of a field that is not given. -/
def field? {α : Type} (decode : Json → Option α) (default : α) : Option Json → Option α
  | some v => decode v
  | none => some default

/-- The field's value read with `decode`; a field that is not given is refused. -/
def required? {α : Type} (decode : Json → Option α) : Option Json → Option α
  | some v => decode v
  | none => none

/-- The values of an array, each read with `decode`. -/
def list? {α : Type} (decode : Json → Option α) : Json → Option (List α)
  | array items => items.mapM decode
  | _ => none

end ChannelWatch.Json
