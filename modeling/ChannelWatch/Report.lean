import ChannelWatch.Fault
import ChannelWatch.Json.Number
import ChannelWatch.Json.Record

/-!
# Error reports

The JSON object in which an answer reports a fault: a code for machines, a message for people, and details for the faults
that have any. `ErrorReport.ofJson?` reads such an object back.
-/

namespace ChannelWatch

/-- An error report. -/
structure ErrorReport where
  code : String
  message : String
  details : Option Json

namespace ErrorReport

/-- The details that a fault reports. -/
def detailsOf : Fault → Option Json
  | .httpStatus status url => some (.record [("status", .nat status), ("url", .text url)])
  | .partialContent failed => some (.record [("failed_sources", .nat failed)])
  | .config _ (some key) => some (.record [("key", .text key)])
  | _ => none

/-- The report of a fault. -/
def ofFault (f : Fault) : ErrorReport :=
  ⟨f.code, f.message, detailsOf f⟩

/-- The report that something was not found. -/
def notFound (what : String) : ErrorReport :=
  ⟨"not_found", what ++ " not found", none⟩

/-- The report as JSON; details that are absent are left out. -/
def toJson (r : ErrorReport) : Json :=
  .record [("error", .record ([("code", .text r.code), ("message", .text r.message)]
    ++ (r.details.map fun d => ("details", d)).toList))]

end ErrorReport

namespace Json

mutual

/-- The value as details keep it, for values nested at most `depth` deep: every string a text, every number of 64 bits or
of double precision, and of a repeated key the last value. -/
def keep? (depth : Nat) : Json → Option Json
  | .null => some .null
  | .bool b => some (.bool b)
  | .number n => n.kept?.map .number
  | .string (some s) => some (.text s)
  | .string none => none
  | .array items =>
    match depth with
    | 0 => none
    | depth + 1 => (keepItems? depth items).map .array
  | .object members =>
    match depth with
    | 0 => none
    | depth + 1 => (keepMembers? depth members).map .object

/-- The items of an array as details keep them. -/
def keepItems? (depth : Nat) : List Json → Option (List Json)
  | [] => some []
  | v :: rest => do
    let v ← keep? depth v
    let rest ← keepItems? depth rest
    some (v :: rest)

/-- The members of an object as details keep them. -/
def keepMembers? (depth : Nat) : List (JsonText × Json) → Option (List (JsonText × Json))
  | [] => some []
  | (none, _) :: _ => none
  | (some key, v) :: rest => do
    let v ← keep? depth v
    let rest ← keepMembers? depth rest
    some (if rest.any (·.1 = some key) then rest else (some key, v) :: rest)

end

end Json

namespace ErrorReport

/-- How deep details may be nested: 128 levels less those of the report and of its error. -/
def detailsDepth : Nat :=
  125

/-- The details that a value gives: null gives none. -/
def readDetails? : Option Json → Option (Option Json)
  | none => some none
  | some .null => some none
  | some v => (v.keep? detailsDepth).map some

/-- The error inside a report; as an array it has all three fields. -/
def readError? (j : Json) : Option ErrorReport := do
  let fields ← j.fields? ["code", "message", "details"]
  match fields with
  | [code, message, details] =>
    let code ← Json.required? Json.asText? code
    let message ← Json.required? Json.asText? message
    match j, details with
    | .array _, none => none
    | _, _ => (readDetails? details).map fun d => ⟨code, message, d⟩
  | _ => none

/-- The report that a value is. -/
def ofJson? (j : Json) : Option ErrorReport := do
  let fields ← j.fields? ["error"]
  match fields with
  | [error] => Json.required? readError? error
  | _ => none

end ErrorReport

end ChannelWatch
