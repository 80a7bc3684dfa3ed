import ChannelWatch.Json.Value
import ChannelWatch.Report

/-!
# Answers over HTTP

A status, the headers that matter and a body. A HEAD request gets the headers of the answer without its body.
-/

namespace ChannelWatch.Api

/-- The body of an answer. -/
inductive Body
  | empty
  | json (j : Json)
  | text (s : String)
  | bytes (b : List UInt8)

/-- An answer; a header that is `none` is not set. -/
structure Response where
  status : Nat
  contentType : Option String
  cacheControl : Option String
  allow : Option String
  body : Body

namespace Response

/-- An answer in JSON. -/
def json (status : Nat) (j : Json) : Response :=
  ⟨status, some "application/json", none, none, .json j⟩

/-- The answer that reports a fault. -/
def fault (f : Fault) : Response :=
  json f.status (ErrorReport.ofFault f).toJson

/-- The answer that something was not found. -/
def notFound (what : String) : Response :=
  json 404 (ErrorReport.notFound what).toJson

/-- The answer for a path that leads nowhere. -/
def noRoute : Response :=
  ⟨404, none, none, none, .empty⟩

/-- The answer for a method that the path does not take. -/
def badMethod : Response :=
  ⟨405, none, none, some "GET,HEAD", .empty⟩

/-- The answer for a path whose bytes are no text. -/
def badPath (parameter : String) : Response :=
  ⟨400, some "text/plain; charset=utf-8", none, none,
    .text ("Invalid URL: Invalid UTF-8 in \x60" ++ parameter ++ "\x60")⟩

/-- The file of an image. -/
def image (mediaType : String) (content : List UInt8) : Response :=
  ⟨200, some mediaType, some "public, max-age=3600", none, .bytes content⟩

/-- The answer without its body. -/
def withoutBody (r : Response) : Response :=
  { r with body := .empty }

end Response

end ChannelWatch.Api
