import ChannelWatch.Cache.Rest
import ChannelWatch.Text.Utf8

/-!
# Scripted sources

A script tells for every URL what an image source does when it is asked for it.
-/

namespace ChannelWatch

/-- How a scripted source breaks off: after how many bytes, and whether it crashes or fails there. -/
structure BreakOff where
  after : Nat
  crashes : Bool
  deriving DecidableEq

/-- What a scripted source does for a URL. Without a body of its own it delivers some bytes that name the URL. -/
structure SourceRule where
  body : Option (List UInt8)
  breakOff : Option BreakOff
  deriving DecidableEq

/-- The rules of a scripted source: those of some URLs, and the one for all others. -/
structure Script where
  own : List (String × SourceRule)
  other : SourceRule
  deriving DecidableEq

namespace SourceRule

/-- The rule of a source that delivers everything. -/
def standard : SourceRule :=
  ⟨none, none⟩

/-- What the source does for a URL with this rule. -/
def reply (r : SourceRule) (url : String) : Cache.Reply :=
  let body := r.body.getD (Utf8.ofString ("bytes of " ++ url))
  match r.breakOff with
  | none => ⟨body, .whole⟩
  | some ⟨after, true⟩ => ⟨body.take after, .crash⟩
  | some ⟨after, false⟩ => ⟨body.take after, .failure⟩

end SourceRule

namespace Script

/-- What the source does for a URL. -/
def reply (s : Script) (url : String) : Cache.Reply :=
  (((s.own.find? (·.1 = url)).map (·.2)).getD s.other).reply url

end Script

end ChannelWatch
