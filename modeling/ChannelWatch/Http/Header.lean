/-!
# Header values

The value of a header is text without control characters; a tab counts as text.
-/

namespace ChannelWatch.Http

/-- The text may stand in a header. -/
def isHeaderValue (value : String) : Bool :=
  value.toList.all fun c => c = '\t' || (0x20 ≤ c.toNat && c.toNat ≠ 0x7F)

end ChannelWatch.Http
