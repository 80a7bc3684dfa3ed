/-!
# Faults of URLs

Why a text is no URL. The first fault met from left to right is the one reported.
-/

namespace ChannelWatch

/-- Why a text is no URL. -/
inductive UrlFault
  | relativeWithoutBase
  | emptyHost
  | badDomainName
  | badPort
  | badIpv4
  | badIpv6
  | badDomainCharacter
  deriving DecidableEq

/-- The fault in words. -/
def UrlFault.message : UrlFault → String
  | relativeWithoutBase => "relative URL without a base"
  | emptyHost => "empty host"
  | badDomainName => "invalid international domain name"
  | badPort => "invalid port number"
  | badIpv4 => "invalid IPv4 address"
  | badIpv6 => "invalid IPv6 address"
  | badDomainCharacter => "invalid domain character"

end ChannelWatch
