import ChannelWatch.Settings.Basic

/-!
# Serving

A server binds its address and answers until it is asked to stop. Which addresses can be bound is up to the host.
-/

namespace ChannelWatch

/-- A host: what keeps an address from being bound, if anything does. -/
abbrev Host := SocketAddress → Option IoFault

/-- A host on which only the addresses of the host itself may be bound. -/
def Host.isolated : Host :=
  fun address => if address.isLoopback then none else some .permissionDenied

/-- A server that is asked to stop as soon as it has begun. -/
def serveAndStop (host : Host) (s : ServerSettings) : Except Fault Unit :=
  match host s.address with
  | some fault => .error (.io fault)
  | none => .ok ()

end ChannelWatch
