import Observatory.Endpoint.Pass
import Observatory.Focuser
/-!
# The focuser daemon

An endpoint that owns a simulated focuser and serves every client that connects to it, until it
is told to stop.
-/

namespace Observatory.Daemon

variable {τ : Type}

/-- The endpoint of the daemon over streams `τ`; it has no listeners. -/
abbrev Host (τ : Type) := Endpoint τ Focuser Unit Unit

/-- The parts that the endpoint is built from. -/
def wiring (T : Transport τ) : Wiring τ Focuser Unit Unit :=
  ⟨T, Focuser.device, fun _ _ => .done ()⟩

/-- The endpoint before its first pass. -/
def host (s : Settings) : Host τ :=
  { settings := s, device := {}, values := ⟨Focuser.values.map Value.markDirty⟩, running := true }

/-- Tells every client that the daemon stops, and closes all connections. -/
def stop (T : Transport τ) (sec : Int64) (usec : UInt32) (h : Host τ) : Host τ :=
  (h.broadcastMessage sec usec .info "shutting down").shutdown (wiring T)

end Observatory.Daemon
