import Observatory.Daemon.Host
import Observatory.Daemon.Options
/-!
# Starting the focuser daemon
-/

namespace Observatory.Daemon

def banner (s : Settings) : List String :=
  [s!"🔭 {s.name} focuser simulator", String.ofList (List.replicate 32 '=')]

/-- Prepares to listen: what is printed before, and the settings with the address, or why the
daemon does not start. The settings file, if one is named, was read before. -/
def prepare (o : Options) (file : Option (Except String String)) :
    List String × Except StartError (Settings × String) :=
  match o.settings file with
  | .error e => ([], .error e)
  | .ok s => (banner s, (s, ·) <$> listenAddress s)

def listening (address : String) : String := s!"✅ Listening on {address}"

def stopping : List String := ["", "🛑 Shutting down"]

end Observatory.Daemon
