import Observatory.Connection.Table
/-!
# The environment of a helper process

Describes every peer to a child process: its status word, and the copies of its values. Central
servers are numbered; other peers go by their names.
-/

namespace Observatory.Helper

variable {τ : Type}

/-- Whether a connection is described to a child: it leads to a peer and is not closed. -/
def isDescribed (c : Connection τ) : Bool := !c.isClosed && c.kind != .helper

def describe (label : String) (c : Connection τ) : List (String × String) :=
  (label ++ "_state", String.ofList (Number.natText c.status.bits.toNat)) ::
    c.replicas.map fun (name, r) =>
      (label ++ "_" ++ String.ofList (Text.envName name.toList), r.value.display)

/-- The variables of several peers, with the number of central servers seen before them. -/
def describeAll : Nat → List (Connection τ) → List (String × String)
  | _, [] => []
  | seen, c :: rest =>
    if c.kind = .central then
      describe s!"centrald{seen + 1}" c ++ describeAll (seen + 1) rest
    else describe c.name c ++ describeAll seen rest

/-- The variables that describe every peer, in the order of the connections. -/
def environment (t : Connections τ) : List (String × String) :=
  describeAll 0 (t.items.filter isDescribed)

end Observatory.Helper
