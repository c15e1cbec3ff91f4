import InterceptingProxy.Intake.Classify
import InterceptingProxy.Intake.Listener

set_option autoImplicit false

/-! # From the listener to the branches

`Mux` classifies the connections of a listener one after another and hands them to the branches
that are still served. It stops when the next connection arrives after both branches are gone, and
takes the listener with it. -/

namespace InterceptingProxy

/-- The classifier at work. -/
structure Mux where
  certificate : Option Coverage
  listener : Listener := {}
  plainOpen : Bool := true
  tlsOpen : Bool := true
  deriving DecidableEq, Repr

namespace Mux

/-- The branch is not served any more. -/
def branchClosed : IoError := ⟨.connectionAborted, "branch listener closed".toList⟩

/-- Whether a branch is served. -/
def isOpen (m : Mux) : Branch → Bool
  | .plain => m.plainOpen
  | .tls => m.tlsOpen

/-- Stops serving a branch. -/
def closeBranch (m : Mux) : Branch → Mux
  | .plain => { m with plainOpen := false }
  | .tls => { m with tlsOpen := false }

/-- Hands a classified connection to its branch, if that is served. -/
def deliver (m : Mux) : Classified → Classified
  | .served branch client =>
    if m.isOpen branch then .served branch client else .dropped branchClosed
  | other => other

/-- Accepts and classifies the next connection; none if there is none or the classifier stops. -/
def next (m : Mux) (o : Outbound) : Option Classified × Mux × Outbound :=
  match m.listener.accept with
  | none => (none, m, o)
  | some (client, listener) =>
    if !m.plainOpen && !m.tlsOpen then (none, { m with listener := listener.close }, o)
    else
      let (classified, o) := (classify m.certificate client).carryOut o
      (some (m.deliver classified), { m with listener }, o)

end Mux

end InterceptingProxy
