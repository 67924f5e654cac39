import Korith.Lib.Machine
import Korith.Lib.Python

/-!
# The log of a deployment

The thread of a deployment appends its messages to a deque of at most 500 and marks it done at the end.
`deploy_stream` takes the messages behind its cursor, moves the cursor by their number and leaves when the deployment
is done and nothing was there. The lock makes each access one step, so threads interleave between them. Sleeping is
left out, and the websocket stays connected.
-/

namespace Korith.DeployStream

variable {M : Type}

structure RuntimeState (M : Type) where
  logs : List M
  done : Bool

abbrev StateStore (M : Type) : Type := Nat → Option (RuntimeState M)

def maxLogs : Nat := 500

namespace StateStore

variable (states : StateStore M) (deploymentId : Nat)

def getOrCreate : RuntimeState M := (states deploymentId).getD ⟨[], false⟩

def append (message : M) : StateStore M :=
  let state := states.getOrCreate deploymentId
  Function.update states deploymentId (some { state with logs := dequeAppend maxLogs state.logs message })

def markDone : StateStore M :=
  let state := states.getOrCreate deploymentId
  Function.update states deploymentId (some { state with done := true })

def snapshot (startIdx : Int) : (List M × Bool) × StateStore M :=
  let state := states.getOrCreate deploymentId
  let startIdx := if startIdx < 0 then 0 else startIdx
  ((state.logs.drop startIdx.toNat, state.done), Function.update states deploymentId (some state))

end StateStore

/-- The states, with a stream of one deployment. -/
structure System (M : Type) where
  states : StateStore M
  cursor : Nat
  closed : Bool

def initial : System M := ⟨fun _ => none, 0, false⟩

def poll (deploymentId : Nat) (s : System M) : List M × System M :=
  if s.closed then ([], s)
  else
    let ((messages, done), states) := s.states.snapshot deploymentId s.cursor
    (messages, ⟨states, s.cursor + messages.length, done && messages.isEmpty⟩)

inductive Event (M : Type)
  | append (deploymentId : Nat) (message : M)
  | markDone (deploymentId : Nat)
  | poll
  deriving DecidableEq

def step (deploymentId : Nat) (s : System M) : Event M → List M × System M
  | .append id message => ([], { s with states := s.states.append id message })
  | .markDone id => ([], { s with states := s.states.markDone id })
  | .poll => poll deploymentId s

end Korith.DeployStream
