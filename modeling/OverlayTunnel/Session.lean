import OverlayTunnel.Reconciler

/-!
Calls of reconcilers and requests of their own that share one backend.
-/
namespace OverlayTunnel

inductive Call where
  | bringUp (r : Reconciler) (members : List Member)
  | takeDown (r : Reconciler)
  | status (r : Reconciler)
  | request (q : LinkRequest)
  deriving DecidableEq

inductive Answer where
  | done
  | status (device : Option Device)
  | device (device : Device)
  | link (link : LinkHandle)
  | failed (f : Failure)
  | linkFailed (f : LinkFailure)
  deriving DecidableEq

namespace Answer

def ofResult {α : Type} (f : α → Answer) : Except Failure α → Answer
  | .ok a => f a
  | .error e => .failed e

def ofReply : (q : LinkRequest) → q.Reply → Answer
  | .device _, d => .device d
  | .linkByName _, l => .link l
  | .createWireguard _, _ | .configureDevice _ _, _ | .replaceAddress _ _, _ | .setMtu _ _, _
  | .setUp _, _ | .addRoute _ _, _ | .deleteLink _, _ => .done

end Answer

namespace Call

variable {σ : Type}

def target : Call → String
  | .bringUp r _ => r.interface
  | .takeDown r => r.interface
  | .status r => r.interface
  | .request q => q.target

def run (b : Backend σ) : Call → StateM σ Answer
  | .bringUp r members => return .ofResult (fun _ => .done) (← (r.bringUp b members).run)
  | .takeDown r => return .ofResult (fun _ => .done) (← (r.takeDown b).run)
  | .status r => return .ofResult .status (← (r.status b).run)
  | .request q => do
    match ← (b.perform q).run with
    | .ok reply => return .ofReply q reply
    | .error e => return .linkFailed e

def runAll (b : Backend σ) (calls : List Call) : StateM σ (List Answer) :=
  calls.mapM (run b)

end Call

end OverlayTunnel
