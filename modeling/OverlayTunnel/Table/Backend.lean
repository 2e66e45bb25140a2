import OverlayTunnel.Device.Merge
import OverlayTunnel.Table.Basic

/-!
The link table as a backend. A request is recorded first, then fails if it is to, and changes the table
only if it succeeds.
-/
namespace OverlayTunnel.LinkTable

def recorded (t : LinkTable) (operation : LinkOperation) : LinkTable :=
  { t with calls := t.calls ++ [operation] }

/-- The table after a pending failure has been used up. -/
def relieved (t : LinkTable) (operation : LinkOperation) : LinkTable :=
  { t with pending := fun o => o ≠ operation && t.pending o }

/-- Records a request and lets it fail if a failure is pending, which that uses up. -/
def enter (operation : LinkOperation) : LinkM LinkTable Unit := ExceptT.mk fun t =>
  if t.pending operation then
    (.error (.injected operation.name), (t.recorded operation).relieved operation)
  else
    (.ok (), t.recorded operation)

def find (name : String) : LinkM LinkTable LinkState := do
  match (← get).links name with
  | some link => return link
  | none => throw (.notFound ("Cannot find device \"" ++ name ++ "\""))

/-- The link that a handle was given out for, as long as it is there. -/
def resolve (handle : LinkHandle) : LinkM LinkTable LinkState := do
  let link ← find handle.name
  if link.index = handle.index then return link
  else
    throw (.notFound ("link index " ++ Numeral.decimal handle.index.toNat ++ " for " ++ handle.name ++
      " is gone"))

def store (name : String) (link : Option LinkState) : LinkM LinkTable Unit :=
  modify fun t => { t with links := t.links.set name link }

def create (name : String) : LinkM LinkTable Unit := do
  if ((← get).links name).isSome then throw (.alreadyExists ("link " ++ name))
  modify fun t => { t with lastIndex := t.lastIndex + 1 }
  store name (some (.new (← get).lastIndex))

/-- Routes go through an up link only. -/
def route (handle : LinkHandle) (destination : Network) : LinkM LinkTable Unit := do
  let link ← resolve handle
  if link.up = false then
    throw (.command "route" ("add " ++ destination.text ++ " dev " ++ handle.name) "Network is down")
  if destination ∈ link.routes then throw (.alreadyExists ("route " ++ destination.text))
  store handle.name (some { link with routes := link.routes ++ [destination] })

def answer : (request : LinkRequest) → LinkM LinkTable request.Reply
  | .createWireguard name => create name
  | .device name => do
    let link ← find name
    return link.device.getD (.unconfigured name)
  | .configureDevice name setup => do
    let link ← find name
    store name (some { link with device := some (.configured name link.device setup) })
  | .linkByName name => do
    let link ← find name
    return ⟨name, link.index⟩
  | .replaceAddress handle address => do
    let link ← resolve handle
    store handle.name
      (some { link with addresses := link.addresses.filter (· ≠ address) ++ [address] })
  | .setMtu handle mtu => do
    let link ← resolve handle
    store handle.name (some { link with mtu })
  | .setUp handle => do
    let link ← resolve handle
    store handle.name (some { link with up := true })
  | .addRoute handle destination => route handle destination
  | .deleteLink handle => do
    let _ ← resolve handle
    store handle.name none

def backend : Backend LinkTable where
  perform request := do
    enter request.operation
    answer request

/-! ### Single steps -/

theorem run_enter (operation : LinkOperation) (t : LinkTable) :
    (enter operation).run.run t =
      if t.pending operation then
        (.error (.injected operation.name), (t.recorded operation).relieved operation)
      else (.ok (), t.recorded operation) :=
  rfl

theorem run_find (name : String) (t : LinkTable) :
    (find name).run.run t =
      match t.links name with
      | some link => (.ok link, t)
      | none => (.error (.notFound ("Cannot find device \"" ++ name ++ "\"")), t) := by
  change StateT.run (ExceptT.run (match t.links name with | some _ => _ | none => _)) t = _
  split <;> rfl

/-- A request whose failure is pending does not reach the links. -/
theorem run_perform_of_pending {request : LinkRequest} {t : LinkTable}
    (h : t.pending request.operation = true) :
    (backend.perform request).run.run t =
      (.error (.injected request.operation.name),
        (t.recorded request.operation).relieved request.operation) := by
  rw [backend, LinkM.run_bind, run_enter, if_pos h]

theorem run_perform {request : LinkRequest} {t : LinkTable}
    (h : t.pending request.operation = false) :
    (backend.perform request).run.run t =
      (answer request).run.run (t.recorded request.operation) := by
  rw [backend, LinkM.run_bind, run_enter, if_neg (by simp [h])]

end OverlayTunnel.LinkTable
