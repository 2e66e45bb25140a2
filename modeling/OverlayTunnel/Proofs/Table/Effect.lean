import OverlayTunnel.Table.Backend

/-!
What each request does, as a function of the one link that it is about. A table answers a request by
this function, and keeps all its other links.
-/
namespace OverlayTunnel

namespace LinkState

def created (name : String) (fresh : UInt32) : Option LinkState → Except LinkFailure LinkState
  | some _ => .error (.alreadyExists ("link " ++ name))
  | none => .ok (.new fresh)

def named (name : String) : Option LinkState → Except LinkFailure LinkState
  | some link => .ok link
  | none => .error (.notFound ("Cannot find device \"" ++ name ++ "\""))

/-- The link of a handle, as long as it is the one that the handle was given out for. -/
def held (handle : LinkHandle) : Option LinkState → Except LinkFailure LinkState
  | some link =>
    if link.index = handle.index then .ok link
    else .error (.notFound ("link index " ++ Numeral.decimal handle.index.toNat ++ " for " ++
      handle.name ++ " is gone"))
  | none => .error (.notFound ("Cannot find device \"" ++ handle.name ++ "\""))

/-- A route through an up link that does not have it yet. -/
def routed (handle : LinkHandle) (destination : Network) (link : LinkState) :
    Except LinkFailure LinkState :=
  if link.up = false then
    .error (.command "route" ("add " ++ destination.text ++ " dev " ++ handle.name)
      "Network is down")
  else if destination ∈ link.routes then .error (.alreadyExists ("route " ++ destination.text))
  else .ok { link with routes := link.routes ++ [destination] }

def addressed (address : Network) (link : LinkState) : LinkState :=
  { link with addresses := link.addresses.filter (· ≠ address) ++ [address] }

theorem addressed_addressed (l : LinkState) (address : Network) :
    (l.addressed address).addressed address = l.addressed address := by
  simp [addressed]

end LinkState

/-- The reply to a request, and what becomes of the link that it is about. A link that is created gets
the index `fresh`. -/
def LinkRequest.effect (fresh : UInt32) (link : Option LinkState) :
    (request : LinkRequest) → Except LinkFailure (request.Reply × Option LinkState)
  | .createWireguard name => (LinkState.created name fresh link).map fun l => ((), some l)
  | .device name =>
    (LinkState.named name link).map fun l => (l.device.getD (.unconfigured name), link)
  | .configureDevice name setup =>
    (LinkState.named name link).map fun l =>
      ((), some { l with device := some (.configured name l.device setup) })
  | .linkByName name => (LinkState.named name link).map fun l => (⟨name, l.index⟩, link)
  | .replaceAddress handle address =>
    (LinkState.held handle link).map fun l => ((), some (l.addressed address))
  | .setMtu handle mtu => (LinkState.held handle link).map fun l => ((), some { l with mtu })
  | .setUp handle => (LinkState.held handle link).map fun l => ((), some { l with up := true })
  | .addRoute handle destination =>
    ((LinkState.held handle link).bind (LinkState.routed handle destination)).map fun l =>
      ((), some l)
  | .deleteLink handle => (LinkState.held handle link).map fun _ => ((), none)

@[simp] theorem Links.set_get (links : Links) (name : String) :
    links.set name (links name) = links := by
  funext other
  by_cases h : other = name
  · rw [h, set_self]
  · exact set_other links _ h

@[simp] theorem Links.set_set (links : Links) (name : String) (first second : Option LinkState) :
    (links.set name first).set name second = links.set name second := by
  funext other
  by_cases h : other = name
  · rw [h, set_self, set_self]
  · rw [set_other _ _ h, set_other _ _ h, set_other _ _ h]

namespace LinkTable

/-- The table after a request that left its link like this. Only a created link takes an index. -/
def updated (t : LinkTable) (request : LinkRequest) (link : Option LinkState) : LinkTable :=
  { t with
    links := t.links.set request.target link
    lastIndex := if request.operation = .createWireguard then t.lastIndex + 1 else t.lastIndex }

theorem updated_self {request : LinkRequest} (h : request.operation ≠ .createWireguard)
    (t : LinkTable) : t.updated request (t.links request.target) = t := by
  simp [updated, h]

/-! ### The table answers by the effect -/

theorem run_get_bind {α : Type} (f : LinkTable → LinkM LinkTable α) (t : LinkTable) :
    (get >>= f).run.run t = (f t).run.run t :=
  rfl

theorem run_find_bind {α : Type} (name : String) (f : LinkState → LinkM LinkTable α)
    (t : LinkTable) :
    (find name >>= f).run.run t =
      match LinkState.named name (t.links name) with
      | .ok link => (f link).run.run t
      | .error e => (.error e, t) := by
  rw [LinkM.run_bind, run_find]
  cases t.links name <;> rfl

theorem run_resolve_bind {α : Type} (handle : LinkHandle) (f : LinkState → LinkM LinkTable α)
    (t : LinkTable) :
    (resolve handle >>= f).run.run t =
      match LinkState.held handle (t.links handle.name) with
      | .ok link => (f link).run.run t
      | .error e => (.error e, t) := by
  have hr : (resolve handle).run.run t =
      (LinkState.held handle (t.links handle.name), t) := by
    unfold resolve
    rw [run_find_bind]
    cases t.links handle.name with
    | none => rfl
    | some link =>
      simp only [LinkState.named, LinkState.held]
      split <;> rfl
  rw [LinkM.run_bind, hr]
  cases LinkState.held handle (t.links handle.name) <;> rfl

theorem run_create (name : String) (t : LinkTable) :
    (create name).run.run t =
      match LinkState.created name (t.lastIndex + 1) (t.links name) with
      | .ok link => (.ok (), t.updated (.createWireguard name) (some link))
      | .error e => (.error e, t) := by
  unfold create
  rw [run_get_bind]
  cases t.links name <;> rfl

theorem run_route (handle : LinkHandle) (destination : Network) (t : LinkTable) :
    (route handle destination).run.run t =
      match (LinkState.held handle (t.links handle.name)).bind
        (LinkState.routed handle destination) with
      | .ok link => (.ok (), t.updated (.addRoute handle destination) (some link))
      | .error e => (.error e, t) := by
  unfold route
  rw [run_resolve_bind]
  cases LinkState.held handle (t.links handle.name) with
  | error e => rfl
  | ok link =>
    simp only [Except.bind, LinkState.routed]
    split
    · rfl
    · split <;> rfl

/-- A table answers a request by the effect on the link that it is about, and a request that fails
leaves the table as it was. -/
theorem run_answer (request : LinkRequest) (t : LinkTable) :
    (answer request).run.run t =
      match request.effect (t.lastIndex + 1) (t.links request.target) with
      | .ok (reply, link) => (.ok reply, t.updated request link)
      | .error e => (.error e, t) := by
  cases request with
  | createWireguard name =>
    simp only [answer, LinkRequest.effect, LinkRequest.target, run_create]
    cases LinkState.created name (t.lastIndex + 1) (t.links name) <;> rfl
  | device name =>
    simp only [answer, LinkRequest.effect, LinkRequest.target, run_find_bind]
    cases LinkState.named name (t.links name) with
    | error e => rfl
    | ok link => simp [Except.map, updated, LinkRequest.target, LinkRequest.operation]; rfl
  | configureDevice name setup =>
    simp only [answer, LinkRequest.effect, LinkRequest.target, run_find_bind]
    cases LinkState.named name (t.links name) <;> rfl
  | linkByName name =>
    simp only [answer, LinkRequest.effect, LinkRequest.target, run_find_bind]
    cases LinkState.named name (t.links name) with
    | error e => rfl
    | ok link => simp [Except.map, updated, LinkRequest.target, LinkRequest.operation]; rfl
  | replaceAddress handle address =>
    simp only [answer, LinkRequest.effect, LinkRequest.target, run_resolve_bind]
    cases LinkState.held handle (t.links handle.name) <;> rfl
  | setMtu handle mtu =>
    simp only [answer, LinkRequest.effect, LinkRequest.target, run_resolve_bind]
    cases LinkState.held handle (t.links handle.name) <;> rfl
  | setUp handle =>
    simp only [answer, LinkRequest.effect, LinkRequest.target, run_resolve_bind]
    cases LinkState.held handle (t.links handle.name) <;> rfl
  | addRoute handle destination =>
    simp only [answer, LinkRequest.effect, LinkRequest.target, run_route]
    cases (LinkState.held handle (t.links handle.name)).bind
      (LinkState.routed handle destination) <;> rfl
  | deleteLink handle =>
    simp only [answer, LinkRequest.effect, LinkRequest.target, run_resolve_bind]
    cases LinkState.held handle (t.links handle.name) <;> rfl

theorem run_perform_eq {request : LinkRequest} {t : LinkTable}
    (h : t.pending request.operation = false) :
    (backend.perform request).run.run t =
      match request.effect (t.lastIndex + 1) (t.links request.target) with
      | .ok (reply, link) => (.ok reply, (t.recorded request.operation).updated request link)
      | .error e => (.error e, t.recorded request.operation) := by
  rw [run_perform h, run_answer]
  rfl

theorem run_perform_of_granted {q : LinkRequest} {t : LinkTable} {reply : q.Reply}
    {link : Option LinkState} (h : t.pending q.operation = false)
    (he : q.effect (t.lastIndex + 1) (t.links q.target) = .ok (reply, link)) :
    (backend.perform q).run.run t =
      (.ok reply, (t.recorded q.operation).updated q link) := by
  rw [run_perform_eq h, he]

theorem run_perform_of_refused {q : LinkRequest} {t : LinkTable} {e : LinkFailure}
    (h : t.pending q.operation = false)
    (he : q.effect (t.lastIndex + 1) (t.links q.target) = .error e) :
    (backend.perform q).run.run t = (.error e, t.recorded q.operation) := by
  rw [run_perform_eq h, he]

/-- A link that is there is configured unless a failure is pending. -/
theorem run_configureDevice_of_some {t : LinkTable} {name : String} {l : LinkState}
    (hidle : t.pending .configureDevice = false) (hl : t.links name = some l) (setup : DeviceSetup) :
    (backend.perform (.configureDevice name setup)).run.run t =
      (.ok (), { t with
        links := t.links.set name (some { l with device := some (.configured name l.device setup) })
        calls := t.calls ++ [.configureDevice] }) := by
  have hrun : (backend.perform (.configureDevice name setup)).run.run t = _ := run_perform_eq hidle
  rw [LinkRequest.target, hl] at hrun
  exact hrun

theorem run_configureDevice_of_none {t : LinkTable} {name : String}
    (hidle : t.pending .configureDevice = false) (hl : t.links name = none) (setup : DeviceSetup) :
    (backend.perform (.configureDevice name setup)).run.run t =
      (.error (.notFound ("Cannot find device \"" ++ name ++ "\"")), t.recorded .configureDevice) := by
  have hrun : (backend.perform (.configureDevice name setup)).run.run t = _ := run_perform_eq hidle
  rw [LinkRequest.target, hl] at hrun
  exact hrun

/-- The three ways in which a request ends, with the table after it. -/
inductive Outcome (q : LinkRequest) (t : LinkTable) : Except LinkFailure q.Reply → LinkTable → Prop
  | injected (pending : t.pending q.operation = true) :
    Outcome q t (.error (.injected q.operation.name)) ((t.recorded q.operation).relieved q.operation)
  | refused {e : LinkFailure} (pending : t.pending q.operation = false)
    (effect : q.effect (t.lastIndex + 1) (t.links q.target) = .error e) :
    Outcome q t (.error e) (t.recorded q.operation)
  | granted {reply : q.Reply} {link : Option LinkState} (pending : t.pending q.operation = false)
    (effect : q.effect (t.lastIndex + 1) (t.links q.target) = .ok (reply, link)) :
    Outcome q t (.ok reply) ((t.recorded q.operation).updated q link)

theorem outcome_of_perform {q : LinkRequest} {t t' : LinkTable} {reply : Except LinkFailure q.Reply}
    (h : (backend.perform q).run.run t = (reply, t')) : Outcome q t reply t' := by
  cases hp : t.pending q.operation with
  | true =>
    rw [run_perform_of_pending hp] at h
    cases h
    exact .injected hp
  | false =>
    cases he : q.effect (t.lastIndex + 1) (t.links q.target) with
    | error e =>
      rw [run_perform_of_refused hp he] at h
      cases h
      exact .refused hp he
    | ok result =>
      rw [run_perform_of_granted hp he] at h
      cases h
      exact .granted hp he

end LinkTable

end OverlayTunnel
