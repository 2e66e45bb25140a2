import OverlayTunnel.Proofs.Table.Reachable

/-!
All that a request may do to a table. It is refused or reads, and changes neither a link nor the last
index, or it creates, changes or deletes the link that it is about and leaves every other link alone.
-/
namespace OverlayTunnel

theorem LinkState.Change.index_eq {name : String} {l l' : LinkState} (h : Change name l l') :
    l'.index = l.index := by
  cases h <;> rfl

/-- Whether a request only asks for what is there. -/
def LinkRequest.reads : LinkRequest → Bool
  | .device _ => true
  | .linkByName _ => true
  | _ => false

theorem LinkRequest.operation_ne_of_reads {request : LinkRequest} (h : request.reads = true) :
    request.operation ≠ .createWireguard ∧ request.operation ≠ .deleteLink := by
  cases request with
  | device name => exact ⟨nofun, nofun⟩
  | linkByName name => exact ⟨nofun, nofun⟩
  | _ => cases h

theorem LinkRequest.effect_of_reads {request : LinkRequest} {fresh : UInt32}
    {link link' : Option LinkState} {reply : request.Reply} (hreads : request.reads = true)
    (h : request.effect fresh link = .ok (reply, link')) : link' = link := by
  cases request with
  | device name =>
    obtain ⟨l, -, he⟩ := map_eq_ok h
    exact (congrArg Prod.snd he).symm
  | linkByName name =>
    obtain ⟨l, -, he⟩ := map_eq_ok h
    exact (congrArg Prod.snd he).symm
  | _ => cases hreads

/-- Only a deletion leaves no link behind, and it needs one. -/
theorem LinkRequest.effect_eq_none {request : LinkRequest} {fresh : UInt32}
    {link : Option LinkState} {reply : request.Reply}
    (h : request.effect fresh link = .ok (reply, none)) :
    request.operation = .deleteLink ∧ ∃ l, link = some l := by
  cases request with
  | deleteLink handle =>
    obtain ⟨l, hl, -⟩ := map_eq_ok h
    exact ⟨rfl, l, (LinkState.held_eq_ok hl).1⟩
  | device name =>
    obtain rfl := LinkRequest.effect_of_reads rfl h
    cases h
  | linkByName name =>
    obtain rfl := LinkRequest.effect_of_reads rfl h
    cases h
  | _ =>
    obtain ⟨l, hl, he⟩ := map_eq_ok h
    cases he

/-- A link is created only where there is none. -/
theorem LinkRequest.operation_ne_of_effect {request : LinkRequest} {fresh : UInt32} {l : LinkState}
    {result : request.Reply × Option LinkState}
    (h : request.effect fresh (some l) = .ok result) : request.operation ≠ .createWireguard := by
  intro hcreate
  cases request with
  | createWireguard name => cases h
  | _ => cases hcreate

namespace LinkTable

/-- The table after a request, with the reply to it. -/
inductive Transition (q : LinkRequest) (t : LinkTable) :
    Except LinkFailure q.Reply → LinkTable → Prop
  | refused {e : LinkFailure} {t' : LinkTable} (links : t'.links = t.links)
    (lastIndex : t'.lastIndex = t.lastIndex) : Transition q t (.error e) t'
  | read {reply : q.Reply} {t' : LinkTable} (reads : q.reads = true) (links : t'.links = t.links)
    (lastIndex : t'.lastIndex = t.lastIndex) : Transition q t (.ok reply) t'
  | created {reply : q.Reply} {t' : LinkTable} (operation : q.operation = .createWireguard)
    (absent : t.links q.target = none)
    (links : t'.links = t.links.set q.target (some (.new (t.lastIndex + 1))))
    (lastIndex : t'.lastIndex = t.lastIndex + 1) : Transition q t (.ok reply) t'
  | changed {reply : q.Reply} {t' : LinkTable} {l l' : LinkState}
    (operation : q.operation ≠ .createWireguard) (writes : q.reads = false)
    (present : t.links q.target = some l) (change : LinkState.Change q.target l l')
    (links : t'.links = t.links.set q.target (some l')) (lastIndex : t'.lastIndex = t.lastIndex) :
    Transition q t (.ok reply) t'
  | deleted {reply : q.Reply} {t' : LinkTable} {l : LinkState}
    (operation : q.operation = .deleteLink) (present : t.links q.target = some l)
    (links : t'.links = t.links.set q.target none) (lastIndex : t'.lastIndex = t.lastIndex) :
    Transition q t (.ok reply) t'

theorem transition_of_perform {q : LinkRequest} {t t' : LinkTable} {reply : Except LinkFailure q.Reply}
    (h : (backend.perform q).run.run t = (reply, t')) : Transition q t reply t' := by
  cases outcome_of_perform h with
  | injected _ => exact .refused rfl rfl
  | refused _ _ => exact .refused rfl rfl
  | @granted reply link _ he =>
    have hlast : q.operation ≠ .createWireguard →
        ((t.recorded q.operation).updated q link).lastIndex = t.lastIndex := by
      intro hother
      simp [updated, recorded, hother]
    cases hreads : q.reads with
    | true =>
      obtain rfl := LinkRequest.effect_of_reads hreads he
      have hother := (LinkRequest.operation_ne_of_reads hreads).1
      exact .read hreads (Links.set_get _ _) (hlast hother)
    | false =>
      cases link with
      | none =>
        obtain ⟨hdelete, l, hl⟩ := LinkRequest.effect_eq_none he
        exact .deleted hdelete hl rfl (hlast (by rw [hdelete]; decide))
      | some l' =>
        rcases LinkRequest.effect_eq_ok he with ⟨habsent, hcreate, rfl⟩ | ⟨l, hl, hchange⟩
        · exact .created hcreate habsent rfl (by simp [updated, recorded, hcreate])
        · rw [hl] at he
          have hother := LinkRequest.operation_ne_of_effect he
          exact .changed hother hreads hl hchange rfl (hlast hother)

/-- A request leaves the links of other names alone. -/
theorem links_perform_of_ne (q : LinkRequest) (t : LinkTable) {other : String}
    (h : other ≠ q.target) : ((backend.perform q).run.run t).2.links other = t.links other := by
  cases hrun : (backend.perform q).run.run t with
  | mk reply t' =>
    cases transition_of_perform hrun with
    | refused links _ => rw [links]
    | read _ links _ => rw [links]
    | created _ _ links _ => rw [links, Links.set_other _ _ h]
    | changed _ _ _ _ links _ => rw [links, Links.set_other _ _ h]
    | deleted _ _ links _ => rw [links, Links.set_other _ _ h]

theorem links_perform_of_reads {q : LinkRequest} (hq : q.reads = true) (t : LinkTable) :
    ((backend.perform q).run.run t).2.links = t.links := by
  obtain ⟨hcreate, hdelete⟩ := LinkRequest.operation_ne_of_reads hq
  cases hrun : (backend.perform q).run.run t with
  | mk reply t' =>
    cases transition_of_perform hrun with
    | refused links _ => exact links
    | read _ links _ => exact links
    | created operation _ _ _ => exact absurd operation hcreate
    | changed _ writes _ _ _ _ =>
      rw [hq] at writes
      cases writes
    | deleted operation _ _ _ => exact absurd operation hdelete

end LinkTable

end OverlayTunnel
