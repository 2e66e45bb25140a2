import OverlayTunnel.Proofs.Table.Creation

/-!
How long a handle is good for. It reaches the link that was looked up and no other: once that link is
deleted, every link that the name gets later has a greater index, and a request with the handle is
refused.
-/
namespace OverlayTunnel

/-- The handle that a request works with. -/
def LinkRequest.handle? : LinkRequest → Option LinkHandle
  | .replaceAddress link _ => some link
  | .setMtu link _ => some link
  | .setUp link => some link
  | .addRoute link _ => some link
  | .deleteLink link => some link
  | _ => none

theorem LinkRequest.target_of_handle {q : LinkRequest} {handle : LinkHandle}
    (hq : q.handle? = some handle) : q.target = handle.name := by
  cases q <;> cases hq <;> rfl

/-- What is said of a handle that is no longer good is the reply to every request with it. -/
theorem LinkRequest.effect_of_held_error {q : LinkRequest} {handle : LinkHandle} {fresh : UInt32}
    {link : Option LinkState} {e : LinkFailure} (hq : q.handle? = some handle)
    (hheld : LinkState.held handle link = .error e) : q.effect fresh link = .error e := by
  cases q <;> cases hq <;> simp only [effect, hheld] <;> rfl

/-- A request on the link that its handle was given out for does not say that the link is gone. -/
theorem LinkRequest.effect_ne_notFound {q : LinkRequest} {handle : LinkHandle} {fresh : UInt32}
    {l : LinkState} (hq : q.handle? = some handle) (hindex : l.index = handle.index)
    (what : String) : q.effect fresh (some l) ≠ .error (.notFound what) := by
  have hheld : LinkState.held handle (some l) = .ok l := if_pos hindex
  cases q with
  | addRoute link destination =>
    cases hq
    simp only [effect, hheld, Except.bind, LinkState.routed]
    intro h
    split at h
    · cases h
    · split at h <;> cases h
  | replaceAddress | setMtu | setUp | deleteLink =>
    cases hq
    simp only [effect, hheld]
    intro h
    cases h
  | _ => cases hq

theorem LinkRequest.effect_of_delete {q : LinkRequest} {fresh : UInt32}
    {link link' : Option LinkState} {reply : q.Reply} (hq : q.operation = .deleteLink)
    (h : q.effect fresh link = .ok (reply, link')) : link' = none := by
  cases q with
  | deleteLink handle =>
    obtain ⟨l, -, he⟩ := map_eq_ok h
    exact (congrArg Prod.snd he).symm
  | _ => cases hq

/-- Whether an exchange takes the link of a name away. -/
def Exchange.deletes (name : String) (e : Exchange) : Bool :=
  e.request.operation = .deleteLink && e.request.target = name && e.reply.isOk

theorem Exchange.deletes_error (name : String) (q : LinkRequest) (e : LinkFailure) :
    (Exchange.mk q (.error e)).deletes name = false := by
  simp [deletes, Except.isOk, Except.toBool]

theorem Exchange.deletes_ok (name : String) (q : LinkRequest) (reply : q.Reply) :
    (Exchange.mk q (.ok reply)).deletes name =
      (decide (q.operation = .deleteLink) && decide (q.target = name)) := by
  simp [deletes, Except.isOk, Except.toBool]

namespace LinkTable

/-! ### Runs -/

/-- What a table can come to from `t` on: requests of any kind, with the replies that they get, and
between them failures that are injected and calls that are forgotten. -/
inductive Run (t : LinkTable) : List Exchange → LinkTable → Prop
  | start : Run t [] t
  | request {log : List Exchange} {u : LinkTable} (before : Run t log u) (q : LinkRequest) :
    Run t (log ++ [⟨q, ((backend.perform q).run.run u).1⟩]) ((backend.perform q).run.run u).2
  | failNext {log : List Exchange} {u : LinkTable} (before : Run t log u)
    (operation : LinkOperation) : Run t log (u.failNext operation)
  | clearCalls {log : List Exchange} {u : LinkTable} (before : Run t log u) :
    Run t log u.clearCalls

variable {t u v : LinkTable} {log later : List Exchange}

theorem Run.perform {q : LinkRequest} {reply : Except LinkFailure q.Reply} (h : Run t log u)
    (hrun : (backend.perform q).run.run u = (reply, v)) : Run t (log ++ [⟨q, reply⟩]) v := by
  have hnext := h.request q
  rwa [hrun] at hnext

/-- Calls of reconcilers are runs as well, as are all histories. -/
theorem run_foldl_loggedStep (events : List Event) {s : LinkTable × List Exchange}
    (h : Run t s.2 s.1) :
    Run t (events.foldl loggedStep s).2 (events.foldl loggedStep s).1 := by
  have hrequest : backend.logging.Keeps fun s => Run t s.2 s.1 := fun q _ hs => hs.request q
  induction events generalizing s with
  | nil => exact h
  | cons event events ih =>
    apply ih
    cases event with
    | call c => exact c.keeps_run hrequest s h
    | failNext operation => exact h.failNext operation
    | clearCalls => exact h.clearCalls

theorem run_after (events : List Event) : Run empty (exchanges events) (after events) := by
  have hrun := run_foldl_loggedStep events (s := (empty, [])) .start
  rwa [foldl_loggedStep_empty] at hrun

theorem Run.countedBy (h : Run t later u) (hlog : CountedBy (t, log)) :
    CountedBy (u, log ++ later) := by
  induction h with
  | start => rwa [List.append_nil]
  | request _ q ih =>
    rw [← List.append_assoc]
    exact keeps_countedBy q _ ih
  | failNext _ operation ih => exact fun hn => (ih hn).of_old rfl fun _ l hl => ⟨l, hl, rfl⟩
  | clearCalls _ ih => exact fun hn => (ih hn).of_old rfl fun _ l hl => ⟨l, hl, rfl⟩

/-! ### Handles -/

/-- The link that a handle was given out for is there. -/
def Reaches (handle : LinkHandle) (t : LinkTable) : Prop :=
  ∃ l, t.links handle.name = some l ∧ l.index = handle.index

/-- Only links that came later can have the name of a handle. -/
def Outlives (handle : LinkHandle) (t : LinkTable) : Prop :=
  handle.index.toNat ≤ t.lastIndex.toNat ∧
    ∀ l, t.links handle.name = some l → handle.index.toNat < l.index.toNat

variable {handle : LinkHandle} {q : LinkRequest} {n : Nat}

/-- A request that succeeds does so by its effect on the link that is there. -/
theorem effect_of_perform {reply : q.Reply}
    (hrun : (backend.perform q).run.run t = (.ok reply, u)) :
    ∃ link, q.effect (t.lastIndex + 1) (t.links q.target) = .ok (reply, link) ∧
      u.links = t.links.set q.target link := by
  cases outcome_of_perform hrun with
  | granted _ he => exact ⟨_, he, rfl⟩

/-- A request that leaves a link behind has not deleted it. -/
theorem operation_ne_of_changed {reply : q.Reply} {l : LinkState}
    (hrun : (backend.perform q).run.run t = (.ok reply, u)) (hl : u.links q.target = some l) :
    q.operation ≠ .deleteLink := by
  intro hdelete
  obtain ⟨link, heffect, hlinks⟩ := effect_of_perform hrun
  rw [hlinks, Links.set_self] at hl
  rw [LinkRequest.effect_of_delete hdelete heffect] at hl
  cases hl

theorem reaches_of_lookup {name : String}
    (hrun : (backend.perform (.linkByName name)).run.run t = (.ok handle, u)) :
    handle.name = name ∧ Reaches handle u := by
  obtain ⟨link, heffect, hlinks⟩ := effect_of_perform hrun
  obtain ⟨l, hl, heq⟩ := map_eq_ok heffect
  obtain ⟨rfl, rfl⟩ := Prod.mk.inj heq
  refine ⟨rfl, l, ?_, rfl⟩
  rw [hlinks, LinkRequest.target, Links.set_self]
  exact LinkState.named_eq_ok hl

/-- A link stays as it is numbered until a request deletes it. -/
theorem kept_unless_deleted {reply : Except LinkFailure q.Reply}
    (hrun : (backend.perform q).run.run t = (reply, u)) {name : String} {l : LinkState}
    (hl : t.links name = some l) :
    if (Exchange.mk q reply).deletes name then u.links name = none
    else ∃ l', u.links name = some l' ∧ l'.index = l.index := by
  cases transition_of_perform hrun with
  | refused links _ =>
    rw [Exchange.deletes_error, if_neg (by simp)]
    exact ⟨l, by rw [links, hl], rfl⟩
  | read reads links _ =>
    have hother := (LinkRequest.operation_ne_of_reads reads).2
    rw [Exchange.deletes_ok, if_neg (by simp [hother])]
    exact ⟨l, by rw [links, hl], rfl⟩
  | created operation absent links _ =>
    have hother : name ≠ q.target := by
      rintro rfl
      rw [absent] at hl
      cases hl
    rw [Exchange.deletes_ok, if_neg (by simp [operation])]
    exact ⟨l, by rw [links, Links.set_other _ _ hother, hl], rfl⟩
  | changed operation writes present change links _ =>
    have hother := operation_ne_of_changed hrun (by rw [links, Links.set_self])
    rw [Exchange.deletes_ok, if_neg (by simp [hother])]
    by_cases htarget : name = q.target
    · subst htarget
      rw [present] at hl
      cases hl
      exact ⟨_, by rw [links, Links.set_self], change.index_eq⟩
    · exact ⟨l, by rw [links, Links.set_other _ _ htarget, hl], rfl⟩
  | deleted operation present links _ =>
    rw [Exchange.deletes_ok]
    by_cases htarget : name = q.target
    · rw [if_pos (by simp [operation, htarget]), links, htarget, Links.set_self]
    · rw [if_neg (by simp [Ne.symm htarget])]
      exact ⟨l, by rw [links, Links.set_other _ _ htarget, hl], rfl⟩

/-- A link has the index that it had before, or it is new and has the next one. -/
theorem old_or_created {reply : Except LinkFailure q.Reply}
    (hrun : (backend.perform q).run.run t = (reply, u)) {name : String} {l' : LinkState}
    (hl' : u.links name = some l') :
    (∃ l, t.links name = some l ∧ l'.index = l.index) ∨
      ((Exchange.mk q reply).creates = true ∧ l'.index = u.lastIndex) := by
  cases transition_of_perform hrun with
  | refused links _ => exact .inl ⟨l', by rw [← links, hl'], rfl⟩
  | read _ links _ => exact .inl ⟨l', by rw [← links, hl'], rfl⟩
  | created operation absent links lastIndex =>
    by_cases htarget : name = q.target
    · rw [links, htarget, Links.set_self] at hl'
      cases hl'
      rw [Exchange.creates_ok]
      exact .inr ⟨by simpa using operation, lastIndex.symm⟩
    · exact .inl ⟨l', by rwa [links, Links.set_other _ _ htarget] at hl', rfl⟩
  | changed operation writes present change links _ =>
    by_cases htarget : name = q.target
    · rw [links, htarget, Links.set_self] at hl'
      cases hl'
      exact .inl ⟨_, by rw [htarget, present], change.index_eq⟩
    · exact .inl ⟨l', by rwa [links, Links.set_other _ _ htarget] at hl', rfl⟩
  | deleted _ _ links _ =>
    by_cases htarget : name = q.target
    · rw [links, htarget, Links.set_self] at hl'
      cases hl'
    · exact .inl ⟨l', by rwa [links, Links.set_other _ _ htarget] at hl', rfl⟩

theorem Reaches.perform {reply : Except LinkFailure q.Reply} (h : Reaches handle t)
    (ht : Numbered t n) (hu : Numbered u (n + if (Exchange.mk q reply).creates then 1 else 0))
    (hrun : (backend.perform q).run.run t = (reply, u)) :
    if (Exchange.mk q reply).deletes handle.name then Outlives handle u else Reaches handle u := by
  obtain ⟨l, hl, hindex⟩ := h
  have hkept := kept_unless_deleted hrun hl
  split
  next hdeletes =>
    rw [if_pos hdeletes] at hkept
    have hbounds := ht.bounds handle.name l hl
    have hlast := hu.lastIndex
    constructor
    · rw [← hindex]
      omega
    · intro l' hl'
      rw [hkept] at hl'
      cases hl'
  next hdeletes =>
    rw [if_neg hdeletes] at hkept
    obtain ⟨l', hl', hsame⟩ := hkept
    exact ⟨l', hl', by rw [hsame, hindex]⟩

theorem Outlives.perform {reply : Except LinkFailure q.Reply} (h : Outlives handle t)
    (ht : Numbered t n) (hu : Numbered u (n + if (Exchange.mk q reply).creates then 1 else 0))
    (hrun : (backend.perform q).run.run t = (reply, u)) : Outlives handle u := by
  obtain ⟨hused, hlater⟩ := h
  have hbefore := ht.lastIndex
  have hafter := hu.lastIndex
  refine ⟨by omega, ?_⟩
  intro l' hl'
  rcases old_or_created hrun hl' with ⟨l, hl, hsame⟩ | ⟨hcreates, hnew⟩
  · rw [hsame]
    exact hlater l hl
  · rw [if_pos hcreates] at hafter
    rw [hnew]
    omega

/-- A run: the link of a handle stays until an exchange deletes it, and nothing brings it back. -/
theorem Reaches.run (h : Reaches handle t) (ht : CountedBy (t, log)) (hrun : Run t later u)
    (hn : (log ++ later).countP Exchange.creates < 2 ^ (32 : Nat)) :
    if later.any (Exchange.deletes handle.name) then Outlives handle u else Reaches handle u := by
  induction hrun with
  | start => exact h
  | @request later u before q ih =>
    have hcount : (log ++ (later ++ [Exchange.mk q ((backend.perform q).run.run u).1])).countP
        Exchange.creates = (log ++ later).countP Exchange.creates +
          if (Exchange.mk q ((backend.perform q).run.run u).1).creates then 1 else 0 := by
      rw [← List.append_assoc, List.countP_append, List.countP_singleton]
    rw [hcount] at hn
    have hbefore : (log ++ later).countP Exchange.creates < 2 ^ (32 : Nat) := by omega
    have hu : Numbered u _ := before.countedBy ht hbefore
    have hv := hu.perform rfl hn
    have hu' := ih hbefore
    rw [List.any_append, List.any_cons, List.any_nil, Bool.or_false]
    cases hany : later.any (Exchange.deletes handle.name) with
    | true =>
      rw [hany, if_pos rfl] at hu'
      rw [Bool.true_or, if_pos rfl]
      exact hu'.perform hu hv rfl
    | false =>
      rw [hany, if_neg (by simp)] at hu'
      rw [Bool.false_or]
      exact hu'.perform hu hv rfl
  | failNext _ _ ih => exact ih hn
  | clearCalls _ ih => exact ih hn

/-! ### Requests with a handle -/

/-- A reply that says that the link of a handle is gone, or that the request was made to fail. -/
def Rejected (reply : Except LinkFailure q.Reply) : Prop :=
  (∃ what, reply = .error (.notFound what)) ∨ ∃ what, reply = .error (.injected what)

/-- A request has its effect on the link that its handle was given out for, and on no other. -/
def ActsOn (handle : LinkHandle) (u : LinkTable) (reply : Except LinkFailure q.Reply)
    (u' : LinkTable) : Prop :=
  ∃ l, u.links handle.name = some l ∧ l.index = handle.index ∧
    match q.effect (u.lastIndex + 1) (some l) with
    | .ok (a, link) => reply = .ok a ∧ u'.links = u.links.set handle.name link
    | .error e => reply = .error e ∧ u'.links = u.links

theorem Outlives.rejected {reply : Except LinkFailure q.Reply} (h : Outlives handle u)
    (hq : q.handle? = some handle) (hrun : (backend.perform q).run.run u = (reply, v)) :
    Rejected reply ∧ v.links = u.links := by
  have hheld : ∃ what, LinkState.held handle (u.links handle.name) = .error (.notFound what) := by
    cases hl : u.links handle.name with
    | none => exact ⟨_, rfl⟩
    | some l =>
      have hindex : l.index ≠ handle.index := by
        have hlater := h.2 l hl
        rintro heq
        rw [heq] at hlater
        exact Nat.lt_irrefl _ hlater
      exact ⟨_, if_neg hindex⟩
  obtain ⟨what, hheld⟩ := hheld
  have heffect : q.effect (u.lastIndex + 1) (u.links q.target) = .error (.notFound what) := by
    rw [LinkRequest.target_of_handle hq]
    exact LinkRequest.effect_of_held_error hq hheld
  cases outcome_of_perform hrun with
  | injected _ => exact ⟨.inr ⟨_, rfl⟩, rfl⟩
  | refused _ he =>
    rw [heffect] at he
    cases he
    exact ⟨.inl ⟨what, rfl⟩, rfl⟩
  | granted _ he =>
    rw [heffect] at he
    cases he

theorem Reaches.actsOn {reply : Except LinkFailure q.Reply} (h : Reaches handle u)
    (hq : q.handle? = some handle) (hrun : (backend.perform q).run.run u = (reply, v)) :
    (∃ what, reply = .error (.injected what)) ∨ ActsOn handle u reply v := by
  obtain ⟨l, hl, hindex⟩ := h
  have htarget := LinkRequest.target_of_handle hq
  cases outcome_of_perform hrun with
  | injected _ => exact .inl ⟨_, rfl⟩
  | refused _ he =>
    rw [htarget, hl] at he
    refine .inr ⟨l, hl, hindex, ?_⟩
    rw [he]
    exact ⟨rfl, rfl⟩
  | granted _ he =>
    rw [htarget, hl] at he
    refine .inr ⟨l, hl, hindex, ?_⟩
    rw [he]
    refine ⟨rfl, ?_⟩
    rw [← htarget]
    rfl

theorem ActsOn.ne_notFound {reply : Except LinkFailure q.Reply} (h : ActsOn handle u reply v)
    (hq : q.handle? = some handle) (what : String) : reply ≠ .error (.notFound what) := by
  obtain ⟨l, -, hindex, heffect⟩ := h
  have hne : q.effect (u.lastIndex + 1) (some l) ≠ .error (.notFound what) :=
    LinkRequest.effect_ne_notFound hq hindex what
  rintro rfl
  split at heffect
  next => cases heffect.1
  next e he =>
    cases heffect.1
    exact hne he

/-- A handle that was looked up reaches the link that it was given out for and no other. A request with
it that is not rejected finds that link, which was there all the time since the lookup, and acts on it.
Once that link has been deleted, every request with the handle is rejected and changes no link, however
many links the name has had since. -/
theorem handle_reaches_own_link_only {before between : List Exchange} {t t₁ u u' : LinkTable}
    {name : String} {reply : Except LinkFailure q.Reply} (hbefore : Run empty before t)
    (hlookup : (backend.perform (.linkByName name)).run.run t = (.ok handle, t₁))
    (hbetween : Run t₁ between u)
    (hfew : (before ++ ⟨.linkByName name, .ok handle⟩ :: between).countP Exchange.creates <
      2 ^ (32 : Nat))
    (hq : q.handle? = some handle) (hrun : (backend.perform q).run.run u = (reply, u')) :
    (¬ Rejected reply →
      (∀ earlier m, earlier <+: between → Run t₁ earlier m →
        (∀ e ∈ earlier, e.deletes handle.name = false) ∧ Reaches handle m) ∧
      ActsOn handle u reply u') ∧
    ((∃ e ∈ between, e.deletes handle.name = true) → Rejected reply ∧ u'.links = u.links) ∧
    ((∀ e ∈ between, e.deletes handle.name = false) → ∀ what, reply ≠ .error (.notFound what)) := by
  obtain ⟨-, hreaches⟩ := reaches_of_lookup hlookup
  have hempty : CountedBy (empty, []) := fun _ => ⟨rfl, nofun, nofun⟩
  have hcounted := (hbefore.perform hlookup).countedBy hempty
  rw [List.nil_append] at hcounted
  rw [List.append_cons] at hfew
  have hmoment : ∀ earlier m, earlier <+: between → Run t₁ earlier m →
      if earlier.any (Exchange.deletes handle.name) then Outlives handle m
      else Reaches handle m := by
    rintro earlier m ⟨later, rfl⟩ hm
    refine hreaches.run hcounted hm ?_
    rw [← List.append_assoc, List.countP_append] at hfew
    omega
  have hend := hmoment between u List.prefix_rfl hbetween
  have hdeleted : (∃ e ∈ between, e.deletes handle.name = true) →
      Rejected reply ∧ u'.links = u.links := by
    intro hany
    rw [if_pos (List.any_eq_true.mpr hany)] at hend
    exact hend.rejected hq hrun
  have hkept : (∀ e ∈ between, e.deletes handle.name = false) → Reaches handle u := by
    intro hall
    rwa [List.any_eq_false.mpr fun e he => by simp [hall e he], if_neg (by simp)] at hend
  refine ⟨?_, hdeleted, ?_⟩
  · intro hreply
    have hall : ∀ e ∈ between, e.deletes handle.name = false := by
      intro e he
      apply Bool.eq_false_iff.mpr
      intro hdeletes
      exact hreply (hdeleted ⟨e, he, hdeletes⟩).1
    constructor
    · intro earlier m hsplit hm
      have hearlier : ∀ e ∈ earlier, e.deletes handle.name = false :=
        fun e he => hall e (hsplit.subset he)
      have hstands := hmoment earlier m hsplit hm
      rw [List.any_eq_false.mpr fun e he => by simp [hearlier e he], if_neg (by simp)] at hstands
      exact ⟨hearlier, hstands⟩
    · rcases (hkept hall).actsOn hq hrun with hinjected | hacts
      · exact absurd (.inr hinjected) hreply
      · exact hacts
  · intro hall what
    rcases (hkept hall).actsOn hq hrun with ⟨_, rfl⟩ | hacts
    · nofun
    · exact hacts.ne_notFound hq what

/-- The link is deleted and the name is given to another one, which an old handle does not reach. -/
theorem handle_reaches_own_link_only_recreated :
    let handle : LinkHandle := ⟨"wg0", 1⟩
    let t := after [.call (.request (.createWireguard "wg0"))]
    let t₁ := t.step (.call (.request (.linkByName "wg0")))
    let s := [.call (.request (.setUp handle)), .call (.request (.deleteLink handle)),
      .call (.request (.createWireguard "wg0")), .failNext .deleteLink].foldl loggedStep (t₁, [])
    let q : LinkRequest := .addRoute handle (.host (.v4 0x0A010204))
    (backend.perform (.linkByName "wg0")).run.run t = (.ok handle, t₁) ∧
      (s.1.links "wg0").isSome ∧ Rejected ((backend.perform q).run.run s.1).1 ∧
      ((backend.perform q).run.run s.1).2.links = s.1.links := by
  intro handle t t₁ s q
  have hlookup : (backend.perform (.linkByName "wg0")).run.run t = (.ok handle, t₁) := rfl
  have hdeleted : ∃ e ∈ s.2, e.deletes "wg0" = true := by
    apply List.any_eq_true.mp
    decide
  have hpair : (backend.perform q).run.run s.1 =
      (((backend.perform q).run.run s.1).1, ((backend.perform q).run.run s.1).2) := rfl
  obtain ⟨-, hrejected, -⟩ := handle_reaches_own_link_only (run_after _) hlookup
    (run_foldl_loggedStep _ .start) (by decide) (rfl : q.handle? = some handle) hpair
  exact ⟨hlookup, by decide, hrejected hdeleted⟩

end LinkTable

end OverlayTunnel
