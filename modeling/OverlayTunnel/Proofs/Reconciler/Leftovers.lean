import OverlayTunnel.Proofs.Reconciler.BringUp
import OverlayTunnel.Proofs.Table.Reachable

/-!
What a call that succeeds leaves of the routes and the addresses that an interface had before. Neither
is withdrawn, so an interface has the wanted ones alone only if it had no others.
-/
namespace OverlayTunnel

namespace LinkTable

/-- The routes through a link, none if it is not there. -/
def routes (t : LinkTable) (name : String) : List Network :=
  (t.links name).elim [] LinkState.routes

def addresses (t : LinkTable) (name : String) : List Network :=
  (t.links name).elim [] LinkState.addresses

end LinkTable

namespace Reconciler

open LinkTable

variable {r : Reconciler} {ms : List Member} {t t' : LinkTable}

/-- The link of the interface after a call, where a new one counts as empty. -/
theorem links_bringUp (h : (r.bringUp backend ms).run.run t = (.ok (), t')) :
    ∃ setup, t'.links r.interface =
      some (r.brought setup ms ((t.links r.interface).getD (.new (t.lastIndex + 1)))) := by
  obtain ⟨setup, -, hg⟩ := outcome_of_bringUp h
  refine ⟨setup, ?_⟩
  cases hl : t.links r.interface with
  | some l =>
    rw [outcome_of_some hl] at hg
    simp [(Prod.mk.inj hg).1]
  | none =>
    rw [outcome_of_none hl] at hg
    simp [(Prod.mk.inj hg).1]

theorem routes_bringUp (h : (r.bringUp backend ms).run.run t = (.ok (), t')) :
    t'.routes r.interface = appendNew (t.routes r.interface) (ms.map routeTo) := by
  obtain ⟨setup, hl⟩ := links_bringUp h
  unfold LinkTable.routes
  rw [hl]
  cases t.links r.interface <;> rfl

theorem addresses_bringUp (h : (r.bringUp backend ms).run.run t = (.ok (), t')) :
    t'.addresses r.interface =
      (t.addresses r.interface).filter (· ≠ r.ownNetwork) ++ [r.ownNetwork] := by
  obtain ⟨setup, hl⟩ := links_bringUp h
  unfold LinkTable.addresses
  rw [hl]
  cases t.links r.interface <;> rfl

/-- Where nothing fails, two calls in a row succeed. -/
theorem exists_bringUp_bringUp {r₁ r₂ : Reconciler} {ms₁ ms₂ : List Member}
    {setup₁ setup₂ : DeviceSetup} (hs₁ : r₁.setup ms₁ = .ok setup₁)
    (hs₂ : r₂.setup ms₂ = .ok setup₂) :
    ∃ t₁ t₂, (r₁.bringUp backend ms₁).run.run empty = (.ok (), t₁) ∧ t₁.Reachable ∧
      (r₂.bringUp backend ms₂).run.run t₁ = (.ok (), t₂) := by
  obtain ⟨t₁, h₁, hp₁, -⟩ := bringUp_eq_ok hs₁ (t := empty) (firstPending_eq_none fun _ _ => rfl)
  have hp : firstPending (linkSteps ++ routeSteps ms₂) t₁ = none :=
    firstPending_eq_none fun _ _ => by rw [hp₁]; rfl
  obtain ⟨t₂, h₂, -⟩ := bringUp_eq_ok hs₂ hp
  have ht₁ : empty.step (.call (.bringUp r₁ ms₁)) = t₁ := congrArg Prod.snd h₁
  exact ⟨t₁, t₂, h₁, ht₁ ▸ reachable_step reachable_empty _, h₂⟩

/-! ### Routes -/

/-- After a call there are the routes to the members and all that were there before. There are no others
than to the members exactly if there were none before. -/
theorem mem_routes_bringUp_iff (h : (r.bringUp backend ms).run.run t = (.ok (), t')) :
    (∀ n, n ∈ t'.routes r.interface ↔
      n ∈ t.routes r.interface ∨ ∃ m ∈ ms, n = .host m.overlayAddress) ∧
    ((∀ n, n ∈ t'.routes r.interface ↔ ∃ m ∈ ms, n = .host m.overlayAddress) ↔
      ∀ n ∈ t.routes r.interface, ∃ m ∈ ms, n = .host m.overlayAddress) := by
  have hmem : ∀ n, n ∈ t'.routes r.interface ↔
      n ∈ t.routes r.interface ∨ ∃ m ∈ ms, n = .host m.overlayAddress := by
    intro n
    rw [routes_bringUp h, mem_appendNew, List.mem_map]
    simp only [routeTo, eq_comm]
  refine ⟨hmem, ?_⟩
  constructor
  · intro hall n hn
    exact (hall n).mp ((hmem n).mpr (.inl hn))
  · intro hold n
    rw [hmem n]
    exact ⟨fun hn => hn.elim (hold n) id, .inr⟩

/-- Two calls, with one member each. -/
theorem mem_routes_bringUp_sample :
    let r := sampleNode 0x0A010203 sampleKey
    let ms := [0x0A010205].map sampleMember
    ∃ t t', (r.bringUp backend ([0x0A010204].map sampleMember)).run.run empty = (.ok (), t) ∧
      (r.bringUp backend ms).run.run t = (.ok (), t') ∧
      (∀ n, n ∈ t'.routes r.interface ↔
        n ∈ t.routes r.interface ∨ ∃ m ∈ ms, n = .host m.overlayAddress) ∧
      ((∀ n, n ∈ t'.routes r.interface ↔ ∃ m ∈ ms, n = .host m.overlayAddress) ↔
        ∀ n ∈ t.routes r.interface, ∃ m ∈ ms, n = .host m.overlayAddress) := by
  intro r ms
  obtain ⟨setup₁, hs₁⟩ := setup_sampleMembers r [0x0A010204]
  obtain ⟨setup₂, hs₂⟩ := setup_sampleMembers r [0x0A010205]
  obtain ⟨t, t', h₁, -, h₂⟩ := exists_bringUp_bringUp hs₁ hs₂
  exact ⟨t, t', h₁, h₂, mem_routes_bringUp_iff h₂⟩

/-- The route to a member that has left stays. -/
theorem not_mem_routes_bringUp_only_members :
    ¬ ∀ (c : Config) (name : String) (key : PrivateKey) (r : Reconciler) (ms : List Member)
      (t t' : LinkTable), create c name key = .ok r → t.Reachable →
      (r.bringUp backend ms).run.run t = (.ok (), t') →
      ∀ n, n ∈ t'.routes r.interface ↔ ∃ m ∈ ms, n = .host m.overlayAddress := by
  intro hall
  obtain ⟨setup₁, hs₁⟩ := setup_sampleMembers (sampleNode 0x0A010203 sampleKey) [0x0A010204]
  obtain ⟨setup₂, hs₂⟩ := setup_sampleMembers (sampleNode 0x0A010203 sampleKey) []
  obtain ⟨t, t', h₁, ht, h₂⟩ := exists_bringUp_bringUp hs₁ hs₂
  have hroute : .host (.v4 0x0A010204) ∈ t'.routes (sampleNode 0x0A010203 sampleKey).interface := by
    rw [routes_bringUp h₂, routes_bringUp h₁]
    exact mem_appendNew.mpr (.inl (mem_appendNew.mpr (.inr (by simp [routeTo, sampleMember]))))
  have hr := hall _ _ _ _ _ t t' (create_sampleNode sampleKey) ht h₂
  obtain ⟨m, hm, -⟩ := (hr _).mp hroute
  cases hm

/-! ### Addresses -/

/-- After a call the own address comes last, behind all others that were there before. It is the only one
exactly if there was no other. -/
theorem addresses_bringUp_iff (h : (r.bringUp backend ms).run.run t = (.ok (), t')) :
    t'.addresses r.interface =
        (t.addresses r.interface).filter (· ≠ .host r.identity.overlayAddress) ++
          [.host r.identity.overlayAddress] ∧
      (t'.addresses r.interface = [.host r.identity.overlayAddress] ↔
        ∀ a ∈ t.addresses r.interface, a = .host r.identity.overlayAddress) := by
  have heq := addresses_bringUp h
  refine ⟨heq, ?_⟩
  rw [heq]
  change _ ++ [r.ownNetwork] = [] ++ [r.ownNetwork] ↔ ∀ a ∈ _, a = r.ownNetwork
  rw [List.append_left_inj, List.filter_eq_nil_iff]
  simp

/-- A node that comes back with another address keeps the one that it had. -/
theorem addresses_bringUp_moved :
    let old := sampleNode 0x0A010209 sampleKey
    let r := sampleNode 0x0A010203 sampleKey
    create (sampleConfig "10.1.2.9") "a" sampleKey = .ok old ∧
      create (sampleConfig "10.1.2.3") "a" sampleKey = .ok r ∧
      ∃ t t', (old.bringUp backend []).run.run empty = (.ok (), t) ∧
        (r.bringUp backend []).run.run t = (.ok (), t') ∧
        t'.addresses r.interface =
          (t.addresses r.interface).filter (· ≠ .host r.identity.overlayAddress) ++
            [.host r.identity.overlayAddress] ∧
        (t'.addresses r.interface = [.host r.identity.overlayAddress] ↔
          ∀ a ∈ t.addresses r.interface, a = .host r.identity.overlayAddress) := by
  intro old r
  refine ⟨create_sampleNode_moved sampleKey, create_sampleNode sampleKey, ?_⟩
  obtain ⟨setup₁, hs₁⟩ := setup_sampleMembers old []
  obtain ⟨setup₂, hs₂⟩ := setup_sampleMembers r []
  obtain ⟨t, t', h₁, -, h₂⟩ := exists_bringUp_bringUp hs₁ hs₂
  exact ⟨t, t', h₁, h₂, addresses_bringUp_iff h₂⟩

theorem not_addresses_bringUp_only_own :
    ¬ ∀ (c : Config) (name : String) (key : PrivateKey) (r : Reconciler) (ms : List Member)
      (t t' : LinkTable), create c name key = .ok r → t.Reachable →
      (r.bringUp backend ms).run.run t = (.ok (), t') →
      t'.addresses r.interface = [.host r.identity.overlayAddress] := by
  intro hall
  obtain ⟨setup₁, hs₁⟩ := setup_sampleMembers (sampleNode 0x0A010209 sampleKey) []
  obtain ⟨setup₂, hs₂⟩ := setup_sampleMembers (sampleNode 0x0A010203 sampleKey) []
  obtain ⟨t, t', h₁, ht, h₂⟩ := exists_bringUp_bringUp hs₁ hs₂
  have hold : .host (.v4 0x0A010209) ∈ t.addresses (sampleNode 0x0A010203 sampleKey).interface := by
    have hlast : .host (.v4 0x0A010209) ∈
        t.addresses (sampleNode 0x0A010209 sampleKey).interface := by
      rw [addresses_bringUp h₁]
      exact List.mem_append_right _ (List.mem_singleton_self _)
    exact hlast
  have hkept : .host (.v4 0x0A010209) ∈ t'.addresses (sampleNode 0x0A010203 sampleKey).interface := by
    rw [addresses_bringUp h₂]
    refine List.mem_append_left _ (List.mem_filter.mpr ⟨hold, ?_⟩)
    decide
  rw [hall _ _ _ _ _ t t' (create_sampleNode sampleKey) ht h₂] at hkept
  exact absurd (List.mem_singleton.mp hkept) (by decide)

end Reconciler

end OverlayTunnel
