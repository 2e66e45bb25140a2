import OverlayTunnel.Proofs.Device.Applied

/-!
Two orders of merging peers into a device. Where one entry after another is merged, an entry that replaces
the networks of its key does so to those before it. Where all are added first and networks are replaced
afterwards, it does so to those after it as well.
-/
namespace OverlayTunnel

/-! ### Peers by their keys -/

def peerOf? (peers : List DevicePeer) (key : PublicKey) : Option DevicePeer :=
  peers.find? fun p => p.publicKey = key

/-- The networks of a key, of which there are none where the key is missing. -/
def allowedOf (peers : List DevicePeer) (key : PublicKey) : List Network :=
  (peerOf? peers key).elim [] DevicePeer.allowed

theorem publicKey_of_peerOf? {peers : List DevicePeer} {key : PublicKey} {p : DevicePeer}
    (h : peerOf? peers key = some p) : p.publicKey = key := by
  have h := List.find?_some h
  simpa using h

theorem isSome_peerOf? {peers : List DevicePeer} {key : PublicKey} :
    (peerOf? peers key).isSome = true ↔ key ∈ peers.map DevicePeer.publicKey := by
  simp [peerOf?]

theorem peerOf?_mergePeer (peers : List DevicePeer) (p : TunnelPeer) (key : PublicKey) :
    peerOf? (mergePeer peers p) key =
      if p.publicKey = key then some ((peerOf? peers key).elim (.ofTunnelPeer p) (·.update p))
      else peerOf? peers key :=
  find?_mergePeer peers p key

theorem peerOf?_putPeer (join : List Network → List Network → List Network)
    (peers : List DevicePeer) (p : DevicePeer) (key : PublicKey) :
    peerOf? (putPeer join peers p) key =
      if p.publicKey = key then
        some ((peerOf? peers key).elim p fun old => { p with allowed := join old.allowed p.allowed })
      else peerOf? peers key := by
  unfold peerOf?
  induction peers with
  | nil => by_cases hk : p.publicKey = key <;> simp [putPeer, hk]
  | cons old peers ih =>
    by_cases ho : old.publicKey = p.publicKey
    · by_cases hk : p.publicKey = key <;> simp [putPeer, ho, hk]
    · by_cases hk : old.publicKey = key
      · have hp : p.publicKey ≠ key := fun h => ho (hk.trans h.symm)
        simp only [putPeer, if_neg ho]
        simp [hk, hp]
      · simp only [putPeer, if_neg ho]
        simp [hk, ih]

theorem peerOf?_withAllowed (d : Device) (k key : PublicKey) (networks : List Network) :
    peerOf? (d.withAllowed k networks).peers key =
      (peerOf? d.peers key).map fun p => if k = key then { p with allowed := networks } else p := by
  have hkeep : (fun p : DevicePeer => decide
      ((if p.publicKey = k then { p with allowed := networks } else p).publicKey = key)) =
        fun p => decide (p.publicKey = key) := by
    funext p
    split <;> rfl
  unfold peerOf? Device.withAllowed
  rw [List.find?_map, Function.comp_def, hkeep]
  cases h : d.peers.find? fun p => p.publicKey = key with
  | none => rfl
  | some p =>
    have hp : p.publicKey = key := publicKey_of_peerOf? h
    by_cases hk : k = key
    · simp [hp, hk]
    · have hne : ¬ key = k := fun e => hk e.symm
      simp [hp, hk, hne]

/-! ### One entry after another -/

/-- No entry of a key replaces its networks. -/
def NoneResets (key : PublicKey) (ps : List TunnelPeer) : Prop :=
  ∀ p ∈ ps, p.publicKey = key → p.replacesAllowed = false

/-- The last entry of a key that replaces its networks, and all entries after it. -/
structure LastReset (key : PublicKey) (ps : List TunnelPeer) (p : TunnelPeer)
    (later : List TunnelPeer) : Prop where
  split : ∃ before, ps = before ++ p :: later
  publicKey : p.publicKey = key
  resets : p.replacesAllowed = true
  last : NoneResets key later

theorem noneResets_or_exists_lastReset (key : PublicKey) (ps : List TunnelPeer) :
    NoneResets key ps ∨ ∃ p later, LastReset key ps p later := by
  induction ps with
  | nil => exact .inl nofun
  | cons p ps ih =>
    -- The last entry is wanted, so the first one counts only if there is none behind it.
    rcases ih with hnone | ⟨q, later, h⟩
    · by_cases hp : p.publicKey = key ∧ p.replacesAllowed = true
      · exact .inr ⟨p, ps, ⟨[], rfl⟩, hp.1, hp.2, hnone⟩
      · left
        intro q hq hk
        rcases List.mem_cons.mp hq with rfl | hq
        · exact Bool.eq_false_iff.mpr fun hr => hp ⟨hk, hr⟩
        · exact hnone q hq hk
    · obtain ⟨before, hsplit⟩ := h.split
      exact .inr ⟨q, later, ⟨p :: before, by rw [hsplit]; rfl⟩, h.publicKey, h.resets, h.last⟩

/-- The networks that entries give to a key. -/
def IsGranted (key : PublicKey) (ps : List TunnelPeer) (n : Network) : Prop :=
  ∃ p ∈ ps, p.publicKey = key ∧ n ∈ p.allowed

theorem isGranted_cons {key : PublicKey} {p : TunnelPeer} {ps : List TunnelPeer} {n : Network} :
    IsGranted key (p :: ps) n ↔ (p.publicKey = key ∧ n ∈ p.allowed) ∨ IsGranted key ps n := by
  simp [IsGranted]

theorem mem_allowedOf_mergePeer {peers : List DevicePeer} {p : TunnelPeer} {key : PublicKey}
    {n : Network} :
    n ∈ allowedOf (mergePeer peers p) key ↔
      (p.publicKey = key ∧ n ∈ p.allowed) ∨
        (n ∈ allowedOf peers key ∧ (p.publicKey = key → p.replacesAllowed = false)) := by
  unfold allowedOf
  rw [peerOf?_mergePeer]
  by_cases hk : p.publicKey = key
  · cases peerOf? peers key with
    | none => simp [hk, DevicePeer.ofTunnelPeer]
    | some old =>
      by_cases hr : p.replacesAllowed = true
      · simp [hk, hr, DevicePeer.update, mem_addAllowed]
      · simp [hk, hr, DevicePeer.update, mem_addAllowed, or_comm]
  · simp [hk]

theorem mem_allowedOf_putPeer {peers : List DevicePeer} {p : TunnelPeer} {key : PublicKey}
    {n : Network} :
    n ∈ allowedOf (putPeer DevicePeer.addAllowed peers (.ofTunnelPeer p)) key ↔
      (p.publicKey = key ∧ n ∈ p.allowed) ∨ n ∈ allowedOf peers key := by
  unfold allowedOf
  rw [peerOf?_putPeer]
  by_cases hk : p.publicKey = key
  · cases peerOf? peers key with
    | none => simp [hk, DevicePeer.ofTunnelPeer]
    | some old => simp [hk, DevicePeer.ofTunnelPeer, mem_addAllowed, or_comm]
  · simp [hk, DevicePeer.ofTunnelPeer]

/-- Without replacing, a key has the networks that it had and all that it is given. -/
theorem mem_allowedOf_of_noneResets {key : PublicKey} {ps : List TunnelPeer}
    (h : NoneResets key ps) {peers : List DevicePeer} {n : Network} :
    n ∈ allowedOf (ps.foldl mergePeer peers) key ↔ n ∈ allowedOf peers key ∨ IsGranted key ps n := by
  induction ps generalizing peers with
  | nil => simp [IsGranted]
  | cons p ps ih =>
    have hp : p.publicKey = key → p.replacesAllowed = false := h p List.mem_cons_self
    rw [List.foldl_cons, ih fun q hq => h q (List.mem_cons_of_mem p hq), mem_allowedOf_mergePeer,
      isGranted_cons, and_iff_left hp, or_assoc, or_left_comm]

/-- What a key had and was given before the last entry that replaces its networks does not count. -/
theorem LastReset.mem_allowedOf {key : PublicKey} {ps later : List TunnelPeer} {p : TunnelPeer}
    (h : LastReset key ps p later) {peers : List DevicePeer} {n : Network} :
    n ∈ allowedOf (ps.foldl mergePeer peers) key ↔ n ∈ p.allowed ∨ IsGranted key later n := by
  obtain ⟨before, rfl⟩ := h.split
  rw [List.foldl_append, List.foldl_cons, mem_allowedOf_of_noneResets h.last, mem_allowedOf_mergePeer]
  simp [h.publicKey, h.resets]

/-! ### Additions first -/

/-- The device after all peers of a configuration have been added to it. -/
def DeviceSetup.added (setup : DeviceSetup) (name : String) (old : Option Device) : Device :=
  SetupText.Contents.added ⟨setup.privateKey, setup.listenPort, setup.peers.map .ofTunnelPeer⟩ name old

/-- The device after the networks of those peers that replace them have been set, too. -/
def DeviceSetup.addedThenReset (setup : DeviceSetup) (name : String) (old : Option Device) : Device :=
  (setup.peers.filter (·.replacesAllowed)).foldl (fun d p => d.withAllowed p.publicKey p.allowed)
    (setup.added name old)

theorem mem_allowedOf_foldl_putPeer {peers : List DevicePeer} {ps : List TunnelPeer} {key : PublicKey}
    {n : Network} :
    n ∈ allowedOf ((ps.map .ofTunnelPeer).foldl (putPeer DevicePeer.addAllowed) peers) key ↔
      n ∈ allowedOf peers key ∨ IsGranted key ps n := by
  induction ps generalizing peers with
  | nil => simp [IsGranted]
  | cons p ps ih =>
    rw [List.map_cons, List.foldl_cons, ih, mem_allowedOf_putPeer, isGranted_cons, or_assoc, or_left_comm]

theorem isSome_peerOf?_foldl_putPeer {join : List Network → List Network → List Network}
    {peers ps : List DevicePeer} {key : PublicKey} :
    (peerOf? (ps.foldl (putPeer join) peers) key).isSome = true ↔
      (peerOf? peers key).isSome = true ∨ key ∈ ps.map DevicePeer.publicKey := by
  induction ps generalizing peers with
  | nil => simp
  | cons p ps ih =>
    rw [List.foldl_cons, ih, peerOf?_putPeer, List.map_cons, List.mem_cons]
    by_cases hk : p.publicKey = key
    · simp [hk]
    · simp [hk, Ne.symm hk]

theorem isSome_peerOf?_withAllowed {d : Device} {k key : PublicKey} {networks : List Network} :
    (peerOf? (d.withAllowed k networks).peers key).isSome = (peerOf? d.peers key).isSome := by
  rw [peerOf?_withAllowed, Option.isSome_map]

section Resets

variable {d : Device} {key : PublicKey} {ps : List TunnelPeer}

theorem allowedOf_withAllowed {k : PublicKey} {networks : List Network} (hk : k ≠ key) :
    allowedOf (d.withAllowed k networks).peers key = allowedOf d.peers key := by
  unfold allowedOf
  rw [peerOf?_withAllowed]
  simp [hk]

theorem allowedOf_withAllowed_self {networks : List Network}
    (h : (peerOf? d.peers key).isSome = true) :
    allowedOf (d.withAllowed key networks).peers key = networks := by
  obtain ⟨p, hp⟩ := Option.isSome_iff_exists.mp h
  unfold allowedOf
  rw [peerOf?_withAllowed, hp]
  simp

theorem isSome_peerOf?_resets :
    (peerOf? (ps.foldl (fun d p => d.withAllowed p.publicKey p.allowed) d).peers key).isSome =
      (peerOf? d.peers key).isSome := by
  induction ps generalizing d with
  | nil => rfl
  | cons p ps ih => rw [List.foldl_cons, ih, isSome_peerOf?_withAllowed]

theorem allowedOf_resets_of_noneResets (h : NoneResets key ps) :
    allowedOf ((ps.filter (·.replacesAllowed)).foldl
      (fun d p => d.withAllowed p.publicKey p.allowed) d).peers key = allowedOf d.peers key := by
  induction ps generalizing d with
  | nil => rfl
  | cons p ps ih =>
    have ih' := fun d => ih (d := d) fun q hq => h q (List.mem_cons_of_mem p hq)
    by_cases hr : p.replacesAllowed = true
    · have hk : p.publicKey ≠ key := by
        intro hk
        rw [h p List.mem_cons_self hk] at hr
        exact Bool.false_ne_true hr
      rw [List.filter_cons_of_pos hr, List.foldl_cons, ih', allowedOf_withAllowed hk]
    · rw [List.filter_cons_of_neg hr, ih']

/-- The last entry that replaces the networks of its key decides, whatever comes after it. -/
theorem LastReset.allowedOf_resets {later : List TunnelPeer} {p : TunnelPeer}
    (h : LastReset key ps p later) (hd : (peerOf? d.peers key).isSome = true) :
    allowedOf ((ps.filter (·.replacesAllowed)).foldl
      (fun d p => d.withAllowed p.publicKey p.allowed) d).peers key = p.allowed := by
  obtain ⟨before, rfl⟩ := h.split
  rw [List.filter_append, List.filter_cons_of_pos h.resets, List.foldl_append, List.foldl_cons,
    allowedOf_resets_of_noneResets h.last, h.publicKey]
  exact allowedOf_withAllowed_self (by rw [isSome_peerOf?_resets]; exact hd)

end Resets

/-! ### Both orders -/

/-- All networks that entries give to a key after the last one that replaces them are in that one too. -/
def AddsNothingAfterReset (key : PublicKey) (ps : List TunnelPeer) : Prop :=
  ∀ p later, LastReset key ps p later → ∀ n, IsGranted key later n → n ∈ p.allowed

theorem endpoint_mergePeer {peers : List DevicePeer} {p : TunnelPeer} {key : PublicKey} :
    (peerOf? (mergePeer peers p) key).map DevicePeer.endpoint =
      if p.publicKey = key then some (some p.endpoint)
      else (peerOf? peers key).map DevicePeer.endpoint := by
  rw [peerOf?_mergePeer]
  split
  · cases peerOf? peers key <;> rfl
  · rfl

theorem endpoint_putPeer {join : List Network → List Network → List Network}
    {peers : List DevicePeer} {p : DevicePeer} {key : PublicKey} :
    (peerOf? (putPeer join peers p) key).map DevicePeer.endpoint =
      if p.publicKey = key then some p.endpoint
      else (peerOf? peers key).map DevicePeer.endpoint := by
  rw [peerOf?_putPeer]
  split
  · cases peerOf? peers key <;> rfl
  · rfl

theorem endpoint_resets {d : Device} {ps : List TunnelPeer} {key : PublicKey} :
    (peerOf? (ps.foldl (fun d p => d.withAllowed p.publicKey p.allowed) d).peers key).map
      DevicePeer.endpoint = (peerOf? d.peers key).map DevicePeer.endpoint := by
  induction ps generalizing d with
  | nil => rfl
  | cons p ps ih =>
    rw [List.foldl_cons, ih, peerOf?_withAllowed, Option.map_map]
    congr 1
    funext q
    dsimp only [Function.comp]
    split <;> rfl

theorem endpoint_foldl_putPeer {join : List Network → List Network → List Network}
    {peers peers' : List DevicePeer} {ps : List TunnelPeer} {key : PublicKey}
    (h : (peerOf? peers key).map DevicePeer.endpoint = (peerOf? peers' key).map DevicePeer.endpoint) :
    (peerOf? ((ps.map .ofTunnelPeer).foldl (putPeer join) peers) key).map DevicePeer.endpoint =
      (peerOf? (ps.foldl mergePeer peers') key).map DevicePeer.endpoint := by
  induction ps generalizing peers peers' with
  | nil => exact h
  | cons p ps ih =>
    rw [List.map_cons, List.foldl_cons, List.foldl_cons]
    apply ih
    rw [endpoint_putPeer, endpoint_mergePeer, h]
    rfl

variable {setup : DeviceSetup}

theorem peers_configured_of_keeps (hr : setup.replacesPeers = false) (name : String)
    (old : Option Device) :
    (Device.configured name old setup).peers =
      setup.peers.foldl mergePeer (old.elim [] Device.peers) := by
  simp [Device.configured, hr]

/-- With both orders a key has the same endpoint. -/
theorem endpoint_addedThenReset (hr : setup.replacesPeers = false) (name : String)
    (old : Option Device) (key : PublicKey) :
    (peerOf? (setup.addedThenReset name old).peers key).map DevicePeer.endpoint =
      (peerOf? (Device.configured name old setup).peers key).map DevicePeer.endpoint := by
  rw [peers_configured_of_keeps hr, DeviceSetup.addedThenReset, endpoint_resets]
  exact endpoint_foldl_putPeer rfl

theorem allowedOf_addedThenReset {key : PublicKey} {p : TunnelPeer} {later : List TunnelPeer}
    (h : LastReset key setup.peers p later) (name : String) (old : Option Device) :
    allowedOf (setup.addedThenReset name old).peers key = p.allowed := by
  apply h.allowedOf_resets
  apply isSome_peerOf?_foldl_putPeer.mpr
  obtain ⟨before, hsplit⟩ := h.split
  right
  simp [hsplit, DevicePeer.ofTunnelPeer, h.publicKey]

/-- Networks that are replaced after everything has been added are among those of the other order. -/
theorem allowedOf_addedThenReset_subset (hr : setup.replacesPeers = false) (name : String)
    (old : Option Device) (key : PublicKey) :
    allowedOf (setup.addedThenReset name old).peers key ⊆
      allowedOf (Device.configured name old setup).peers key := by
  intro n hn
  rw [peers_configured_of_keeps hr]
  rcases noneResets_or_exists_lastReset key setup.peers with hnone | ⟨p, later, h⟩
  · rw [DeviceSetup.addedThenReset, allowedOf_resets_of_noneResets hnone] at hn
    exact (mem_allowedOf_of_noneResets hnone).mpr (mem_allowedOf_foldl_putPeer.mp hn)
  · rw [allowedOf_addedThenReset h] at hn
    exact h.mem_allowedOf.mpr (.inl hn)

/-- With both orders a key has the same networks exactly if nothing is added to them after they have been
replaced for the last time. -/
theorem subset_allowedOf_addedThenReset_iff (hr : setup.replacesPeers = false) (name : String)
    (old : Option Device) (key : PublicKey) :
    allowedOf (Device.configured name old setup).peers key ⊆
      allowedOf (setup.addedThenReset name old).peers key ↔
        AddsNothingAfterReset key setup.peers := by
  rw [peers_configured_of_keeps hr]
  constructor
  · intro hsubset p later h n hn
    rw [← allowedOf_addedThenReset h name old]
    exact hsubset (h.mem_allowedOf.mpr (.inr hn))
  · intro hadds n hn
    rcases noneResets_or_exists_lastReset key setup.peers with hnone | ⟨p, later, h⟩
    · rw [DeviceSetup.addedThenReset, allowedOf_resets_of_noneResets hnone]
      exact mem_allowedOf_foldl_putPeer.mpr ((mem_allowedOf_of_noneResets hnone).mp hn)
    · rw [allowedOf_addedThenReset h]
      exact (h.mem_allowedOf.mp hn).elim id (hadds p later h n)

end OverlayTunnel
