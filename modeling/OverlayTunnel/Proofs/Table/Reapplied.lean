import OverlayTunnel.Proofs.Table.Configured

/-!
A configuration that is applied twice. The second time it finds the peers that it made the first time, and
these keep their networks, except that a list of networks is taken as it is for a new peer and without its
repeats for one that is there.
-/
namespace OverlayTunnel

variable {peers : List DevicePeer} {ps before later : List TunnelPeer} {p : TunnelPeer}
  {key : PublicKey}

/-! ### Peers by their keys -/

theorem map_peerOf? (h : (peers.map DevicePeer.publicKey).Nodup) :
    (peers.map DevicePeer.publicKey).map (peerOf? peers) = peers.map some := by
  rw [List.map_map]
  apply List.map_congr_left
  intro q hq
  exact (mem_iff_peerOf? h).mp hq

/-- Peers are determined by the order of their keys and by what each key has. -/
theorem eq_of_peerOf? {peers' : List DevicePeer} (h : (peers.map DevicePeer.publicKey).Nodup)
    (hkeys : peers'.map DevicePeer.publicKey = peers.map DevicePeer.publicKey)
    (heach : ∀ key, peerOf? peers' key = peerOf? peers key) : peers' = peers := by
  have hsame : peerOf? peers' = peerOf? peers := funext heach
  have h' : (peers'.map DevicePeer.publicKey).Nodup := by rwa [hkeys]
  have hsome : peers'.map some = peers.map some := by
    rw [← map_peerOf? h', hkeys, hsame, map_peerOf? h]
  exact (List.map_inj_right fun _ _ => Option.some.inj).mp hsome

theorem peerOf?_eq_of_fields {peers' : List DevicePeer}
    (hendpoint : (peerOf? peers' key).map DevicePeer.endpoint =
      (peerOf? peers key).map DevicePeer.endpoint)
    (hallowed : allowedOf peers' key = allowedOf peers key) :
    peerOf? peers' key = peerOf? peers key := by
  unfold allowedOf at hallowed
  cases hold : peerOf? peers key with
  | none =>
    rw [hold] at hendpoint
    exact Option.map_eq_none_iff.mp hendpoint
  | some q =>
    rw [hold] at hendpoint hallowed
    obtain ⟨q', hq', hfields⟩ := Option.map_eq_some_iff.mp hendpoint
    rw [hq'] at hallowed ⊢
    have hkey : q'.publicKey = q.publicKey :=
      (publicKey_of_peerOf? hq').trans (publicKey_of_peerOf? hold).symm
    obtain ⟨_, _, _⟩ := q
    obtain ⟨_, _, _⟩ := q'
    cases hkey
    cases hfields
    cases hallowed
    rfl

/-! ### The networks of a key, in order -/

/-- All networks that entries list for a key, one entry after another. -/
def listedFor (key : PublicKey) (ps : List TunnelPeer) : List Network :=
  (ps.filter fun p => p.publicKey = key).flatMap TunnelPeer.allowed

theorem mem_listedFor {n : Network} : n ∈ listedFor key ps ↔ IsGranted key ps n := by
  simp [listedFor, IsGranted, and_assoc]

theorem isSome_peerOf?_mergePeer (hp : p.publicKey = key) :
    (peerOf? (mergePeer peers p) key).isSome = true := by
  rw [peerOf?_mergePeer, if_pos hp]
  rfl

/-- The networks of an entry that replaces them are taken as they are for a new key only. -/
theorem allowedOf_mergePeer_of_resets (hp : p.publicKey = key) (hr : p.replacesAllowed = true) :
    allowedOf (mergePeer peers p) key =
      if (peerOf? peers key).isSome then p.allowed.eraseDups else p.allowed := by
  rw [allowedOf, peerOf?_mergePeer, if_pos hp]
  cases peerOf? peers key with
  | none => rfl
  | some old =>
    have hupdate : (old.update p).allowed = p.allowed.eraseDups := by
      rw [DevicePeer.update, hr, DevicePeer.addAllowed_eq_appendNew]
      exact appendNew_nil_left p.allowed
    simpa using hupdate

theorem allowedOf_mergePeer_of_keeps (hp : p.publicKey = key) (hr : p.replacesAllowed = false)
    (hold : (peerOf? peers key).isSome = true) :
    allowedOf (mergePeer peers p) key = appendNew (allowedOf peers key) p.allowed := by
  obtain ⟨old, hold⟩ := Option.isSome_iff_exists.mp hold
  rw [allowedOf, peerOf?_mergePeer, if_pos hp, allowedOf, hold]
  simp [DevicePeer.update, hr, DevicePeer.addAllowed_eq_appendNew]

/-- Without replacing, the networks that a key is given come after those that it has. -/
theorem allowedOf_foldl_of_noneResets (h : NoneResets key ps)
    (hold : (peerOf? peers key).isSome = true) :
    allowedOf (ps.foldl mergePeer peers) key = appendNew (allowedOf peers key) (listedFor key ps) := by
  induction ps generalizing peers with
  | nil => rfl
  | cons p ps ih =>
    have hps : NoneResets key ps := fun q hq => h q (List.mem_cons_of_mem p hq)
    by_cases hp : p.publicKey = key
    · have hlisted : listedFor key (p :: ps) = p.allowed ++ listedFor key ps := by
        simp [listedFor, hp]
      rw [List.foldl_cons, ih hps (isSome_peerOf?_mergePeer hp), hlisted, appendNew_append,
        allowedOf_mergePeer_of_keeps hp (h p List.mem_cons_self hp) hold]
    · have hlisted : listedFor key (p :: ps) = listedFor key ps := by simp [listedFor, hp]
      have hsame : peerOf? (mergePeer peers p) key = peerOf? peers key := by
        rw [peerOf?_mergePeer, if_neg hp]
      rw [List.foldl_cons, ih hps (by rwa [hsame]), hlisted, allowedOf, hsame, allowedOf]

/-- Of all that is there before the last entry that replaces the networks of a key, it only matters whether
there is anything. -/
theorem allowedOf_foldl_of_lastReset (hp : p.publicKey = key) (hr : p.replacesAllowed = true)
    (hlast : NoneResets key later) :
    allowedOf ((before ++ p :: later).foldl mergePeer peers) key =
      appendNew
        (if (peerOf? (before.foldl mergePeer peers) key).isSome then p.allowed.eraseDups else p.allowed)
        (listedFor key later) := by
  rw [List.foldl_append, List.foldl_cons,
    allowedOf_foldl_of_noneResets hlast (isSome_peerOf?_mergePeer hp),
    allowedOf_mergePeer_of_resets hp hr]

/-! ### The same entries again -/

theorem isSome_peerOf?_foldl_mergePeer :
    (peerOf? (ps.foldl mergePeer peers) key).isSome = true ↔
      key ∈ peers.map DevicePeer.publicKey ∨ key ∈ ps.map TunnelPeer.publicKey := by
  rw [isSome_peerOf?, publicKeys_foldl_mergePeer, mem_appendNew]

theorem isSome_peerOf?_of_listed (hkey : key ∈ ps.map TunnelPeer.publicKey) (peers : List DevicePeer) :
    (peerOf? (ps.foldl mergePeer peers) key).isSome = true :=
  isSome_peerOf?_foldl_mergePeer.mpr (.inr hkey)

theorem isSome_peerOf?_of_present (h : (peerOf? peers key).isSome = true) (ps : List TunnelPeer) :
    (peerOf? (ps.foldl mergePeer peers) key).isSome = true :=
  isSome_peerOf?_foldl_mergePeer.mpr (.inl (isSome_peerOf?.mp h))

theorem publicKeys_foldl_mergePeer_twice (peers : List DevicePeer) (ps : List TunnelPeer) :
    (ps.foldl mergePeer (ps.foldl mergePeer peers)).map DevicePeer.publicKey =
      (ps.foldl mergePeer peers).map DevicePeer.publicKey := by
  rw [publicKeys_foldl_mergePeer]
  apply appendNew_of_subset
  intro key hkey
  exact isSome_peerOf?.mp (isSome_peerOf?_of_listed hkey peers)

theorem endpoint_foldl_mergePeer_twice (peers : List DevicePeer) (ps : List TunnelPeer)
    (key : PublicKey) :
    (peerOf? (ps.foldl mergePeer (ps.foldl mergePeer peers)) key).map DevicePeer.endpoint =
      (peerOf? (ps.foldl mergePeer peers) key).map DevicePeer.endpoint := by
  by_cases hkey : key ∈ ps.map TunnelPeer.publicKey
  · obtain ⟨p, hp⟩ := exists_lastEntry hkey
    rw [hp.endpoint, hp.endpoint]
  · rw [peerOf?_foldl_mergePeer_of_not_mem hkey]

/-- An entry that brings in a new key and is the last one to replace its networks, and that lists a network
twice. -/
structure BringsRepeats (peers : List DevicePeer) (ps : List TunnelPeer) (p : TunnelPeer)
    (later : List TunnelPeer) : Prop where
  first : ∃ before, ps = before ++ p :: later ∧ p.publicKey ∉ before.map TunnelPeer.publicKey
  new : p.publicKey ∉ peers.map DevicePeer.publicKey
  resets : p.replacesAllowed = true
  last : NoneResets p.publicKey later
  repeats : ¬ p.allowed.Nodup

theorem allowedOf_foldl_mergePeer_twice (h : ∀ p later, ¬ BringsRepeats peers ps p later)
    (key : PublicKey) :
    allowedOf (ps.foldl mergePeer (ps.foldl mergePeer peers)) key =
      allowedOf (ps.foldl mergePeer peers) key := by
  by_cases hkey : key ∈ ps.map TunnelPeer.publicKey
  · rcases noneResets_or_exists_lastReset key ps with hnone | ⟨p, later, hlast⟩
    · rw [allowedOf_foldl_of_noneResets hnone (isSome_peerOf?_of_listed hkey peers)]
      apply appendNew_of_subset
      intro n hn
      exact (mem_allowedOf_of_noneResets hnone).mpr (.inr (mem_listedFor.mp hn))
    · obtain ⟨before, rfl⟩ := hlast.split
      have hagain := isSome_peerOf?_of_present (isSome_peerOf?_of_listed hkey peers) before
      rw [allowedOf_foldl_of_lastReset hlast.publicKey hlast.resets hlast.last, if_pos hagain,
        allowedOf_foldl_of_lastReset hlast.publicKey hlast.resets hlast.last]
      split
      next => rfl
      next hnew =>
        rw [isSome_peerOf?_foldl_mergePeer, not_or] at hnew
        rw [appendNew_eraseDups_eq_iff]
        apply Classical.byContradiction
        intro hrepeats
        obtain rfl := hlast.publicKey
        exact h p later ⟨⟨before, rfl, hnew.2⟩, hnew.1, hlast.resets, hlast.last, hrepeats⟩
  · rw [allowedOf, peerOf?_foldl_mergePeer_of_not_mem hkey, allowedOf]

/-- A new peer has the repeats of its list, and loses them when the list is merged again. -/
theorem BringsRepeats.allowedOf_ne (h : BringsRepeats peers ps p later) :
    allowedOf (ps.foldl mergePeer (ps.foldl mergePeer peers)) p.publicKey ≠
      allowedOf (ps.foldl mergePeer peers) p.publicKey := by
  obtain ⟨before, rfl, hbefore⟩ := h.first
  have hnew : ¬ (peerOf? (before.foldl mergePeer peers) p.publicKey).isSome = true := by
    rw [isSome_peerOf?_foldl_mergePeer, not_or]
    exact ⟨h.new, hbefore⟩
  have hlisted : p.publicKey ∈ (before ++ p :: later).map TunnelPeer.publicKey := by simp
  have hagain := isSome_peerOf?_of_present (isSome_peerOf?_of_listed hlisted peers) before
  rw [allowedOf_foldl_of_lastReset rfl h.resets h.last, if_pos hagain,
    allowedOf_foldl_of_lastReset rfl h.resets h.last, if_neg hnew, Ne, appendNew_eraseDups_eq_iff]
  exact h.repeats

/-- Merging the same entries again changes nothing, unless one of them brings in repeats. -/
theorem foldl_mergePeer_twice_iff (hpeers : (peers.map DevicePeer.publicKey).Nodup) :
    ps.foldl mergePeer (ps.foldl mergePeer peers) = ps.foldl mergePeer peers ↔
      ∀ p later, ¬ BringsRepeats peers ps p later := by
  constructor
  · intro heq p later h
    exact h.allowedOf_ne (by rw [heq])
  · intro h
    have honce : ((ps.foldl mergePeer peers).map DevicePeer.publicKey).Nodup := by
      rw [publicKeys_foldl_mergePeer]
      exact nodup_appendNew hpeers _
    apply eq_of_peerOf? honce (publicKeys_foldl_mergePeer_twice peers ps)
    intro key
    exact peerOf?_eq_of_fields (endpoint_foldl_mergePeer_twice peers ps key)
      (allowedOf_foldl_mergePeer_twice h key)

namespace DeviceSetup

/-- Whether a configuration is settled once it has been applied to a device. -/
def Settles (setup : DeviceSetup) (old : Option Device) : Prop :=
  setup.replacesPeers = true ∨ ∀ p later, ¬ BringsRepeats (setup.base old) setup.peers p later

theorem configured_eq_iff {setup : DeviceSetup} {old old' : Option Device} (name : String) :
    Device.configured name old setup = .configured name old' setup ↔
      setup.peers.foldl mergePeer (setup.base old) = setup.peers.foldl mergePeer (setup.base old') := by
  simp [Device.configured, base]

theorem configured_twice_iff {setup : DeviceSetup} {old : Option Device} (name : String)
    (hbase : ((setup.base old).map DevicePeer.publicKey).Nodup) :
    Device.configured name (some (.configured name old setup)) setup = .configured name old setup ↔
      setup.Settles old := by
  rw [configured_eq_iff, Settles]
  cases hr : setup.replacesPeers with
  | true => simp [base, hr]
  | false =>
    have hagain : setup.base (some (.configured name old setup)) =
        setup.peers.foldl mergePeer (setup.base old) := by
      simp [base, hr, Device.configured]
    rw [hagain, foldl_mergePeer_twice_iff hbase, or_iff_right Bool.false_ne_true]

end DeviceSetup

/-! ### Tables -/

namespace LinkTable

def deviceOf? (t : LinkTable) (name : String) : Option Device :=
  (t.links name).bind LinkState.device

variable {t : LinkTable} {name : String} {l : LinkState}

theorem links_configureDevice (hidle : t.pending .configureDevice = false)
    (hl : t.links name = some l) (setup : DeviceSetup) :
    let once := (backend.perform (.configureDevice name setup)).run.run t
    once.1 = .ok () ∧ once.2.pending .configureDevice = false ∧
      once.2.links name = some { l with device := some (.configured name l.device setup) } := by
  intro once
  have honce : once = _ := run_configureDevice_of_some hidle hl setup
  rw [honce]
  exact ⟨rfl, hidle, Links.set_self ..⟩

/-- A configuration that is applied twice in a row ends alike both times. The second time leaves the device as
the first time did, every list of networks included, if it replaces all peers; and if it keeps them, exactly
if no entry of a new key that is the last one to replace its networks lists one of them twice. -/
theorem configureDevice_twice_iff (ht : t.Reachable) (hidle : t.pending .configureDevice = false)
    (name : String) (setup : DeviceSetup) :
    let once := (backend.perform (.configureDevice name setup)).run.run t
    let twice := (backend.perform (.configureDevice name setup)).run.run once.2
    twice.1 = once.1 ∧ (twice.2.deviceOf? name = once.2.deviceOf? name ↔
      ∀ l, t.links name = some l → setup.Settles l.device) := by
  intro once twice
  cases hl : t.links name with
  | none =>
    have honce : once = _ := run_configureDevice_of_none hidle hl setup
    have hidle' : once.2.pending .configureDevice = false := by rw [honce]; exact hidle
    have hl' : once.2.links name = none := by rw [honce]; exact hl
    have htwice : twice = _ := run_configureDevice_of_none hidle' hl' setup
    have hmissing : twice.2.links name = none := by rw [htwice]; exact hl'
    constructor
    · rw [htwice, honce]
    · rw [deviceOf?, deviceOf?, hmissing, hl']
      simp
  | some l =>
    obtain ⟨hok, hidle', hl'⟩ := links_configureDevice hidle hl setup
    obtain ⟨hok', -, hl''⟩ := links_configureDevice hidle' hl' setup
    have hbase : SoundPeers (setup.base l.device) :=
      SoundPeers.base setup fun d hd => ((ht.sound name l hl).device d hd).peers
    constructor
    · exact hok'.trans hok.symm
    · rw [deviceOf?, deviceOf?, hl'', hl']
      simp [setup.configured_twice_iff name hbase.keys]

/-- One peer is added to and its networks are replaced, and one is new and lists its network twice, once in
each of two entries. -/
theorem configureDevice_twice_sample :
    let first := sampleSetupOf 7 [sampleEntryOf 0 true 1, sampleEntryOf 1 true 2]
    let setup := sampleSetupOf 8 [sampleEntryOf 2 true 3, sampleEntryOf 1 false 4,
      sampleEntryOf 1 true 5, sampleEntryOf 2 false 3]
    let t := after [.call (.request (.createWireguard "a")),
      .call (.request (.configureDevice "a" first))]
    t.Reachable ∧ t.pending .configureDevice = false ∧
      let once := (backend.perform (.configureDevice "a" setup)).run.run t
      let twice := (backend.perform (.configureDevice "a" setup)).run.run once.2
      twice.1 = once.1 ∧ twice.2.deviceOf? "a" = once.2.deviceOf? "a" := by
  intro first setup t
  have ht : t.Reachable := ⟨_, rfl⟩
  obtain ⟨hends, hdevice⟩ := configureDevice_twice_iff ht rfl "a" setup
  refine ⟨ht, rfl, hends, hdevice.mpr fun l _ => .inr fun p later h => ?_⟩
  obtain ⟨before, hsplit, -⟩ := h.first
  have hp : p ∈ setup.peers := by
    rw [hsplit]
    simp
  simp only [setup, sampleSetupOf, List.mem_cons, List.not_mem_nil, or_false] at hp
  rcases hp with rfl | rfl | rfl | rfl
  all_goals exact h.repeats (List.pairwise_singleton _ _)

def repeatedNetwork : Network :=
  .host (.v4 0x0A010205)

def entryOfRepeats : TunnelPeer :=
  { sampleEntryOf 0 true 0x0A010205 with allowed := [repeatedNetwork, repeatedNetwork] }

theorem bringsRepeats_entryOfRepeats : BringsRepeats [] [entryOfRepeats] entryOfRepeats [] where
  first := ⟨[], rfl, List.not_mem_nil⟩
  new := List.not_mem_nil
  resets := rfl
  last := by simp [NoneResets]
  repeats := by decide

/-- A new peer is given its list as it stands, with a network twice, and loses the repeat when the same
configuration is applied again. -/
theorem not_configureDevice_idempotent :
    ¬ ∀ (t : LinkTable) (name : String) (setup : DeviceSetup),
      t.Reachable → t.pending .configureDevice = false →
      let once := (backend.perform (.configureDevice name setup)).run.run t
      let twice := (backend.perform (.configureDevice name setup)).run.run once.2
      twice.2.deviceOf? name = once.2.deviceOf? name := by
  intro hall
  let setup := sampleSetupOf 7 [entryOfRepeats]
  let t := after [.call (.request (.createWireguard "a"))]
  have hcreated : t.links "a" = some (.new 1) := rfl
  obtain ⟨-, hidle, honce⟩ := links_configureDevice rfl hcreated setup
  obtain ⟨-, -, htwice⟩ := links_configureDevice hidle honce setup
  have hsame : deviceOf? _ "a" = deviceOf? _ "a" := hall t "a" setup ⟨_, rfl⟩ rfl
  rw [deviceOf?, deviceOf?, htwice, honce] at hsame
  have hbase : ((setup.base none).map DevicePeer.publicKey).Nodup := List.nodup_nil
  rcases (setup.configured_twice_iff "a" hbase).mp (Option.some.inj hsame) with hreplaces | hnone
  · exact Bool.false_ne_true hreplaces
  · exact hnone _ _ bringsRepeats_entryOfRepeats

end LinkTable

end OverlayTunnel
