import OverlayTunnel.Proofs.Host.Tools

/-!
A host whose tools work on links that are kept in its state, so that there is a host whose programs carry
out their orders.
-/
namespace OverlayTunnel

/-! ### Dumps -/

namespace Dump

def headerLine (d : Device) : List Char :=
  "(none)".toList ++ '\t' :: (keyColumn d.publicKey ++ '\t' ::
    (Nat.toDigits 10 d.listenPort.toNat ++ '\t' :: "off".toList))

def peerLine (p : DevicePeer) : List Char :=
  p.publicKey.chars ++ '\t' :: ("(none)".toList ++ '\t' :: (endpointColumn p.endpoint ++ '\t' ::
    (allowedColumn p.allowed ++ '\t' :: "0\t0\t0\toff".toList)))

def dumpChars (d : Device) : List Char :=
  headerLine d ++ '\n' :: d.peers.flatMap fun p => peerLine p ++ ['\n']

theorem isDump_dumpChars (d : Device) : IsDump d (dumpChars d) := by
  have hpeers (ps : List DevicePeer) : ArePeers ps (ps.flatMap fun p => peerLine p ++ ['\n']) := by
    induction ps with
    | nil => exact .nil
    | cons p ps ih =>
      rw [List.flatMap_cons, List.append_assoc]
      exact .peer (.intro (by decide) (by decide)) ih
  exact .header (.intro (by decide) (by decide)) (hpeers d.peers)

end Dump

/-! ### Orders carried out -/

namespace ToolState

def succeed (s : ToolState) : Outcome × ToolState :=
  (.exited 0 [] [], s)

def print (text : List Char) (s : ToolState) : Outcome × ToolState :=
  (.exited 0 (Utf8.encode text) [], s)

def fail (message : String) (s : ToolState) : Outcome × ToolState :=
  (.exited 1 [] (Utf8.encode message.toList), s)

def edit (name : String) (change : LinkState → Option LinkState) (s : ToolState) :
    Outcome × ToolState :=
  match s.links name with
  | some l => (s.withLink name (change l)).succeed
  | none => s.fail (doesNotExist name)

/-- Applies a file that is there and can be read. -/
def apply (name : String) (file : ConfigFile)
    (change : SetupText.Contents → LinkState → LinkState) (s : ToolState) : Outcome × ToolState :=
  match SetupText.contents? file.content with
  | some c => if file ∈ s.files then s.edit name fun l => some (change c l) else s.fail "fopen"
  | none => s.fail "Configuration parsing error"

end ToolState

namespace Order

def carryOut : Order → ToolState → Outcome × ToolState
  | .probe, s => s.succeed
  | .add name, s =>
    match s.links name with
    | none =>
      ToolState.succeed { s.withLink name (some (.new (s.lastIndex + 1))) with
        lastIndex := s.lastIndex + 1 }
    | some _ => s.fail fileExists
  | .describe name, s =>
    match s.links name with
    | some l => s.print (Nat.toDigits 10 l.index.toNat ++ ':' :: ' ' :: (name.toList ++ [':']))
    | none => s.fail (doesNotExist name)
  | .replaceAddress name address, s => s.edit name fun l => some (l.addressed address)
  | .setMtu name mtu, s => s.edit name fun l => some { l with mtu }
  | .setUp name, s => s.edit name fun l => some { l with up := true }
  | .addRoute name destination, s =>
    match s.links name with
    | none => s.fail (doesNotExist name)
    | some l =>
      if l.up = false then s.fail "RTNETLINK answers: Network is down"
      else if destination ∈ l.routes then s.fail fileExists
      else (s.withLink name (some { l with routes := l.routes ++ [destination] })).succeed
  | .delete name, s => s.edit name fun _ => none
  | .setConfig name file, s =>
    s.apply name file fun c l => { l with device := some (c.replaced name) }
  | .addConfig name file, s =>
    s.apply name file fun c l => { l with device := some (c.added name l.device) }
  | .setAllowed name key networks, s =>
    s.edit name fun l => some { l with device := l.device.map (·.withAllowed key networks) }
  | .dump name, s =>
    match s.links name with
    | some l => s.print (Dump.dumpChars (l.device.getD (.unconfigured name)))
    | none => s.fail (doesNotExist name)

end Order

theorem ToolState.succeeds_succeed (s : ToolState) : s.succeed.1.Succeeds :=
  ⟨[], [], rfl⟩

theorem ToolState.prints_print (text : List Char) (s : ToolState) : (s.print text).1.Prints text :=
  ⟨[], rfl⟩

theorem ToolState.fails_fail (message : String) (s : ToolState) :
    (s.fail message).1.Fails message :=
  ⟨1, [], [], by decide, by simp, by rw [List.append_nil]; rfl⟩

theorem ToolState.edits_edit (name : String) (change : LinkState → Option LinkState) (s : ToolState) :
    Edits name change s (s.edit name change).1 (s.edit name change).2 := by
  intro l hl
  unfold edit
  rw [hl]
  exact ⟨succeeds_succeed _, rfl⟩

theorem Order.answers_carryOut (order : Order) (s : ToolState) :
    order.Answers s (order.carryOut s).1 (order.carryOut s).2 := by
  cases order with
  | probe => exact ⟨s.succeeds_succeed, rfl⟩
  | add name =>
    cases hl : s.links name with
    | none =>
      simp only [Answers, carryOut, hl]
      exact ⟨ToolState.succeeds_succeed _, rfl⟩
    | some l =>
      simp only [Answers, carryOut, hl]
      exact ⟨ToolState.fails_fail _ _, rfl⟩
  | describe name =>
    cases hl : s.links name with
    | none =>
      simp only [Answers, carryOut, hl]
      exact ⟨rfl, ToolState.fails_fail _ _⟩
    | some l =>
      simp only [Answers, carryOut, hl]
      exact ⟨rfl, [], ToolState.prints_print _ _⟩
  | replaceAddress name address => exact s.edits_edit name _
  | setMtu name mtu => exact s.edits_edit name _
  | setUp name => exact s.edits_edit name _
  | addRoute name destination =>
    intro l hl hup
    have hdown : ¬ l.up = false := by simp [hup]
    by_cases hd : destination ∈ l.routes
    · simp only [carryOut, hl, if_neg hdown, if_pos hd]
      exact ⟨ToolState.fails_fail _ _, rfl⟩
    · simp only [carryOut, hl, if_neg hdown, if_neg hd]
      exact ⟨ToolState.succeeds_succeed _, rfl⟩
  | delete name => exact s.edits_edit name _
  | setConfig name file =>
    intro c hfile hc
    simp only [carryOut, ToolState.apply, hc, if_pos hfile]
    exact s.edits_edit name _
  | addConfig name file =>
    intro c hfile hc
    simp only [carryOut, ToolState.apply, hc, if_pos hfile]
    exact s.edits_edit name _
  | setAllowed name key networks =>
    intro l d hl hd _
    have hdevice : l.device.map (·.withAllowed key networks) = some (d.withAllowed key networks) := by
      rw [hd]
      rfl
    rw [← hdevice]
    exact s.edits_edit name
      (fun l => some { l with device := l.device.map (·.withAllowed key networks) }) l hl
  | dump name =>
    intro l hl
    simp only [carryOut, hl]
    exact ⟨rfl, _, ToolState.prints_print _ _, Dump.isDump_dumpChars _⟩

def simulatedHost : Host ToolState where
  run i := fun s =>
    match Order.ofArguments? i.program i.arguments with
    | some order => order.carryOut s
    | none => s.fail "unknown command"
  writeFile file := fun s =>
    match Script.refusal? file with
    | some reason => (.error reason, s)
    | none => (.ok (), { s with files := file :: s.files })
  removeFile file := fun s => ((), { s with files := s.files.erase file })

theorem simulatedHost_serves : simulatedHost.Serves id where
  run program arguments order s horder := by
    have hrun : (simulatedHost.run ⟨program, arguments⟩).run s = order.carryOut s := by
      change (match Order.ofArguments? program arguments with
        | some order => order.carryOut s
        | none => s.fail "unknown command") = _
      rw [horder]
    rw [hrun]
    exact order.answers_carryOut s
  write file s hfile := by
    have hwrite : (simulatedHost.writeFile file).run s =
        (.ok (), { s with files := file :: s.files }) := by
      change (match Script.refusal? file with
        | some reason => ((.error reason, s) : Except String Unit × ToolState)
        | none => (.ok (), { s with files := file :: s.files })) = _
      rw [hfile]
    rw [hwrite]
    exact ⟨rfl, _, List.mem_cons_self, rfl⟩
  remove file s := ⟨_, rfl⟩

end OverlayTunnel
