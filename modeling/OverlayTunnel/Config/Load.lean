import OverlayTunnel.Config.Json
import OverlayTunnel.Failure

/-!
Loading a configuration from the contents of a file.
-/
namespace OverlayTunnel.Config

def check (c : Config) : Except Failure Unit :=
  c.validate.mapError fun e => .config e.message

/-- The configuration in a file, none if there is no such file. What does not pass the check is not
loaded. -/
def load (file : Option (List UInt8)) : Except Failure Config := do
  let some bytes := file | throw (.io "No such file or directory (os error 2)")
  let some text := Utf8.decode? bytes | throw (.io "stream did not contain valid UTF-8")
  let c ← (ofJson text).mapError .ofJson
  c.check
  return c

end OverlayTunnel.Config
