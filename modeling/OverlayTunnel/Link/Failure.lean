/-!
How an operation on a link may fail.
-/
namespace OverlayTunnel

inductive LinkFailure where
  | alreadyExists (what : String)
  | notFound (what : String)
  | command (program arguments stderr : String)
  | toolMissing (tool : String)
  | badOutput (reason : String)
  | injected (operation : String)
  | io (reason : String)
  deriving DecidableEq, Repr

namespace LinkFailure

def message : LinkFailure → String
  | .alreadyExists what => "already exists: " ++ what
  | .notFound what => "not found: " ++ what
  | .command program arguments stderr =>
    "`" ++ program ++ " " ++ arguments ++ "` failed: " ++ stderr
  | .toolMissing tool => "required tool not available: " ++ tool
  | .badOutput reason => "unexpected output: " ++ reason
  | .injected operation => "injected failure: " ++ operation
  | .io reason => "IO error: " ++ reason

def isAlreadyExists : LinkFailure → Bool
  | .alreadyExists _ => true
  | _ => false

def isNotFound : LinkFailure → Bool
  | .notFound _ => true
  | _ => false

end LinkFailure

end OverlayTunnel
