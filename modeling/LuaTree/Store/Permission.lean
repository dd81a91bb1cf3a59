import LuaTree.Store.Update

/-!
# Permission

The owner's permission bits of an entry say what a process without privileges may do with it. The file
operations do not ask for them; what does ask is whatever acts for a particular user.
-/

namespace LuaTree

/-- What a process may ask for. -/
inductive Access where
  | read -- to read a file, or list a directory
  | write -- to write a file, or change a directory
  | run -- to run a file, or pass through a directory
  deriving DecidableEq, Inhabited

/-- The owner's permission bit for an access. -/
def Access.bit : Access → Nat
  | .read => 0o400
  | .write => 0o200
  | .run => 0o100

namespace Store

def allows (s : Store) (e : Entry) (a : Access) : Bool := s.modeOf e &&& a.bit != 0

/-- Whether a location, and all below it, can be read by its owner. -/
def isOpenBelow (s : Store) (loc : Location) : Bool :=
  (s.tree.sub loc).entries.all fun (way, e) =>
    match e with
    | .file _ => s.allows e .read
    | .dir _ => s.allows e .read && (s.allows e .run || (s.names (loc ++ way)).isEmpty)
    | _ => true

end Store

end LuaTree
