import LuaTree.Notice
import LuaTree.Path.Extension
import LuaTree.Plan.Walk

/-!
# Plans

A `Plan` says where the output of an input goes and lists every file to convert with its destination.
A single file is converted beside itself; a directory is converted into a sibling directory, file by
file, so a destination is always the output directory followed by the way from the input to the file.

`Plan.ofInput` fails only for an input that is neither.
-/

namespace LuaTree

/-- One file and where its converted form goes. -/
structure WorkItem where
  source : PathText
  destination : PathText -- where its converted form goes
  deriving DecidableEq, Inhabited

/-- What kind of input a plan is for. -/
inductive InputKind where
  | file
  | directory
  deriving DecidableEq, Inhabited

/-- Where output goes and what to convert. -/
structure Plan where
  kind : InputKind
  outputRoot : PathText -- the output directory, or the output file of a single file
  items : List WorkItem -- the files in the order of conversion
  faults : List WalkFault -- what the walk skipped, in its order
  input : PathText
  deriving DecidableEq, Inhabited

namespace Plan

/-- Where the output of a directory goes: beside it. A path that ends in no name (`.`, `dir/..`) is
replaced by the location it leads to first. -/
def directoryOutput (s : Store) (cwd : Location) (input : PathText) : Except Error PathText :=
  let text := PathText.ofComponents (PathText.components input)
  match PathText.finalName? text with
  | some _ => .ok (PathText.siblingDirectory text)
  | none =>
    match s.canonical? cwd input with
    | .ok location => .ok (PathText.siblingDirectory location)
    | .error cause => .error (.fileOpen input cause)

/-- The work item for a file that the walk met. -/
def item? (input outputRoot source : PathText) : Option WorkItem :=
  (PathText.relativeTo? input source).map fun way => ⟨source, PathText.join outputRoot way⟩

def ofDirectory (s : Store) (cwd : Location) (input outputRoot : PathText) : Plan :=
  let found := Walk.findings s cwd input outputRoot
  { kind := .directory
    outputRoot
    items := found.filterMap fun
      | .file source => item? input outputRoot source
      | .fault _ => none
    faults := found.filterMap fun
      | .file _ => none
      | .fault f => some f
    input }

def ofFile (input : PathText) : Plan where
  kind := .file
  outputRoot := PathText.fileOutput input
  items := [⟨input, PathText.fileOutput input⟩]
  faults := []
  input

def ofInput (s : Store) (cwd : Location) (input : PathText) : Except Error Plan :=
  if s.isDir cwd input then
    (directoryOutput s cwd input).map (ofDirectory s cwd input)
  else if s.isFile cwd input then .ok (ofFile input)
  else .error (.invalidInput input)

def notices (plan : Plan) : List Notice :=
  match plan.kind with
  | .file => []
  | .directory => plan.faults.map .skipped ++ [.found plan.items.length plan.input]

end Plan

end LuaTree
