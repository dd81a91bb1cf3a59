import LuaTree.Notice
import LuaTree.Path.Absolute
import LuaTree.Store.Lookup

/-!
# Decompilers

To the conversion a decompiler is any function from a store and a source path to an answer; it may
change the store, print, fail or refuse to start. `Tool.decompiler` is the one that is used in
earnest: it starts `<runtime> -jar <archive> --rawstring <source>` in the tool's directory, with the
source path made absolute, since the tool's directory is not the one the path was written for. How a
process is started is a parameter as well (`Launcher`).
-/

namespace LuaTree

/-- What a decompiler answers. -/
structure Response where
  result : Except Error ProcessOutput -- what the process left behind, or why there was none
  store : Store
  notices : List Notice := []
  deriving Inhabited

/-- Something that turns compiled chunks into source text. -/
structure Decompiler where
  decompile : Store → PathText → Response
  deriving Inhabited

/-- A process to be started. -/
structure Invocation where
  program : PathText -- the program; a name without separators is searched for
  arguments : List PathText
  directory : PathText
  deriving DecidableEq, Inhabited

/-- Starts a process from a working directory and waits for its end. -/
abbrev Launcher := Store → Location → Invocation → Except IoError ProcessOutput × Store

/-- The runtime that is used unless another one is given. -/
def Tool.defaultRuntime : PathText := "java".toList

/-- The archive that is used unless another one is given. -/
def Tool.defaultArchive : PathText := "unluac.jar".toList

/-- Where a decompiler archive is and how it is run. -/
structure Tool where
  runtime : PathText := Tool.defaultRuntime
  archive : PathText := Tool.defaultArchive
  directory : PathText
  deriving DecidableEq, Inhabited

namespace Tool

def ofExecutable (executable : PathText) : Except Error Tool :=
  match PathText.parent? executable with
  | some directory => .ok { directory }
  | none => .error (.unknownExecutable (.refused
      ("'" ++ String.ofList executable ++ "' has no parent directory")))

/-- The process that decompiles a file. -/
def invocation (tool : Tool) (source : PathText) : Invocation where
  program := tool.runtime
  arguments := ["-jar".toList, tool.archive, "--rawstring".toList, source]
  directory := tool.directory

/-- The decompiler that runs a tool from a working directory. -/
def decompiler (tool : Tool) (launch : Launcher) (cwd : Location) : Decompiler where
  decompile s source :=
    match absolute s source with
    | .error cause => { result := .error (.fileOpen source cause), store := s }
    | .ok full =>
      let (answer, s) := launch s cwd (tool.invocation full)
      { result := answer.mapError (.decompilerSpawn tool.runtime)
        store := s
        notices := [.running tool.runtime tool.archive full] }
where
  -- the absolute form of a source path; a relative one needs a working directory that is there
  absolute (s : Store) (source : PathText) : Except IoError PathText := do
    let here ← if source = [] ∨ PathText.isAbsolute source then pure [] else s.cwdText? cwd
    match PathText.absolute? here source with
    | some full => return full
    | none => throw (.refused "cannot make an empty path absolute")

end Tool

end LuaTree
