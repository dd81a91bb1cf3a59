/-!
# Help and version

The texts that `--help` and `--version` print.
-/

namespace LuaTree.Usage

def programName : String := "delua"

def helpLines : List String :=
  ["Batch Lua bytecode decompiler driver that mirrors a directory tree through unluac",
    "",
    "Usage: " ++ programName ++ " [OPTIONS] <INPUT>",
    "",
    "Arguments:",
    "  <INPUT>  File or directory to convert",
    "",
    "Options:",
    "      --runtime <RUNTIME>      Java runtime used to run the decompiler [default: java]",
    "      --archive <ARCHIVE>      Decompiler archive, relative to the tool directory "
      ++ "[default: unluac.jar]",
    "      --tool-dir <TOOL_DIR>    Working directory for the decompiler "
      ++ "(default: this executable's directory)",
    "  -j, --jobs <JOBS>            Number of files converted at once [default: 1]",
    "  -v, --verbosity <VERBOSITY>  Verbosity level (0=quiet, 1=warnings, 2=info, 3=debug) "
      ++ "[default: 1]",
    "  -h, --help                   Print help",
    "  -V, --version                Print version"]

def help : String := String.join (helpLines.map (· ++ "\n"))

def version : String := programName ++ " 0.1.0\n"

end LuaTree.Usage
