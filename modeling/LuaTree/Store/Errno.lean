import LuaTree.Path.Basic
import LuaTree.Text.Unshown

/-!
# Why a file operation fails

An operating-system call that is refused answers with a number. `Errno` is that number together with
the text it is shown as; the conditions that this library raises itself have names. `IoError` is
what a failed file operation hands on: such a number, a text of its own, or either with the path at
which it happened.
-/

namespace LuaTree

/-- The number of a condition reported by the operating system. -/
structure Errno where
  code : Int
  deriving DecidableEq, Inhabited

namespace Errno

def noEntry : Errno := ⟨2⟩

def badDescriptor : Errno := ⟨9⟩

/-- The program file has no known format. -/
def badExecutable : Errno := ⟨8⟩

/-- The operation is not allowed on this entry. -/
def denied : Errno := ⟨13⟩

/-- The entry is in use by the system. -/
def busy : Errno := ⟨16⟩

def alreadyExists : Errno := ⟨17⟩

def notDirectory : Errno := ⟨20⟩

def isDirectory : Errno := ⟨21⟩

def invalidArgument : Errno := ⟨22⟩

def notPermitted : Errno := ⟨1⟩

def noDevice : Errno := ⟨6⟩

/-- The device has no room left. -/
def noSpace : Errno := ⟨28⟩

def brokenPipe : Errno := ⟨32⟩

def nameTooLong : Errno := ⟨36⟩

/-- The directory still has entries. -/
def notEmpty : Errno := ⟨39⟩

/-- Too many symbolic links were met on the way. -/
def tooManyLinks : Errno := ⟨40⟩

def texts : List String :=
  ["Success", "Operation not permitted", "No such file or directory", "No such process",
    "Interrupted system call", "Input/output error", "No such device or address",
    "Argument list too long", "Exec format error", "Bad file descriptor", "No child processes",
    "Resource temporarily unavailable", "Cannot allocate memory", "Permission denied",
    "Bad address", "Block device required", "Device or resource busy", "File exists",
    "Invalid cross-device link", "No such device", "Not a directory", "Is a directory",
    "Invalid argument", "Too many open files in system", "Too many open files",
    "Inappropriate ioctl for device", "Text file busy", "File too large",
    "No space left on device", "Illegal seek", "Read-only file system", "Too many links",
    "Broken pipe", "Numerical argument out of domain", "Numerical result out of range",
    "Resource deadlock avoided", "File name too long", "No locks available",
    "Function not implemented", "Directory not empty", "Too many levels of symbolic links",
    "Unknown error 41", "No message of desired type", "Identifier removed",
    "Channel number out of range", "Level 2 not synchronized", "Level 3 halted", "Level 3 reset",
    "Link number out of range", "Protocol driver not attached", "No CSI structure available",
    "Level 2 halted", "Invalid exchange", "Invalid request descriptor", "Exchange full",
    "No anode", "Invalid request code", "Invalid slot", "Unknown error 58",
    "Bad font file format", "Device not a stream", "No data available", "Timer expired",
    "Out of streams resources", "Machine is not on the network", "Package not installed",
    "Object is remote", "Link has been severed", "Advertise error", "Srmount error",
    "Communication error on send", "Protocol error", "Multihop attempted", "RFS specific error",
    "Bad message", "Value too large for defined data type", "Name not unique on network",
    "File descriptor in bad state", "Remote address changed",
    "Can not access a needed shared library", "Accessing a corrupted shared library",
    ".lib section in a.out corrupted", "Attempting to link in too many shared libraries",
    "Cannot exec a shared library directly", "Invalid or incomplete multibyte or wide character",
    "Interrupted system call should be restarted", "Streams pipe error", "Too many users",
    "Socket operation on non-socket", "Destination address required", "Message too long",
    "Protocol wrong type for socket", "Protocol not available", "Protocol not supported",
    "Socket type not supported", "Operation not supported", "Protocol family not supported",
    "Address family not supported by protocol", "Address already in use",
    "Cannot assign requested address", "Network is down", "Network is unreachable",
    "Network dropped connection on reset", "Software caused connection abort",
    "Connection reset by peer", "No buffer space available",
    "Transport endpoint is already connected", "Transport endpoint is not connected",
    "Cannot send after transport endpoint shutdown", "Too many references: cannot splice",
    "Connection timed out", "Connection refused", "Host is down", "No route to host",
    "Operation already in progress", "Operation now in progress", "Stale file handle",
    "Structure needs cleaning", "Not a XENIX named type file", "No XENIX semaphores available",
    "Is a named type file", "Remote I/O error", "Disk quota exceeded", "No medium found",
    "Wrong medium type", "Operation canceled", "Required key not available", "Key has expired",
    "Key has been revoked", "Key was rejected by service", "Owner died", "State not recoverable",
    "Operation not possible due to RF-kill", "Memory page has hardware error"]

def text (e : Errno) : String :=
  match e.code with
  | .ofNat n => texts.getD n ("Unknown error " ++ toString n)
  | .negSucc n => "Unknown error -" ++ toString (n + 1)

end Errno

/-- Why a file operation failed. -/
inductive IoError where
  | os (e : Errno) -- the operating system refused
  -- refused before the operating system was asked, for the stated reason
  | refused (reason : String)
  | atPath (cause : IoError) (path : PathText) -- a failure at a path that the caller did not name
  deriving DecidableEq, Inhabited

namespace IoError

def nulInPath : IoError := .refused "file name contained an unexpected NUL byte"

/-- How a character is shown between double quotes. -/
def quotedChar (c : Char) : List Char :=
  if c = '\x00' then ['\\', '0']
  else if c = '\t' then ['\\', 't']
  else if c = '\r' then ['\\', 'r']
  else if c = '\n' then ['\\', 'n']
  else if c = '\\' ∨ c = '"' then ['\\', c]
  else if Unshown.contains c then
    "\\u\x7b".toList ++ Nat.toDigits 16 c.toNat ++ ['\x7d']
  else [c]

/-- A path between double quotes, with what cannot be shown escaped. -/
def quotedPath (p : PathText) : String :=
  "\"" ++ String.ofList (p.flatMap quotedChar) ++ "\""

def message : IoError → String
  | .os e => e.text ++ " (os error " ++ toString e.code ++ ")"
  | .refused reason => reason
  | .atPath cause path => cause.message ++ " at path " ++ quotedPath path

end IoError

end LuaTree
