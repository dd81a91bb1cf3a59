import LuaTree.Error

/-!
# Notices

What a run has to say while it goes on, as data. Every notice has a level, which decides whether a
listener wants it, and one text. The stages of a conversion answer with the notices they gave, in
order; nothing is printed before the command line decides to.
-/

namespace LuaTree

/-- How much a notice matters. -/
inductive Level where
  | error
  | warn
  | info
  | debug
  deriving DecidableEq, Inhabited

/-- Larger for what matters less. -/
def Level.rank : Level → Nat
  | .error => 0
  | .warn => 1
  | .info => 2
  | .debug => 3

/-- What happened to a work item that finished. -/
inductive Outcome where
  | converted -- the file was a compiled chunk and was decompiled
  | copied
  deriving DecidableEq, Inhabited

def Outcome.text : Outcome → String
  | .converted => "converted"
  | .copied => "copied"

/-- Something that a run has to say. -/
inductive Notice where
  | skipped (fault : WalkFault)
  | found (count : Nat) (input : PathText)
  | copying (source : PathText) -- a file goes to the output as it is
  | decompiling (source : PathText) -- a file goes through the decompiler
  | running (runtime archive source : PathText) -- the decompiler is about to be started
  | pooled (items jobs : Nat) -- several items are converted at once
  -- several items were to be converted at once, but there is nobody to do it
  | unpooled (cause : String)
  | converting (items : Nat) (outputRoot : PathText)
  | configured (runtime archive directory : PathText)
  | jobCount (count : Nat) -- how many items are converted at once
  | finished (outcome : Outcome) (source : PathText)
  | itemFailed (source : PathText) (error : Error)
  | unusable (error : Error) -- the input cannot be used
  | nothingFound (input : PathText)
  | someFailed (failed items : Nat)
  -- the conversion is over; the time it took is in hundredths of a second
  | summary (converted copied failed hundredths : Nat)
  deriving DecidableEq, Inhabited

namespace Notice

def level : Notice → Level
  | .skipped _ | .nothingFound _ | .someFailed _ _ => .warn
  | .itemFailed _ _ | .unusable _ => .error
  | .pooled _ _ | .converting _ _ | .summary _ _ _ _ => .info
  | .found _ _ | .copying _ | .decompiling _ | .running _ _ _ | .unpooled _ | .configured _ _ _
  | .jobCount _ | .finished _ _ => .debug

/-- A duration in seconds, with two places. -/
def seconds (hundredths : Nat) : String :=
  let rest := toString (hundredths % 100)
  toString (hundredths / 100) ++ "." ++ (if rest.length < 2 then "0" ++ rest else rest)

def message : Notice → String
  | .skipped fault => (Error.walk fault).message
  | .found count input =>
    "Found " ++ toString count ++ " files under " ++ String.ofList input
  | .copying source => "Copying " ++ String.ofList source
  | .decompiling source => "Decompiling " ++ String.ofList source
  | .running runtime archive source =>
    "Running " ++ String.ofList runtime ++ " -jar " ++ String.ofList archive ++ " --rawstring "
      ++ String.ofList source
  | .pooled items jobs =>
    "Converting " ++ toString items ++ " files with " ++ toString jobs ++ " jobs"
  | .unpooled cause => "Falling back to sequential conversion: " ++ cause
  | .converting items outputRoot =>
    "Converting " ++ toString items ++ " file(s) into " ++ String.ofList outputRoot
  | .configured runtime archive directory =>
    "Decompiler: " ++ String.ofList runtime ++ " -jar " ++ String.ofList archive ++ " (in "
      ++ String.ofList directory ++ ")"
  | .jobCount count => "Running with " ++ toString count ++ " job(s)"
  | .finished outcome source => outcome.text ++ ": " ++ String.ofList source
  | .itemFailed source error =>
    "Failed to process " ++ String.ofList source ++ ": " ++ error.message
  | .unusable error => error.message
  | .nothingFound input => "No files found under " ++ String.ofList input
  | .someFailed failed items =>
    toString failed ++ " of " ++ toString items ++ " files failed"
  | .summary converted copied failed hundredths =>
    "Converted " ++ toString converted ++ ", copied " ++ toString copied ++ ", failed "
      ++ toString failed ++ " in " ++ seconds hundredths ++ "s"

end Notice

end LuaTree
