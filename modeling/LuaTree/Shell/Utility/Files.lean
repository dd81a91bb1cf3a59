import LuaTree.Shell.Mode
import LuaTree.Shell.Utility.Names
import LuaTree.Shell.Utility.Sequence

/-!
# Utilities that create, change and remove files
-/

namespace LuaTree.Shell.Utility

open Run

/-- Changes the store for an operand, or says why that was refused. -/
def change (name : Raw) (task : String) (operand : Raw)
    (f : Store → Location → Except IoError Store) : Run Bool := do
  match ← updateAt (Raw.path operand) f with
  | .ok () => return true
  | .error e =>
    complainAbout name task operand e
    return false

/-- The entry that a path names, a link at the end not followed. -/
def entryAt (p : Raw) : Run (Except IoError (Location × Entry)) := do
  let m ← get
  return m.store.lstat? m.environment.cwd (Raw.path p)

/-- The entry that a path leads to. -/
def targetOf (p : Raw) : Run (Except IoError (Location × Entry)) := do
  let m ← get
  return m.store.stat? m.environment.cwd (Raw.path p)

def isDirectory (p : Raw) : Run Bool := do
  let m ← get
  return m.store.isDir m.environment.cwd (Raw.path p)

/-- What kind of file an entry is, in words. -/
def kindOf (s : Store) : Entry → String
  | .dir _ => "directory"
  | .file i => if (s.inode i).data.isEmpty then "regular empty file" else "regular file"
  | .link _ => "symbolic link"
  | .fifo => "fifo"
  | .device _ => "character special file"

/-- Asks a question on the standard error and reads the answer. -/
def confirmed (question : Raw) : Run Bool := do
  discard (writeText 2 question)
  match ← readUntil 0 10 rounds [] with
  | .ok (answer, _) => return answer.head? = some 121 || answer.head? = some 89
  | .error _ => return false

/-! ## Removing -/

/-- How `rm` removes. -/
structure Removal where
  name : Raw
  force : Bool -- whether missing files do not matter
  recursive : Bool -- whether directories are removed with all they hold
  directories : Bool
  verbose : Bool
  asks : Bool -- whether every removal is asked about

/-- Whether all that stands at a location and below can be removed without further ado. -/
def isFree (s : Store) (loc : Location) : Bool :=
  (s.tree.sub loc).entries.all fun (_, e) =>
    match e with
    | .dir _ => s.allows e .read && s.allows e .write && s.allows e .run
    | _ => true

/-- Removes what a path names, down to some depth. -/
def removed (k : Removal) : (depth : Nat) → Raw → Run Bool
  | 0, _ => return false
  | depth + 1, p => do
    let m ← get
    let s := m.store
    let told (what : String) : Run Bool := do
      if k.verbose then putLine (what.toList ++ Quote.always p)
      return true
    match ← entryAt p with
    | .error e =>
      if k.force ∧ (e = .os .noEntry ∨ e = .os .notDirectory) then return true
      complainAbout k.name "cannot remove" p e
      return false
    | .ok (loc, .dir mode) =>
      if !k.recursive then
        if !k.directories then
          complainAbout k.name "cannot remove" p (.os .isDirectory)
          return false
        if !(← change k.name "cannot remove" p fun s cwd => s.removeDir cwd (Raw.path p)) then return false
        return ← told "removed directory "
      let simple := !k.verbose && !k.asks && isFree s loc && s.allows (.dir mode) .write
      if simple then
        return ← change k.name "cannot remove" p fun s cwd => s.removeAll cwd (Raw.path p)
      let names := s.names loc
      if names ≠ [] ∧ !(s.allows (.dir mode) .read) then
        complainAbout k.name "cannot remove" p (.os .denied)
        return false
      if names ≠ [] ∧ k.asks then
        if !(← confirmed (k.name ++ ": descend into directory ".toList ++ Quote.always p ++ "? ".toList)) then
          return true
      let mut whole := true
      for n in names do
        if !(← removed k depth (inside p (Raw.ofPath n))) then whole := false
      if !whole then return false
      if k.asks then
        if !(← confirmed (k.name ++ ": remove directory ".toList ++ Quote.always p ++ "? ".toList)) then
          return true
      if !(← change k.name "cannot remove" p fun s cwd => s.removeDir cwd (Raw.path p)) then return false
      told "removed directory "
    | .ok (_, e) =>
      if k.asks then
        if !(← confirmed (k.name ++ ": remove ".toList ++ (kindOf s e).toList ++ ' ' :: Quote.always p
            ++ "? ".toList)) then
          return true
      if !(← change k.name "cannot remove" p fun s cwd => s.removeFile cwd (Raw.path p)) then return false
      told "removed "

/-- `rm`: removes files, and directories if it is told to. -/
def rm : Utility := withOptions "frRviId" ""
    [("recursive", 'r'), ("force", 'f'), ("verbose", 'v'), ("dir", 'd'), ("interactive", 'i')] fun name o => do
  let force := o.last? "fi" = some 'f'
  if o.operands = [] then
    if force then return 0 else return ← complainMissing name
  let k : Removal :=
    { name, force, recursive := o.has 'r' || o.has 'R', directories := o.has 'd', verbose := o.has 'v'
      asks := o.last? "fi" = some 'i' }
  forEach o.operands fun p => do
    let last := lastName p
    if k.recursive ∧ (last = ['.'] ∨ last = ['.', '.']) then
      complain name ("refusing to remove '.' or '..' directory: skipping ".toList ++ Quote.always p)
      return false
    if k.recursive ∧ last = ['/'] then
      complain name "it is dangerous to operate recursively on '/'".toList
      complain name "use --no-preserve-root to override this failsafe".toList
      return false
    removed k 4096 p

/-- `unlink`: removes one file. -/
def unlink : Utility := withOptions "" "" [] fun name o => do
  match o.operands with
  | [] => complainMissing name
  | [p] =>
    match ← updateAt (Raw.path p) fun s cwd => s.removeFile cwd (Raw.path p) with
    | .ok () => return 0
    | .error e =>
      complain name ("cannot unlink ".toList ++ Quote.always p ++ ": ".toList ++ (refusalText e).toList)
      return 1
  | _ :: q :: _ => complainExtra name q

/-- `rmdir`: removes empty directories. -/
def rmdir : Utility := withOptions "pvI" ""
    [("parents", 'p'), ("verbose", 'v'), ("ignore-fail-on-non-empty", 'I')] fun name o => do
  if o.operands = [] then return ← complainMissing name
  forEach o.operands fun p => do
    let above (p : Raw) : Option Raw :=
      let dir := directoryName p
      if o.has 'p' ∧ dir ≠ ['.'] ∧ dir ≠ ['/'] then some dir else none
    let rec go : (fuel : Nat) → Raw → Run Bool
      | 0, _ => return true
      | fuel + 1, p => do
        if o.has 'v' then putLine (name ++ ": removing directory, ".toList ++ Quote.always p)
        match ← updateAt (Raw.path (withoutSlashes p)) fun s cwd =>
            s.removeDir cwd (Raw.path (withoutSlashes p)) with
        | .ok () =>
          match above p with
          | some dir => go fuel dir
          | none => return true
        | .error e =>
          if e = .os .notEmpty ∧ o.has 'I' then return true
          let isLink : Bool := match ← entryAt (withoutSlashes p) with
            | .ok (_, .link _) => true
            | _ => false
          if p.getLast? = some '/' && isLink then
            complain name ("failed to remove ".toList ++ Quote.always p
              ++ ": Symbolic link not followed".toList)
          else complainAbout name "failed to remove" p e
          return false
    go (p.length + 1) p

/-! ## Creating -/

def makeDirectory (p : Raw) (mode : Nat) : Run (Except IoError Unit) :=
  updateAt (Raw.path p) fun s cwd => do
    let s ← s.makeDir cwd (Raw.path (if withoutSlashes p = [] then p else withoutSlashes p))
    s.changeMode cwd (Raw.path p) mode

/-- The paths of all directories on the way to a path. -/
def waypoints (p : Raw) : List Raw :=
  let parts := p.splitOn '/'
  ((List.range parts.length).map fun k => ['/'].intercalate (parts.take (k + 1))).filter fun q =>
    q ≠ [] && q.getLast? ≠ some '/'

/-- `mkdir`: creates directories. -/
def mkdir : Utility := withOptions "pv" "m" [("parents", 'p'), ("verbose", 'v'), ("mode", 'm')]
    fun name o => do
  if o.operands = [] then return ← complainMissing name
  let mask := (← environment).mask
  let usual := Mode.without 0o777 mask
  match (o.value? 'm').map Mode.wish? with
  | some none =>
    complain name ("invalid mode ".toList ++ Quote.shown ((o.value? 'm').getD []))
    return 1
  | wish? =>
    let wanted := match wish? with
      | some (some w) => w.apply mask true 0o777
      | _ => usual
    let make (p : Raw) (mode : Nat) : Run Bool := do
      match ← makeDirectory p mode with
      | .ok () =>
        if o.has 'v' then putLine (name ++ ": created directory ".toList ++ Quote.always p)
        return true
      | .error e =>
        complainAbout name "cannot create directory" p e
        return false
    forEach o.operands fun p => do
      if !o.has 'p' ∨ p = [] then return ← make p wanted
      let ways := waypoints p
      for (q, k) in ways.zipIdx do
        if !(← isDirectory q) then
          match ← targetOf q with
          | .ok _ =>
            complainAbout name "cannot create directory" q
              (.os (if k + 1 = ways.length then .alreadyExists else .notDirectory))
            return false
          | .error _ =>
            let mode := if k + 1 = ways.length then wanted else usual ||| 0o300
            if !(← make q mode) then return false
      return true

/-- `truncate`: makes files shorter or longer. -/
def truncate : Utility := withOptions "co" "sr" [("no-create", 'c'), ("size", 's'), ("reference", 'r')]
    fun name o => do
  let size := (o.value? 's').getD []
  if !o.has 's' ∧ !o.has 'r' then
    return ← complainUsage name "you must specify either '--size' or '--reference'".toList
  let sign := size.takeWhile "+-<>/%".toList.contains
  let n? := count? (size.drop sign.length)
  if o.has 's' ∧ n?.isNone then
    complain name ("Invalid number: ".toList ++ Quote.shown size)
    return 1
  if o.operands = [] then return ← complainMissing name "file operand"
  let sizeOf (p : Raw) : Run Nat := do
    match ← targetOf p with
    | .ok (_, .file i) => return ((← get).store.inode i).data.length
    | _ => return 0
  let base? ← match o.value? 'r' with
    | some file =>
      match ← targetOf file with
      | .ok _ => some <$> sizeOf file
      | .error e =>
        complainAbout name "cannot stat" file e
        return 1
    | none => pure none
  forEach o.operands fun p => do
    let old ← sizeOf p
    let start := base?.getD old
    let n := n?.getD 0
    let wanted : Nat := match sign with
      | [] => if o.has 's' then n else start
      | ['+'] => start + n
      | ['-'] => start - n
      | ['<'] => min start n
      | ['>'] => max start n
      | ['/'] => if n = 0 then start else start / n * n
      | _ => if n = 0 then start else (start + n - 1) / n * n
    match ← targetOf p with
    | .error (.os e) => if e = .noEntry ∧ o.has 'c' then return true
    | _ => pure ()
    match ← openOutput .both (Raw.path p) with
    | .ok (.file id) =>
      modify fun m =>
        match (m.files.get? id).map OpenFile.handle with
        | some (.file i) =>
          let inode := m.store.inode i
          let data := inode.data.take wanted ++ List.replicate (wanted - inode.data.length) 0
          { m with store := m.store.setInode i { inode with data } }
        | _ => m
      return true
    | .ok _ => return true
    | .error e =>
      complain name ("cannot open ".toList ++ Quote.always p ++ " for writing: ".toList
        ++ (refusalText e).toList)
      return false

/-- `mkfifo`: creates named pipes. -/
def mkfifo : Utility := withOptions "" "m" [("mode", 'm')] fun name o => do
  if o.operands = [] then return ← complainMissing name
  forEach o.operands fun p =>
    change name "cannot create fifo" p fun s cwd => s.makeEntry cwd (Raw.path p) .fifo

/-- `mktemp`: creates a file or a directory under a new name. -/
def mktemp : Utility := withOptions "duqt" "pS"
    [("directory", 'd'), ("dry-run", 'u'), ("quiet", 'q'), ("tmpdir", 'p'), ("suffix", 'S')] fun name o => do
  if 1 < o.operands.length then return ← complainUsage name "too many templates".toList
  let template := o.operands.headD "tmp.XXXXXXXXXX".toList
  let suffix := (o.value? 'S').getD ((template.reverse.takeWhile (· ≠ 'X')).reverse)
  let body := if o.has 'S' then template else template.take (template.length - suffix.length)
  let count := (body.reverse.takeWhile (· = 'X')).length
  if count < 3 then
    complain name ("too few X's in template ".toList ++ Quote.shown template)
    return 1
  let n ← fresh
  let letters := "0123456789abcdefghijklmnopqrstuvwxyz".toList
  let mark := (List.range count).map fun k =>
    letters.getD ((n * 7919 + (k + 1) * (k + n) * 104729) % letters.length) 'a'
  let file := body.take (body.length - count) ++ mark ++ suffix
  let usual := (((← environment).bindings.get? "TMPDIR".toList).map Variable.value).getD "/tmp".toList
  let dir? := if o.operands = [] ∨ o.has 't' ∨ o.has 'p' then some ((o.value? 'p').getD usual) else none
  let path := match dir? with
    | some dir => inside dir file
    | none => file
  let made ←
    if o.has 'u' then pure (.ok ())
    else if o.has 'd' then makeDirectory path 0o700
    else do
      match ← openOutput .anew (Raw.path path) 0o600 with
      | .ok _ => pure (.ok ())
      | .error e => pure (.error e)
  match made with
  | .ok () =>
    putLine path
    return 0
  | .error e =>
    if !o.has 'q' then
      complain name ("failed to create ".toList ++ (if o.has 'd' then "directory" else "file").toList
        ++ " via template ".toList ++ Quote.shown (match dir? with
          | some dir => inside dir template
          | none => template) ++ ": ".toList ++ (refusalText e).toList)
    return 1

/-! ## Permission bits -/

/-- Splits off a mode that begins with a dash, which is no option. -/
def protectMode (arguments : List Raw) : List Raw :=
  let isMode (a : Raw) : Bool :=
    match a with
    | '-' :: c :: _ => "rwxXstugo".toList.contains c
    | _ => false
  let before := arguments.takeWhile fun a => a.head? = some '-' && !isMode a && a ≠ ['-', '-']
  match arguments.drop before.length with
  | a :: rest => if isMode a then before ++ ['-', '-'] :: a :: rest else arguments
  | [] => arguments

/-- `chmod`: changes permission bits. -/
def chmod : Utility := fun name arguments =>
  withOptions "Rvcf" "r"
      [("recursive", 'R'), ("verbose", 'v'), ("changes", 'c'), ("silent", 'f'), ("quiet", 'f'),
       ("reference", 'r')] (fun name o => do
    let reference? := o.value? 'r'
    let (modeText, files) := match reference?, o.operands with
      | none, mode :: files => (mode, files)
      | _, files => ([], files)
    if o.operands = [] then return ← complainMissing name
    if files = [] then
      return ← complainUsage name ("missing operand after ".toList ++ Quote.shown modeText)
    let wish? ← match reference? with
      | none => pure (Mode.wish? modeText)
      | some file =>
        match ← targetOf file with
        | .ok (_, e) => pure (some (.exactly ((← get).store.modeOf e) 5))
        | .error e =>
          complainAbout name "failed to get attributes of" file e
          return 1
    match wish? with
    | none => complainUsage name ("invalid mode: ".toList ++ Quote.shown modeText)
    | some wish =>
      let mask := (← environment).mask
      let change (p : Raw) : Run Bool := do
        let failed (task : String) (e : IoError) : Run Bool := do
          if !o.has 'f' then complainAbout name task p e
          if o.has 'v' then putLine (Quote.always p ++ " could not be accessed".toList)
          return false
        match ← targetOf p with
        | .error e =>
          match ← entryAt p with
          | .ok _ =>
            if !o.has 'f' then
              complain name ("cannot operate on dangling symlink ".toList ++ Quote.always p)
            return false
          | .error _ => failed "cannot access" e
        | .ok (loc, e) =>
          let s := (← get).store
          let old := s.modeOf e
          let new := wish.apply mask e.isDir old
          let isOwn := match e with
            | .device _ => false
            | _ => true
          if !isOwn ∨ loc = [] then return ← failed "changing permissions of" (.os .notPermitted)
          match ← update fun s cwd => s.changeMode cwd (Raw.path p) new with
          | .error e => failed "changing permissions of" e
          | .ok () =>
            let shown (n : Nat) : Raw := Mode.octal 4 n ++ " (".toList ++ Mode.text n ++ ")".toList
            if old ≠ new ∧ (o.has 'v' ∨ o.has 'c') then
              putLine ("mode of ".toList ++ Quote.always p ++ " changed from ".toList ++ shown old
                ++ " to ".toList ++ shown new)
            else if o.has 'v' then
              putLine ("mode of ".toList ++ Quote.always p ++ " retained as ".toList ++ shown old)
            -- a mode that looks like an option may mean more than the mask lets through
            let naive := wish.apply 0 e.isDir old
            if modeText.head? = some '-' ∧ naive ≠ new then
              complain name (Quote.ifNeeded true p ++ ": new permissions are ".toList ++ Mode.text new
                ++ ", not ".toList ++ Mode.text naive)
              return false
            return true
      let rec below : (depth : Nat) → Raw → Run Bool
        | 0, _ => return true
        | depth + 1, p => do
          let mut whole ← change p
          let m ← get
          match m.store.lstat? m.environment.cwd (Raw.path p) with
          | .ok (loc, .dir mode) =>
            if m.store.allows (.dir mode) .read then
              for n in m.store.names loc do
                let q := inside p (Raw.ofPath n)
                let isLink := match ← entryAt q with
                  | .ok (_, .link _) => true
                  | _ => false
                if !isLink then
                  if !(← below depth q) then whole := false
            else
              complainAbout name "cannot read directory" p (.os .denied)
              whole := false
          | _ => pure ()
          return whole
      forEach files fun p => if o.has 'R' then below 4096 p else change p) 1 name (protectMode arguments)

/-! ## Blocks and times -/

/-- The operands of `dd`, each with its value. -/
def blockOperands : List String :=
  ["if", "of", "bs", "ibs", "obs", "cbs", "count", "skip", "seek", "conv", "status", "iflag", "oflag",
   "iseek", "oseek"]

/-- Changes bytes as a conversion of `dd` asks for. -/
def convertedBlock (kind : String) (data : Bytes) : Bytes :=
  let mapChars (f : Char → Char) : Bytes := Raw.bytes ((Raw.ofBytes data).map f)
  let rec swapped : Bytes → Bytes
    | a :: b :: rest => b :: a :: swapped rest
    | rest => rest
  match kind with
  | "ucase" => mapChars Char.toUpper
  | "lcase" => mapChars Char.toLower
  | "swab" => swapped data
  | _ => data

/-- Makes an open file be written from a place on; what it held behind that may be kept. -/
def beginAt (c : Channel) (place : Nat) (keeps : Bool) : Run Unit := do
  let m ← get
  match c with
  | .file id =>
    match m.files.get? id with
    | none => return ()
    | some f =>
      setFile id { f with offset := place }
      match f.handle with
      | .file i =>
        if keeps then return ()
        let inode := m.store.inode i
        let data := inode.data.take place ++ List.replicate (place - inode.data.length) 0
        modify fun m => { m with store := m.store.setInode i { inode with data } }
      | _ => return ()
  | _ => return ()

/-- `dd`: copies blocks. -/
def dd : Utility := withOptions "" "" [] fun name o => do
  let pairs := o.operands.map fun a =>
    let key := a.takeWhile (· ≠ '=')
    (String.ofList key, if key.length < a.length then some (a.drop (key.length + 1)) else none)
  match (o.operands.zip pairs).find? fun (_, key, v?) => !blockOperands.contains key || v?.isNone with
  | some (a, _) => return ← complainUsage name ("unrecognized operand ".toList ++ Quote.shown a)
  | none => pure ()
  let value? (key : String) : Option Raw := (pairs.reverse.lookup key).bind id
  let numeric := ["bs", "ibs", "obs", "cbs", "count", "skip", "seek", "iseek", "oseek"]
  match pairs.find? fun (key, v?) => numeric.contains key &&
      (match v?.bind count? with
        | some n => n = 0 && ["bs", "ibs", "obs", "cbs"].contains key
        | none => true) with
  | some (_, v?) =>
    complain name ("invalid number: ".toList ++ Quote.shown (v?.getD []))
    return 1
  | none => pure ()
  let conversions := ((value? "conv").map fun t => (t.splitOn ',').map String.ofList).getD []
  let known := ["notrunc", "ucase", "lcase", "swab", "noerror", "sync", "fsync", "fdatasync", "excl",
    "nocreat", "sparse", "block", "unblock", "ascii", "ebcdic", "ibm"]
  match conversions.find? (!known.contains ·) with
  | some c => return ← complainUsage name ("invalid conversion: ".toList ++ Quote.shown c.toList)
  | none => pure ()
  match value? "status" with
  | some t =>
    if !(["none", "noxfer", "progress"].contains (String.ofList t)) then
      return ← complainUsage name ("invalid status level: ".toList ++ Quote.shown t)
  | none => pure ()
  let number (key : String) (usual : Nat) : Nat := ((value? key).bind count?).getD usual
  let inSize := if (value? "bs").isSome then number "bs" 512 else number "ibs" 512
  let outSize := if (value? "bs").isSome then number "bs" 512 else number "obs" 512
  let wanted? := (value? "count").bind count?
  let skip := number "skip" (number "iseek" 0)
  let seek := number "seek" (number "oseek" 0)
  let read (d : Nat) : Run (Except Errno Bytes) := do
    match wanted? with
    | none => readAll d
    | some n => readBlocks d (n * inSize + skip * inSize) rounds []
  match joined (← withInput ((value? "if").getD ['-']) read) with
  | .error e =>
    let file := (value? "if").getD []
    if e = .os .isDirectory then
      complain name ("error reading ".toList ++ Quote.always file ++ ": Is a directory".toList)
    else
      complain name ("failed to open ".toList ++ Quote.always file ++ ": ".toList ++ (refusalText e).toList)
    return 1
  | .ok data =>
    if data.length < skip * inSize ∧ value? "status" ≠ some "none".toList then
      let file := match value? "if" with
        | some file => Quote.ifNeeded true file
        | none => Quote.always "standard input".toList
      complain name (file ++ ": cannot skip to specified offset".toList)
    let data := data.drop (skip * inSize)
    let full := data.length / inSize
    let part := if data.length % inSize = 0 then 0 else 1
    let data := if conversions.contains "sync" ∧ part = 1 then
        data ++ List.replicate (inSize - data.length % inSize) 0 else data
    let data := conversions.foldl (fun d kind => convertedBlock kind d) data
    match value? "of" with
    | none => put data
    | some file =>
      let keeps := conversions.contains "notrunc" || 0 < seek
      match ← openOutput (if keeps then .both else .anew) (Raw.path file) with
      | .error e =>
        complain name ("failed to open ".toList ++ Quote.always file ++ ": ".toList
          ++ (refusalText e).toList)
        return 1
      | .ok c =>
        beginAt c (seek * outSize) (conversions.contains "notrunc")
        withChannel 1 c do
          match ← write 1 data with
          | .ok () => pure ()
          | .error e =>
            complain name ("error writing ".toList ++ Quote.always file ++ ": ".toList ++ e.text.toList)
            throw (.exit 1)
    if value? "status" ≠ some "none".toList then
      let records (full part : Nat) : Raw := Raw.ofNat full ++ ['+'] ++ Raw.ofNat part
      let outFull := if (value? "bs").isSome then full else data.length / outSize
      let outPart := if (value? "bs").isSome then part else if data.length % outSize = 0 then 0 else 1
      complainLine (records full part ++ " records in".toList)
      complainLine (records outFull outPart ++ " records out".toList)
      if value? "status" ≠ some "noxfer".toList then
        complainLine (Raw.ofNat data.length ++ (if data.length = 1 then " byte" else " bytes").toList
          ++ " copied, 0.0001 s, 0.0 kB/s".toList)
    return 0
where
  -- reads at most a number of bytes
  readBlocks (d n : Nat) : (fuel : Nat) → List Bytes → Run (Except Errno Bytes)
    | 0, read => return .ok read.reverse.flatten
    | fuel + 1, read => do
      let known := read.foldl (fun k b => k + b.length) 0
      if n ≤ known then return .ok read.reverse.flatten
      match ← readSome d (min blockSize (n - known)) with
      | .error e => return .error e
      | .ok [] => return .ok read.reverse.flatten
      | .ok data => readBlocks d n fuel (data :: read)

/-- The length of a time such as `1.5m`, in millionths of a second. -/
def duration? (t : Raw) : Option Nat :=
  let (body, factor) : Raw × Nat := match t.getLast? with
    | some 's' => (t.dropLast, 1)
    | some 'm' => (t.dropLast, 60)
    | some 'h' => (t.dropLast, 3600)
    | some 'd' => (t.dropLast, 86400)
    | _ => (t, 1)
  match Fraction.read? body with
  | some f =>
    if f.units < 0 then none
    else some (f.units.toNat * factor * 1000000 / Fraction.ten f.places)
  | none => none

def waitUntil (moment : Nat) : (fuel : Nat) → Run Unit
  | 0 => return ()
  | fuel + 1 => do
    if moment ≤ (← get).clock then return ()
    pause (.time moment)
    waitUntil moment fuel

/-- `sleep`: waits. -/
def sleep : Utility := withOptions "" "" [] fun name o => do
  if o.operands = [] then return ← complainMissing name
  match o.operands.find? fun a => (duration? a).isNone with
  | some a => complainUsage name ("invalid time interval ".toList ++ Quote.shown a)
  | none =>
    let time := o.operands.foldl (fun n a => n + (duration? a).getD 0) 0
    waitUntil ((← get).clock + time) 1000000
    return 0

end LuaTree.Shell.Utility
