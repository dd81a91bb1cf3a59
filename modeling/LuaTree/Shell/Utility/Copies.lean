import LuaTree.Shell.Utility.Files

/-!
# Utilities that copy, move and link

All of them take sources and a target; a target that is a directory takes the sources in under their last
names.
-/

namespace LuaTree.Shell.Utility

open Run

/-! ## Targets -/

/-- Goes through sources and the places that are meant for them. -/
def towards (name : Raw) (o : Options) (entersDir : Bool) (act : Raw → Raw → Run Bool) : Run Nat := do
  match o.value? 't' with
  | some dir =>
    if o.operands = [] then return ← complainMissing name "file operand"
    match ← targetOf dir with
    | .ok (_, .dir _) => forEach o.operands fun a => act a (inside dir (lastName a))
    | .ok _ =>
      complainAbout name "target directory" dir (.os .notDirectory)
      return 1
    | .error e =>
      complainAbout name "target directory" dir e
      return 1
  | none =>
    match o.operands.reverse with
    | [] => complainMissing name "file operand"
    | [a] => complainUsage name ("missing destination file operand after ".toList ++ Quote.always a)
    | target :: sources =>
      if o.has 'T' then
        match sources.drop 1 with
        | [] => return ← forEach sources fun a => act a target
        | _ => return ← complainUsage name ("extra operand ".toList ++ Quote.always target)
      let intoDir := (← isDirectory target) && entersDir
      if !intoDir ∧ 1 < sources.length then
        let e : IoError := match ← targetOf target with
          | .ok _ => .os .notDirectory
          | .error e => e
        complainAbout name "target" target e
        return 1
      forEach sources.reverse fun a => act a (if intoDir then inside target (lastName a) else target)

/-- Whether two paths lead to one file; a link at the end of either may be taken itself. -/
def areSame (follow : Bool) (a b : Raw) : Run Bool := do
  let find := if follow then targetOf else entryAt
  match ← find a, ← find b with
  | .ok (_, .file i), .ok (_, .file j) => return i = j
  | .ok (l, _), .ok (m, _) => return l = m
  | _, _ => return false

/-- Says that two names stand for one file. -/
def complainSame (name a b : Raw) : Run Bool := do
  complain name (Quote.always a ++ " and ".toList ++ Quote.always b ++ " are the same file".toList)
  return false

def liesWithin (outer inner : Location) : Bool := outer.isPrefixOf inner

/-- The location that a path names or would name. -/
def placeOf? (p : Raw) : Run (Option Location) := do
  let m ← get
  match m.store.locate m.environment.cwd (Raw.path p) with
  | .ok { dir, name? := some n, .. } => return some (dir ++ [n])
  | .ok { dir, .. } => return some dir
  | .error _ => return none

/-! ## Copying -/

/-- How `cp` copies. -/
structure Copying where
  name : Raw
  recursive : Bool := false -- whether directories are copied with all they hold
  follows : Bool := true
  keeps : Bool := false -- whether permission bits are kept
  force : Bool := false -- whether a file that cannot be opened is removed before
  spares : Bool := false -- whether existing files stay as they are
  asks : Bool := false -- whether existing files are asked about
  verbose : Bool := false
  hard : Bool := false -- whether another name is given instead
  symbolic : Bool := false -- whether a link is made instead
  backs : Bool := false -- whether existing files are kept under another name

namespace Copying

def tell (k : Copying) (source target : Raw) : Run Unit := do
  if k.verbose then putLine (Quote.always source ++ " -> ".toList ++ Quote.always target)

def contents (k : Copying) (source target : Raw) (data : Bytes) (mode : Nat) : Run Bool := do
  let wasThere : Bool := match ← targetOf target with
    | .ok (_, .file _) => true
    | _ => false
  let failed (e : IoError) : Run Bool := do
    complainAbout k.name "cannot create regular file" target e
    return false
  let mut answer ← openOutput .anew (Raw.path target) mode
  match answer with
  | .error _ =>
    if k.force ∧ wasThere then
      discard (updateAt (Raw.path target) fun s cwd => s.removeFile cwd (Raw.path target))
      answer ← openOutput .anew (Raw.path target) mode
  | .ok _ => pure ()
  match answer with
  | .error e =>
    -- a name that ends in a separator can only be a directory's
    failed (if target.getLast? = some '/' ∧ e = .os .isDirectory then .os .notDirectory else e)
  | .ok c =>
    k.tell source target
    let written ← withChannel 1 c (write 1 data)
    match written with
    | .error e =>
      complain k.name ("error writing ".toList ++ Quote.always target ++ ": ".toList ++ e.text.toList)
      return false
    | .ok () =>
      if k.keeps then
        discard (update fun s cwd => s.changeMode cwd (Raw.path target) mode)
      return true

/-- Puts a new entry in the place of what stands there. -/
def replaceBy (k : Copying) (task : String) (source target : Raw)
    (make : Store → Location → Except IoError Store) : Run Bool := do
  match ← entryAt target with
  | .ok (_, .dir _) => pure ()
  | .ok _ =>
    if k.force ∨ task = "" then
      discard (updateAt (Raw.path target) fun s cwd => s.removeFile cwd (Raw.path target))
  | .error _ => pure ()
  match ← updateAt (Raw.path target) make with
  | .ok () =>
    k.tell source target
    return true
  | .error e =>
    let task := if task = "" then "cannot create symbolic link" else task
    complainAbout k.name task target e
    return false

/-- A whole copy. -/
structure Goal where
  loc? : Option Location := none -- the first directory that has been made for it
  source : Raw -- what is copied, as it was named
  target : Raw -- the copy, as it was named

/-- Says that a copy would hold itself. -/
def Goal.complain (g : Goal) (name : Raw) : Run Unit :=
  Utility.complain name ("cannot copy a directory, ".toList ++ Quote.always g.source
    ++ ", into itself, ".toList ++ Quote.always g.target)

/-- Copies what a path names, down to some depth; the goal is where the whole copy goes, unless this is the
whole copy. -/
def copy (k : Copying) : (depth : Nat) → (goal? : Option Goal) → Raw → Raw → Run Bool
  | 0, _, _, _ => return false
  | depth + 1, goal?, source, target => do
    let m ← get
    let s := m.store
    match ← (if k.follows then targetOf else entryAt) source with
    | .error e =>
      complainAbout k.name "cannot stat" source e
      return false
    | .ok (loc, .dir mode) =>
      if !k.recursive then
        complain k.name ("-r not specified; omitting directory ".toList ++ Quote.always source)
        return false
      let mut goal : Goal := goal?.getD { source, target }
      match ← targetOf target with
      | .ok (_, .dir _) => pure ()
      | .ok _ =>
        complain k.name ("cannot overwrite non-directory ".toList ++ Quote.always target
          ++ " with directory ".toList ++ Quote.always source)
        return false
      | .error _ =>
        let bits := if k.keeps then mode else Mode.without mode m.environment.mask
        match ← makeDirectory target (bits ||| 0o700) with
        | .error e =>
          complainAbout k.name "cannot create directory" target e
          return false
        | .ok () =>
          k.tell source target
          if goal.loc?.isNone then goal := { goal with loc? := ← placeOf? target }
      if !(s.allows (.dir mode) .read) then
        complainAbout k.name "cannot access" source (.os .denied)
        return false
      let mut whole := true
      let made := goal
      let isGoal (n : PathText) : Bool := made.loc? = some (loc ++ [n])
      let holdsGoal (n : PathText) : Bool := made.loc?.any (liesWithin (loc ++ [n]))
      for n in ((← get).store.names loc).filter (!isGoal ·) do
        if !(← copy k depth (some made) (inside source (Raw.ofPath n)) (inside target (Raw.ofPath n))) then
          whole := false
        if holdsGoal n then return false
      -- the copy has been made before it is come upon, and nothing is copied after that
      if made.loc?.any fun g => g.dropLast = loc ∧ g ≠ [] then
        made.complain k.name
        return false
      if k.keeps then discard (update fun s cwd => s.changeMode cwd (Raw.path target) mode)
      return whole
    | .ok (_, e) =>
      match ← entryAt target with
      | .ok (_, there) =>
        if ← areSame k.follows source target then
          return ← complainSame k.name source target
        if ← areSame true source target then
          if k.follows then return ← complainSame k.name source target
        if ← isDirectory target then
          if there.isDir then
            complain k.name ("cannot overwrite directory ".toList ++ Quote.always target
              ++ " with non-directory".toList)
            return false
        if k.spares then return true
        if k.asks then
          if !(← confirmed (k.name ++ ": overwrite ".toList ++ Quote.always target ++ "? ".toList)) then
            return false
        if k.backs then
          let old := target ++ ['~']
          discard (updateAt (Raw.path target) fun s cwd => do
            let (loc, _) ← s.lstat? cwd (Raw.path target)
            s.moveFile loc cwd (Raw.path old))
        match there, ← targetOf target with
        | .link _, .error _ =>
          if e ≠ .fifo ∧ k.follows ∧ !k.force then
            complain k.name ("not writing through dangling symlink ".toList ++ Quote.always target)
            return false
        | _, _ => pure ()
      | .error _ => pure ()
      if k.hard then
        return ← k.replaceBy "cannot create hard link" source target fun s cwd =>
          s.makeHardLink cwd (Raw.path source) (Raw.path target)
      if k.symbolic then
        return ← k.replaceBy "cannot create symbolic link" source target fun s cwd =>
          s.makeLink cwd (Raw.path source) (Raw.path target)
      match e with
      | .link linked =>
        k.replaceBy "" source target fun s cwd => s.makeLink cwd linked (Raw.path target)
      | .fifo =>
        if k.recursive then
          k.replaceBy "cannot create fifo" source target fun s cwd =>
            s.makeEntry cwd (Raw.path target) .fifo
        else k.contents source target [] 0o666
      | .file i =>
        if !(s.allows e .read) then
          complain k.name ("cannot open ".toList ++ Quote.always source
            ++ " for reading: Permission denied".toList)
          return false
        k.contents source target (s.inode i).data (s.inode i).mode
      | _ => k.contents source target [] 0o666

end Copying

/-- The sources among the operands that have the last name of an earlier one. -/
def repeatedSources (o : Options) : List Raw :=
  let sources := if o.has 't' then o.operands else o.operands.dropLast
  let names := sources.map lastName
  names.zipIdx.filterMap fun (n, k) => if (names.take k).contains n then sources[k]? else none

/-- Whether a target has been made from another source just now, which is complained about. -/
def isTaken (name : Raw) (repeats : List Raw) (source target : Raw) : Run Bool := do
  if repeats.contains source ∧ (← entryAt target).toOption.isSome then
    complain name ("will not overwrite just-created ".toList ++ Quote.always target ++ " with ".toList
      ++ Quote.always source)
    return true
  return false

/-- `cp`: copies files. -/
def cp : Utility := withOptions "rRafpvTdLPHlsnibux" "tS"
    [("recursive", 'r'), ("force", 'f'), ("archive", 'a'), ("verbose", 'v'), ("no-target-directory", 'T'),
     ("target-directory", 't'), ("dereference", 'L'), ("no-dereference", 'P'), ("link", 'l'),
     ("symbolic-link", 's'), ("no-clobber", 'n'), ("interactive", 'i'), ("update", 'u'),
     ("preserve", 'p'), ("parents", 'A'), ("one-file-system", 'x'), ("suffix", 'S'), ("backup", 'b')]
    fun name o => do
  let recursive := o.has 'r' || o.has 'R' || o.has 'a'
  let follows := match o.last? "LPda" with
    | some 'L' => true
    | some _ => false
    | none => !recursive
  let k : Copying :=
    { name, recursive, follows, keeps := o.has 'p' || o.has 'a', force := o.has 'f'
      spares := o.last? "nif" = some 'n', asks := o.last? "nif" = some 'i', verbose := o.has 'v'
      hard := o.has 'l', symbolic := o.has 's', backs := o.has 'b' }
  if k.spares then
    complain name ("warning: behavior of -n is non-portable and may change in future; ".toList
      ++ "use --update=none instead".toList)
  let repeats := repeatedSources o
  towards name o true fun source target => do
    if ← isTaken name repeats source target then return false
    k.copy 4096 none source target

/-- `install`: copies files and gives them permission bits. -/
def install : Utility := withOptions "dDvTcspC" "mtgo"
    [("directory", 'd'), ("mode", 'm'), ("target-directory", 't'), ("verbose", 'v')] fun name o => do
  let wish := ((o.value? 'm').bind Mode.wish?).getD (.exactly 0o755 4)
  if o.has 'm' ∧ ((o.value? 'm').bind Mode.wish?).isNone then
    complain name ("invalid mode ".toList ++ Quote.shown ((o.value? 'm').getD []))
    return 1
  if o.has 'd' then
    if o.operands = [] then return ← complainMissing name "file operand"
    return ← forEach o.operands fun p => do
      for q in waypoints p do
        if !(← isDirectory q) then
          match ← makeDirectory q 0o755 with
          | .ok () => if o.has 'v' then
              putLine (name ++ ": creating directory ".toList ++ Quote.always q)
          | .error e =>
            complainAbout name "cannot create directory" q e
            return false
      discard (update fun s cwd => s.changeMode cwd (Raw.path p) (wish.apply 0 true 0))
      return true
  towards name o true fun source target => do
    match ← targetOf source with
    | .error e =>
      complainAbout name "cannot stat" source e
      return false
    | .ok (_, .dir _) =>
      complain name ("omitting directory ".toList ++ Quote.always source)
      return false
    | .ok (_, e) =>
      if ← areSame true source target then return ← complainSame name source target
      if o.has 'D' then
        for q in waypoints (directoryName target) do
          if !(← isDirectory q) then discard (makeDirectory q 0o755)
      if (← entryAt target).toOption.isSome then
        discard (updateAt (Raw.path target) fun s cwd => s.removeFile cwd (Raw.path target))
      let m ← get
      let data := match e with
        | .file i => (m.store.inode i).data
        | _ => []
      let k : Copying := { name, verbose := o.has 'v', keeps := true }
      k.contents source target data (wish.apply 0 false 0)

/-! ## Moving -/

def moved (source target : PathText) (s : Store) (cwd : Location) : Except IoError Store := do
  let (loc, e) ← s.lstat? cwd source
  if !e.isDir then s.moveFile loc cwd target
  else
    match ← s.locate cwd target with
    | { name? := none, .. } => throw (.os .busy)
    | { dir, name? := some n, .. } =>
      let place := dir ++ [n]
      if loc.isPrefixOf place then throw (.os .invalidArgument)
      match s.entry? place with
      | some (.dir _) => if s.names place ≠ [] then throw (.os .notEmpty)
      | some _ => throw (.os .notDirectory)
      | none => pure ()
      return s.moveTree loc place

/-- `mv`: gives entries another name. -/
def mv : Utility := withOptions "finvTub" "tS"
    [("force", 'f'), ("interactive", 'i'), ("no-clobber", 'n'), ("verbose", 'v'), ("update", 'u'),
     ("no-target-directory", 'T'), ("target-directory", 't'), ("backup", 'b')] fun name o => do
  let repeats := repeatedSources o
  towards name o true fun source target => do
    let plainSource := if withoutSlashes source = [] then source else withoutSlashes source
    match ← entryAt source with
    | .error e =>
      complainAbout name "cannot stat" source e
      return false
    | .ok (loc, e) =>
      if ← isTaken name repeats source target then return false
      let last := lastName source
      if last = ['.'] ∨ last = ['.', '.'] then
        complain name ("cannot move ".toList ++ Quote.always source ++ " to ".toList ++ Quote.always target
          ++ ": Device or resource busy".toList)
        return false
      let subdirectory : Run Bool := do
        complain name ("cannot move ".toList ++ Quote.always source ++ " to a subdirectory of itself, ".toList
          ++ Quote.always target)
        return false
      match ← entryAt (if e.isDir then withoutSlashes target else target) with
      | .ok (there, f) =>
        if there = loc then
          if e.isDir then return ← subdirectory
          return ← complainSame name source target
        if !e.isDir ∧ (← areSame false source target) then return ← complainSame name source target
        if e.isDir ∧ !f.isDir then
          complain name ("cannot overwrite non-directory ".toList ++ Quote.always target
            ++ " with directory ".toList ++ Quote.always source)
          return false
        if !e.isDir ∧ f.isDir then
          complain name ("cannot overwrite directory ".toList ++ Quote.always target
            ++ " with non-directory".toList)
          return false
        if o.last? "fin" = some 'n' then
          complain name ("not replacing ".toList ++ Quote.always target)
          return false
        if o.last? "fin" = some 'i' then
          if !(← confirmed (name ++ ": overwrite ".toList ++ Quote.always target ++ "? ".toList)) then
            return false
        if o.has 'b' then
          discard (updateAt (Raw.path target) fun s cwd => moved (Raw.path target)
            (Raw.path (target ++ ['~'])) s cwd)
      | .error _ => pure ()
      let m ← get
      let mayLeave := mayChange m.store m.environment.cwd (Raw.path plainSource)
      let answer ←
        if !mayLeave then pure (.error (.os .denied))
        else updateAt (Raw.path target) (moved (Raw.path plainSource) (Raw.path target))
      match answer with
      | .ok () =>
        if o.has 'v' then
          putLine ("renamed ".toList ++ Quote.always source ++ " -> ".toList ++ Quote.always target)
        return true
      | .error e =>
        if e = .os .invalidArgument then return ← subdirectory
        if e = .os .notEmpty then
          complain name ("cannot overwrite ".toList ++ Quote.always target ++ ": Directory not empty".toList)
        else
          complain name ("cannot move ".toList ++ Quote.always source ++ " to ".toList ++ Quote.always target
            ++ ": ".toList ++ (refusalText e).toList)
        return false

/-! ## Linking -/

/-- `ln`: gives files further names, or creates links. -/
def ln : Utility := withOptions "sfnvrTLPib" "tS"
    [("symbolic", 's'), ("force", 'f'), ("no-dereference", 'n'), ("verbose", 'v'), ("relative", 'r'),
     ("no-target-directory", 'T'), ("target-directory", 't'), ("logical", 'L'), ("physical", 'P'),
     ("interactive", 'i'), ("backup", 'b')] fun name o => do
  let o := match o.operands, o.has 't' with
    | [a], false => { o with operands := [a, ['.']] }
    | _, _ => o
  let target := o.operands.getLastD []
  let isLink := match ← entryAt (withoutSlashes target) with
    | .ok (_, .link _) => true
    | _ => false
  towards name o (!(o.has 'n' && isLink)) fun source target => do
    let target := if target = "./".toList ++ lastName source then lastName source else target
    let symbolic := o.has 's'
    let tell : Run Unit := do
      if o.has 'v' then
        putLine (Quote.always target ++ (if symbolic then " -> " else " => ").toList ++ Quote.always source)
    if !symbolic then
      match ← (if o.last? "LP" = some 'L' then targetOf else entryAt) source with
      | .error e =>
        complainAbout name "failed to access" source e
        return false
      | .ok (_, .dir _) =>
        complain name (Quote.ifNeeded true source ++ ": hard link not allowed for directory".toList)
        return false
      | .ok _ => pure ()
    if o.has 'f' then
      -- a further name of the same file is no hindrance
      let sourceEntry ← if symbolic then targetOf source else entryAt source
      match sourceEntry, ← entryAt target with
      | .ok (loc, _), .ok (there, _) => if loc = there then return ← complainSame name source target
      | _, _ => pure ()
      match ← entryAt target with
      | .ok (_, .dir _) =>
        complain name (Quote.ifNeeded true target ++ ": cannot overwrite directory".toList)
        return false
      | .ok _ => discard (updateAt (Raw.path target) fun s cwd => s.removeFile cwd (Raw.path target))
      | .error _ => pure ()
    let cwd := Raw.ofPath (← environment).cwd.text
    let full (p : Raw) : Raw := if p.head? = some '/' then p else inside cwd p
    let source :=
      if symbolic && o.has 'r' then relativePath (directoryName (full target)) (full source) else source
    let answer ← updateAt (Raw.path target) fun s cwd =>
      if symbolic then s.makeLink cwd (Raw.path source) (Raw.path target)
      else
        let real := if o.last? "LP" = some 'L' then
            match s.canonical? cwd (Raw.path source) with
            | .ok p => p
            | .error _ => Raw.path source
          else Raw.path source
        s.makeHardLink cwd real (Raw.path target)
    match answer with
    | .ok () =>
      tell
      return true
    | .error e =>
      if symbolic then
        complain name ("failed to create symbolic link ".toList ++ Quote.always target
          ++ (if source = [] then " -> ''".toList else []) ++ ": ".toList ++ (refusalText e).toList)
      else
        complain name ("failed to create hard link ".toList ++ Quote.always target
          ++ (if e = .os .alreadyExists then [] else " => ".toList ++ Quote.always source) ++ ": ".toList
          ++ (refusalText e).toList)
      return false

end LuaTree.Shell.Utility
