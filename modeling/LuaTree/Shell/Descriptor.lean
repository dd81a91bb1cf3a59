import LuaTree.Shell.Machine

/-!
# Descriptors

Reading and writing through descriptors, and opening files. Whoever reads an empty pipe waits until
something is written to it or nobody is left who could; whoever writes to a full one waits for room, and a
pipe that nobody reads any more ends the process that writes to it.

Files are opened for a user who owns everything but the machine's own directories, so the owner's permission
bits decide.
-/

namespace LuaTree.Shell.Run

/-! ## Who holds what -/

def holds (c : Channel) (e : Environment) : Bool :=
  let within (ds : FiniteMap Nat Channel) : Bool := ds.entries.any fun p => p.2 = c
  within e.descriptors || e.kept.any within

/-- Whether some other process has a descriptor that leads somewhere. -/
def heldElsewhere (m : Machine) (c : Channel) : Bool :=
  m.births.any (fun b => holds c b.environment) || m.others.any (holds c)

/-- Whether any process has a descriptor that leads somewhere. -/
def isHeld (m : Machine) (c : Channel) : Bool := holds c m.environment || heldElsewhere m c

def process : Run Nat := return (← environment).processes.headD 0

def channel? (descriptor : Nat) : Run (Option Channel) :=
  return (← environment).descriptors.get? descriptor

def setFile (id : Nat) (f : OpenFile) : Run Unit :=
  modify fun m => { m with files := m.files.insert id f }

/-! ## Writing -/

/-- Puts bytes at a place of a text; what is missing before it is zero. -/
def overwritten (old : Bytes) (offset : Nat) (data : Bytes) : Bytes :=
  let before := old.take offset
  before ++ List.replicate (offset - before.length) 0 ++ data ++ old.drop (offset + data.length)

def writeFile (id : Nat) (f : OpenFile) (data : Bytes) : Run (Except Errno Unit) := do
  if !f.writes then return .error .badDescriptor
  match f.handle with
  | .file i =>
    let m ← get
    let inode := m.store.inode i
    let size := inode.data.length
    let offset := if f.atEnd then size else f.offset
    let store :=
      if offset = size then m.store.append f.handle data
      else m.store.setInode i { inode with data := overwritten inode.data offset data }
    set ({ m with store, files := m.files.insert id { f with offset := offset + data.length } }.touched i)
    return .ok ()
  | .device .full => return if data = [] then .ok () else .error .noSpace
  | .device _ => return .ok ()
  | .dir => return .error .badDescriptor

/-- Writes to a pipe, as often as it takes. -/
def writePipe (pipe : Nat) : (fuel : Nat) → Bytes → Run (Except Errno Unit)
  | 0, _ => return .ok ()
  | fuel + 1, data => do
    let m ← get
    if !isHeld m (.reader pipe) then
      let e := m.environment
      if e.traps.get? "13".toList = some [] then return .error .brokenPipe
      throw (.killed (e.processes.headD 0) 13)
    let p := (m.pipes.get? pipe).getD {}
    let room := Pipe.capacity - p.size
    let part := data.take room
    if part ≠ [] then set { m with pipes := m.pipes.insert pipe (p.push part) }
    let rest := data.drop room
    if rest = [] then return .ok ()
    pause (.room pipe)
    writePipe pipe fuel rest

def write (descriptor : Nat) (data : Bytes) : Run (Except Errno Unit) := do
  match ← channel? descriptor with
  | some (.sink k) =>
    modify fun m => { m with sinks := m.sinks.insert k (data :: (m.sinks.get? k).getD []) }
    return .ok ()
  | some (.file id) =>
    match (← get).files.get? id with
    | some f => writeFile id f data
    | none => return .error .badDescriptor
  | some (.writer pipe) => if data = [] then return .ok () else writePipe pipe (data.length + 8) data
  | _ => return .error .badDescriptor

def writeText (descriptor : Nat) (t : Raw) : Run (Except Errno Unit) := write descriptor (Raw.bytes t)

def say (t : Raw) : Run Unit := discard (writeText 1 t)

def complainLine (t : Raw) : Run Unit := discard (writeText 2 (t ++ ['\n']))

/-! ## Reading -/

/-- Reads at most `n` bytes from a pipe; none when nobody can write to it any more. -/
def readPipe (pipe : Nat) (n : Nat) : (fuel : Nat) → Run (Except Errno Bytes)
  | 0 => return .ok []
  | fuel + 1 => do
    let m ← get
    let p := (m.pipes.get? pipe).getD {}
    if 0 < p.size then
      let (data, p) := p.take n
      set { m with pipes := m.pipes.insert pipe p }
      return .ok data
    else if !isHeld m (.writer pipe) then return .ok []
    else
      pause (.input pipe)
      readPipe pipe n fuel

/-- What an open file holds from the place that has been reached. -/
def remaining (m : Machine) (f : OpenFile) : Bytes :=
  match f.handle with
  | .file i => (m.store.inode i).data.drop f.offset
  | _ => []

/-- Reads at most `n` bytes from a descriptor; none at the end. -/
def readSome (descriptor n : Nat) : Run (Except Errno Bytes) := do
  match ← channel? descriptor with
  | some (.reader pipe) => readPipe pipe n 1000000
  | some (.file id) =>
    let m ← get
    match m.files.get? id with
    | none => return .error .badDescriptor
    | some f =>
      if !f.reads then return .error .badDescriptor
      match f.handle with
      | .file _ =>
        let data := (remaining m f).take n
        setFile id { f with offset := f.offset + data.length }
        return .ok data
      | .dir => return .error .isDirectory
      | .device .zero | .device .full => return .ok (List.replicate n 0)
      | .device _ => return .ok []
  | _ => return .error .badDescriptor

/-- How many bytes are read at a time. -/
def blockSize : Nat := 65536

/-- Reads everything up to the end, block by block. -/
def readRest (descriptor : Nat) : (fuel : Nat) → List Bytes → Run (Except Errno Bytes)
  | 0, read => return .ok read.reverse.flatten
  | fuel + 1, read => do
    match ← readSome descriptor blockSize with
    | .error e => return .error e
    | .ok [] => return .ok read.reverse.flatten
    | .ok data => readRest descriptor fuel (data :: read)

def readAll (descriptor : Nat) : Run (Except Errno Bytes) := readRest descriptor 1000000 []

/-- Does something with every block up to the end, as long as it asks for more. -/
def eachBlock (descriptor : Nat) (act : Bytes → Run Bool) : Run (Except Errno Unit) :=
  go rounds
where
  -- goes on with the next block
  go : (fuel : Nat) → Run (Except Errno Unit)
    | 0 => return .ok ()
    | fuel + 1 => do
      match ← readSome descriptor blockSize with
      | .error e => return .error e
      | .ok [] => return .ok ()
      | .ok data => if ← act data then go fuel else return .ok ()

/-- Puts bytes back that have been read from a file; elsewhere they are lost. -/
def unread (descriptor n : Nat) : Run Unit := do
  match ← channel? descriptor with
  | some (.file id) =>
    match (← get).files.get? id with
    | some f => setFile id { f with offset := f.offset - n }
    | none => return ()
  | _ => return ()

/-- Puts bytes back that have been read, wherever they came from. -/
def giveBack (descriptor : Nat) (data : Bytes) : Run Unit := do
  match ← channel? descriptor with
  | some (.reader pipe) =>
    modify fun m =>
      let p := (m.pipes.get? pipe).getD {}
      { m with pipes := m.pipes.insert pipe { p with front := data ++ p.front, size := p.size + data.length } }
  | _ => unread descriptor data.length

/-- Reads up to a delimiter, which is taken as well; tells whether it was met. -/
def readUntil (descriptor : Nat) (delimiter : UInt8) : (fuel : Nat) → List Bytes →
    Run (Except Errno (Bytes × Bool))
  | 0, read => return .ok (read.reverse.flatten, false)
  | fuel + 1, read => do
    match ← readSome descriptor 4096 with
    | .error e => return .error e
    | .ok [] => return .ok (read.reverse.flatten, false)
    | .ok data =>
      let part := data.takeWhile (· ≠ delimiter)
      if part.length < data.length then
        giveBack descriptor (data.drop (part.length + 1))
        return .ok ((part :: read).reverse.flatten, true)
      else readUntil descriptor delimiter fuel (part :: read)

/-! ## Opening -/

/-- Forgets open files and pipes that nobody holds, when there are many. -/
def sweep : Run Unit := do
  let m ← get
  if m.files.size + m.pipes.size < 64 then return ()
  set { m with
    files := m.files.keep fun id => isHeld m (.file id)
    pipes := m.pipes.keep fun id => isHeld m (.reader id) || isHeld m (.writer id) }

def opened (f : OpenFile) : Run Channel := do
  sweep
  let id ← fresh
  setFile id f
  return .file id

def parentOf (p : PathText) : PathText :=
  match PathText.parent? p with
  | some [] | none => if PathText.isAbsolute p then ['/'] else ['.']
  | some dir => dir

/-- Whether entries of the directory above a path may be created and removed. -/
def mayChange (s : Store) (cwd : Location) (p : PathText) : Bool :=
  match s.stat? cwd (parentOf p) with
  | .ok (_, e) => s.allows e .write && s.allows e .run
  | .error _ => true

def openInput (p : PathText) : Run (Except IoError Channel) := do
  let m ← get
  match m.store.stat? m.environment.cwd p with
  | .error e => return .error e
  | .ok (_, e) =>
    if !m.store.allows e .read then return .error (.os .denied)
    match m.store.openRead m.environment.cwd p with
    | .error e => return .error e
    | .ok (.device (.descriptor n)) =>
      match m.environment.descriptors.get? n with
      | some c => return .ok c
      | none => return .error (.os .noEntry)
    | .ok handle => return .ok (← opened { handle, reads := true })

/-- How a file is opened for writing. -/
inductive Opening where
  | anew -- what it holds is dropped
  | atEnd -- what is written comes after what it holds
  | both -- it can be read as well, and what is written comes over what it holds
  deriving DecidableEq

/-- Opens what a path leads to for writing; a missing file is created. -/
def openOutput (way : Opening) (p : PathText) (mode : Nat := 0o666) : Run (Except IoError Channel) := do
  let m ← get
  let cwd := m.environment.cwd
  let file (handle : Handle) : OpenFile :=
    { handle, atEnd := way = .atEnd, writes := true, reads := way = .both }
  match m.store.lookup cwd .create p with
  | .error e => return .error e
  | .ok (.vacant dir _) =>
    if !(( m.store.entry? dir).all fun e => m.store.allows e .write) then return .error (.os .denied)
    match m.store.openWrite cwd p 0o666 with
    | .error e => return .error e
    | .ok (handle, store) =>
      set { m with store := store.setMode handle (mode &&& (0o7777 ^^^ m.environment.mask)) }
      match handle with
      | .file i => modify (·.touched i)
      | _ => pure ()
      return .ok (← opened (file handle))
  | .ok (.entry _ e) =>
    if !m.store.allows e .write then return .error (.os .denied)
    match e with
    | .file i =>
      if way = .anew then
        set ({ m with store := m.store.setInode i { m.store.inode i with data := [] } }.touched i)
      return .ok (← opened (file (.file i)))
    | .dir _ => return .error (.os .isDirectory)
    | .device (.descriptor n) =>
      match m.environment.descriptors.get? n with
      | some c => return .ok c
      | none => return .error (.os .noEntry)
    | .device .terminal => return .error (.os .noDevice)
    | .device d => return .ok (← opened (file (.device d)))
    | _ => return .ok (← opened (file (.device .null)))

def textSource (data : Bytes) : Run Channel := do
  sweep
  let id ← fresh
  modify fun m => { m with pipes := m.pipes.insert id (Pipe.push {} data) }
  return .reader id

/-- A buffer that collects bytes. -/
def newSink : Run Nat := fresh

def collected (m : Machine) (k : Nat) : Bytes := ((m.sinks.get? k).getD []).reverse.flatten

/-- Makes a descriptor lead somewhere, or nowhere. -/
def setDescriptor (descriptor : Nat) (c? : Option Channel) : Run Unit :=
  modifyEnvironment fun e =>
    { e with descriptors := match c? with
        | some c => e.descriptors.insert descriptor c
        | none => e.descriptors.erase descriptor }

/-- Puts the descriptors back after something has run. -/
def keepingDescriptors {α : Type} (act : Run α) : Run α :=
  restoring (fun old new => { new with descriptors := old.descriptors, kept := old.kept }) do
    modifyEnvironment fun e => { e with kept := e.descriptors :: e.kept }
    act

/-- Puts some descriptors back after something has run. -/
def keeping {α : Type} (descriptors : List Nat) (act : Run α) : Run α :=
  restoring (fun old new =>
    { new with
      kept := old.kept
      descriptors := descriptors.foldl (fun ds d =>
        match old.descriptors.get? d with
        | some c => ds.insert d c
        | none => ds.erase d) new.descriptors }) do
    modifyEnvironment fun e => { e with kept := e.descriptors.keep descriptors.contains :: e.kept }
    act

/-- Runs something with a descriptor leading elsewhere. -/
def withChannel {α : Type} (descriptor : Nat) (c : Channel) (act : Run α) : Run α :=
  keepingDescriptors do
    setDescriptor descriptor (some c)
    act

/-! ## Files as a whole -/

def readFile (p : PathText) : Run (Except IoError Bytes) := do
  match ← openInput p with
  | .error e => return .error e
  | .ok c => keepingDescriptors do
    setDescriptor 9999 (some c)
    match ← readAll 9999 with
    | .ok data => return .ok data
    | .error e => return .error (.os e)

def update (f : Store → Location → Except IoError Store) : Run (Except IoError Unit) := do
  let m ← get
  match f m.store m.environment.cwd with
  | .error e => return .error e
  | .ok store =>
    let i := m.store.freshInode
    set { m with store }
    if (store.inodes.get? i).isSome then modify (·.touched i)
    return .ok ()

/-- Changes the entry at a path by an operation that may be refused. -/
def updateAt (p : PathText) (f : Store → Location → Except IoError Store) : Run (Except IoError Unit) :=
  update fun s cwd =>
    match f s cwd with
    | .error e => .error e
    | .ok t => if mayChange s cwd p then .ok t else .error (.os .denied)

end LuaTree.Shell.Run
