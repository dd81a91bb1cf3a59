import LuaTree.Shell.Utility.Awk.Run

/-!
# Working programs out

What expressions come to and what statements do. Every call has some fuel left for the depth of what it looks at;
loops have theirs.
-/

namespace LuaTree.Shell.Awk

open Run Utility

/-! ## Names of tables -/

def Expr.parts : Expr → List Expr
  | .constant _ | .regular _ | .named _ => []
  | .element _ ks | .holds _ ks | .call _ ks | .known _ ks => ks
  | .field a | .grouped a | .no a | .negative a | .numeric a | .stepped _ _ a => [a]
  | .assign _ a b | .both a b | .either a b | .fits _ a b | .compare _ a b | .joined a b | .compute _ a b => [a, b]
  | .choose a b c => [a, b, c]
  | .readNext t? => t?.toList
  | .readFile a t? | .readCommand a t? => a :: t?.toList

/-- The names that an expression itself uses for tables, where it is known which arguments of functions are. -/
def Expr.ownTables (known : List (Raw × List Bool)) : Expr → List Raw
  | .element x _ | .holds x _ => [x]
  | .known f (_ :: .named x :: _) => if f = "split".toList then [x] else []
  | .call f as =>
    (as.zip ((known.lookup f).getD [])).filterMap fun
      | (.named x, true) => some x
      | _ => none
  | _ => []

def Expr.tables (known : List (Raw × List Bool)) : (fuel : Nat) → Expr → List Raw
  | 0, _ => []
  | fuel + 1, e => e.ownTables known ++ e.parts.flatMap (Expr.tables known fuel)

/-- The statements that a statement is made of, and the expressions. -/
def Statement.parts : Statement → List Statement × List Expr
  | .work e => ([], [e])
  | .print es t? | .printf es t? => ([], es ++ (t?.map (·.2)).toList)
  | .choose c a b? => (a :: b?.toList, [c])
  | .loop a? c? b? body => (a?.toList ++ b?.toList ++ [body], c?.toList)
  | .loopFirst body c => ([body], [c])
  | .each _ _ body => ([body], [])
  | .block as => (as, [])
  | .exit e? | .leave e? => ([], e?.toList)
  | .delete _ ks => ([], ks)
  | .next | .nextFile | .stop | .again | .deleteAll _ => ([], [])

def Statement.ownTables : Statement → List Raw
  | .each _ x _ | .delete x _ | .deleteAll x => [x]
  | _ => []

def Statement.tables (known : List (Raw × List Bool)) : (fuel : Nat) → Statement → List Raw
  | 0, _ => []
  | fuel + 1, a =>
    a.ownTables ++ a.parts.2.flatMap (Expr.tables known 200) ++ a.parts.1.flatMap (Statement.tables known fuel)

/-- Which arguments of the functions of a program are tables, as far as that many steps tell. -/
def Program.tableArguments (p : Program) : (steps : Nat) → List (Raw × List Bool)
  | 0 => p.functions.map fun (f, _) => (f, [])
  | steps + 1 =>
    let known := p.tableArguments steps
    p.functions.map fun (f, g) =>
      let used := g.body.tables known 200
      (f, g.parameters.map used.contains)

/-! ## Targets -/

/-- Something to which a value can be assigned. -/
inductive Target where
  | named (x : Raw)
  | element (table : Raw) (k : Key)
  | field (n : Int)

namespace Step

def fetch : Target → Step Value
  | .named x => valueOf x
  | .element y k => do
    let (v, t) := (((← get).tables.get? y).getD {}).demand k
    setTable y t
    return v
  | .field n => getField n

def store (v : Value) : Target → Step Unit
  | .named x => setValue x v
  | .element y k => do setTable y ((((← get).tables.get? y).getD {}).insert k v)
  | .field n => setField n v

def keyOf (v : Value) : Step Key := do
  match v with
  | .number x =>
    if x == truncated x && x.abs < 9007199254740992.0 then return .whole (wholeOf x)
    else return .text (← textOf v)
  | v => return .text (← textOf v)

def compared (c : Comparison) (a b : Value) : Step Bool := do
  let plain : Bool := match a, b with
    | .unset, .text _ | .text _, .unset => false
    | a, b => a.isNumeric && b.isNumeric
  if plain then
    let x := a.toNumber
    let y := b.toNumber
    return match c with
      | .less => x < y
      | .atMost => x ≤ y
      | .equal => x == y
      | .unequal => x != y
      | .greater => y < x
      | .atLeast => y ≤ x
  else
    let s ← textOf a
    let t ← textOf b
    return c.holds (s < t) (s = t)

/-! ## Replacing -/

def replacement (found : Raw) : Raw → Raw
  | '\\' :: '&' :: t => '&' :: replacement found t
  | '\\' :: '\\' :: t => '\\' :: replacement found t
  | '&' :: t => found ++ replacement found t
  | c :: t => c :: replacement found t
  | [] => []

/-- Puts a text in for matches, for all or for the first one; answers with the text and how many there were. -/
def replaced (r : Regular) (s : Regular.Subject) (t new : Raw) (all : Bool) :
    (fuel : Nat) → (place : Nat) → (last? : Option Nat) → Raw × Nat
  | 0, place, _ => (t.drop place, 0)
  | fuel + 1, place, last? =>
    match r.find? s place with
    | none => (t.drop place, 0)
    | some m =>
      let before := (t.take m.start).drop place
      let one := replacement ((t.take m.finish).drop m.start) new
      if m.finish = m.start then
        let next := (t.drop m.start).take 1
        if last? = some m.start then
          if next = [] then (before, 0)
          else
            let (rest, n) := replaced r s t new all fuel (m.start + 1) none
            (before ++ next ++ rest, n)
        else if !all ∨ next = [] then (before ++ one ++ t.drop m.start, 1)
        else
          let (rest, n) := replaced r s t new all fuel (m.start + 1) none
          (before ++ one ++ next ++ rest, n + 1)
      else if !all then (before ++ one ++ t.drop m.finish, 1)
      else
        let (rest, n) := replaced r s t new all fuel m.finish (some m.finish)
        (before ++ one ++ rest, n + 1)

/-- A part of a text, by where it begins, counted from one, and its length. -/
def part (t : Raw) (begin : Float) (length? : Option Float) : Raw :=
  let b := wholeOf begin
  match length? with
  | none => t.drop (b - 1).toNat
  | some n =>
    let n := wholeOf n
    let n := if b < 0 then n - b else n
    (t.drop (b - 1).toNat).take n.toNat

/-- The place at which a text occurs in another one, counted from one. -/
def placeOf (t : Raw) : (n : Nat) → Raw → Nat
  | n, [] => if t = [] then n + 1 else 0
  | n, c :: s => if t.isPrefixOf (c :: s) then n + 1 else placeOf t (n + 1) s

def numberFunction? : String → Option (Float → Float)
  | "sin" => some Float.sin
  | "cos" => some Float.cos
  | "exp" => some Float.exp
  | "log" => some Float.log
  | "sqrt" => some Float.sqrt
  | "int" => some truncated
  | _ => none

/-- What becomes of a flow at the end of a round of a loop: how the loop ends, if it does. -/
def Flow.ending? : Flow → Option Flow
  | .stop => some .on
  | .leave v => some (.leave v)
  | .on | .again => none

/-- Goes through the rounds of a loop, letting others run from time to time. -/
def rounds (round : Step (Option Flow)) : (left : Nat) → Step Flow
  | 0 => return .on
  | left + 1 => do
    if left % 256 = 0 then outside (spend 1)
    match ← round with
    | some flow => return flow
    | none => rounds round left

/-- Goes through the keys of a table. -/
def keyRounds (round : Raw → Step Flow) : List Raw → Step Flow
  | [] => return .on
  | key :: rest => do
    match Flow.ending? (← round key) with
    | some flow => return flow
    | none => keyRounds round rest

mutual

def value (k : Tools) : (fuel : Nat) → Expr → Step Value
  | 0, _ => crash "function call nesting too deep".toList
  | fuel + 1, e => do
    match e with
    | .constant v => return v
    | .regular t => return .ofBool (← occurs t (← get).record)
    | .named x => valueOf x
    | .grouped a => value k fuel a
    | .element _ _ | .field _ => do fetch (← target k fuel e)
    | .assign op? a b =>
      match op? with
      | none =>
        let v ← value k fuel b
        let t ← target k fuel a
        store v t
        return v
      | some op =>
        let t ← target k fuel a
        let y := (← value k fuel b).toNumber
        let v := Value.number (op.apply (← fetch t).toNumber y)
        store v t
        return v
    | .choose c a b => if (← value k fuel c).isTrue then value k fuel a else value k fuel b
    | .both a b => if (← value k fuel a).isTrue then return .ofBool (← value k fuel b).isTrue else return .ofBool false
    | .either a b => if (← value k fuel a).isTrue then return .ofBool true else return .ofBool (← value k fuel b).isTrue
    | .no a => return .ofBool !(← value k fuel a).isTrue
    | .holds x ks =>
      let key ← key k fuel ks
      let (_, t) ← tableOf x
      return .ofBool (t.holds key)
    | .fits wanted a r =>
      let t ← textOf (← value k fuel a)
      let p ← pattern k fuel r
      return .ofBool ((← occurs p t) == wanted)
    | .compare c a b =>
      let x ← value k fuel a
      let y ← value k fuel b
      return .ofBool (← compared c x y)
    | .joined a b =>
      let s ← textOf (← value k fuel a)
      let t ← textOf (← value k fuel b)
      return .text (s ++ t)
    | .compute op a b =>
      let x ← value k fuel a
      let y ← value k fuel b
      return .number (op.apply x.toNumber y.toNumber)
    | .negative a => return .number (-(← value k fuel a).toNumber)
    | .numeric a => return .number (← value k fuel a).toNumber
    | .stepped up before a =>
      let t ← target k fuel a
      let x := (← fetch t).toNumber
      let y := if up then x + 1 else x - 1
      store (.number y) t
      return .number (if before then y else x)
    | .call f as => call k fuel f as
    | .known f as => known k fuel (String.ofList f) as
    | .readNext t? =>
      match ← mainRecord? 100000 with
      | none => return .number 0
      | some t =>
        countUp "NR"
        countUp "FNR"
        receive k fuel t? t
        return .number 1
    | .readFile a t? =>
      let name ← textOf (← value k fuel a)
      match ← sourceRecord? (openFile name) name with
      | none => return .number (-1)
      | some none => return .number 0
      | some (some t) =>
        receive k fuel t? t
        return .number 1
    | .readCommand a t? =>
      let name ← textOf (← value k fuel a)
      match ← sourceRecord? (openCommand k name) name with
      | none => return .number (-1)
      | some none => return .number 0
      | some (some t) =>
        receive k fuel t? t
        return .number 1

def receive (k : Tools) : (fuel : Nat) → Option Expr → Raw → Step Unit
  | 0, _, _ => return ()
  | fuel + 1, t?, t => do
    match t? with
    | none => setRecord t
    | some a => store (.input t) (← target k fuel a)

def target (k : Tools) : (fuel : Nat) → Expr → Step Target
  | 0, _ => crash "function call nesting too deep".toList
  | fuel + 1, e => do
    match e with
    | .named x => return .named x
    | .element x ks =>
      let key ← key k fuel ks
      return .element (← tableName x) key
    | .field a => return .field (wholeOf (← value k fuel a).toNumber)
    | .grouped a => target k fuel a
    | _ => crash "assignment to something else".toList

def key (k : Tools) : (fuel : Nat) → List Expr → Step Key
  | 0, _ => crash "function call nesting too deep".toList
  | fuel + 1, ks => do
    match ks with
    | [a] => keyOf (← value k fuel a)
    | as =>
      let texts ← texts k fuel as
      return .text ((← setting "SUBSEP").intercalate texts)

def texts (k : Tools) : (fuel : Nat) → List Expr → Step (List Raw)
  | 0, _ | _, [] => return []
  | fuel + 1, a :: as => do
    let t ← textOf (← value k fuel a)
    return t :: (← texts k fuel as)

def values (k : Tools) : (fuel : Nat) → List Expr → Step (List Value)
  | 0, _ | _, [] => return []
  | fuel + 1, a :: as => do
    let v ← value k fuel a
    return v :: (← values k fuel as)

def pattern (k : Tools) : (fuel : Nat) → Expr → Step Raw
  | 0, _ => crash "function call nesting too deep".toList
  | fuel + 1, e => do
    match e with
    | .regular t => return t
    | e => textOf (← value k fuel e)

/-- What the arguments of a function stand for in it. -/
def slots (k : Tools) : (fuel : Nat) → List (Raw × Bool) → List Expr → Step (List (Raw × Slot))
  | 0, _, _ | _, [], _ => return []
  | fuel + 1, (x, _) :: xs, [] => return (x, .value .unset) :: (← slots k fuel xs [])
  | fuel + 1, (x, isTable) :: xs, a :: as => do
    let slot : Slot ← match isTable, a with
      | true, .named y => Slot.table <$> tableName y
      | _, a => Slot.value <$> value k fuel a
    return (x, slot) :: (← slots k fuel xs as)

def call (k : Tools) : (fuel : Nat) → Raw → List Expr → Step Value
  | 0, _, _ => crash "function call nesting too deep".toList
  | fuel + 1, f, as => do
    match (← get).program.functions.lookup f with
    | none => crash ("function ".toList ++ f ++ " never defined".toList)
    | some g =>
      let isTable := (k.tableArguments.lookup f).getD []
      let slots ← slots k fuel (g.parameters.zipIdx.map fun (x, n) => (x, isTable.getD n false)) as
      let s ← get
      let waiting := s.waiting + max 1 g.parameters.length
      if deepestArguments < waiting then lament "program limit exceeded: eval stack size=1024".toList
      set { s with frame := slots, waiting }
      let flow ← run k fuel g.body
      modify fun now => { now with frame := s.frame, waiting := s.waiting }
      match flow with
      | .leave v => return v
      | _ => return .unset

/-- Calls a function that every program has. -/
def known (k : Tools) : (fuel : Nat) → String → List Expr → Step Value
  | 0, _, _ => crash "function call nesting too deep".toList
  | fuel + 1, f, as => do
    match f, as with
    | "length", [] => return .ofNat (← get).record.length
    | "length", [.named x] =>
      let s ← get
      let y ← match s.frame.lookup x with
        | some (.table y) => pure (some y)
        | some (.value _) => pure none
        | none => pure (if s.tables.contains x then some x else none)
      match y with
      | some y => return .ofNat ((s.tables.get? y).getD {}).size
      | none => return .ofNat (← textOf (← valueOf x)).length
    | "split", a :: .named x :: more =>
      let t ← textOf (← value k fuel a)
      let parts ← match more with
        | [] => fieldsOf (← setting "FS") t
        | .regular r :: _ => if t = [] then pure [] else
            pure (cuts (← regular r) { chars := t.toArray } t (t.length + 2) 0 0)
        | separator :: _ => do fieldsOf (← textOf (← value k fuel separator)) t
      let y ← tableName x
      setTable y (Table.ofList (parts.map .input))
      return .ofNat parts.length
    | "sub", r :: new :: more | "gsub", r :: new :: more =>
      let p ← pattern k fuel r
      let new ← textOf (← value k fuel new)
      let place : Target ← match more with
        | [] => pure (Target.field 0)
        | .grouped a :: _ => target k fuel a
        | a :: _ => target k fuel a
      let t ← textOf (← fetch place)
      let r ← regular p
      let (t, n) := replaced r { chars := t.toArray } t new (f = "gsub") (t.length + 2) 0 none
      if n ≠ 0 then store (.text t) place
      return .ofNat n
    | "match", [a, r] =>
      let t ← textOf (← value k fuel a)
      let r ← regular (← pattern k fuel r)
      let (start, size) : Nat × Int := match r.find? { chars := t.toArray } 0 with
        | some m => (m.start + 1, (m.finish - m.start : Nat))
        | none => (0, -1)
      put "RSTART" (.ofNat start)
      put "RLENGTH" (.number (Float.ofInt size))
      return .ofNat start
    | "sprintf", as =>
      match ← values k fuel as with
      | [] => return .unset
      | format :: vs =>
        let format ← textOf format
        match formatted (← convention) format (format.length + 1) 0 format vs with
        | (t, none) => return .text t
        | (_, some fault) =>
          crash (substituted "printf(".toList "sprintf(".toList (fault.length + 1) fault)
    | f, as =>
      let vs ← values k fuel as
      let first := vs.headD .unset
      match numberFunction? f, f, vs with
      | some g, _, _ => return .number (g first.toNumber)
      | none, "length", _ => return .ofNat (← textOf first).length
      | none, "substr", _ :: b :: more =>
        return .text (part (← textOf first) b.toNumber (more.head?.map Value.toNumber))
      | none, "index", _ :: t :: _ => return .ofNat (placeOf (← textOf t) 0 (← textOf first))
      | none, "atan2", _ :: x :: _ => return .number (Float.atan2 first.toNumber x.toNumber)
      | none, "tolower", _ => return .text ((← textOf first).map Char.toLower)
      | none, "toupper", _ => return .text ((← textOf first).map Char.toUpper)
      | none, "rand", _ =>
        let s ← get
        let seed := (s.seed * 1103515245 + 12345) % 2147483648
        set { s with seed }
        return .number (Float.ofNat seed / 2147483648)
      | none, "srand", _ =>
        let s ← get
        set { s with seed := (wholeOf first.toNumber).toNat }
        return .ofNat s.seed
      | none, "system", _ =>
        flush
        return .ofNat (← runCommand k "sh".toList none (← textOf first))
      | none, "fflush", _ =>
        flush
        return .number 0
      | none, "close", _ =>
        let name ← textOf first
        let s ← get
        match s.sinks.find? fun x => x.name = name, s.sources.find? fun x => x.name = name with
        | some x, _ =>
          set { s with sinks := s.sinks.filter fun y => y.name ≠ name }
          return .ofNat (← closeSink k x)
        | none, some x =>
          set { s with sources := s.sources.filter fun y => y.name ≠ name }
          outside (setDescriptor x.feed.descriptor none)
          return .ofNat x.status
        | none, none => return .number (-1)
      | none, _, _ => return .unset

def run (k : Tools) : (fuel : Nat) → Statement → Step Flow
  | 0, _ => crash "function call nesting too deep".toList
  | fuel + 1, a => do
    match a with
    | .work e =>
      discard (value k fuel e)
      return .on
    | .print es target? =>
      let t ← if es.isEmpty then pure (← get).record else do
        let vs ← values k fuel es
        let convention ← setting "OFMT"
        pure ((← setting "OFS").intercalate (vs.map (Value.toText convention)))
      write k fuel target? (t ++ (← setting "ORS"))
      return .on
    | .printf es target? =>
      match ← values k fuel es with
      | [] => return .on
      | format :: vs =>
        let format ← textOf format
        let (t, fault?) := formatted (← convention) format (format.length + 1) 0 format vs
        write k fuel target? t
        match fault? with
        | none => return .on
        | some fault => crash fault
    | .choose c yes no? =>
      if (← value k fuel c).isTrue then run k fuel yes
      else match no? with
        | some no => run k fuel no
        | none => return .on
    | .loop first? c? behind? body =>
      match first? with
      | some first => discard (run k fuel first)
      | none => pure ()
      rounds (round k fuel c? behind? body) Run.rounds
    | .loopFirst body c =>
      let flow ← run k fuel body
      match Flow.ending? flow with
      | some flow => return flow
      | none => rounds (round k fuel (some c) none body) Run.rounds
    | .each x table body =>
      let (_, t) ← tableOf table
      keyRounds (fun key => do
        setValue x (.input key)
        run k fuel body) t.keys
    | .block as => sequence k fuel as
    | .next => throw .next
    | .nextFile =>
      modify fun s => { s with main? := none }
      throw .next
    | .exit e? =>
      match e? with
      | some e =>
        let n := wholeOf (← value k fuel e).toNumber
        modify fun s => { s with status := (n % 256).toNat }
      | none => pure ()
      throw .exit
    | .leave e? =>
      match e? with
      | some e => return .leave (← value k fuel e)
      | none => return .leave .unset
    | .stop => return .stop
    | .again => return .again
    | .delete x ks =>
      let key ← key k fuel ks
      let (y, t) ← tableOf x
      setTable y (t.erase key)
      return .on
    | .deleteAll x =>
      setTable (← tableName x) {}
      return .on

def write (k : Tools) : (fuel : Nat) → Option (Outlet × Expr) → Raw → Step Unit
  | 0, _, _ => return ()
  | fuel + 1, target?, t => do
    match target? with
    | none => say t
    | some (outlet, e) => emit outlet (← textOf (← value k fuel e)) t

/-- Does what statements say, one after the other. -/
def sequence (k : Tools) : (fuel : Nat) → List Statement → Step Flow
  | 0, _ => crash "function call nesting too deep".toList
  | _ + 1, [] => return .on
  | fuel + 1, a :: as => do
    match ← run k fuel a with
    | .on => sequence k fuel as
    | flow => return flow

/-- Does what a loop says in one round; answers how the loop ends, if it does. -/
def round (k : Tools) : (fuel : Nat) → Option Expr → Option Statement → Statement → Step (Option Flow)
  | 0, _, _, _ => crash "function call nesting too deep".toList
  | fuel + 1, c?, behind?, body => do
    let goesOn ← match c? with
      | some c => pure (← value k fuel c).isTrue
      | none => pure true
    if !goesOn then return some .on
    match Flow.ending? (← run k fuel body) with
    | some flow => return some flow
    | none =>
      match behind? with
      | some behind => discard (run k fuel behind)
      | none => pure ()
      return none

end

end Step

end LuaTree.Shell.Awk
