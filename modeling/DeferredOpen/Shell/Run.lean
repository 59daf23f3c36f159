import DeferredOpen.Image
import DeferredOpen.Shell.Builtin

/-!
# Running commands

What a command does to the state. Commands that hold others run them through an `Inner`, which is
the interpreter with a little less left to go; `Interpreter` ties the knot.

The status of a command is the number that it leaves behind; 0 stands for success. A copy of the
interpreter runs what stands in parentheses, in a pipeline or in a substitution: it shares the
files and the streams, and nothing else comes back from it but its end.
-/

namespace DeferredOpen.Shell

structure Circumstances where
  /-- Its failure is looked at, so that it is no reason to end. -/
  tested : Bool := false

/-- What runs the commands inside others. -/
structure Inner where
  fuel : Nat
  run : Circumstances → Command → Running Unit
  /-- Runs a script line by line. -/
  script : Circumstances → Text → Running Unit
  /-- Runs a program with an argument vector to its end. -/
  program : Program → List Text → Running Ending

namespace Running

def checkFailure (c : Circumstances) : Running Unit := do
  let s ← get
  if s.has 'e' && !c.tested && s.status ≠ 0 then jump .exit

/-- Does what is to be done for the signals that have come. -/
def settle (inner : Inner) : Running Unit := do
  let s ← get
  if s.isCopy then return
  let (own, others) := s.pending.partition fun e => e.1 = s.number
  if own.isEmpty then return
  set { s with pending := others }
  for (_, signal) in own do
    let s ← get
    if Builtin.isDeadly s signal then jump (.killed signal)
    match s.traps.lookup signal with
    | none | some [] => pure ()
    | some action =>
      set { s with beforeTrap := some s.status }
      inner.script {} action
      modify fun t => { t with beforeTrap := s.beforeTrap, status := s.status }

def checkDeath : Running Unit := do
  let s ← get
  if s.isCopy then return
  if let some (_, signal) :=
      s.pending.find? fun e => e.1 = s.number && Builtin.isDeadly s e.2 then
    jump (.killed signal)

/-- Runs something as all that a process does: at its end the trap for the end is run. -/
def toEnd (inner : Inner) (body : Running Unit) : Running Ending := do
  match ← caught body with
  | some (.killed signal) => pure (.killed signal)
  | some .exhausted => jump .exhausted
  | _ =>
    let s ← get
    match s.traps.lookup 0 with
    | none | some [] => pure (.exited s.status)
    | some action =>
      let traps := s.traps.filter fun e => e.1 ≠ 0
      set { s with traps, beforeTrap := some s.status, loops := 0 }
      match ← caught (inner.script {} action) with
      | some (.killed signal) => pure (.killed signal)
      | some .exhausted => jump .exhausted
      | some .exit | some .refused => return .exited (← get).status
      | _ => pure (.exited s.status)

/-- What comes back from another process: files, texts in memory, and signals. -/
def join (s other : State) : State :=
  { s with
    files := { other.files with working := s.files.working }
    texts := other.texts
    openings := other.openings
    pending := s.pending ++ other.pending
    nextNumber := other.nextNumber }

/-- Runs something in another process that starts with a state of its own. -/
def apart (start : State → State) (body : Running Ending) : Running Ending := fun s =>
  let (result, other) := body { start s with pending := [] }
  (result, join s other)

def inCopy (inner : Inner) (start : State → State) (body : Running Unit) : Running Ending :=
  apart (fun s => start { s with
    isCopy := true
    traps := s.traps.filter fun e => e.2 = []
    loops := 0 }) (toEnd inner body)

/-- Runs commands and gives what they write, without the line ends at its end. -/
def capture (inner : Inner) : Capture := fun body => do
  match body with
  | none =>
    modify fun s => { s with substituted := some 0 }
    pure []
  | some body =>
    let s ← get
    let (number, s) := s.keep []
    set s
    let ending ← inCopy inner (·.setPort 1 (.memory number)) (inner.run {} body)
    modify fun s => { s with substituted := some ending.status }
    checkDeath
    let t := (← get).texts.getD number []
    pure ((t.filter (· ≠ '\x00')).reverse.dropWhile (· = '\n')).reverse

def wordFields (inner : Inner) : Word → Running (List Text) := fields (capture inner) inner.fuel

def wordText (inner : Inner) : Word → Running Text := textOf (capture inner) inner.fuel

/-- Redirects a stream; whether that could be done. -/
def redirect (inner : Inner) (r : Redirection) : Running Bool := do
  let toMemory (stream : Nat) (t : Text) : Running Bool := do
    let (number, s) := (← get).keep t
    set (s.setPort stream (.memory number))
    pure true
  let fromFile (stream : Nat) (path : Path) : Running Bool := do
    let s ← get
    match s.files.entry path with
    | .error _ | .ok .socket => pure false
    | .ok (.file (.data bytes) _) => toMemory stream (Text.ofBytes bytes)
    | .ok _ =>
      set (s.setPort stream .nowhere)
      pure true
  match r with
  | .output stream append target =>
    let path : Path := ⟨(← wordText inner target).toBytes⟩
    let s ← get
    let kept := if append then (s.files.content? path).getD [] else []
    match s.files.write path (.data kept) false with
    | .error _ => pure false
    | .ok files =>
      match files.resolve path with
      | .ok spot =>
        if files.entryAt spot = some .device then set ({ s with files }.setPort stream .nowhere)
        else
          let position := if append then none else some 0
          let (number, s) := { s with files }.openFile ⟨spot.place, position⟩
          set (s.setPort stream (.file number))
      | .error _ => set ({ s with files }.setPort stream .nowhere)
      pure true
  | .input stream target =>
    let t ← wordText inner target
    fromFile stream ⟨t.toBytes⟩
  | .both stream target =>
    let path : Path := ⟨(← wordText inner target).toBytes⟩
    let s ← get
    if (s.files.entry path).toOption.isNone then
      match s.files.write path (.data []) false with
      | .error _ => return false
      | .ok files => set { s with files }
    fromFile stream path
  | .copy stream source =>
    let t ← wordText inner source
    let s ← get
    match t with
    | ['-'] =>
      set (s.setPort stream .closed)
      pure true
    | [c] =>
      if c.isDigit then
        match s.port (c.toNat - '0'.toNat) with
        | .closed => pure false
        | port =>
          set (s.setPort stream port)
          pure true
      else refuse
    | _ => refuse
  | .document stream number =>
    let t ← wordText inner ((← get).documents.getD number [])
    toMemory stream t

def redirectAll (inner : Inner) : List Redirection → Running Bool
  | [] => pure true
  | r :: rest => do
    if ← redirect inner r then redirectAll inner rest else pure false

inductive Named where
  | special
  | function (body : Command)
  | ordinary
  | program

def isSpecialName (name : Text) : Bool := specialNames.contains (String.ofList name)

/-- The ordinary commands of the interpreter that run others. -/
def runsOthers (name : Text) : Bool := ["command", "type"].contains (String.ofList name)

def named (s : State) (name : Text) : Named :=
  if isSpecialName name then .special
  else match s.functions.lookup name with
  | some body => .function body
  | none =>
    if runsOthers name || (Builtin.ordinary (String.ofList name) []).isSome then .ordinary
    else .program

def candidates (s : State) (name : Text) : List Text :=
  (((s.value? "PATH".toList).getD []).splitOnP (· = ':')).map fun directory =>
    if directory.isEmpty then name else directory ++ ['/'] ++ name

/-- The path of a program, if a directory of the search path has one that may be run. -/
def found? (s : State) (name : Text) : Option Text :=
  if name.contains '/' then some name
  else if name.isEmpty then none
  else (candidates s name).find? fun path =>
    match s.files.entry ⟨path.toBytes⟩ with
    | .ok (.file _ runnable) => runnable
    | _ => false

def statusOf (e : SystemFault) : Nat :=
  if e = .notFound ∨ e = .notDirectory ∨ e = .tooManyLinks ∨ e = .nameTooLong then 127 else 126

/-- Runs the program that a word names, with some arguments. A text without a program in its
first line is a script of this interpreter. -/
def runProgram (inner : Inner) (words : List Text) : Running (Except Nat Ending) := do
  let s ← get
  match words with
  | [] => pure (.error 127)
  | name :: arguments =>
    match found? s name with
    | none => pure (.error 127)
    | some path =>
      let p : Path := ⟨path.toBytes⟩
      match Image.load s.files p with
      | .ok image =>
        let vector := image.arguments name.toBytes (arguments.map Text.toBytes)
        .ok <$> inner.program image.program (vector.map Text.ofBytes)
      | .error e =>
        if e = .notProgram then
          .ok <$> inner.program .shell (['s', 'h'] :: path :: arguments)
        else pure (.error (statusOf e))

def finishProgram (inner : Inner) (words : List Text) : Running Unit := do
  match ← runProgram inner words with
  | .error status => setStatus status
  | .ok ending => setStatus ending.status

/-- Puts a program in the place of the interpreter. -/
def replace (inner : Inner) (words : List Text) : Running Nat := do
  match ← runProgram inner words with
  | .error status => setStatus status
  | .ok (.killed signal) => jump (.killed signal)
  | .ok (.exited code) =>
    modify fun s => { s with status := code, traps := [] }
  jump .exit

def source (inner : Inner) (words : List Text) : Running Nat := do
  match words with
  | [] => pure 0
  | name :: _ =>
    let s ← get
    let path :=
      if name.contains '/' then some name
      else (candidates s name).find? fun path =>
        match s.files.entry ⟨path.toBytes⟩ with
        | .ok (.file _ _) => true
        | _ => false
    match path.map fun path => s.files.entry ⟨path.toBytes⟩ with
    | none | some (.error _) | some (.ok .socket) => refuse
    | some (.ok (.file (.data bytes) _)) =>
      setStatus 0
      match ← caught (inner.script {} (Text.ofBytes bytes)) with
      | none | some .leave => pure ()
      | some j => jump j
      return (← get).status
    | some (.ok (.file (.program program) _)) =>
      let ending ← inner.program program (name :: s.arguments)
      setStatus ending.status
      jump .exit
    | some (.ok _) => pure 0

/-- Says what words name: the word to write for a command, or a sentence about it. -/
def describe (inSentences : Bool) (words : List Text) : Running Nat := do
  let s ← get
  let tell (name : Text) (sentence : String) (word : Text) : Running Unit := do
    let t := if inSentences then name ++ sentence.toList else word
    let _ ← Builtin.write (t ++ ['\n'])
  let mut status := if words.isEmpty || (← get).port 1 ≠ .closed then 0 else 1
  for name in words do
    match named s name with
    | .special => tell name " is a special shell builtin" name
    | .function _ => tell name " is a shell function" name
    | .ordinary => tell name " is a shell builtin" name
    | .program =>
      match found? s name with
      | some path =>
        if (s.files.entry ⟨path.toBytes⟩).toOption.isSome then
          tell name (" is " ++ String.ofList path) path
        else
          status := 127
          if inSentences then tell name ": not found" []
      | none =>
        status := 127
        if inSentences then tell name ": not found" []
  pure status

def call (inner : Inner) (c : Circumstances) (body : Command) (arguments : List Text) :
    Running Unit := do
  let s ← get
  let restore (t : State) : State :=
    let scope := t.hidden.head?.getD []
    let t := scope.foldl
      (fun t e => match e.2 with
        | some v => t.setVariable e.1 v
        | none => t.dropVariable e.1) t
    { t with
      hidden := s.hidden
      arguments := s.arguments
      reached := s.reached
      loops := s.loops }
  set { s with arguments, reached := {}, loops := 0, hidden := [] :: s.hidden }
  restoring (do
    match ← caught (inner.run c body) with
    | none | some .leave => pure ()
    | some j => jump j) restore

/-- Runs an ordinary command: a refusal only makes it fail. -/
def tolerant (a : Running Nat) : Running Unit := fun s =>
  match a s with
  | (.ok status, t) => (.ok (), { t with status })
  | (.error .refused, t) => (.ok (), t)
  | (.error j, t) => (.error j, t)

def runSpecial (inner : Inner) (c : Circumstances) (name : Text) (arguments : List Text) :
    Running Nat := do
  match String.ofList name with
  | "eval" =>
    let t := [' '].intercalate arguments
    setStatus 0
    inner.script c t
    return (← get).status
  | "exec" => if arguments.isEmpty then pure 0 else replace inner arguments
  | "." => source inner arguments
  | s => (Builtin.special s arguments).getD (pure 127)

def runWords (inner : Inner) : Nat → Circumstances → List Text → Running Unit
  | _, _, [] => pure ()
  | 0, _, _ => jump .exhausted
  | n + 1, c, name :: arguments => do
    match named (← get) name with
    | .special => runSpecial inner c name arguments >>= setStatus
    | .function body => call inner c body arguments
    | .program => finishProgram inner (name :: arguments)
    | .ordinary =>
      match String.ofList name, arguments with
      | "command", ['-', 'v'] :: rest => tolerant (describe false (rest.take 1))
      | "command", ['-', 'V'] :: rest => tolerant (describe true (rest.take 1))
      | "type", rest => tolerant (describe true rest)
      | "command", rest =>
        let rest := if rest.head? = some ['-', 'p'] ∨ rest.head? = some ['-', '-'] then
          rest.drop 1 else rest
        match rest with
        | [] => setStatus 0
        | first :: others =>
          match named (← get) first with
          | .special => tolerant (runSpecial inner c first others)
          | .function _ => finishProgram inner rest
          | _ => runWords inner n c rest
      | s, _ => tolerant ((Builtin.ordinary s arguments).getD (pure 127))

def withVariables (values : List (Text × Text)) (body : Running Unit) : Running Unit := do
  let s ← get
  let before := values.map fun e => (e.1, s.findVariable e.1)
  for (x, value) in values do
    assign x value
    modify fun s => s.setVariable x { (s.findVariable x).getD { value := none } with exported := true }
  restoring body fun t =>
    before.foldl
      (fun t e => match e.2 with
        | some v => t.setVariable e.1 v
        | none => t.dropVariable e.1) t

/-- Whether a word is an assignment that is not split, as those after some commands are. -/
def isKept (words : List Word) (word : Word) : Bool :=
  (words.head?.bind literal?).any (fun name =>
    ["export", "readonly", "local"].contains (String.ofList name)) && (assignmentOf? word).isSome

def runSimple (inner : Inner) (c : Circumstances) (assignments : List (Text × Word))
    (words : List Word) (redirections : List Redirection) : Running Unit := do
  modify fun s => { s with substituted := none }
  let expanded ← words.mapM fun word =>
    if isKept words word then (fun t => [t]) <$> wordText inner word else wordFields inner word
  let fields := expanded.flatten
  let values : Running (List (Text × Text)) := assignments.mapM fun e => do
    return (e.1, ← wordText inner e.2)
  let assignAll : Running Unit := assignments.forM fun e => do
    assign e.1 (← wordText inner e.2)
  let s ← get
  let isSpecial := fields.head?.any isSpecialName
  let isReplacement := fields = ["exec".toList]
  let restore (t : State) : State := if isReplacement then t else { t with ports := s.ports }
  restoring (do
    if ← redirectAll inner redirections then
      match fields with
      | [] =>
        assignAll
        modify fun s => { s with status := s.substituted.getD 0 }
      | _ =>
        if isSpecial then
          assignAll
          runWords inner inner.fuel c fields
        else withVariables (← values) (runWords inner inner.fuel c fields)
    else
      setStatus 2
      if isSpecial then jump .refused) restore

/-- Runs commands of which each reads what the one before has written. -/
def runPipeline (inner : Inner) : Port → List Command → Running Unit
  | _, [] => pure ()
  | input, [command] => do
    let ending ← inCopy inner (·.setPort 0 input) (inner.run {} command)
    setStatus ending.status
  | input, command :: rest => do
    let (number, s) := (← get).keep []
    set s
    let _ ← inCopy inner (fun s => (s.setPort 0 input).setPort 1 (.memory number))
      (inner.run {} command)
    runPipeline inner (.memory number) rest

/-- What a jump out of the body of a loop means for the loop: whether it goes on. -/
def afterBody : Option Jump → Running Bool
  | none | some (.again 0) | some (.again 1) => pure true
  | some (.stop 0) | some (.stop 1) => pure false
  | some (.again (n + 1)) => jump (.again n)
  | some (.stop (n + 1)) => jump (.stop n)
  | some j => jump j

def runLoop (inner : Inner) (c : Circumstances) (whileFails : Bool)
    (condition body : Option Command) : Nat → Nat → Running Unit
  | 0, _ => jump .exhausted
  | n + 1, status => do
    let stop ← caught ((condition.map (inner.run { tested := true })).getD (pure ()))
    match stop with
    | some _ =>
      if ← afterBody stop then runLoop inner c whileFails condition body n status
      else setStatus status
    | none =>
      if ((← get).status = 0) = whileFails then setStatus status
      else
        let stop ← caught ((body.map (inner.run c)).getD (pure ()))
        let goesOn ← afterBody stop
        let status := (← get).status
        if goesOn then runLoop inner c whileFails condition body n status

def runEach (inner : Inner) (c : Circumstances) (name : Text) (body : Option Command) :
    List Text → Running Unit
  | [] => pure ()
  | value :: rest => do
    assign name value
    let stop ← caught ((body.map (inner.run c)).getD (pure ()))
    if ← afterBody stop then runEach inner c name body rest

def runChoice (inner : Inner) (c : Circumstances) (t : Text) :
    List (List Word × Option Command) → Running Unit
  | [] => setStatus 0
  | (patterns, body) :: rest => do
    let fits ← patterns.anyM fun word => do
      return (← patternOf (capture inner) inner.fuel word).fits t
    if fits then
      setStatus 0
      (body.map (inner.run c)).getD (pure ())
    else runChoice inner c t rest

def inLoop (a : Running Unit) : Running Unit := do
  let s ← get
  set { s with loops := s.loops + 1 }
  restoring a fun t => { t with loops := s.loops }

def runSome (inner : Inner) (c : Circumstances) (command : Option Command) : Running Unit :=
  (command.map (inner.run c)).getD (pure ())

/-- Runs a command, without looking at signals that have come. -/
def runForm (inner : Inner) (c : Circumstances) : Command → Running Unit
  | .simple assignments words redirections => do
    runSimple inner c assignments words redirections
    checkFailure c
  | .pipeline commands => do
    runPipeline inner ((← get).port 0) commands
    checkFailure c
  | .negation command => do
    inner.run { tested := true } command
    modify fun s => { s with status := if s.status = 0 then 1 else 0 }
  | .conjunction first second => do
    inner.run { tested := true } first
    if (← get).status = 0 then inner.run c second
  | .disjunction first second => do
    inner.run { tested := true } first
    if (← get).status ≠ 0 then inner.run c second
  | .sequence first second => do
    inner.run c first
    inner.run c second
  | .background command => do
    let ending ← inCopy inner (·.setPort 0 .nowhere) (inner.run {} command)
    modify fun s => { s with
      jobs := (s.nextNumber, ending.status) :: s.jobs
      nextNumber := s.nextNumber + 1
      status := 0 }
    checkFailure c
  | .subshell body => do
    let ending ← inCopy inner id (runSome inner c body)
    setStatus ending.status
    checkFailure c
  | .branch condition body other => do
    runSome inner { tested := true } condition
    if (← get).status = 0 then runSome inner c body
    else match other with
    | some other => inner.run c other
    | none => setStatus 0
  | .loop whileFails condition body =>
    inLoop (runLoop inner c whileFails condition body inner.fuel 0)
  | .each name words body => do
    let values ← words.mapM (wordFields inner)
    setStatus 0
    inLoop (runEach inner c name body values.flatten)
  | .choice word clauses => do
    let t ← wordText inner word
    runChoice inner c t clauses
  | .definition name body => do
    modify fun s => { s with
      functions := (name, body) :: s.functions.filter fun e => e.1 ≠ name
      status := 0 }
  | .redirected command redirections => do
    let s ← get
    restoring (do
      if ← redirectAll inner redirections then inner.run c command
      else setStatus 2) fun t => { t with ports := s.ports }

/-- Runs a command, unless commands are only read. -/
def runCommand (inner : Inner) (c : Circumstances) (command : Command) : Running Unit := do
  if (← get).has 'n' then return
  runForm inner c command
  settle inner

def runScript (inner : Inner) : Nat → Circumstances → Text → Running Unit
  | 0, _, _ => jump .exhausted
  | n + 1, c, t => do
    match nextLine t (← get).documents with
    | .finish => pure ()
    | .malformed => refuse
    | .commands body rest documents =>
      modify fun s => { s with documents }
      if let some body := body then inner.run c body
      runScript inner n c rest

end Running

end DeferredOpen.Shell
