import LuaTidy.Text.Basic
/-!
The arguments of commands. Options have long names with two dashes or short ones with one; a value
follows an equal sign, a short name or in the next argument. Two dashes end the options.
-/
namespace LuaTidy.Command

structure OptionSpec (κ : Type) where
  key : κ
  long : Text
  short : Option Char := none
  takesValue : Bool := false

abbrev Given (κ : Type) := κ × Option Text

/-- The options that one argument gives, and the one whose value is the next argument, if any. -/
structure OneArgument (κ : Type) where
  given : List (Given κ)
  awaiting : Option κ := none

variable {κ : Type}

/-- A row of short names; the first one that takes a value takes the rest of the row. -/
def readShort (specs : List (OptionSpec κ)) : Text → Option (OneArgument κ)
  | [] => some { given := [] }
  | c :: rest => do
    let spec ← specs.find? fun s => s.short == some c
    if spec.takesValue then
      if rest.isEmpty then some { given := [], awaiting := some spec.key }
      else some { given := [(spec.key, some rest)] }
    else
      let more ← readShort specs rest
      some { more with given := (spec.key, none) :: more.given }

/-- The options that an argument with dashes gives; `none` for one that is no option. -/
def readDashed (specs : List (OptionSpec κ)) (arg : Text) : Option (OneArgument κ) :=
  let name := arg.takeWhile (· != '=')
  let value? := if name.length = arg.length then none else some (arg.drop (name.length + 1))
  match specs.find? fun s => s.long == name with
  | some spec =>
    match spec.takesValue, value? with
    | true, some v => some { given := [(spec.key, some v)] }
    | true, none => some { given := [], awaiting := some spec.key }
    | false, none => some { given := [(spec.key, none)] }
    | false, some _ => none
  | none =>
    match arg with
    | '-' :: '-' :: _ => none
    | _ :: row => readShort specs row
    | [] => none

def isDashed (arg : Text) : Bool :=
  match arg with
  | '-' :: _ :: _ => true
  | _ => false

/--
The options given and the other arguments; `none` if an option is unknown or lacks its value. If
`mixed` is false, the first other argument ends the options.
-/
def readOptions (specs : List (OptionSpec κ)) (mixed : Bool) :
    List Text → Option (List (Given κ) × List Text)
  | [] => some ([], [])
  | arg :: rest =>
    if arg = ['-', '-'] then some ([], rest)
    else if isDashed arg then do
      let one ← readDashed specs arg
      match one.awaiting, rest with
      | none, rest =>
        let (more, others) ← readOptions specs mixed rest
        some (one.given ++ more, others)
      | some _, [] => none
      | some key, v :: rest =>
        let (more, others) ← readOptions specs mixed rest
        some (one.given ++ (key, some v) :: more, others)
    else if mixed then do
      let (more, others) ← readOptions specs mixed rest
      some (more, arg :: others)
    else some ([], arg :: rest)

def lastValue? [DecidableEq κ] (given : List (Given κ)) (key : κ) : Option Text :=
  (given.filterMap fun g => if g.1 = key then g.2 else none).getLast?

def values [DecidableEq κ] (given : List (Given κ)) (key : κ) : List Text :=
  given.filterMap fun g => if g.1 = key then g.2 else none

def isGiven [DecidableEq κ] (given : List (Given κ)) (key : κ) : Bool := given.any (·.1 = key)

/-! ## Commands -/

/-- The options of the command that cleans up a source. -/
structure RunOptions where
  /-- The source file; standard input if it is absent or a dash. -/
  file : Option Text := none
  output : Option Text := none
  verbose : Bool := false
  json : Bool := false
  report : Bool := false
  progress : Bool := false
  /-- The stages to leave out. -/
  skip : List Text := []
  deriving DecidableEq, Repr

inductive Action where
  | run (options : RunOptions)
  | techniques
  | sample
  | configShow
  | configInit (force : Bool)
  deriving DecidableEq, Repr

inductive Name where
  | run | techniques | sample | config
  deriving DecidableEq, Repr

def Name.ofText? (s : Text) : Option Name :=
  List.lookup s [("run", .run), ("techniques", .techniques), ("example", .sample),
    ("config", .config)]

inductive GlobalKey where
  | config
  deriving DecidableEq, Repr

inductive Key where
  | output | verbose | json | report | progress | skip | force
  deriving DecidableEq, Repr

/-- What stands before the arguments of a command. -/
structure Opening where
  /-- The explicit file of settings. -/
  config : Option Text
  name : Name
  arguments : List Text
  deriving DecidableEq, Repr

/-- The global options and the command; `none` if they cannot be understood. -/
def opening? (args : List Text) : Option Opening := do
  let specs : List (OptionSpec GlobalKey) :=
    [{ key := .config, long := "--config", short := some 'c', takesValue := true }]
  let (given, others) ← readOptions specs false args
  match others with
  | [] => none
  | name :: arguments =>
    some { config := lastValue? given .config, name := ← Name.ofText? name, arguments }

def runSpecs : List (OptionSpec Key) :=
  [{ key := .output, long := "--output", short := some 'o', takesValue := true },
    { key := .verbose, long := "--verbose", short := some 'v' },
    { key := .json, long := "--json" },
    { key := .report, long := "--report" },
    { key := .progress, long := "--progress" },
    { key := .skip, long := "--skip", takesValue := true }]

/-- A command without options and arguments. -/
def bare? (action : Action) (args : List Text) : Option Action := do
  let (_, others) ← readOptions ([] : List (OptionSpec Key)) true args
  if others.isEmpty then some action else none

def run? (args : List Text) : Option Action := do
  let (given, others) ← readOptions runSpecs true args
  if 1 < others.length then none
  else
    some (.run {
      file := others.head?
      output := lastValue? given .output
      verbose := isGiven given .verbose
      json := isGiven given .json
      report := isGiven given .report
      progress := isGiven given .progress
      skip := values given .skip })

def config? (args : List Text) : Option Action := do
  let (_, others) ← readOptions ([] : List (OptionSpec Key)) false args
  match others with
  | [] => none
  | name :: args =>
    if name = "show" then bare? .configShow args
    else if name = "init" then do
      let (given, others) ←
        readOptions [({ key := .force, long := "--force" } : OptionSpec Key)] true args
      if others.isEmpty then some (.configInit (isGiven given .force)) else none
    else none

def action? (name : Name) (args : List Text) : Option Action :=
  match name with
  | .run => run? args
  | .techniques => bare? .techniques args
  | .sample => bare? .sample args
  | .config => config? args

end LuaTidy.Command
