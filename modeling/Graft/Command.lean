import Graft.Batch
import Graft.Listing
import Graft.World

/-!
# The command line

Two commands: `apply` runs a plan on a module and writes the result, `dump` prints the methods of a
module. Options and the input may come in any order; an option's value follows it or is joined to it
by an equals sign. Behind `--` everything is input.
-/

namespace Graft

/-- What the command line asks for. -/
inductive Command where
  | apply (plan output input : String)
  | dump (type method : Option String) (input : String)
  | help
  | version
  deriving DecidableEq, Repr

namespace Command

/-! ## Options -/

/-- An option that takes a value. -/
structure OptionSpec where
  long : String
  short : Option Char
  /-- Is the value a path? Paths are not empty. -/
  isPath : Bool

/-- What has been read from the arguments of a command. -/
structure Given where
  options : List (String × String)
  inputs : List String

/-- The options of `apply`. -/
def applyOptions : List OptionSpec := [⟨"plan", none, true⟩, ⟨"output", some 'o', true⟩]

/-- The options of `dump`. -/
def dumpOptions : List OptionSpec := [⟨"type", none, false⟩, ⟨"method", none, false⟩]

/-- Why reading the arguments ends early. -/
inductive Stop where
  | usage
  | help
  deriving DecidableEq, Repr

namespace Given

/-- Nothing read yet. -/
def empty : Given := ⟨[], []⟩

variable (g : Given)

/-- The value of an option. -/
def option? (long : String) : Option String := g.options.lookup long

/-- Note the value of an option, which must be the only one. -/
def addOption (spec : OptionSpec) (value : String) : Except Stop Given :=
  if (g.option? spec.long).isSome ∨ (spec.isPath ∧ value = "") then .error .usage
  else .ok { g with options := g.options ++ [(spec.long, value)] }

/-- Note an input, which must be the only one and a path. -/
def addInput (value : String) : Except Stop Given :=
  if g.inputs ≠ [] ∨ value = "" then .error .usage else .ok { g with inputs := [value] }

end Given

/-- Does an argument stand for itself rather than for an option? -/
def isValue (arg : List Char) : Bool :=
  match arg with
  | '-' :: _ :: _ => false
  | _ => true

/-- An option at the start of an argument, and the value joined to it, if there is one. -/
def splitOption (specs : List OptionSpec) (arg : List Char) :
    Except Stop (OptionSpec × Option String) :=
  match arg with
  | '-' :: '-' :: long =>
    let name := String.ofList (long.takeWhile (· ≠ '='))
    let value? := match long.dropWhile (· ≠ '=') with
      | [] => none
      | _ :: value => some (String.ofList value)
    if name = "help" then .error (if value?.isNone then .help else .usage)
    else
      match specs.find? (·.long = name) with
      | some spec => .ok (spec, value?)
      | none => .error .usage
  | '-' :: short :: rest =>
    if short = 'h' then .error .help
    else
      match specs.find? (·.short = some short) with
      | none => .error .usage
      | some spec =>
        match rest with
        | [] => .ok (spec, none)
        | '=' :: value => .ok (spec, some (String.ofList value))
        | value => .ok (spec, some (String.ofList value))
  | _ => .error .usage

/-- Read the arguments of a command. -/
def readArgs (specs : List OptionSpec) (g : Given) : List String → Except Stop Given
  | [] => .ok g
  | "--" :: rest => rest.foldlM Given.addInput g
  | arg :: rest =>
    if isValue arg.toList then do
      readArgs specs (← g.addInput arg) rest
    else do
      match ← splitOption specs arg.toList with
      | (spec, some value) => readArgs specs (← g.addOption spec value) rest
      | (spec, none) =>
        match rest with
        | value :: rest =>
          if isValue value.toList then readArgs specs (← g.addOption spec value) rest
          else throw .usage
        | [] => throw .usage

/-! ## Commands -/

/-- The `apply` command. -/
def readApply (args : List String) : Except Stop Command := do
  let g ← readArgs applyOptions Given.empty args
  match g.option? "plan", g.option? "output", g.inputs with
  | some plan, some output, [input] => return apply plan output input
  | _, _, _ => throw .usage

/-- The `dump` command. A method is only looked for in a type. -/
def readDump (args : List String) : Except Stop Command := do
  let g ← readArgs dumpOptions Given.empty args
  match g.option? "type", g.option? "method", g.inputs with
  | none, some _, _ => throw .usage
  | type, method, [input] => return dump type method input
  | _, _, _ => throw .usage

/-- The command that arguments ask for; none if they make no sense. -/
def read? (args : List String) : Option Command :=
  let orHelp (c : Except Stop Command) : Option Command :=
    match c with
    | .ok c => some c
    | .error .help => some help
    | .error .usage => none
  match args with
  | "apply" :: rest => orHelp (readApply rest)
  | "dump" :: rest => orHelp (readDump rest)
  | "--help" :: _ => some help
  | "--version" :: _ => some version
  | ["help"] => some help
  | ["help", topic] => if ["apply", "dump", "help"].contains topic then some help else none
  | arg :: _ =>
    if isPrefixed "-h" arg then some help else if isPrefixed "-V" arg then some version else none
  | [] => none
where
  /-- Does an argument start with a short option? -/
  isPrefixed (option arg : String) : Bool := option.toList.isPrefixOf arg.toList

/-- The text that `--version` prints. -/
def versionText : String := "IL module patcher 0.1.0\n"

/-- The text that `--help` prints. -/
def helpText : String :=
  "Apply structural patches to the method bodies of an IL module\n\n"
    ++ "apply --plan <PLAN_FILE> --output <OUTPUT> <INPUT>\n"
    ++ "dump [--type <TYPE_NAME> [--method <METHOD_NAME>]] <INPUT>\n"

variable {M : Type → Type} [Monad M]

/-- The methods that a dump is about. -/
def dumped (m : Module) (type method : Option String) : Except Fault (List MethodId) :=
  match type with
  | none => .ok m.methodIds
  | some type => do
    let owner ← m.requireType type
    match method with
    | none => return m.methodsOf owner
    | some name => return m.findMethods owner name

/-- Do what a command asks for. The plan is read before the module. -/
def run (w : World M) : Command → ExceptT Fault M Unit
  | apply plan output input => do
    let patches ← ExceptT.mk (pure (Batch.ofPlan (← w.readText plan)))
    let m ← w.openModule input
    let (result, m) := (Batch.run patches).apply m
    discard (ExceptT.mk (pure result))
    w.writeModule true output m
  | dump type method input => do
    let m ← w.openModule input
    let ks ← ExceptT.mk (pure (dumped m type method))
    ks.forM fun k => (w.print (m.describe k ++ "\n") : M Unit)
  | help => (w.print helpText : M Unit)
  | version => (w.print versionText : M Unit)

/-- How a program ended. -/
inductive Ending where
  | done
  | failed (fault : Fault)
  | misused
  deriving DecidableEq, Repr

/-- The code that tells the caller how the program ended. -/
def Ending.exitCode : Ending → UInt32
  | .done => 0
  | .failed _ => 1
  | .misused => 2

/-- Run the program with its arguments. -/
def runArgs (w : World M) (args : List String) : M Ending := do
  match read? args with
  | none => return .misused
  | some command =>
    match ← (command.run w).run with
    | .ok () => return .done
    | .error fault => return .failed fault

end Command

end Graft
