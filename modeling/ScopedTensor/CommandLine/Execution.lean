import ScopedTensor.CommandLine.Help
import ScopedTensor.Library.Backends
import ScopedTensor.Session.Dump
import ScopedTensor.Session.Engine
import ScopedTensor.Session.Transfer

/-! What the commands print. Printing is part of the state, so that a command that fails has printed
what it printed before. -/

namespace ScopedTensor.CommandLine

structure Console where
  session : Session Backends
  printed : String

abbrev Script (α : Type) := Action Console α

def say (line : String) : Script Unit :=
  modify fun c => { c with printed := c.printed ++ line ++ "\n" }

def print (text : String) : Script Unit :=
  modify fun c => { c with printed := c.printed ++ text }

def within {α : Type} (a : Action (Session Backends) α) : Script α :=
  a.zoom Console.session fun s c => { c with session := s }

abbrev BackendEngine := Engine Backends

def checkbox (b : Bool) : String := if b then "[x]" else "[ ]"

def jsonList (items : List String) : String :=
  "[" ++ ",".intercalate (items.map Json.quote) ++ "]"

def indentedList (items : List String) : String :=
  if items.isEmpty then "[]"
  else "[\n" ++ ",\n".intercalate (items.map fun s => "    " ++ Json.quote s) ++ "\n  ]"

def info (e : BackendEngine) (json : Bool) : Script Unit := do
  let version ← within e.version
  let gpus ← within e.gpuCount
  let cuda ← within e.hasAccelerators
  let mkl := e.hasOptimizedKernels
  let name := e.loaded.library.name
  let operators := e.loaded.operators.size
  if json then
    say "\x7b"
    say ("  \"capabilities\": " ++
      indentedList ((if cuda then ["cuda"] else []) ++ if mkl then ["mkl"] else []) ++ ",")
    say ("  \"default_device\": " ++ Json.quote e.device.text ++ ",")
    say ("  \"engine\": " ++ Json.quote name ++ ",")
    say s!"  \"gpus\": {gpus},"
    say s!"  \"operators\": {operators},"
    say ("  \"version\": " ++ Json.quote version)
    say "\x7d"
  else
    say "Engine"
    say ("  Name:    " ++ name)
    say ("  Version: " ++ version)
    say ("  Library: " ++ e.configuration.library.name)
    say "\nDevices"
    say ("  Default: " ++ e.device.text)
    say s!"  GPUs:    {gpus}"
    say "\nCapabilities"
    say ("  CUDA: " ++ checkbox cuda)
    say ("  MKL:  " ++ checkbox mkl)
    say s!"\nOperators: {operators}"

def ops (e : BackendEngine) (filter : Option String) (json : Bool) : Script Unit := do
  let names := e.loaded.operators.names.filter fun n => (filter.getD "").toList.isPrefixOf n.toList
  if json then say (jsonList names)
  else
    names.forM say
    say s!"\n{names.length} operator(s)"

def smokeValues [HalfPrecision] : List (HostValue .f32) :=
  [1, 2, 3, 4, 5, 6].map fun n => .ofDouble .f32 (.ofNat n)

def valueText (values : List (HostValue .f32)) : String :=
  "[" ++ Text.commaSeparated
    (values.map fun v => Decimal.Layout.contents.write .single v.toNat) ++ "]"

def recordedSum (e : BackendEngine) (x : ArrayId) : Action (Session Backends) ArrayId := do
  let recorded ← e.startRecording
  let result ← Action.outcome do
    let squares ← Session.mul x x
    let shifted ← Session.addScalar squares .one
    let total ← Session.sum shifted none false
    recorded.backward total none false
    return total
  Session.onNative recorded.finish
  Action.ofExcept result

def smoke [HalfPrecision] (e : BackendEngine) : Script Unit := do
  let scope ← within (e.baseScope none)
  let x ← within (Session.fromValues scope .f32 smokeValues ⟨[2, 3]⟩)
  within (Session.setName x "x")
  within (Session.attachGrad x .write none)
  let y ← within (recordedSum e x)
  say ("input  " ++ (← within (Session.description x)).text)
  print (← within (Session.dump x))
  say ("sum(x * x + 1) = " ++ valueText (← within (Session.toValues y .f32)))
  let g ← within (Session.gradient x)
  print ("gradient\n" ++ (← within (Session.dump g)))
  within (Session.closeScope scope)
  say s!"\nscope closed, input released: {← within (Session.isReleased x)}"

def Options.configuration (o : Options) (fileText : String → Option String)
    (vars : Configuration.Variables) : Except Error Configuration := do
  let fromFile ← match o.config with
    | none => .ok Configuration.standard
    | some path =>
      match fileText path with
      | some text => Configuration.ofText text
      | none => .error (.configuration .unreadable)
  let c ← fromFile.override vars
  return { c with
    library := o.library.getD c.library
    libraryPath := o.libraryPath.or c.libraryPath }

def command [HalfPrecision] (e : BackendEngine) (o : Options) : Command → Script Unit
  | .info => info e o.json
  | .ops => ops e o.filter o.json
  | .smoke => smoke e

structure Outcome where
  exit : Nat
  printed : String
  error : Option Error

/-- What a process finds around it. -/
structure Surroundings where
  fileText : String → Option String
  environment : Configuration.Variables
  load : Foreign.Loader

def execute [HalfPrecision] (s : Surroundings) (o : Options) (c : Command) : Outcome :=
  let script : Script Unit := do
    let configuration ← Action.ofExcept (o.configuration s.fileText s.environment)
    let e ← within (Engine.ofConfiguration (Backends.openLibrary s.load) configuration)
    command e o c
  match script ⟨.start .initial, ""⟩ with
  | .ok () console => ⟨0, console.printed, none⟩
  | .error e console => ⟨1, console.printed, some e⟩

def respond [HalfPrecision] (s : Surroundings) : Request → Outcome
  | .run o c => execute s o c
  | .help topic => ⟨0, topic.text, none⟩
  | .version => ⟨0, versionText, none⟩
  | .unusable => ⟨2, "", none⟩

end ScopedTensor.CommandLine
