import ScopedTensor.Session.Basic

/-! Scopes: making them, moving arrays between them, and closing. Closing a scope gives back every
array it owns, then closes the scopes below it; nothing enters a closed scope again. -/

namespace ScopedTensor

namespace Session

variable {σ : Type}

def newScope (engine : LoadedEngine σ) (device : Device) (parent : Option ScopeId) (closed : Bool) :
    Action (Session σ) ScopeId := do
  let id ← freshId
  modify fun s =>
    { s with scopes := s.scopes.insert id ⟨device, engine, parent, closed, [], []⟩ }
  holdScope id
  return id

def rootScope (engine : LoadedEngine σ) (device : Device) : Action (Session σ) ScopeId :=
  newScope engine device none false

/-- A scope below another. Below a closed scope it is closed from the start. -/
def subScope (parent : ScopeId) (device : Option Device) : Action (Session σ) ScopeId := do
  let p ← scope parent
  let child ← newScope p.engine (device.getD p.device) (some parent) p.closed
  if !p.closed then
    let held := (← get).scopeHolds
    modifyScope parent fun p => { p with children := p.children.filter held.contains ++ [child] }
  return child

def surrender (owner : ScopeId) (id : ArrayId) : Action (Session σ) Unit := do
  modifyScope owner fun s => { s with arrays := s.arrays.erase id }
  if ((← get).arrays.get? id).bind Tensor.owner = some owner then
    modifyArray id fun a => { a with owner := none }
    release id
  sweep

/-- Closes a scope and the held scopes at most so many levels below it, parents first. The
arrays go in the order in which they came in, though the map they stand for promises none. -/
def closeWithin : Nat → ScopeId → Action (Session σ) Unit
  | 0, _ => pure ()
  | depth + 1, id => do
    match (← get).scopes.get? id with
    | none => pure ()
    | some s =>
      if !s.closed then
        modifyScope id fun s => { s with closed := true, children := [] }
        s.arrays.forM (surrender id)
        s.children.forM fun child => do
          if (← get).scopeHolds.contains child then closeWithin depth child

/-- No chain of scopes is longer than there are scopes. -/
def closeScope (id : ScopeId) : Action (Session σ) Unit := do
  closeWithin (← get).scopes.size id

def cloneScope (id : ScopeId) : Action (Session σ) Unit := do
  let _ ← scope id
  holdScope id

/-- One variable less holds the scope. A scope that nobody holds closes. -/
def dropScope (id : ScopeId) : Action (Session σ) Unit := do
  modify fun s => { s with scopeHolds := s.scopeHolds.erase id }
  if !(← get).scopeHolds.contains id then
    closeScope id
    modify fun s => { s with scopes := s.scopes.erase id }

def adopt (target : ScopeId) (id : ArrayId) : Action (Session σ) Unit := do
  let s ← scope target
  let a ← array id
  if s.engine.id ≠ a.engine.id then throw (.invalid .foreignArray)
  if a.owned.isReleased then throw (.invalid .adoptingReleased)
  match a.owner with
  | none =>
    if s.closed then throw (.invalid .adoptingScopeClosed)
  | some source =>
    let some p := (← get).scopes.get? source | throw (.invalid .previousScopeClosing)
    if s.closed then throw (.invalid .adoptingScopeClosed)
    if source = target then return
    if !p.arrays.contains id then throw (.invalid .releasedWithScope)
    modifyScope source fun p => { p with arrays := p.arrays.erase id }
  modifyScope target fun s => { s with arrays := s.arrays ++ [id] }
  modifyArray id fun a => { a with owner := some target }

def parentOf (id : ScopeId) : Action (Session σ) (Option ScopeId) := do
  let s ← get
  return (s.scopes.get? id).bind Scope.parent |>.filter s.scopes.contains

def owns (id : ScopeId) (a : ArrayId) : Action (Session σ) Bool :=
  return (← scope id).arrays.contains a

end Session

def Scope.text {σ : Type} (s : Scope σ) (name : String) : String :=
  "NdManager \x7b id: " ++ name ++ ", device: " ++ s.device.label ++ ", arrays: " ++
    toString s.arrays.length ++ ", closed: " ++ toString s.closed ++ " \x7d"

end ScopedTensor
