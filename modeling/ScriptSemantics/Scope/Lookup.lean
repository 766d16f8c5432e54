import ScriptSemantics.Scope.Forest

/-! Lookup from the inside out, and the names scopes have from the outside in. -/

namespace ScriptSemantics.ScopeForest

/-- The scopes visible from a scope, innermost first: the scope itself, then its parents. Parents
are older than their children; a scope that is its own parent ends the chain. -/
def chain (f : ScopeForest) (s : ScopeId) : List ScopeId :=
  s :: match f.parent? s with
    | some p => if p.index < s.index then f.chain p else []
    | none => []
termination_by s.index

def findVisible? (f : ScopeForest) (s : ScopeId) (name : String) : Option (ScopeId × Entry) :=
  (f.chain s).findSome? fun t => (f.find? t name).map (t, ·)

def childVisible? (f : ScopeForest) (s : ScopeId) (name : String) : Option ScopeId :=
  (f.chain s).findSome? (f.child? · name)

def overloadsVisible (f : ScopeForest) (s : ScopeId) (name : String) : List FunctionSymbol :=
  match f.findVisible? s name with
  | some (_, entry) => entry.overloads
  | none => []

def path (f : ScopeForest) (s : ScopeId) : List String := (f.chain s).reverse.filterMap f.name?

def qualifiedName (f : ScopeForest) (s : ScopeId) (name : String) : String :=
  "::".intercalate (f.path s ++ [name])

end ScriptSemantics.ScopeForest
