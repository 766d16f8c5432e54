import ScriptSemantics.Scope.Forest

/-! Implicit construction: a class takes what one of its constructors takes as its only
parameter. -/

namespace ScriptSemantics

def FunctionSymbol.convertsFrom (ctor : FunctionSymbol) (src : TypeSymbol) : Bool :=
  match ctor.paramTypes with
  | [some ⟨.type param, _, _⟩] => param.same src
  | _ => false

namespace ScopeForest

/-- The body of a class: the child scope of its name below the scope that declares it, provided a
class owns that child. -/
def constructorScope? (f : ScopeForest) (declaredIn : Option ScopeId) (cls : TypeSymbol) :
    Option ScopeId :=
  if cls.isClass then
    (declaredIn.bind (f.child? · cls.ident.text)).filter fun s => (f.owner? s).any (·.isClass)
  else none

def constructors (f : ScopeForest) (declaredIn : Option ScopeId) (cls : TypeSymbol) :
    List FunctionSymbol :=
  match (f.constructorScope? declaredIn cls).bind (f.find? · cls.ident.text) with
  | some entry => entry.overloads
  | none => []

def constructible (f : ScopeForest) (src : TypeSymbol) (declaredIn : Option ScopeId)
    (dest : TypeSymbol) : Bool :=
  (f.constructors declaredIn dest).any (·.convertsFrom src)

end ScopeForest

end ScriptSemantics
