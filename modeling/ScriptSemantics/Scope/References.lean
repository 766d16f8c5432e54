import ScriptSemantics.Scope.Forest

/-! Questions to the reference logs: who refers to a declaration, and what a position refers to. -/

namespace ScriptSemantics.ScopeForest

def allReferences (f : ScopeForest) : List Reference := f.scopes.toList.flatMap (·.references)

def referencesTo (f : ScopeForest) (declared : Token) : List Reference :=
  f.allReferences.filter (·.declared.ident.same declared)

def declarationAt (f : ScopeForest) (line col : UInt32) : Option Declaration :=
  (f.allReferences.find? (·.token.span.contains line col)).map (·.declared)

end ScriptSemantics.ScopeForest
