/-! Scope numbers. Scopes are numbered from 0 in the order they were opened. -/

namespace ScriptSemantics

structure ScopeId where
  index : Nat
deriving DecidableEq

def ScopeId.render (s : ScopeId) : String := "scope_" ++ toString s.index

end ScriptSemantics
