import ScriptSemantics.Call.Resolution
import ScriptSemantics.Scope.Lookup
import ScriptSemantics.Scope.References
import ScriptSemantics.Types.Builtin

/-! An analysis session: builtin types, scopes, and the diagnostics reported so far. -/

namespace ScriptSemantics

def defaultDepthLimit : Nat := 64

structure Session where
  builtins : BuiltinTypes
  scopes : ScopeForest := {}
  diagnostics : List Diagnostic := []
  depthLimit : Nat := defaultDepthLimit

namespace Session

def start (numberNames : List String) (depthLimit : Nat) : TokenM Session := do
  return { builtins := ← BuiltinTypes.ofNumberNames numberNames, depthLimit }

def report (s : Session) (d : Diagnostic) : Session := { s with diagnostics := s.diagnostics ++ [d] }

def reportAll (s : Session) (ds : List Diagnostic) : Session :=
  { s with diagnostics := s.diagnostics ++ ds }

def takeDiagnostics (s : Session) : List Diagnostic × Session :=
  (s.diagnostics, { s with diagnostics := [] })

def createScope (s : Session) (parent : ScopeId) (name : String) (owner : Option ScopeOwner) :
    Except ScopeError ScopeId × Session :=
  let (result, scopes) := s.scopes.createScope parent name owner
  (result, { s with scopes })

def declare (s : Session) (scope : ScopeId) (d : Declaration) : Bool × Session :=
  match s.scopes.declare scope d with
  | .ok scopes => (true, { s with scopes })
  | .error e => (false, s.reportAll e.diagnostic?.toList)

def pushReference (s : Session) (scope : ScopeId) (r : Reference) : Session :=
  { s with scopes := s.scopes.pushReference scope r }

def pushHint (s : Session) (scope : ScopeId) (h : Hint) : Session :=
  { s with scopes := s.scopes.pushHint scope h }

def assignable (s : Session) (src dest : Option StaticType) : Bool :=
  s.scopes.assignable s.depthLimit src dest

def check (s : Session) (src dest : Option StaticType) (span : Span) : Bool × Session :=
  match s.scopes.conversionError? s.depthLimit src dest span with
  | none => (true, s)
  | some d => (false, s.report d)

def call (s : Session) (scope : ScopeId) (call : Call) (callee : List FunctionSymbol) :
    Option StaticType × Session :=
  match s.scopes.resolve s.depthLimit call callee with
  | none => (none, s)
  | some r =>
    (r.function.returnType,
      (s.reportAll r.diagnostics).pushReference scope ⟨.function r.function, call.site.ident⟩)

end Session

end ScriptSemantics
