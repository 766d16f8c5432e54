import ScriptSemantics.Proofs.Checking

/-! Calls on a value that carries template arguments. Resolution substitutes them as it goes along,
argument by argument; it comes to the same if arguments and parameters are substituted beforehand
and the call is made on a value that carries none. -/

namespace ScriptSemantics

def Argument.substitute (templateArgs : Option TemplateArgs) (arg : Argument) : Argument :=
  { arg with type := substituteType templateArgs arg.type }

/-- Of a function only the parameter types are substituted, not the type it returns. -/
def FunctionSymbol.substituteParams (templateArgs : Option TemplateArgs) (g : FunctionSymbol) :
    FunctionSymbol :=
  { g with paramTypes := substituteTypes templateArgs g.paramTypes }

def Call.substituted (c : Call) : Call :=
  { c with args := c.args.map (·.substitute c.templateArgs), templateArgs := none }

def Reference.tokens (r : Reference) : Token × Token := (r.declared.ident, r.token)

theorem substituteType_none (t : Option StaticType) : substituteType none t = t := by
  cases t <;> rfl

theorem head?_join_substituteTypes (templateArgs : Option TemplateArgs)
    (types : List (Option StaticType)) :
    (substituteTypes templateArgs types).head?.join =
      substituteType templateArgs types.head?.join := by
  cases types <;> rfl

theorem tail_substituteTypes (templateArgs : Option TemplateArgs)
    (types : List (Option StaticType)) :
    (substituteTypes templateArgs types).tail = substituteTypes templateArgs types.tail :=
  List.map_tail.symm

namespace ScopeForest

theorem conversionComplaints_substituted (f : ScopeForest) (depthLimit : Nat)
    (templateArgs : Option TemplateArgs) (args : List Argument) (types : List (Option StaticType)) :
    f.conversionComplaints depthLimit none (args.map (·.substitute templateArgs))
        (substituteTypes templateArgs types) =
      f.conversionComplaints depthLimit templateArgs args types := by
  induction args generalizing types with
  | nil => rfl
  | cons arg args ih =>
    have harg : substituteType none (arg.substitute templateArgs).type =
        substituteType templateArgs arg.type := substituteType_none _
    rw [List.map_cons, conversionComplaints, conversionComplaints, tail_substituteTypes, ih, harg,
      substituteType_none, head?_join_substituteTypes, Argument.substitute]

theorem complaints_substituted (f : ScopeForest) (depthLimit : Nat) (c : Call)
    (g : FunctionSymbol) :
    f.complaints depthLimit c.substituted (g.substituteParams c.templateArgs) =
      f.complaints depthLimit c g := by
  have hlength : c.substituted.args.length = c.args.length := List.length_map _
  have hfits : f.conversionComplaints depthLimit c.substituted.templateArgs c.substituted.args
      (g.substituteParams c.templateArgs).paramTypes =
      f.conversionComplaints depthLimit c.templateArgs c.args g.paramTypes :=
    f.conversionComplaints_substituted depthLimit c.templateArgs c.args g.paramTypes
  rw [complaints, complaints, hlength, hfits]
  rfl

theorem accepts_substituted (f : ScopeForest) (depthLimit : Nat) (c : Call) (g : FunctionSymbol) :
    f.accepts depthLimit c.substituted (g.substituteParams c.templateArgs) =
      f.accepts depthLimit c g := by
  rw [Bool.eq_iff_iff, ← complaints_eq_nil_iff, ← complaints_eq_nil_iff, complaints_substituted]

theorem resolve_substituted (f : ScopeForest) (depthLimit : Nat) (c : Call)
    (callee : List FunctionSymbol) :
    f.resolve depthLimit c.substituted (callee.map (·.substituteParams c.templateArgs)) =
      (f.resolve depthLimit c callee).map
        (·.mapFunction (·.substituteParams c.templateArgs)) :=
  Resolution.select_map (f.accepts_substituted depthLimit c) (f.complaints_substituted depthLimit c)
    0 callee

end ScopeForest

namespace Session

theorem tokens_references_call {s : Session} {c : Call} {callee : List FunctionSymbol}
    {r : Resolution} (h : s.scopes.resolve s.depthLimit c callee = some r) (scope t : ScopeId) :
    ((s.call scope c callee).2.scopes.references t).map Reference.tokens =
      (s.scopes.references t).map Reference.tokens ++
        if t = scope ∧ t.index < s.scopes.size then [(r.function.ident, c.site.ident)] else [] := by
  have hreferences : (s.call scope c callee).2.scopes.references t = s.scopes.references t ++
      if t = scope ∧ t.index < s.scopes.size then [⟨.function r.function, c.site.ident⟩] else [] := by
    rw [Session.call, h]
    exact ScopeForest.references_pushReference _ _ _ _
  rw [hreferences, List.map_append]
  split <;> rfl

/-- Substituting beforehand changes nothing that a call can show: which overload it is bound to, the
type it gives, what it reports, and which tokens the logs of all scopes hold after it. -/
theorem call_substituted (s : Session) (scope : ScopeId) (c : Call) (callee : List FunctionSymbol) :
    let beforehand := callee.map (·.substituteParams c.templateArgs)
    (s.scopes.resolve s.depthLimit c.substituted beforehand).map (·.index) =
      (s.scopes.resolve s.depthLimit c callee).map (·.index) ∧
    (s.call scope c.substituted beforehand).1 = (s.call scope c callee).1 ∧
    (s.call scope c.substituted beforehand).2.diagnostics = (s.call scope c callee).2.diagnostics ∧
    ∀ t, ((s.call scope c.substituted beforehand).2.scopes.references t).map Reference.tokens =
      ((s.call scope c callee).2.scopes.references t).map Reference.tokens := by
  intro beforehand
  have hresolve : s.scopes.resolve s.depthLimit c.substituted beforehand = _ :=
    s.scopes.resolve_substituted s.depthLimit c callee
  cases hr : s.scopes.resolve s.depthLimit c callee with
  | none =>
    rw [hr, Option.map_none] at hresolve
    have hcall : s.call scope c.substituted beforehand = s.call scope c callee := by
      rw [Session.call, Session.call, hresolve, hr]
    rw [hresolve, hcall]
    exact ⟨rfl, rfl, rfl, fun t => rfl⟩
  | some r =>
    rw [hr, Option.map_some] at hresolve
    have hbound := call_bound hr scope
    have hbound' := call_bound hresolve scope
    refine ⟨by rw [hresolve]; rfl, ?_, ?_, fun t => ?_⟩
    · exact hbound'.type.trans hbound.type.symm
    · exact hbound'.diagnostics.trans hbound.diagnostics.symm
    · rw [tokens_references_call hresolve, tokens_references_call hr]
      rfl

end Session

end ScriptSemantics
