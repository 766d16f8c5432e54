import ScriptSemantics.Assignable.Basic
import ScriptSemantics.Call.Site

/-! Overload resolution. The first overload that accepts the call is taken; when none does, the last
is taken and its complaints are reported. An overload accepts a call exactly when it has no
complaints, but it answers sooner: the first thing that does not fit settles it. -/

namespace ScriptSemantics

structure Resolution where
  index : Nat
  function : FunctionSymbol
  diagnostics : List Diagnostic

def Resolution.select (accepts : FunctionSymbol → Bool)
    (complaints : FunctionSymbol → List Diagnostic) (index : Nat) :
    List FunctionSymbol → Option Resolution
  | [] => none
  | [g] => some ⟨index, g, complaints g⟩
  | g :: h :: rest =>
    if accepts g then some ⟨index, g, []⟩
    else Resolution.select accepts complaints (index + 1) (h :: rest)

def FunctionDecl.missing? (decl : FunctionDecl) (given : Nat) : Option Param :=
  (decl.params.drop given).find? (!·.hasDefault)

namespace ScopeForest

def argumentsFit (f : ScopeForest) (depthLimit : Nat) (templateArgs : Option TemplateArgs) :
    List Argument → List (Option StaticType) → Bool
  | [], _ => true
  | arg :: args, types =>
    -- past the last parameter type the expected type is absent
    f.assignable depthLimit (substituteType templateArgs arg.type)
      (substituteType templateArgs types.head?.join) &&
      f.argumentsFit depthLimit templateArgs args types.tail

def conversionComplaints (f : ScopeForest) (depthLimit : Nat) (templateArgs : Option TemplateArgs) :
    List Argument → List (Option StaticType) → List Diagnostic
  | [], _ => []
  | arg :: args, types =>
    (f.conversionError? depthLimit (substituteType templateArgs arg.type)
      (substituteType templateArgs types.head?.join) arg.span).toList ++
      f.conversionComplaints depthLimit templateArgs args types.tail

def accepts (f : ScopeForest) (depthLimit : Nat) (call : Call) (g : FunctionSymbol) : Bool :=
  decide (call.args.length ≤ g.decl.params.length) &&
    (g.decl.missing? call.args.length).isNone &&
    f.argumentsFit depthLimit call.templateArgs call.args g.paramTypes

def complaints (f : ScopeForest) (depthLimit : Nat) (call : Call) (g : FunctionSymbol) :
    List Diagnostic :=
  if g.decl.params.length < call.args.length then
    [.arityMismatch g.decl.params.length call.args.length call.site.span]
  else
    f.conversionComplaints depthLimit call.templateArgs call.args g.paramTypes ++
      ((g.decl.missing? call.args.length).map fun param =>
        .missingArgument param.displayName call.site.span).toList

def resolve (f : ScopeForest) (depthLimit : Nat) (call : Call) (callee : List FunctionSymbol) :
    Option Resolution :=
  Resolution.select (f.accepts depthLimit call) (f.complaints depthLimit call) 0 callee

theorem conversionComplaints_eq_nil_iff (f : ScopeForest) (depthLimit : Nat)
    (templateArgs : Option TemplateArgs) (args : List Argument) (types : List (Option StaticType)) :
    f.conversionComplaints depthLimit templateArgs args types = [] ↔
      f.argumentsFit depthLimit templateArgs args types = true := by
  induction args generalizing types with
  | nil => simp only [conversionComplaints, argumentsFit]
  | cons arg args ih =>
    rw [conversionComplaints, argumentsFit, List.append_eq_nil_iff, Bool.and_eq_true, ih,
      Option.toList_eq_nil_iff, conversionError?_eq_none_iff]

theorem complaints_eq_nil_iff (f : ScopeForest) (depthLimit : Nat) (call : Call)
    (g : FunctionSymbol) :
    f.complaints depthLimit call g = [] ↔ f.accepts depthLimit call g = true := by
  rw [complaints, accepts, Bool.and_eq_true, Bool.and_eq_true, decide_eq_true_eq]
  split
  · next h =>
    refine ⟨fun h' => ?_, fun h' => absurd h'.1.1 (Nat.not_le_of_lt h)⟩
    cases h'
  · next h =>
    rw [List.append_eq_nil_iff, conversionComplaints_eq_nil_iff, Option.toList_eq_nil_iff,
      Option.map_eq_none_iff, Option.isNone_iff_eq_none]
    exact ⟨fun h' => ⟨⟨Nat.le_of_not_lt h, h'.2⟩, h'.1⟩, fun h' => ⟨h'.2, h'.1.2⟩⟩

end ScopeForest

end ScriptSemantics
