import ScriptSemantics.Proofs.Declarations
import ScriptSemantics.Proofs.Renaming.Types

/-! Sessions under other token numbers. Scopes, calls and whole sessions are renamed with all the
tokens in them, and every operation on renamed data gives the renamed result. Answers, places in
lists and diagnostics have no token numbers in them and are the same as before. A session started
from another first number is a renamed one. -/

namespace ScriptSemantics

/-! ### The renamed data -/

section
variable (ρ : Renaming)

def VariableSymbol.rename (v : VariableSymbol) : VariableSymbol :=
  ⟨v.ident.rename ρ, renameType ρ v.type⟩

def Declaration.rename : Declaration → Declaration
  | .type symbol => .type (symbol.rename ρ)
  | .function symbol => .function (symbol.rename ρ)
  | .variable symbol => .variable (symbol.rename ρ)

def Overloads.rename (o : Overloads) : Overloads := ⟨o.first.rename ρ, o.rest.map (·.rename ρ)⟩

def Entry.rename : Entry → Entry
  | .type symbol => .type (symbol.rename ρ)
  | .functions overloads => .functions (overloads.rename ρ)
  | .variable symbol => .variable (symbol.rename ρ)

def SymbolTable.rename (table : SymbolTable) : SymbolTable := ⟨table.entries.map (·.rename ρ)⟩

def ScopeOwner.rename : ScopeOwner → ScopeOwner
  | classDecl decl => classDecl (decl.rename ρ)
  | enumDecl decl => enumDecl (decl.rename ρ)
  | functionDecl decl => functionDecl (decl.rename ρ)
  | block span => block span

def Reference.rename (r : Reference) : Reference := ⟨r.declared.rename ρ, r.token.rename ρ⟩

def Hint.rename : Hint → Hint
  | scope span target => scope span target
  | type span target => type span (target.rename ρ)
  | path span target => path span (target.map (·.rename ρ))

def Scope.rename (a : Scope) : Scope where
  link := a.link
  owner := a.owner.map (·.rename ρ)
  symbols := a.symbols.rename ρ
  references := a.references.map (·.rename ρ)
  hints := a.hints.map (·.rename ρ)

def ScopeForest.rename (f : ScopeForest) : ScopeForest := ⟨f.scopes.map (·.rename ρ)⟩

def DeclareError.rename : DeclareError → DeclareError
  | noSuchScope => noSuchScope
  | duplicate d => duplicate (d.rename ρ)

def CallSite.rename : CallSite → CallSite
  | function ident span => function (ident.rename ρ) span
  | construction type span => construction (type.rename ρ) span

def Argument.rename (a : Argument) : Argument := ⟨renameType ρ a.type, a.span⟩

def Call.rename (c : Call) : Call :=
  ⟨c.site.rename ρ, c.args.map (·.rename ρ), c.templateArgs.map (·.rename ρ)⟩

def Resolution.rename (r : Resolution) : Resolution := r.mapFunction (·.rename ρ)

def BuiltinTypes.rename (b : BuiltinTypes) : BuiltinTypes where
  numbers := b.numbers.map (·.rename ρ)
  string := b.string.rename ρ
  bool := b.bool.rename ρ
  void := b.void.rename ρ
  any := b.any.rename ρ
  auto := b.auto.rename ρ

def Session.rename (x : Session) : Session :=
  { x with builtins := x.builtins.rename ρ, scopes := x.scopes.rename ρ }

namespace Session

def Query.rename : Query → Query
  | assignable src dest => assignable (renameType ρ src) (renameType ρ dest)
  | check src dest span => check (renameType ρ src) (renameType ρ dest) span
  | call scope c callee => call scope (c.rename ρ) (callee.map (·.rename ρ))

def CheckStep.rename : CheckStep → CheckStep
  | query q => query (q.rename ρ)
  | pushReference scope r => pushReference scope (r.rename ρ)
  | pushHint scope h => pushHint scope (h.rename ρ)
  | report d => report d
  | takeDiagnostics => takeDiagnostics

def Step.rename : Step → Step
  | createScope parent name owner => createScope parent name (owner.map (·.rename ρ))
  | declare scope d => declare scope (d.rename ρ)
  | check step => check (step.rename ρ)

end Session

end

variable {ρ : Renaming}

/-! ### Declarations -/

@[simp] theorem Declaration.ident_rename (d : Declaration) :
    (d.rename ρ).ident = d.ident.rename ρ := by
  obtain symbol | symbol | symbol := d
  · exact symbol.ident_rename
  · exact symbol.ident_rename
  · rfl

@[simp] theorem Declaration.name_rename (d : Declaration) : (d.rename ρ).name = d.name := by
  rw [Declaration.name, Declaration.ident_rename, Token.text_rename, Declaration.name]

theorem Overloads.push_rename (o : Overloads) (g : FunctionSymbol) :
    (o.rename ρ).push (g.rename ρ) = (o.push g).rename ρ := by
  simp only [Overloads.push, Overloads.rename, List.map_append, List.map_cons, List.map_nil]

namespace Entry

theorem first_rename (e : Entry) : (e.rename ρ).first = e.first.rename ρ := by
  cases e <;> rfl

@[simp] theorem name_rename (e : Entry) : (e.rename ρ).name = e.name := by
  rw [name, ident, first_rename, Declaration.ident_rename, Token.text_rename, name, ident]

theorem overloads_rename (e : Entry) : (e.rename ρ).overloads = e.overloads.map (·.rename ρ) := by
  cases e <;> rfl

theorem ofDeclaration_rename (d : Declaration) :
    ofDeclaration (d.rename ρ) = (ofDeclaration d).rename ρ := by
  cases d <;> rfl

theorem extend?_rename (e : Entry) (d : Declaration) :
    (e.rename ρ).extend? (d.rename ρ) = (e.extend? d).map (·.rename ρ) := by
  obtain _ | overloads | _ := e <;> obtain _ | g | _ := d <;> try rfl
  simp only [Entry.rename, Declaration.rename, extend?, Overloads.push_rename, Option.map_some]

end Entry

namespace SymbolTable

theorem find?_rename (table : SymbolTable) (name : String) :
    (table.rename ρ).find? name = (table.find? name).map (·.rename ρ) := by
  have hname : (fun e : Entry => e.name == name) ∘ Entry.rename ρ = fun e => e.name == name := by
    funext e
    rw [Function.comp_apply, Entry.name_rename]
  rw [find?, find?, SymbolTable.rename, List.find?_map, hname]

theorem insert?_rename (table : SymbolTable) (d : Declaration) :
    (table.rename ρ).insert? (d.rename ρ) = (table.insert? d).map (·.rename ρ) := by
  have hentries (entries : List Entry) :
      insertEntry (d.rename ρ) (entries.map (·.rename ρ)) =
        (insertEntry d entries).map (·.map (·.rename ρ)) := by
    induction entries with
    | nil => simp only [insertEntry, List.map_nil, Entry.ofDeclaration_rename, Option.map_some,
        List.map_cons]
    | cons e rest ih =>
      rw [List.map_cons, insertEntry, insertEntry, Entry.name_rename, Declaration.name_rename]
      split
      · rw [Entry.extend?_rename, Option.map_map, Option.map_map]
        rfl
      · rw [ih, Option.map_map, Option.map_map]
        rfl
  rw [insert?, insert?, SymbolTable.rename, hentries, Option.map_map, Option.map_map]
  rfl

end SymbolTable

/-! ### Scopes -/

namespace ScopeForest

theorem ext_get? {f g : ScopeForest} (h : ∀ s, f.get? s = g.get? s) : f = g := by
  obtain ⟨scopes⟩ := f
  obtain ⟨scopes'⟩ := g
  have hscopes : scopes = scopes' := Array.ext_getElem? fun i => h ⟨i⟩
  rw [hscopes]

@[simp] theorem size_rename (f : ScopeForest) : (f.rename ρ).size = f.size := by
  simp only [size, ScopeForest.rename, Array.size_map]

@[simp] theorem get?_rename (f : ScopeForest) (s : ScopeId) :
    (f.rename ρ).get? s = (f.get? s).map (·.rename ρ) := by
  simp only [get?, ScopeForest.rename, Array.getElem?_map]

theorem child?_rename (f : ScopeForest) (s : ScopeId) (name : String) :
    (f.rename ρ).child? s name = f.child? s name := by
  rw [child?, ScopeForest.rename, Array.findIdx?_map]
  rfl

theorem owner?_rename (f : ScopeForest) (s : ScopeId) :
    (f.rename ρ).owner? s = (f.owner? s).map (·.rename ρ) := by
  rw [owner?, owner?, get?_rename]
  cases f.get? s <;> rfl

theorem find?_rename (f : ScopeForest) (s : ScopeId) (name : String) :
    (f.rename ρ).find? s name = (f.find? s name).map (·.rename ρ) := by
  rw [find?, find?, get?_rename]
  cases f.get? s with
  | none => rfl
  | some a => exact a.symbols.find?_rename name

theorem modify_rename (f : ScopeForest) (s : ScopeId) {g g' : Scope → Scope}
    (h : ∀ a, g' (a.rename ρ) = (g a).rename ρ) :
    (f.rename ρ).modify s g' = (f.modify s g).rename ρ := by
  refine ext_get? fun t => ?_
  rw [get?_modify, get?_rename, get?_rename, get?_modify, Option.map_map, Option.map_map]
  congr 1
  funext a
  by_cases hst : s = t
  · simp only [hst, if_true, Function.comp_apply, h]
  · simp only [hst, if_false, Function.comp_apply, id_eq]

theorem push_rename (f : ScopeForest) (a : Scope) :
    (f.rename ρ).push (a.rename ρ) = (f.push a).rename ρ := by
  simp only [push, ScopeForest.rename, Array.map_push]

end ScopeForest

/-! ### Assignability -/

theorem FunctionSymbol.convertsFrom_rename (ctor : FunctionSymbol) (src : TypeSymbol) :
    (ctor.rename ρ).convertsFrom (src.rename ρ) = ctor.convertsFrom src := by
  obtain ⟨decl, returnType, paramTypes⟩ := ctor
  rw [FunctionSymbol.rename_eq]
  obtain _ | ⟨_ | ⟨symbol | symbol, scope, args⟩, _ | ⟨next, rest⟩⟩ := paramTypes
  · rfl
  · rfl
  · rfl
  · exact symbol.same_rename src
  · rfl
  · rfl
  · rfl

namespace ScopeForest

theorem constructorScope?_rename (f : ScopeForest) (declaredIn : Option ScopeId)
    (cls : TypeSymbol) :
    (f.rename ρ).constructorScope? declaredIn (cls.rename ρ) =
      f.constructorScope? declaredIn cls := by
  have howner (s : ScopeId) : ((f.rename ρ).owner? s).any (·.isClass) =
      (f.owner? s).any (·.isClass) := by
    rw [owner?_rename, Option.any_map]
    congr 1
    funext owner
    cases owner <;> rfl
  simp only [constructorScope?, TypeSymbol.isClass_rename, TypeSymbol.ident_rename,
    Token.text_rename, child?_rename, howner]

theorem constructors_rename (f : ScopeForest) (declaredIn : Option ScopeId) (cls : TypeSymbol) :
    (f.rename ρ).constructors declaredIn (cls.rename ρ) =
      (f.constructors declaredIn cls).map (·.rename ρ) := by
  have hentry : (fun s => (f.rename ρ).find? s cls.ident.text) =
      fun s => (f.find? s cls.ident.text).map (·.rename ρ) :=
    funext fun s => f.find?_rename s cls.ident.text
  rw [constructors, constructors, constructorScope?_rename, TypeSymbol.ident_rename,
    Token.text_rename, hentry]
  cases f.constructorScope? declaredIn cls with
  | none => rfl
  | some body =>
    simp only [Option.bind_some]
    cases f.find? body cls.ident.text with
    | none => rfl
    | some entry => exact entry.overloads_rename

theorem constructible_rename (f : ScopeForest) (src : TypeSymbol) (declaredIn : Option ScopeId)
    (dest : TypeSymbol) :
    (f.rename ρ).constructible (src.rename ρ) declaredIn (dest.rename ρ) =
      f.constructible src declaredIn dest := by
  simp only [constructible, constructors_rename, List.any_map, Function.comp_def,
    FunctionSymbol.convertsFrom_rename]

theorem symbolAssignable_rename (f : ScopeForest) (src : TypeSymbol) (declaredIn : Option ScopeId)
    (dest : TypeSymbol) :
    (f.rename ρ).symbolAssignable (src.rename ρ) declaredIn (dest.rename ρ) =
      f.symbolAssignable src declaredIn dest := by
  simp only [symbolAssignable, TypeSymbol.isOpen_rename, TypeSymbol.primitive?_rename,
    Primitive.verdict_rename, TypeSymbol.same_rename, TypeSymbol.hasBase_rename,
    constructible_rename]

theorem assignableWithin_rename (f : ScopeForest) (levels : Nat) (src dest : Option StaticType) :
    (f.rename ρ).assignableWithin levels (renameType ρ src) (renameType ρ dest) =
      f.assignableWithin levels src dest := by
  induction levels generalizing src dest with
  | zero => rw [assignableWithin_zero, assignableWithin_zero]
  | succ levels ih =>
    cases src with
    | none => simp only [renameType_none, assignableWithin]
    | some src =>
    cases dest with
    | none => simp only [renameType_none, assignableWithin_none_right]
    | some dest =>
    rw [renameType_some, renameType_some, assignableWithin, assignableWithin,
      StaticType.selfSubstitute_rename, StaticType.selfSubstitute_rename]
    cases src.selfSubstitute with
    | none => simp only [renameType_none]
    | some src' =>
    cases dest.selfSubstitute with
    | none => simp only [renameType_some, renameType_none]
    | some dest' =>
    obtain ⟨s | g, scope, args⟩ := src' <;> obtain ⟨d | h, scope', args'⟩ := dest' <;>
      simp only [renameType_some, StaticType.rename_eq, TypeHead.rename]
    · exact f.symbolAssignable_rename s scope' d
    · simp only [FunctionSymbol.rename_eq, ih, List.length_map, List.zip_map, List.all_map,
        Function.comp_def, Prod.map]

theorem assignable_rename (f : ScopeForest) (depthLimit : Nat) (src dest : Option StaticType) :
    (f.rename ρ).assignable depthLimit (renameType ρ src) (renameType ρ dest) =
      f.assignable depthLimit src dest :=
  f.assignableWithin_rename (depthLimit + 1) src dest

theorem conversionError?_rename (f : ScopeForest) (depthLimit : Nat) (src dest : Option StaticType)
    (span : Span) :
    (f.rename ρ).conversionError? depthLimit (renameType ρ src) (renameType ρ dest) span =
      f.conversionError? depthLimit src dest span := by
  rw [conversionError?, conversionError?, assignable_rename, renderType_rename, renderType_rename]

end ScopeForest

/-! ### Calls -/

theorem FunctionDecl.missing?_rename (decl : FunctionDecl) (given : Nat) :
    (decl.rename ρ).missing? given = (decl.missing? given).map (·.rename ρ) := by
  rw [FunctionDecl.missing?, FunctionDecl.missing?, FunctionDecl.rename, ← List.map_drop,
    List.find?_map]
  rfl

@[simp] theorem CallSite.span_rename (site : CallSite) : (site.rename ρ).span = site.span := by
  cases site <;> rfl

@[simp] theorem CallSite.ident_rename (site : CallSite) :
    (site.rename ρ).ident = site.ident.rename ρ := by
  cases site <;> rfl

namespace ScopeForest

theorem conversionComplaints_rename (f : ScopeForest) (depthLimit : Nat)
    (templateArgs : Option TemplateArgs) (args : List Argument) (types : List (Option StaticType)) :
    (f.rename ρ).conversionComplaints depthLimit (templateArgs.map (·.rename ρ))
        (args.map (·.rename ρ)) (types.map (renameType ρ)) =
      f.conversionComplaints depthLimit templateArgs args types := by
  induction args generalizing types with
  | nil => rfl
  | cons arg args ih =>
    rw [List.map_cons, conversionComplaints, conversionComplaints, ← List.map_tail, ih,
      head?_join_renameType, substituteType_rename, Argument.rename, substituteType_rename,
      conversionError?_rename]

theorem complaints_rename (f : ScopeForest) (depthLimit : Nat) (call : Call) (g : FunctionSymbol) :
    (f.rename ρ).complaints depthLimit (call.rename ρ) (g.rename ρ) =
      f.complaints depthLimit call g := by
  have hparams : (g.rename ρ).decl.params.length = g.decl.params.length := by
    rw [FunctionSymbol.rename_eq]
    exact List.length_map _
  have hargs : (call.rename ρ).args.length = call.args.length := List.length_map _
  have hfits : (f.rename ρ).conversionComplaints depthLimit (call.rename ρ).templateArgs
      (call.rename ρ).args (g.rename ρ).paramTypes =
      f.conversionComplaints depthLimit call.templateArgs call.args g.paramTypes := by
    rw [FunctionSymbol.rename_eq]
    exact f.conversionComplaints_rename depthLimit call.templateArgs call.args g.paramTypes
  have hmissing : (g.rename ρ).decl.missing? call.args.length =
      (g.decl.missing? call.args.length).map (·.rename ρ) := by
    rw [FunctionSymbol.rename_eq]
    exact g.decl.missing?_rename call.args.length
  have hspan : (call.rename ρ).site.span = call.site.span := call.site.span_rename
  rw [complaints, complaints, hparams, hargs, hfits, hmissing, hspan, Option.map_map]
  simp only [Function.comp_def, Param.displayName_rename]

theorem accepts_rename (f : ScopeForest) (depthLimit : Nat) (call : Call) (g : FunctionSymbol) :
    (f.rename ρ).accepts depthLimit (call.rename ρ) (g.rename ρ) = f.accepts depthLimit call g := by
  rw [Bool.eq_iff_iff, ← complaints_eq_nil_iff, ← complaints_eq_nil_iff, complaints_rename]

theorem resolve_rename (f : ScopeForest) (depthLimit : Nat) (call : Call)
    (callee : List FunctionSymbol) :
    (f.rename ρ).resolve depthLimit (call.rename ρ) (callee.map (·.rename ρ)) =
      (f.resolve depthLimit call callee).map (·.rename ρ) :=
  Resolution.select_map (f.accepts_rename depthLimit call) (f.complaints_rename depthLimit call) 0
    callee

/-! ### References -/

theorem allReferences_rename (f : ScopeForest) :
    (f.rename ρ).allReferences = f.allReferences.map (·.rename ρ) := by
  rw [allReferences, allReferences, ScopeForest.rename, Array.toList_map, List.flatMap_map,
    List.map_flatMap]
  rfl

theorem referencesTo_rename (f : ScopeForest) (declared : Token) :
    (f.rename ρ).referencesTo (declared.rename ρ) = (f.referencesTo declared).map (·.rename ρ) := by
  have hsame : (fun r : Reference => r.declared.ident.same (declared.rename ρ)) ∘
      Reference.rename ρ = fun r => r.declared.ident.same declared := by
    funext r
    rw [Function.comp_apply, Reference.rename, Declaration.ident_rename, Token.same_rename]
  rw [referencesTo, referencesTo, allReferences_rename, List.filter_map, hsame]

theorem declarationAt_rename (f : ScopeForest) (line col : UInt32) :
    (f.rename ρ).declarationAt line col = (f.declarationAt line col).map (·.rename ρ) := by
  rw [declarationAt, declarationAt, allReferences_rename, List.find?_map, Option.map_map,
    Option.map_map]
  rfl

end ScopeForest

/-! ### Sessions -/

namespace ScopeForest

theorem declare_rename (f : ScopeForest) (s : ScopeId) (d : Declaration) :
    (f.rename ρ).declare s (d.rename ρ) =
      ((f.declare s d).mapError (·.rename ρ)).map (·.rename ρ) := by
  rw [declare, declare, get?_rename]
  cases f.get? s with
  | none => rfl
  | some a =>
    have hinsert : (a.rename ρ).symbols.insert? (d.rename ρ) =
        (a.symbols.insert? d).map (·.rename ρ) := a.symbols.insert?_rename d
    simp only [Option.map_some, hinsert]
    cases a.symbols.insert? d with
    | none => rfl
    | some symbols =>
      refine congrArg Except.ok (f.modify_rename s fun b => ?_)
      rfl

theorem createScope_rename (f : ScopeForest) (parent : ScopeId) (name : String)
    (owner : Option ScopeOwner) :
    (f.rename ρ).createScope parent name (owner.map (·.rename ρ)) =
      ((f.createScope parent name owner).1, (f.createScope parent name owner).2.rename ρ) := by
  rw [createScope, createScope, child?_rename, size_rename]
  cases f.child? parent name with
  | some s =>
    refine congrArg (Prod.mk _) (f.modify_rename s fun a => ?_)
    -- the owner a scope has stays, under whatever numbers
    obtain ⟨link, _ | kept, symbols, references, hints⟩ := a <;> rfl
  | none =>
    simp only
    split
    · exact congrArg (Prod.mk _) (f.push_rename { link := some ⟨parent, name⟩, owner })
    · exact congrArg (Prod.mk _) (f.push_rename { owner })

theorem pushReference_rename (f : ScopeForest) (s : ScopeId) (r : Reference) :
    (f.rename ρ).pushReference s (r.rename ρ) = (f.pushReference s r).rename ρ := by
  refine f.modify_rename s fun a => ?_
  simp only [Scope.rename, List.map_append, List.map_cons, List.map_nil]

theorem pushHint_rename (f : ScopeForest) (s : ScopeId) (h : Hint) :
    (f.rename ρ).pushHint s (h.rename ρ) = (f.pushHint s h).rename ρ := by
  refine f.modify_rename s fun a => ?_
  simp only [Scope.rename, List.map_append, List.map_cons, List.map_nil]

end ScopeForest

namespace Session

@[simp] theorem scopes_rename (x : Session) : (x.rename ρ).scopes = x.scopes.rename ρ := rfl

@[simp] theorem depthLimit_rename (x : Session) : (x.rename ρ).depthLimit = x.depthLimit := rfl

theorem reportAll_rename (x : Session) (ds : List Diagnostic) :
    (x.rename ρ).reportAll ds = (x.reportAll ds).rename ρ := rfl

theorem pushReference_rename (x : Session) (scope : ScopeId) (r : Reference) :
    (x.rename ρ).pushReference scope (r.rename ρ) = (x.pushReference scope r).rename ρ := by
  simp only [pushReference, scopes_rename, ScopeForest.pushReference_rename]
  rfl

theorem pushHint_rename (x : Session) (scope : ScopeId) (h : Hint) :
    (x.rename ρ).pushHint scope (h.rename ρ) = (x.pushHint scope h).rename ρ := by
  simp only [pushHint, scopes_rename, ScopeForest.pushHint_rename]
  rfl

theorem createScope_rename (x : Session) (parent : ScopeId) (name : String)
    (owner : Option ScopeOwner) :
    (x.rename ρ).createScope parent name (owner.map (·.rename ρ)) =
      ((x.createScope parent name owner).1, (x.createScope parent name owner).2.rename ρ) := by
  rw [createScope, scopes_rename, ScopeForest.createScope_rename]
  rfl

theorem declare_rename (x : Session) (scope : ScopeId) (d : Declaration) :
    (x.rename ρ).declare scope (d.rename ρ) =
      ((x.declare scope d).1, (x.declare scope d).2.rename ρ) := by
  rw [declare, declare, scopes_rename, ScopeForest.declare_rename]
  cases x.scopes.declare scope d with
  | ok scopes => rfl
  | error e =>
    have hreported : (e.rename ρ).diagnostic? = e.diagnostic? := by
      cases e with
      | noSuchScope => rfl
      | duplicate d =>
        rw [DeclareError.rename, DeclareError.diagnostic?, DeclareError.diagnostic?,
          Declaration.name_rename, Declaration.ident_rename, Token.span_rename]
    show (false, (x.rename ρ).reportAll (e.rename ρ).diagnostic?.toList) = _
    rw [hreported, reportAll_rename]

theorem check_rename (x : Session) (src dest : Option StaticType) (span : Span) :
    (x.rename ρ).check (renameType ρ src) (renameType ρ dest) span =
      ((x.check src dest span).1, (x.check src dest span).2.rename ρ) := by
  rw [check, check, scopes_rename, depthLimit_rename, ScopeForest.conversionError?_rename]
  cases x.scopes.conversionError? x.depthLimit src dest span <;> rfl

theorem call_rename (x : Session) (scope : ScopeId) (c : Call) (callee : List FunctionSymbol) :
    (x.rename ρ).call scope (c.rename ρ) (callee.map (·.rename ρ)) =
      (renameType ρ (x.call scope c callee).1, (x.call scope c callee).2.rename ρ) := by
  rw [call, call, scopes_rename, depthLimit_rename, ScopeForest.resolve_rename]
  cases x.scopes.resolve x.depthLimit c callee with
  | none => simp only [Option.map_none, renameType_none]
  | some r =>
    have hreturn : (r.rename ρ).function.returnType = renameType ρ r.function.returnType := by
      rw [Resolution.rename, Resolution.mapFunction, FunctionSymbol.rename_eq]
    have hlogged : (⟨.function (r.rename ρ).function, (c.rename ρ).site.ident⟩ : Reference) =
        Reference.rename ρ ⟨.function r.function, c.site.ident⟩ := by
      rw [Call.rename, CallSite.ident_rename]
      rfl
    simp only [Option.map_some, hreturn, hlogged, ← pushReference_rename, ← reportAll_rename]
    rfl

theorem apply_rename (x : Session) (step : Step) :
    (step.rename ρ).apply (x.rename ρ) = (step.apply x).rename ρ := by
  cases step with
  | createScope parent name owner =>
    exact congrArg Prod.snd (x.createScope_rename parent name owner)
  | declare scope d => exact congrArg Prod.snd (x.declare_rename scope d)
  | check step =>
    cases step with
    | query q =>
      cases q with
      | assignable src dest => rfl
      | check src dest span => exact congrArg Prod.snd (x.check_rename src dest span)
      | call scope c callee => exact congrArg Prod.snd (x.call_rename scope c callee)
    | pushReference scope r => exact x.pushReference_rename scope r
    | pushHint scope h => exact x.pushHint_rename scope h
    | report d => rfl
    | takeDiagnostics => rfl

theorem run_rename (x : Session) (steps : List Step) :
    (x.rename ρ).run (steps.map (·.rename ρ)) = (x.run steps).rename ρ := by
  induction steps generalizing x with
  | nil => rfl
  | cons step steps ih => rw [List.map_cons, run, run, apply_rename, ih]

end Session

/-! ### Fresh tokens -/

section

variable {α β : Type} {n : UInt32}

/-- One computation draws its tokens `n` numbers after the other, and its result is the other's
with the tokens moved on, as `move` does it. -/
def TokenM.Ahead (n : UInt32) (move : α → α) (m m' : TokenM α) : Prop :=
  ∀ supply : TokenSupply,
    m'.run (supply.rename (.shift n)) =
      (move (m.run supply).1, (m.run supply).2.rename (.shift n))

namespace TokenM.Ahead

theorem pure (move : α → α) (a : α) :
    Ahead n move (Pure.pure a : TokenM α) (Pure.pure (move a)) :=
  fun _ => rfl

theorem bind {move : α → α} {move' : β → β} {m m' : TokenM α} {k k' : α → TokenM β}
    (hm : Ahead n move m m') (hk : ∀ a, Ahead n move' (k a) (k' (move a))) :
    Ahead n move' (m >>= k) (m' >>= k') := by
  intro supply
  have hrest := hk (m.run supply).1 (m.run supply).2
  rw [StateT.run_bind, StateT.run_bind, hm supply]
  exact hrest

theorem fresh : Ahead n (Renaming.shift n).apply TokenId.fresh TokenId.fresh := by
  intro supply
  have hnext : supply.next.index + n + 1 = supply.next.index + 1 + n := by
    rw [UInt32.add_assoc, UInt32.add_comm n 1, ← UInt32.add_assoc]
  exact congrArg (Prod.mk _) (congrArg (fun i => TokenSupply.mk (TokenId.mk i)) hnext)

theorem make (text : String) (kind : TokenKind) (span : Span) (flags : TokenFlags) :
    Ahead n (Token.rename (.shift n)) (Token.make text kind span flags)
      (Token.make text kind span flags) :=
  bind fresh fun _ => pure _ _

theorem makeBuiltin (kind : Primitive) (name : String) :
    Ahead n (TypeSymbol.rename (.shift n)) (TypeSymbol.makeBuiltin kind name)
      (TypeSymbol.makeBuiltin kind name) := by
  refine bind (make _ _ _ _) fun token => ?_
  have hsymbol : (TypeSymbol.ofPrimitive token kind).rename (.shift n) =
      .ofPrimitive (token.rename (.shift n)) kind := TypeSymbol.rename_eq _
  rw [← hsymbol]
  exact pure _ _

theorem mapM {move : β → β} {k : α → TokenM β} (hk : ∀ a, Ahead n move (k a) (k a))
    (as : List α) : Ahead n (List.map move) (as.mapM k) (as.mapM k) := by
  induction as with
  | nil => exact pure _ _
  | cons a as ih =>
    rw [List.mapM_cons]
    exact bind (hk a) fun b => bind ih fun bs => pure _ (b :: bs)

end TokenM.Ahead

theorem TypeSymbol.keepLast_rename (ts : List TypeSymbol) :
    TypeSymbol.keepLast (ts.map (·.rename ρ)) = (TypeSymbol.keepLast ts).map (·.rename ρ) := by
  induction ts with
  | nil => rfl
  | cons t ts ih =>
    simp only [List.map_cons, TypeSymbol.keepLast, List.any_map, Function.comp_def,
      TypeSymbol.ident_rename, Token.text_rename, ih]
    split
    · rfl
    · rfl

theorem BuiltinTypes.ahead_ofNumberNames (names : List String) :
    TokenM.Ahead n (BuiltinTypes.rename (.shift n)) (ofNumberNames names) (ofNumberNames names) := by
  refine .bind (.mapM (fun name => .makeBuiltin .number name) names) fun numbers => ?_
  refine .bind (.makeBuiltin _ _) fun string => ?_
  refine .bind (.makeBuiltin _ _) fun bool => ?_
  refine .bind (.makeBuiltin _ _) fun void => ?_
  refine .bind (.makeBuiltin _ _) fun any => ?_
  refine .bind (.makeBuiltin _ _) fun auto => ?_
  rw [TypeSymbol.keepLast_rename]
  exact .pure (rename (.shift n)) ⟨TypeSymbol.keepLast numbers, string, bool, void, any, auto⟩

theorem Session.ahead_start (names : List String) (depthLimit : Nat) :
    TokenM.Ahead n (Session.rename (.shift n)) (start names depthLimit)
      (start names depthLimit) := by
  refine .bind (BuiltinTypes.ahead_ofNumberNames names) fun builtins => ?_
  have hempty : ({} : ScopeForest).rename (.shift n) = {} := by
    rw [ScopeForest.rename, List.map_toArray]
    rfl
  have hsession : ({ builtins, depthLimit } : Session).rename (.shift n) =
      { builtins := builtins.rename (.shift n), depthLimit } := by
    simp only [Session.rename, hempty]
  rw [← hsession]
  exact .pure _ _

end

/-- Nothing depends on token numbers but through which tokens are the same. Whatever is asked of a
session whose tokens all have other numbers, answers, places and diagnostics are as before, and
types, scopes and references are those from before with the other numbers. Such a session is also
what comes about when the first number drawn is another. -/
theorem Session.commutes_with_renaming (ρ : Renaming) (f : ScopeForest) (x : Session) (n : UInt32) :
    -- types
    (∀ (kind : Primitive) (src dest : TypeSymbol),
      kind.verdict (src.rename ρ) (dest.rename ρ) = kind.verdict src dest) ∧
    (∀ (args : Option TemplateArgs) (t : Option StaticType),
      substituteType (args.map (·.rename ρ)) (renameType ρ t) =
        renameType ρ (substituteType args t)) ∧
    (∀ (params : List Token) (values : List (Option StaticType)),
      TemplateArgs.ofLists (params.map (·.rename ρ)) (values.map (renameType ρ)) =
        (TemplateArgs.ofLists params values).rename ρ) ∧
    (∀ (generic : StaticType) (values : List (Option StaticType)),
      (generic.rename ρ).instantiate (values.map (renameType ρ)) =
        (generic.instantiate values).rename ρ) ∧
    -- scopes
    (∀ (src : TypeSymbol) (declaredIn : Option ScopeId) (dest : TypeSymbol),
      (f.rename ρ).constructible (src.rename ρ) declaredIn (dest.rename ρ) =
        f.constructible src declaredIn dest) ∧
    (∀ (depthLimit : Nat) (src dest : Option StaticType),
      (f.rename ρ).assignable depthLimit (renameType ρ src) (renameType ρ dest) =
        f.assignable depthLimit src dest) ∧
    (∀ (s : ScopeId) (d : Declaration),
      (f.rename ρ).declare s (d.rename ρ) =
        ((f.declare s d).mapError (·.rename ρ)).map (·.rename ρ)) ∧
    (∀ (depthLimit : Nat) (c : Call) (callee : List FunctionSymbol),
      (f.rename ρ).resolve depthLimit (c.rename ρ) (callee.map (·.rename ρ)) =
        (f.resolve depthLimit c callee).map (·.rename ρ)) ∧
    (∀ declared : Token,
      (f.rename ρ).referencesTo (declared.rename ρ) =
        (f.referencesTo declared).map (·.rename ρ)) ∧
    (∀ line col : UInt32,
      (f.rename ρ).declarationAt line col = (f.declarationAt line col).map (·.rename ρ)) ∧
    -- sessions, with the diagnostics they have reported
    (∀ (scope : ScopeId) (d : Declaration),
      (x.rename ρ).declare scope (d.rename ρ) =
        ((x.declare scope d).1, (x.declare scope d).2.rename ρ)) ∧
    (∀ (src dest : Option StaticType) (span : Span),
      (x.rename ρ).check (renameType ρ src) (renameType ρ dest) span =
        ((x.check src dest span).1, (x.check src dest span).2.rename ρ)) ∧
    (∀ (scope : ScopeId) (c : Call) (callee : List FunctionSymbol),
      (x.rename ρ).call scope (c.rename ρ) (callee.map (·.rename ρ)) =
        (renameType ρ (x.call scope c callee).1, (x.call scope c callee).2.rename ρ)) ∧
    (∀ steps : List Step,
      (x.rename ρ).run (steps.map (·.rename ρ)) = (x.run steps).rename ρ) ∧
    -- another first number
    (∀ (text : String) (kind : TokenKind) (span : Span) (flags : TokenFlags),
      TokenM.Ahead n (Token.rename (.shift n)) (Token.make text kind span flags)
        (Token.make text kind span flags)) ∧
    (∀ (names : List String) (depthLimit : Nat),
      TokenM.Ahead n (Session.rename (.shift n)) (start names depthLimit)
        (start names depthLimit)) := by
  refine ⟨Primitive.verdict_rename, substituteType_rename, TemplateArgs.ofLists_rename,
    StaticType.instantiate_rename, ?_⟩
  refine ⟨f.constructible_rename, f.assignable_rename, f.declare_rename, f.resolve_rename,
    f.referencesTo_rename, f.declarationAt_rename, ?_⟩
  exact ⟨x.declare_rename, x.check_rename, x.call_rename, x.run_rename, TokenM.Ahead.make,
    ahead_start⟩

end ScriptSemantics
