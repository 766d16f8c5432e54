import ScriptSemantics.Proofs.Declarations
import ScriptSemantics.Proofs.Reflexivity

/-! Construction that is implied and construction that is written out. A class can be implied where a
constructor of it has the very type given as its only parameter. A call goes by what fits instead,
and may well be bound to another constructor. Still the call is in order wherever the construction
may be implied, if the constructors are declared in full and the type takes its own values. -/

namespace ScriptSemantics

/-- The declared parameters all have their types, these carry no template arguments, and one that is
declared by the token of `src` is `src`. -/
structure FunctionSymbol.PlainFor (ctor : FunctionSymbol) (src : TypeSymbol) : Prop where
  arity : ctor.paramTypes.length = ctor.decl.params.length
  bare : ∀ type, some type ∈ ctor.paramTypes → type.args = none
  faithful : ∀ type param, some type ∈ ctor.paramTypes → type.typeSymbol? = some param →
    param.ident.id = src.ident.id → param = src

def Call.construct (type : Token) (span : Span) (arg : Argument) : Call :=
  ⟨.construction type span, [arg], none⟩

namespace ScopeForest

theorem assignable_of_same_symbol (f : ScopeForest) (depthLimit : Nat) {symbol : TypeSymbol}
    (h : ¬ symbol.RefusesItself) {src dest : StaticType} (hsrc : src.typeSymbol? = some symbol)
    (hdest : dest.typeSymbol? = some symbol) (hsrcArgs : src.args = none)
    (hdestArgs : dest.args = none) : f.assignable depthLimit (some src) (some dest) = true := by
  have hself : f.symbolAssignable symbol dest.scope symbol = true := by
    rwa [← symbolAssignable_self_eq_false_iff f symbol dest.scope, Bool.not_eq_false] at h
  rw [assignable, assignableWithin_succ, shape_of_args_none hsrcArgs, shape_of_args_none hdestArgs]
  obtain ⟨_ | _, _, _⟩ := src <;> cases hsrc
  obtain ⟨_ | _, _, _⟩ := dest <;> cases hdest
  exact hself

theorem Constructs.applicable {f : ScopeForest} {src cls : TypeSymbol} {declaredIn : Option ScopeId}
    {body : ScopeId} {ctor : FunctionSymbol} (h : f.Constructs src declaredIn cls body ctor)
    (hplain : ctor.PlainFor src) (htakes : ¬ src.RefusesItself) (depthLimit : Nat) (type : Token)
    (span : Span) (srcScope : Option ScopeId) (argSpan : Span) :
    f.Applicable depthLimit (.construct type span ⟨some ⟨.type src, srcScope, none⟩, argSpan⟩)
      ctor := by
  obtain ⟨paramType, param, htypes, hparam, hid⟩ := h.converts
  have hmem : some paramType ∈ ctor.paramTypes := by
    rw [htypes]
    exact List.mem_cons_self
  have hlength : ctor.decl.params.length = 1 := by
    rw [← hplain.arity, htypes]
    rfl
  obtain rfl : param = src := hplain.faithful paramType param hmem hparam hid
  refine ⟨Nat.le_of_eq hlength.symm, fun i p hi hp => ?_, fun i arg harg => ?_⟩
  · have hlt : i < 1 := hlength ▸ (List.getElem?_eq_some_iff.1 hp).1
    exact absurd hi (Nat.not_le_of_lt hlt)
  · -- there is one argument, and the type of the one parameter is its own
    obtain _ | i := i
    · cases harg
      refine .inr (.inr ?_)
      rw [htypes]
      exact f.assignable_of_same_symbol depthLimit htakes rfl hparam rfl (hplain.bare paramType hmem)
    · cases harg

end ScopeForest

/-- What builds a class from a type without being asked is a constructor in the body of the class. If
all constructors there are plain, writing the construction out with one argument of that type binds
it to one of them and reports nothing. -/
theorem Session.construct_of_constructible (x : Session) (src : TypeSymbol)
    (declaredIn : Option ScopeId) (cls : TypeSymbol) (htakes : ¬ src.RefusesItself)
    (h : x.scopes.constructible src declaredIn cls = true) :
    ∃ body overloads, x.scopes.constructorScope? declaredIn cls = some body ∧
      x.scopes.find? body cls.ident.text = some (.functions overloads) ∧
      ((∀ ctor ∈ overloads.toList, ctor.PlainFor src) →
        ∀ (scope : ScopeId) (type : Token) (span : Span) (srcScope : Option ScopeId) (argSpan : Span),
          let written := Call.construct type span ⟨some ⟨.type src, srcScope, none⟩, argSpan⟩
          ∃ ctor ∈ overloads.toList,
            x.Bound scope written ctor [] (x.call scope written overloads.toList)) := by
  obtain ⟨body, ctor, hctor⟩ := (x.scopes.constructible_iff src declaredIn cls).1 h
  have hbody := (x.scopes.constructorScope?_eq_some_iff declaredIn cls body).2
    ⟨hctor.dest_isClass, hctor.child, hctor.owner⟩
  obtain ⟨overloads, hentry, hmem⟩ := hctor.declared
  refine ⟨body, overloads, hbody, hentry, ?_⟩
  intro hplain scope type span srcScope argSpan written
  have happlicable : x.scopes.Applicable x.depthLimit written ctor :=
    hctor.applicable (hplain ctor hmem) htakes x.depthLimit type span srcScope argSpan
  obtain ⟨r, hr⟩ := x.scopes.exists_resolve x.depthLimit written (List.ne_nil_of_mem hmem)
  have hquiet : r.diagnostics = [] :=
    (ScopeForest.diagnostics_eq_nil_iff hr).2 ⟨ctor, hmem, happlicable⟩
  have hbound := Session.call_bound hr scope
  rw [hquiet] at hbound
  exact ⟨r.function, List.mem_of_getElem? (ScopeForest.chosen_of_resolve hr).here, hbound⟩

/-! A box can be copied and can be made of a number. Written out with a number the construction is
bound to the copy, of a box that is implied. -/

namespace Copying

open ScopeForest (root Edit)
open ScopeForest.Boxes (token unary number box boxDecl)

def copy : FunctionSymbol := unary (token 7 "Box") box

def convert : FunctionSymbol := unary (token 5 "Box") number

def copyable : List Edit :=
  [.createScope root "Box" (some (.classDecl boxDecl)), .declare ⟨1⟩ (.function copy),
    .declare ⟨1⟩ (.function convert)]

def session : Session := { Session.Overloading.blank with scopes := ScopeForest.edit {} copyable }

theorem unary_plainFor {ident : Token} {type : StaticType} {src : TypeSymbol}
    (hargs : type.args = none)
    (hsrc : ∀ param, type.typeSymbol? = some param → param.ident.id = src.ident.id → param = src) :
    (unary ident type).PlainFor src := by
  have honly {t : StaticType} (ht : some t ∈ (unary ident type).paramTypes) : t = type :=
    Option.some.inj (List.mem_singleton.1 ht)
  refine ⟨rfl, fun t ht => ?_, fun t param ht hparam => ?_⟩
  · rw [honly ht, hargs]
  · exact hsrc param (honly ht ▸ hparam)

end Copying

open Copying in
open ScopeForest (root) in
open ScopeForest.Boxes (token int boxClass) in
theorem Session.construct_of_constructible_copyable :
    ¬ int.RefusesItself ∧ session.scopes.constructible int (some root) boxClass = true ∧
    session.scopes.find? ⟨1⟩ "Box" = some (.functions ⟨copy, [convert]⟩) ∧
    ∃ ctor ∈ [copy, convert], session.Bound root
      (.construct (token 8 "Box") {} ⟨some ⟨.type int, none, none⟩, {}⟩) ctor []
      (session.call root (.construct (token 8 "Box") {} ⟨some ⟨.type int, none, none⟩, {}⟩)
        [copy, convert]) := by
  have htakes : ¬ int.RefusesItself := by simp [TypeSymbol.RefusesItself, TypeSymbol.primitive?, int,
    TypeSymbol.ofPrimitive, TypeOrigin.primitive?]
  have hconstructible : session.scopes.constructible int (some root) boxClass = true := by
    with_unfolding_all rfl
  have hbody : session.scopes.constructorScope? (some root) boxClass = some ⟨1⟩ := by
    with_unfolding_all rfl
  have hentry : session.scopes.find? ⟨1⟩ "Box" = some (.functions ⟨copy, [convert]⟩) := by
    with_unfolding_all rfl
  obtain ⟨body, overloads, hbody', hentry', hcall⟩ :=
    Session.construct_of_constructible session int (some root) boxClass htakes hconstructible
  obtain rfl : body = ⟨1⟩ := Option.some.inj (hbody'.symm.trans hbody)
  obtain rfl : overloads = ⟨copy, [convert]⟩ :=
    Entry.functions.inj (Option.some.inj (hentry'.symm.trans hentry))
  have hcopy : copy.PlainFor int := unary_plainFor rfl fun param hparam hid => by
    cases hparam
    cases hid
  have hconvert : convert.PlainFor int := unary_plainFor rfl fun param hparam _ => by
    cases hparam
    rfl
  have hplain : ∀ ctor ∈ [copy, convert], ctor.PlainFor int := by
    simp [hcopy, hconvert]
  exact ⟨htakes, hconstructible, hentry, hcall hplain root (token 8 "Box") {} none {}⟩

open Copying in
open ScopeForest.Boxes (token int) in
example : (session.scopes.resolve 64 (.construct (token 8 "Box") {} ⟨some ⟨.type int, none, none⟩, {}⟩)
    [copy, convert]).map (·.index) = some 0 := by decide +kernel

end ScriptSemantics
