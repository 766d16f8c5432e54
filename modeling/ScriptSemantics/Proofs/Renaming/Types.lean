import ScriptSemantics.Types.Builtin
import ScriptSemantics.Types.Render
import ScriptSemantics.Types.TemplateArgs
import ScriptSemantics.Assignable.Table

/-! Types under other token numbers. Tokens are compared, and that is all that is done to their
numbers. So whatever is asked of types has the same answer when all their tokens get other numbers,
as long as different tokens keep different ones. -/

namespace ScriptSemantics

structure Renaming where
  apply : TokenId → TokenId
  injective : Function.Injective apply

def Renaming.shift (n : UInt32) : Renaming where
  apply id := ⟨id.index + n⟩
  injective a b h := by
    obtain ⟨i⟩ := a
    obtain ⟨j⟩ := b
    have hij : i + n = j + n := TokenId.mk.inj h
    rw [(UInt32.add_left_inj n).1 hij]

/-! ### The renamed data -/

section
variable (ρ : Renaming)

def Token.rename (t : Token) : Token := { t with id := ρ.apply t.id }

def TokenSupply.rename (s : TokenSupply) : TokenSupply := ⟨ρ.apply s.next⟩

def ClassDecl.rename (d : ClassDecl) : ClassDecl := { d with ident := d.ident.rename ρ }

def EnumDecl.rename (d : EnumDecl) : EnumDecl := { d with ident := d.ident.rename ρ }

def Param.rename (p : Param) : Param := { p with name := p.name.map (·.rename ρ) }

def FunctionDecl.rename (d : FunctionDecl) : FunctionDecl :=
  { d with ident := d.ident.rename ρ, params := d.params.map (·.rename ρ) }

def TypeOrigin.rename : TypeOrigin → TypeOrigin
  | primitive kind => primitive kind
  | enumDecl decl => enumDecl (decl.rename ρ)
  | classDecl decl => classDecl (decl.rename ρ)

mutual

def TypeSymbol.rename : TypeSymbol → TypeSymbol
  | ⟨ident, origin, templateParams, bases⟩ =>
    ⟨ident.rename ρ, origin.rename ρ, templateParams.map (·.map (·.rename ρ)), renameTypes bases⟩

def FunctionSymbol.rename : FunctionSymbol → FunctionSymbol
  | ⟨decl, returnType, paramTypes⟩ => ⟨decl.rename ρ, renameType returnType, renameTypes paramTypes⟩

def TypeHead.rename : TypeHead → TypeHead
  | .type symbol => .type symbol.rename
  | .handler symbol => .handler symbol.rename

def StaticType.rename : StaticType → StaticType
  | ⟨head, scope, args⟩ => ⟨head.rename, scope, renameArgs args⟩

def Binding.rename : Binding → Binding
  | ⟨param, value⟩ => ⟨param.rename ρ, renameType value⟩

def TemplateArgs.rename : TemplateArgs → TemplateArgs
  | ⟨bindings⟩ => ⟨Binding.renameAll bindings⟩

def Binding.renameAll : List Binding → List Binding
  | [] => []
  | binding :: rest => binding.rename :: Binding.renameAll rest

def renameType : Option StaticType → Option StaticType
  | none => none
  | some t => some t.rename

def renameTypes : List (Option StaticType) → List (Option StaticType)
  | [] => []
  | t :: rest => renameType t :: renameTypes rest

def renameArgs : Option TemplateArgs → Option TemplateArgs
  | none => none
  | some args => some args.rename

end

end

section
variable {ρ : Renaming}

@[simp] theorem renameType_none : renameType ρ none = none := by simp only [renameType]

@[simp] theorem renameType_some (t : StaticType) : renameType ρ (some t) = some (t.rename ρ) := by
  simp only [renameType]

theorem renameTypes_eq_map (ts : List (Option StaticType)) :
    renameTypes ρ ts = ts.map (renameType ρ) := by
  induction ts with
  | nil => simp only [renameTypes, List.map_nil]
  | cons t ts ih => simp only [renameTypes, ih, List.map_cons]

theorem TypeSymbol.rename_eq (t : TypeSymbol) : t.rename ρ =
    ⟨t.ident.rename ρ, t.origin.rename ρ, t.templateParams.map (·.map (·.rename ρ)),
      t.bases.map (renameType ρ)⟩ := by
  cases t
  simp only [TypeSymbol.rename, renameTypes_eq_map]

theorem FunctionSymbol.rename_eq (g : FunctionSymbol) : g.rename ρ =
    ⟨g.decl.rename ρ, renameType ρ g.returnType, g.paramTypes.map (renameType ρ)⟩ := by
  cases g
  simp only [FunctionSymbol.rename, renameTypes_eq_map]

theorem StaticType.rename_eq (t : StaticType) : t.rename ρ =
    ⟨t.head.rename ρ, t.scope, t.args.map (·.rename ρ)⟩ := by
  obtain ⟨head, scope, _ | args⟩ := t <;>
    simp only [StaticType.rename, renameArgs, Option.map_none, Option.map_some]

theorem Binding.rename_eq (b : Binding) : b.rename ρ = ⟨b.param.rename ρ, renameType ρ b.value⟩ := by
  cases b
  simp only [Binding.rename]

theorem TemplateArgs.rename_eq (args : TemplateArgs) :
    args.rename ρ = ⟨args.bindings.map (·.rename ρ)⟩ := by
  have renameAll_eq (bindings : List Binding) :
      Binding.renameAll ρ bindings = bindings.map (·.rename ρ) := by
    induction bindings with
    | nil => simp only [Binding.renameAll, List.map_nil]
    | cons binding rest ih => simp only [Binding.renameAll, ih, List.map_cons]
  cases args
  simp only [TemplateArgs.rename, renameAll_eq]

/-! ### Comparing -/

@[simp] theorem Token.text_rename (t : Token) : (t.rename ρ).text = t.text := rfl

@[simp] theorem Token.span_rename (t : Token) : (t.rename ρ).span = t.span := rfl

@[simp] theorem Token.same_rename (a b : Token) : (a.rename ρ).same (b.rename ρ) = a.same b := by
  rw [Bool.eq_iff_iff, Token.same_iff, Token.same_iff]
  exact ρ.injective.eq_iff

@[simp] theorem Param.displayName_rename (p : Param) :
    (p.rename ρ).displayName = p.displayName := by
  obtain ⟨_ | token, defaultValue⟩ := p <;> rfl

@[simp] theorem TypeSymbol.ident_rename (t : TypeSymbol) :
    (t.rename ρ).ident = t.ident.rename ρ := by rw [TypeSymbol.rename_eq]

@[simp] theorem TypeSymbol.same_rename (a b : TypeSymbol) :
    (a.rename ρ).same (b.rename ρ) = a.same b := by
  rw [TypeSymbol.same, ident_rename, ident_rename, Token.same_rename, TypeSymbol.same]

@[simp] theorem TypeSymbol.primitive?_rename (t : TypeSymbol) :
    (t.rename ρ).primitive? = t.primitive? := by
  obtain ⟨ident, origin, templateParams, bases⟩ := t
  rw [TypeSymbol.rename_eq]
  cases origin <;> rfl

@[simp] theorem TypeSymbol.isClass_rename (t : TypeSymbol) : (t.rename ρ).isClass = t.isClass := by
  obtain ⟨ident, origin, templateParams, bases⟩ := t
  rw [TypeSymbol.rename_eq]
  cases origin <;> rfl

@[simp] theorem FunctionSymbol.ident_rename (g : FunctionSymbol) :
    (g.rename ρ).ident = g.ident.rename ρ := by
  rw [FunctionSymbol.rename_eq]
  rfl

@[simp] theorem TypeHead.ident_rename (head : TypeHead) :
    (head.rename ρ).ident = head.ident.rename ρ := by
  obtain symbol | symbol := head
  · exact symbol.ident_rename
  · exact symbol.ident_rename

@[simp] theorem StaticType.ident_rename (t : StaticType) :
    (t.rename ρ).ident = t.ident.rename ρ := by
  rw [StaticType.rename_eq]
  exact t.head.ident_rename

@[simp] theorem TypeSymbol.hasBase_rename (t base : TypeSymbol) :
    (t.rename ρ).hasBase (base.rename ρ) = t.hasBase base := by
  rw [TypeSymbol.hasBase, TypeSymbol.hasBase, TypeSymbol.rename_eq t, List.any_map]
  congr 1
  funext type
  obtain _ | ⟨symbol | symbol, scope, args⟩ := type
  · rfl
  · exact symbol.same_rename base
  · rfl

@[simp] theorem TypeSymbol.isOpen_rename (t : TypeSymbol) : (t.rename ρ).isOpen = t.isOpen := by
  rw [TypeSymbol.isOpen, TypeSymbol.isOpen, primitive?_rename]

theorem Primitive.accepts_rename (kind : Primitive) (src dest : TypeSymbol) :
    kind.accepts (src.rename ρ) (dest.rename ρ) = kind.accepts src dest := by
  cases kind with
  | template => exact src.same_rename dest
  | string => rw [Primitive.accepts, Primitive.accepts, TypeSymbol.ident_rename, Token.text_rename]
  | bool => rw [Primitive.accepts, Primitive.accepts, TypeSymbol.primitive?_rename]
  | number => rw [Primitive.accepts, Primitive.accepts, TypeSymbol.primitive?_rename]
  | void => rfl
  | any => rfl
  | auto => rfl

theorem Primitive.verdict_rename (kind : Primitive) (src dest : TypeSymbol) :
    kind.verdict (src.rename ρ) (dest.rename ρ) = kind.verdict src dest := by
  rw [Primitive.verdict, Primitive.verdict, Primitive.accepts_rename]

/-! ### Template arguments -/

theorem TemplateArgs.get?_rename (args : TemplateArgs) (param : Token) :
    (args.rename ρ).get? (param.rename ρ) = (args.get? param).map (renameType ρ) := by
  have hparam : (fun b : Binding => b.param.same (param.rename ρ)) ∘ Binding.rename ρ =
      fun b => b.param.same param := by
    funext b
    simp only [Function.comp_apply, Binding.rename_eq, Token.same_rename]
  rw [TemplateArgs.get?, TemplateArgs.get?, TemplateArgs.rename_eq, List.find?_map, hparam,
    Option.map_map, Option.map_map]
  congr 1
  funext b
  simp only [Function.comp_apply, Binding.rename_eq]

theorem TemplateArgs.insert_rename (args : TemplateArgs) (param : Token)
    (value : Option StaticType) :
    (args.rename ρ).insert (param.rename ρ) (renameType ρ value) =
      (args.insert param value).rename ρ := by
  obtain ⟨bindings⟩ := args
  simp only [TemplateArgs.insert, TemplateArgs.rename_eq, TemplateArgs.mk.injEq]
  induction bindings with
  | nil => simp only [Binding.insert, List.map_nil, List.map_cons, Binding.rename_eq]
  | cons binding rest ih =>
    have hsame : (binding.rename ρ).param.same (param.rename ρ) = binding.param.same param := by
      rw [Binding.rename_eq, Token.same_rename]
    rw [List.map_cons, Binding.insert, Binding.insert, hsame]
    split
    · simp only [List.map_cons, Binding.rename_eq]
    · rw [List.map_cons, ih]

theorem head?_join_renameType (values : List (Option StaticType)) :
    (values.map (renameType ρ)).head?.join = renameType ρ values.head?.join := by
  cases values <;> simp

theorem TemplateArgs.bindAll_rename (args : TemplateArgs) (params : List Token)
    (values : List (Option StaticType)) :
    (args.rename ρ).bindAll (params.map (·.rename ρ)) (values.map (renameType ρ)) =
      (args.bindAll params values).rename ρ := by
  induction params generalizing args values with
  | nil => rfl
  | cons param params ih =>
    rw [List.map_cons, TemplateArgs.bindAll, TemplateArgs.bindAll, head?_join_renameType,
      TemplateArgs.insert_rename, ← List.map_tail, ih]

theorem TemplateArgs.ofLists_rename (params : List Token) (values : List (Option StaticType)) :
    TemplateArgs.ofLists (params.map (·.rename ρ)) (values.map (renameType ρ)) =
      (TemplateArgs.ofLists params values).rename ρ := by
  have hempty : TemplateArgs.empty.rename ρ = .empty := TemplateArgs.rename_eq _
  rw [TemplateArgs.ofLists, ← hempty, TemplateArgs.bindAll_rename, TemplateArgs.ofLists]

theorem StaticType.substitute_rename (t : StaticType) (args : Option TemplateArgs) :
    (t.rename ρ).substitute (args.map (·.rename ρ)) = renameType ρ (t.substitute args) := by
  cases args with
  | none => simp only [Option.map_none, StaticType.substitute, renameType_some]
  | some args =>
    simp only [Option.map_some, StaticType.substitute, StaticType.ident_rename,
      TemplateArgs.get?_rename]
    cases args.get? t.ident <;> simp

theorem StaticType.selfSubstitute_rename (t : StaticType) :
    (t.rename ρ).selfSubstitute = renameType ρ t.selfSubstitute := by
  have hargs : (t.rename ρ).args = t.args.map (·.rename ρ) := by rw [StaticType.rename_eq]
  rw [StaticType.selfSubstitute, hargs, StaticType.substitute_rename, StaticType.selfSubstitute]

theorem substituteType_rename (args : Option TemplateArgs) (t : Option StaticType) :
    substituteType (args.map (·.rename ρ)) (renameType ρ t) =
      renameType ρ (substituteType args t) := by
  cases t with
  | none => simp [substituteType]
  | some t => simp [substituteType, StaticType.substitute_rename]

theorem StaticType.instantiate_rename (generic : StaticType) (values : List (Option StaticType)) :
    (generic.rename ρ).instantiate (values.map (renameType ρ)) =
      (generic.instantiate values).rename ρ := by
  obtain ⟨symbol | symbol, scope, args⟩ := generic
  · have hparams : (symbol.rename ρ).templateParams =
        symbol.templateParams.map (·.map (·.rename ρ)) := by rw [TypeSymbol.rename_eq]
    simp only [StaticType.rename_eq, TypeHead.rename, StaticType.instantiate,
      StaticType.typeSymbol?, Option.bind_some, hparams]
    cases symbol.templateParams with
    | none => rfl
    | some params => simp only [Option.map_some, TemplateArgs.ofLists_rename, TypeHead.rename]
  · simp only [StaticType.rename_eq, TypeHead.rename, StaticType.instantiate,
      StaticType.typeSymbol?, Option.bind_none]

/-! ### Rendering -/

mutual

theorem StaticType.render_rename : ∀ t : StaticType, (t.rename ρ).render = t.render
  | ⟨head, scope, none⟩ => by
    simp only [StaticType.rename, renameArgs, StaticType.render, TypeHead.ident_rename,
      Token.text_rename]
  | ⟨head, scope, some args⟩ => by
    simp only [StaticType.rename, renameArgs, StaticType.render, TypeHead.ident_rename,
      Token.text_rename, args.render_rename]

theorem TemplateArgs.render_rename : ∀ args : TemplateArgs, (args.rename ρ).render = args.render
  | ⟨bindings⟩ => by
    simp only [TemplateArgs.rename, TemplateArgs.render, Binding.renderAll_rename bindings]

theorem Binding.renderAll_rename : ∀ bindings : List Binding,
    Binding.renderAll (Binding.renameAll ρ bindings) = Binding.renderAll bindings
  | [] => by simp only [Binding.renameAll]
  | binding :: rest => by
    simp only [Binding.renameAll, Binding.renderAll, binding.render_rename,
      Binding.renderAll_rename rest]

theorem Binding.render_rename : ∀ binding : Binding, (binding.rename ρ).render = binding.render
  | ⟨param, none⟩ => by simp only [Binding.rename, renameType, Binding.render]
  | ⟨param, some value⟩ => by
    simp only [Binding.rename, renameType, Binding.render, value.render_rename]

end

theorem renderType_rename (t : Option StaticType) : renderType (renameType ρ t) = renderType t := by
  cases t with
  | none => simp only [renameType_none]
  | some t => simp only [renameType_some, renderType, StaticType.render_rename]

end

end ScriptSemantics
