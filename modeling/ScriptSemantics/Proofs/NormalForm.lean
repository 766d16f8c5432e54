import ScriptSemantics.Proofs.Reflexivity

/-! Types without template arguments. What template arguments do to a comparison is done once they
are substituted, one step at each place of a signature; after that they may be dropped. So they
never tell two instances of one generic type apart. -/

namespace ScriptSemantics

def FunctionSymbol.mapParts (φ : Option StaticType → Option StaticType) (g : FunctionSymbol) :
    FunctionSymbol :=
  { g with returnType := φ g.returnType, paramTypes := g.paramTypes.map φ }

def Shape.mapParts (φ : Option StaticType → Option StaticType) : Shape → Shape
  | absent => absent
  | declared symbol scope => declared symbol scope
  | handler g => handler (g.mapParts φ)

/-- The type after one step of substitution, without its template arguments, and with the same done to
all the parts of its signature. -/
def normalize (t : Option StaticType) : Option StaticType :=
  match _ : selfSubstituteType t with
  | none => none
  | some ⟨.type symbol, scope, _⟩ => some ⟨.type symbol, scope, none⟩
  | some ⟨.handler g, scope, _⟩ =>
    let returnType := normalize g.returnType
    let paramTypes := g.paramTypes.attach.map fun p => normalize p.1
    some ⟨.handler { g with returnType, paramTypes }, scope, none⟩
termination_by sizeOf t
decreasing_by
  all_goals have hshape := shape_of_selfSubstituteType ‹selfSubstituteType t = _›
  · exact sizeOf_part_lt_of_shape hshape g.returnType_mem_parts
  · exact sizeOf_part_lt_of_shape hshape (FunctionSymbol.mem_parts p.2)

theorem shape_normalize (t : Option StaticType) :
    shape (normalize t) = (shape t).mapParts normalize := by
  rw [normalize]
  split
  · next ht =>
    rw [shape, shape, ht]
    rfl
  · next symbol scope args ht =>
    rw [shape_of_selfSubstituteType ht]
    exact shape_of_args_none rfl
  · next g scope args ht =>
    rw [shape_of_selfSubstituteType ht, List.attach_map_val]
    exact shape_of_args_none rfl

theorem FunctionSymbol.relatedBy_mapParts (related : Option StaticType → Option StaticType → Bool)
    (φ : Option StaticType → Option StaticType) (g h : FunctionSymbol) :
    (g.mapParts φ).relatedBy related (h.mapParts φ) =
      g.relatedBy (fun p q => related (φ p) (φ q)) h := by
  simp only [relatedBy, mapParts, List.length_map, List.zip_map, List.all_map, Function.comp_def,
    Prod.map_fst, Prod.map_snd]

namespace ScopeForest

theorem shapeAssignable_mapParts (f : ScopeForest)
    (related : Option StaticType → Option StaticType → Bool)
    (φ : Option StaticType → Option StaticType) (s d : Shape) :
    f.shapeAssignable related (s.mapParts φ) (d.mapParts φ) =
      f.shapeAssignable (fun p q => related (φ p) (φ q)) s d := by
  cases s <;> cases d
  case handler.handler g h => exact FunctionSymbol.relatedBy_mapParts related φ g h
  all_goals rfl

theorem assignableWithin_normalize (f : ScopeForest) (levels : Nat) (src dest : Option StaticType) :
    f.assignableWithin levels (normalize src) (normalize dest) =
      f.assignableWithin levels src dest := by
  induction levels generalizing src dest with
  | zero => rw [assignableWithin_zero, assignableWithin_zero]
  | succ levels ih =>
    rw [assignableWithin_succ, assignableWithin_succ, shape_normalize, shape_normalize,
      shapeAssignable_mapParts]
    exact shapeAssignable_congr fun _ _ _ _ p _ q _ => ih p q

theorem assignable_congr_shape (f : ScopeForest) (depthLimit : Nat)
    {src src' dest dest' : Option StaticType} (hsrc : shape src = shape src')
    (hdest : shape dest = shape dest') :
    f.assignable depthLimit src dest = f.assignable depthLimit src' dest' := by
  rw [assignable, assignable, assignableWithin_succ, assignableWithin_succ, hsrc, hdest]

end ScopeForest

/-! ### Instances of generic types -/

theorem shape_of_not_bound {t : StaticType} (h : t.args.any (·.contains t.ident) = false) :
    shape (some t) = .ofType t := by
  obtain hself | ⟨args, value, hargs, hget, -⟩ := t.selfSubstitute_cases
  · exact shape_of_selfSubstituteType hself
  · simp [hargs, TemplateArgs.contains, hget] at h

theorem Shape.ofType_args (t : StaticType) (args : Option TemplateArgs) :
    ofType { t with args } = ofType t := by
  rcases t with ⟨_ | _, _, _⟩ <;> rfl

namespace TemplateArgs

theorem contains_bindAll (args : TemplateArgs) (params : List Token)
    (values : List (Option StaticType)) (param : Token) :
    (args.bindAll params values).contains param =
      (args.contains param || params.any (·.same param)) := by
  induction params generalizing args values with
  | nil => rw [bindAll, List.any_nil, Bool.or_false]
  | cons p params ih =>
    rw [bindAll, ih, contains_insert, List.any_cons, Bool.or_assoc]

theorem contains_ofLists (params : List Token) (values : List (Option StaticType)) (param : Token) :
    (ofLists params values).contains param = params.any (·.same param) := by
  rw [ofLists, contains_bindAll, contains, get?_empty, Option.isSome_none, Bool.false_or]

end TemplateArgs

theorem shape_instantiate {generic : StaticType} {symbol : TypeSymbol} {params : List Token}
    (hsymbol : generic.typeSymbol? = some symbol) (hparams : symbol.templateParams = some params)
    (hother : ∀ param ∈ params, param.id ≠ symbol.ident.id) (values : List (Option StaticType)) :
    shape (some (generic.instantiate values)) = .declared symbol generic.scope := by
  rw [StaticType.instantiate_of_templateParams hsymbol hparams]
  obtain ⟨head, scope, args⟩ := generic
  obtain rfl : head = .type symbol := by
    cases head with
    | type _ => exact congrArg TypeHead.type (Option.some.inj hsymbol)
    | handler _ => cases hsymbol
  have hunbound : (TemplateArgs.ofLists params values).contains symbol.ident = false := by
    rw [TemplateArgs.contains_ofLists, List.any_eq_false]
    intro param hparam
    rw [Token.same_iff]
    exact hother param hparam
  exact shape_of_not_bound hunbound

namespace ScopeForest

theorem symbolAssignable_self_of_not_primitive (f : ScopeForest) {symbol : TypeSymbol}
    (declaredIn : Option ScopeId) (h : symbol.primitive? = none) :
    f.symbolAssignable symbol declaredIn symbol = true := by
  rw [← Bool.not_eq_false, symbolAssignable_self_eq_false_iff, TypeSymbol.RefusesItself, h]
  simp only [reduceCtorEq, false_and, or_self, not_false_eq_true]

/-- Template arguments count through one step of substitution and not beyond. As long as a type is not
a parameter of its own, any arguments may stand in for those it carries, and instances of one
generic type fit each other whatever they were made with. -/
theorem template_args_count_once (f : ScopeForest) (depthLimit : Nat) :
    (∀ src dest, f.assignable depthLimit (normalize src) (normalize dest) =
      f.assignable depthLimit src dest) ∧
    (∀ (t : StaticType) (args : Option TemplateArgs) (other : Option StaticType),
      t.args.any (·.contains t.ident) = false → args.any (·.contains t.ident) = false →
      f.assignable depthLimit (some { t with args }) other = f.assignable depthLimit (some t) other ∧
      f.assignable depthLimit other (some { t with args }) = f.assignable depthLimit other (some t)) ∧
    ∀ (generic : StaticType) (symbol : TypeSymbol) (params : List Token)
      (values values' : List (Option StaticType)),
      generic.typeSymbol? = some symbol → symbol.primitive? = none →
      symbol.templateParams = some params → (∀ param ∈ params, param.id ≠ symbol.ident.id) →
      f.assignable depthLimit (some (generic.instantiate values))
        (some (generic.instantiate values')) = true := by
  refine ⟨f.assignableWithin_normalize (depthLimit + 1), fun t args other ht hargs => ?_, ?_⟩
  · have hshape : shape (some { t with args }) = shape (some t) := by
      rw [shape_of_not_bound ht, ← Shape.ofType_args t args]
      exact shape_of_not_bound hargs
    exact ⟨f.assignable_congr_shape depthLimit hshape rfl,
      f.assignable_congr_shape depthLimit rfl hshape⟩
  · intro generic symbol params values values' hsymbol hkind hparams hother
    have hshape := shape_instantiate hsymbol hparams hother
    rw [assignable, assignableWithin_succ, hshape values, hshape values']
    exact f.symbolAssignable_self_of_not_primitive generic.scope hkind

/-! A generic class, of which instances hold numbers or boxes. -/

namespace Crates

open Boxes (token number)

def crate : StaticType :=
  ⟨.type ⟨token 10 "Crate", .classDecl ⟨token 10 "Crate", {}⟩, some [token 7 "T"], []⟩, none, none⟩

def ofNumbers : StaticType := crate.instantiate [some number]

end Crates

open Callbacks Crates Boxes in
theorem template_args_count_once_crates :
    normalize given = expected ∧
    assignable {} 64 given expected = assignable {} 64 expected expected ∧
    assignable {} 64 (some number) (some crate) = assignable {} 64 (some number) (some ofNumbers) ∧
    assignable {} 64 (some ofNumbers) (some (crate.instantiate [some box])) = true := by
  obtain ⟨hnormal, hargs, hinstances⟩ := template_args_count_once {} 64
  have hgiven : normalize given = expected := by with_unfolding_all rfl
  have hexpected : normalize expected = expected := by with_unfolding_all rfl
  have hsame : assignable {} 64 given expected = assignable {} 64 expected expected := by
    rw [← hnormal given expected, hgiven, hexpected]
  have hnone := (hargs ofNumbers none (some number) (by decide) rfl).2
  have hfits := hinstances crate _ [token 7 "T"] [some number] [some box] rfl rfl rfl (by decide)
  exact ⟨hgiven, hsame, hnone, hfits⟩

end ScopeForest

end ScriptSemantics
