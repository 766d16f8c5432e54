import ScriptSemantics.Proofs.Knowledge

/-! What a comparison sees of a type. Each type is looked at once, after its own template arguments
are substituted into it; what it shows then decides, together with the parts of its signature if it
is a handler. Those parts are smaller than the type, whatever was substituted. -/

namespace ScriptSemantics

inductive Shape where
  | absent
  | declared (symbol : TypeSymbol) (scope : Option ScopeId)
  | handler (symbol : FunctionSymbol)

namespace Shape

def ofType : StaticType → Shape
  | ⟨.type symbol, scope, _⟩ => declared symbol scope
  | ⟨.handler symbol, _, _⟩ => handler symbol

theorem ofType_ne_absent (t : StaticType) : ofType t ≠ absent := by
  rcases t with ⟨_ | _, _, _⟩ <;> nofun

theorem typeSymbol?_of_ofType {t : StaticType} {symbol : TypeSymbol} {scope : Option ScopeId}
    (h : ofType t = declared symbol scope) : t.typeSymbol? = some symbol := by
  rcases t with ⟨_ | _, _, _⟩ <;> cases h
  rfl

end Shape

def shape (t : Option StaticType) : Shape :=
  match selfSubstituteType t with
  | none => .absent
  | some t => .ofType t

theorem shape_of_selfSubstituteType {t : Option StaticType} {t' : StaticType}
    (h : selfSubstituteType t = some t') : shape t = .ofType t' := by
  rw [shape, h]

theorem shape_of_args_none {t : StaticType} (h : t.args = none) : shape (some t) = .ofType t := by
  have hself : t.selfSubstitute = some t := by
    rw [StaticType.selfSubstitute, h, StaticType.substitute]
  exact shape_of_selfSubstituteType hself

def FunctionSymbol.parts (g : FunctionSymbol) : List (Option StaticType) :=
  g.returnType :: g.paramTypes

theorem FunctionSymbol.returnType_mem_parts (g : FunctionSymbol) : g.returnType ∈ g.parts :=
  List.mem_cons_self

theorem FunctionSymbol.mem_parts {g : FunctionSymbol} {p : Option StaticType}
    (h : p ∈ g.paramTypes) : p ∈ g.parts := List.mem_cons_of_mem _ h

def FunctionSymbol.relatedBy (related : Option StaticType → Option StaticType → Bool)
    (g h : FunctionSymbol) : Bool :=
  related g.returnType h.returnType && g.paramTypes.length == h.paramTypes.length &&
    (g.paramTypes.zip h.paramTypes).all fun pair => related pair.1 pair.2

theorem FunctionSymbol.relatedBy_iff (related : Option StaticType → Option StaticType → Bool)
    (g h : FunctionSymbol) :
    g.relatedBy related h = true ↔ g.paramTypes.length = h.paramTypes.length ∧
      related g.returnType h.returnType = true ∧
      Pointwise (related · · = true) g.paramTypes h.paramTypes := by
  simp only [relatedBy, Bool.and_eq_true, beq_iff_eq, ScopeForest.all_zip_iff, and_assoc,
    and_left_comm, Pointwise]

theorem FunctionSymbol.relatedBy_mono {related related' : Option StaticType → Option StaticType → Bool}
    {g h : FunctionSymbol}
    (himp : ∀ p ∈ g.parts, ∀ q ∈ h.parts, related p q = true → related' p q = true)
    (hrelated : g.relatedBy related h = true) : g.relatedBy related' h = true := by
  rw [relatedBy_iff] at hrelated ⊢
  obtain ⟨hlength, hreturn, hparams⟩ := hrelated
  refine ⟨hlength, himp _ g.returnType_mem_parts _ h.returnType_mem_parts hreturn, ?_⟩
  intro i p q hp hq
  have hp' : p ∈ g.parts := mem_parts (List.mem_of_getElem? hp)
  have hq' : q ∈ h.parts := mem_parts (List.mem_of_getElem? hq)
  exact himp p hp' q hq' (hparams i p q hp hq)

theorem FunctionSymbol.relatedBy_self_iff (related : Option StaticType → Option StaticType → Bool)
    (g : FunctionSymbol) : g.relatedBy related g = true ↔ ∀ p ∈ g.parts, related p p = true := by
  rw [relatedBy_iff]
  constructor
  · rintro ⟨-, hreturn, hparams⟩ p hp
    obtain rfl | hp := List.mem_cons.1 hp
    · exact hreturn
    · obtain ⟨i, hi⟩ := List.mem_iff_getElem?.1 hp
      exact hparams i p p hi hi
  · intro hparts
    refine ⟨rfl, hparts _ g.returnType_mem_parts, fun i p q hp hq => ?_⟩
    obtain rfl : p = q := Option.some.inj (hp.symm.trans hq)
    exact hparts p (mem_parts (List.mem_of_getElem? hp))

namespace ScopeForest

def flatAssignable (f : ScopeForest) : Shape → Shape → Bool
  | .absent, _ => true
  | _, .absent => true
  | .declared s _, .declared d scope => f.symbolAssignable s scope d
  | _, _ => false

def shapeAssignable (f : ScopeForest) (related : Option StaticType → Option StaticType → Bool) :
    Shape → Shape → Bool
  | .handler g, .handler h => g.relatedBy related h
  | s, d => f.flatAssignable s d

theorem shapeAssignable_mono {f : ScopeForest}
    {related related' : Option StaticType → Option StaticType → Bool} {s d : Shape}
    (himp : ∀ g h, s = .handler g → d = .handler h →
      ∀ p ∈ g.parts, ∀ q ∈ h.parts, related p q = true → related' p q = true)
    (hassignable : f.shapeAssignable related s d = true) :
    f.shapeAssignable related' s d = true := by
  cases s <;> cases d
  case handler.handler g h => exact FunctionSymbol.relatedBy_mono (himp g h rfl rfl) hassignable
  all_goals exact hassignable

theorem shapeAssignable_congr {f : ScopeForest}
    {related related' : Option StaticType → Option StaticType → Bool} {s d : Shape}
    (heq : ∀ g h, s = .handler g → d = .handler h →
      ∀ p ∈ g.parts, ∀ q ∈ h.parts, related p q = related' p q) :
    f.shapeAssignable related s d = f.shapeAssignable related' s d := by
  rw [Bool.eq_iff_iff]
  constructor
  · exact shapeAssignable_mono fun g h hs hd p hp q hq => (heq g h hs hd p hp q hq).symm.trans
  · exact shapeAssignable_mono fun g h hs hd p hp q hq => (heq g h hs hd p hp q hq).trans

theorem assignableWithin_succ (f : ScopeForest) (levels : Nat) (src dest : Option StaticType) :
    f.assignableWithin (levels + 1) src dest =
      f.shapeAssignable (f.assignableWithin levels) (shape src) (shape dest) := by
  cases src with
  | none =>
    rw [assignableWithin]
    rfl
  | some src =>
  cases dest with
  | none =>
    rw [assignableWithin_none_right]
    cases shape (some src) <;> rfl
  | some dest =>
    simp only [assignableWithin, shape, selfSubstituteType, Option.bind_some]
    -- both sides now look at nothing of the types but what is left after substitution
    generalize src.selfSubstitute = src'
    generalize dest.selfSubstitute = dest'
    rcases src' with _ | ⟨_ | _, _, _⟩ <;> rcases dest' with _ | ⟨_ | _, _, _⟩ <;> rfl

end ScopeForest

/-! ### Sizes -/

theorem TemplateArgs.sizeOf_lt_of_get? {args : TemplateArgs} {param : Token}
    {value : Option StaticType} (h : args.get? param = some value) : sizeOf value < sizeOf args := by
  obtain ⟨bindings⟩ := args
  obtain ⟨⟨param', value'⟩, hfind, hvalue⟩ := Option.map_eq_some_iff.1 h
  obtain rfl : value' = value := hvalue
  have hmem := List.sizeOf_lt_of_mem (List.mem_of_find?_eq_some hfind)
  simp only [Binding.mk.sizeOf_spec, TemplateArgs.mk.sizeOf_spec] at hmem ⊢
  omega

theorem StaticType.selfSubstitute_cases (t : StaticType) :
    t.selfSubstitute = some t ∨ ∃ args value, t.args = some args ∧
      args.get? t.ident = some value ∧ t.selfSubstitute = value := by
  unfold selfSubstitute substitute
  cases hargs : t.args with
  | none => exact .inl rfl
  | some args =>
    cases hget : args.get? t.ident with
    | none => exact .inl (by simp only [hget, Option.getD_none])
    | some value => exact .inr ⟨args, value, rfl, hget, by simp only [hget, Option.getD_some]⟩

theorem StaticType.sizeOf_selfSubstitute_le {t t' : StaticType} (h : t.selfSubstitute = some t') :
    sizeOf t' ≤ sizeOf t := by
  obtain hself | ⟨args, value, hargs, hget, hself⟩ := t.selfSubstitute_cases
  · obtain rfl := Option.some.inj (hself.symm.trans h)
    exact Nat.le_refl _
  · -- the value stands inside the template arguments, and so inside the type
    obtain rfl : value = some t' := hself.symm.trans h
    have hlt := TemplateArgs.sizeOf_lt_of_get? hget
    obtain ⟨head, scope, args'⟩ := t
    obtain rfl : args' = some args := hargs
    simp only [Option.some.sizeOf_spec, StaticType.mk.sizeOf_spec] at hlt ⊢
    omega

theorem FunctionSymbol.sizeOf_part_lt {g : FunctionSymbol} {p : Option StaticType}
    (hp : p ∈ g.parts) : sizeOf p < sizeOf g := by
  obtain ⟨decl, returnType, paramTypes⟩ := g
  simp only [FunctionSymbol.mk.sizeOf_spec]
  obtain rfl | hp : p = returnType ∨ p ∈ paramTypes := List.mem_cons.1 hp
  · omega
  · have hlt := List.sizeOf_lt_of_mem hp
    omega

theorem sizeOf_lt_of_shape {t : Option StaticType} {g : FunctionSymbol} (h : shape t = .handler g) :
    sizeOf g < sizeOf t := by
  unfold shape at h
  split at h
  · cases h
  · next t' ht =>
    obtain ⟨t, rfl, hself⟩ := Option.bind_eq_some_iff.1 ht
    have hle := StaticType.sizeOf_selfSubstitute_le hself
    obtain ⟨_ | symbol, scope, args⟩ := t'
    · cases h
    · obtain rfl := Shape.handler.inj h
      simp only [Option.some.sizeOf_spec, StaticType.mk.sizeOf_spec, TypeHead.handler.sizeOf_spec]
        at hle ⊢
      omega

theorem sizeOf_part_lt_of_shape {t : Option StaticType} {g : FunctionSymbol}
    (h : shape t = .handler g) {p : Option StaticType} (hp : p ∈ g.parts) : sizeOf p < sizeOf t :=
  Nat.lt_trans (FunctionSymbol.sizeOf_part_lt hp) (sizeOf_lt_of_shape h)

/-- To prove something of all types, prove it of a type from what holds of the parts of the signature
it shows. -/
theorem shape_induction {motive : Option StaticType → Prop}
    (step : ∀ t, (∀ g, shape t = .handler g → ∀ p ∈ g.parts, motive p) → motive t)
    (t : Option StaticType) : motive t :=
  step t fun _ ht p hp =>
    have := sizeOf_part_lt_of_shape ht hp
    shape_induction step p
termination_by sizeOf t

end ScriptSemantics
