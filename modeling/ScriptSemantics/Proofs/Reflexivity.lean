import ScriptSemantics.Proofs.Shape

/-! When a type fits itself. A declared type may refuse its own values, and a handler passes that on
from anywhere in its signature, however deep, as long as the place is still compared. Nothing else
keeps a type from fitting itself. -/

namespace ScriptSemantics

/-- The type does not take its own values: it has none, or they are strings under a name that no
string goes by. -/
def TypeSymbol.RefusesItself (t : TypeSymbol) : Prop :=
  t.primitive? = some .void ∨
    t.primitive? = some .string ∧ t.ident.text ≠ "string" ∧ t.ident.text ≠ "String"

/-- Within the limit there is a place in the type, `depth` levels below the type first asked about
or deeper, that refuses itself. -/
inductive Flawed (depthLimit : Nat) : Nat → Option StaticType → Prop
  | here {depth : Nat} {t : Option StaticType} {symbol : TypeSymbol} {scope : Option ScopeId}
      (hdepth : depth ≤ depthLimit) (ht : shape t = .declared symbol scope)
      (h : symbol.RefusesItself) : Flawed depthLimit depth t
  | part {depth : Nat} {t p : Option StaticType} {g : FunctionSymbol}
      (hdepth : depth ≤ depthLimit) (ht : shape t = .handler g) (hp : p ∈ g.parts)
      (h : Flawed depthLimit (depth + 1) p) : Flawed depthLimit depth t

section
variable {depthLimit depth : Nat} {t : Option StaticType}

theorem Flawed.depth_le (h : Flawed depthLimit depth t) : depth ≤ depthLimit := by
  cases h with
  | here hdepth => exact hdepth
  | part hdepth => exact hdepth

theorem Flawed.shape_ne_absent (h : Flawed depthLimit depth t) : shape t ≠ .absent := by
  cases h with
  | here _ ht => simp only [ht, ne_eq, reduceCtorEq, not_false_eq_true]
  | part _ ht => simp only [ht, ne_eq, reduceCtorEq, not_false_eq_true]

theorem flawed_iff_of_declared {symbol : TypeSymbol} {scope : Option ScopeId}
    (hshape : shape t = .declared symbol scope) (hdepth : depth ≤ depthLimit) :
    Flawed depthLimit depth t ↔ symbol.RefusesItself := by
  refine ⟨fun h => ?_, .here hdepth hshape⟩
  cases h with
  | here _ ht h =>
    cases hshape.symm.trans ht
    exact h
  | part _ ht => cases hshape.symm.trans ht

theorem flawed_iff_of_handler {g : FunctionSymbol} (hshape : shape t = .handler g)
    (hdepth : depth ≤ depthLimit) :
    Flawed depthLimit depth t ↔ ∃ p ∈ g.parts, Flawed depthLimit (depth + 1) p := by
  constructor
  · intro h
    cases h with
    | here _ ht => cases hshape.symm.trans ht
    | part _ ht hp h =>
      cases hshape.symm.trans ht
      exact ⟨_, hp, h⟩
  · rintro ⟨p, hp, h⟩
    exact .part hdepth hshape hp h

end

theorem TypeSymbol.isClass_eq_false_of_primitive? {t : TypeSymbol} {kind : Primitive}
    (h : t.primitive? = some kind) : t.isClass = false := by
  obtain ⟨ident, origin, params, bases⟩ := t
  cases origin with
  | primitive kind => rfl
  | enumDecl decl => rfl
  | classDecl decl => cases h

namespace ScopeForest

theorem constructible_eq_false_of_primitive? (f : ScopeForest) (src : TypeSymbol)
    (declaredIn : Option ScopeId) {dest : TypeSymbol} {kind : Primitive}
    (h : dest.primitive? = some kind) : f.constructible src declaredIn dest = false := by
  have hclass := TypeSymbol.isClass_eq_false_of_primitive? h
  rw [Bool.eq_false_iff, ne_eq, constructible_iff]
  rintro ⟨body, ctor, hctor⟩
  rw [hctor.dest_isClass] at hclass
  cases hclass

theorem symbolAssignable_self_eq_false_iff (f : ScopeForest) (symbol : TypeSymbol)
    (declaredIn : Option ScopeId) :
    f.symbolAssignable symbol declaredIn symbol = false ↔ symbol.RefusesItself := by
  have hsame : symbol.same symbol = true := (TypeSymbol.same_iff_id _ _).2 rfl
  rw [Bool.eq_false_iff, ne_eq, symbolAssignable_iff, TypeSymbol.isOpen_iff,
    TypeSymbol.RefusesItself]
  cases hkind : symbol.primitive? with
  | none => simp [hsame]
  | some kind =>
    have hctor := f.constructible_eq_false_of_primitive? symbol declaredIn hkind
    simp only [hctor, Option.some.injEq, reduceCtorEq, false_and, exists_eq_left',
      Bool.false_eq_true, and_false, or_false]
    -- without constructors the table alone answers, and it goes by kind, identity or name
    cases kind <;> simp [Primitive.accepts, hsame, hkind]

theorem assignableWithin_self_eq_false_iff (f : ScopeForest) {depthLimit levels depth : Nat}
    (hlevels : depth + levels = depthLimit + 1) (t : Option StaticType) :
    f.assignableWithin levels t t = false ↔ Flawed depthLimit depth t := by
  -- on the levels that are left, which run out where flaws stop to count
  induction levels generalizing depth t with
  | zero =>
    rw [assignableWithin_zero]
    refine ⟨nofun, fun h => ?_⟩
    have hdepth := h.depth_le
    omega
  | succ levels ih =>
    have hdepth : depth ≤ depthLimit := by omega
    have hnext : depth + 1 + levels = depthLimit + 1 := by omega
    rw [assignableWithin_succ]
    cases hshape : shape t with
    | absent => exact ⟨nofun, fun h => absurd hshape h.shape_ne_absent⟩
    | declared symbol scope =>
      rw [flawed_iff_of_declared hshape hdepth]
      exact symbolAssignable_self_eq_false_iff f symbol scope
    | handler g =>
      rw [flawed_iff_of_handler hshape hdepth]
      simp only [← ih hnext]
      rw [Bool.eq_false_iff, ne_eq, shapeAssignable, FunctionSymbol.relatedBy_self_iff]
      simp only [Classical.not_forall, Bool.not_eq_true, exists_prop]

theorem assignableWithin_eq_false_of_void (f : ScopeForest) (levels : Nat)
    {src dest : Option StaticType} {void : TypeSymbol} {scope : Option ScopeId}
    (hsrc : shape src = .declared void scope) (hvoid : void.primitive? = some .void)
    (hpresent : shape dest ≠ .absent)
    (hclosed : ∀ d scope', shape dest = .declared d scope' → d.isOpen = false) :
    f.assignableWithin (levels + 1) src dest = false := by
  rw [assignableWithin_succ, hsrc]
  cases hdest : shape dest with
  | absent => exact absurd hdest hpresent
  | handler h => rfl
  | declared d scope' =>
    have hopen := hclosed d scope' hdest
    simp only [shapeAssignable, flatAssignable, symbolAssignable, hopen, hvoid, Primitive.verdict,
      Primitive.accepts, Bool.false_eq_true, if_false, beq_self_eq_true, if_true, Option.getD_some,
      Bool.or_false]

theorem assignable_eq_false_of_returnType (f : ScopeForest) {depthLimit : Nat}
    (hlimit : 1 ≤ depthLimit) {src dest : Option StaticType} {g h : FunctionSymbol}
    (hsrc : shape src = .handler g) (hdest : shape dest = .handler h)
    (hreturn : ∀ levels, f.assignableWithin (levels + 1) g.returnType h.returnType = false) :
    f.assignable depthLimit src dest = false := by
  obtain ⟨levels, rfl⟩ := Nat.exists_eq_add_of_le' hlimit
  rw [assignable, assignableWithin_succ, hsrc, hdest]
  simp only [shapeAssignable, FunctionSymbol.relatedBy, hreturn levels, Bool.false_and]

/-- A type fits itself unless it has a flaw within the limit. A callback that returns nothing has one:
it fits neither itself nor any callback of which something closed is expected. -/
theorem not_assignable_self_iff_flawed (f : ScopeForest) (depthLimit : Nat) :
    (∀ t : StaticType,
      f.assignable depthLimit (some t) (some t) = false ↔ Flawed depthLimit 0 (some t)) ∧
    ∀ (g : FunctionSymbol) (void : TypeSymbol) (scope voidScope : Option ScopeId), 1 ≤ depthLimit →
      g.returnType = some ⟨.type void, voidScope, none⟩ → void.primitive? = some .void →
      f.assignable depthLimit (some ⟨.handler g, scope, none⟩)
        (some ⟨.handler g, scope, none⟩) = false ∧
      ∀ (h : FunctionSymbol) (scope' : Option ScopeId) (expected : StaticType),
        h.returnType = some expected → expected.args = none →
        (∀ d, expected.typeSymbol? = some d → d.isOpen = false) →
        f.assignable depthLimit (some ⟨.handler g, scope, none⟩)
          (some ⟨.handler h, scope', none⟩) = false := by
  have hlevels : 0 + (depthLimit + 1) = depthLimit + 1 := Nat.zero_add _
  refine ⟨fun t => f.assignableWithin_self_eq_false_iff hlevels (some t), ?_⟩
  intro g void scope voidScope hlimit hg hvoid
  have hreturned : shape g.returnType = .declared void voidScope := by
    rw [hg]
    rfl
  have hfails (h : FunctionSymbol) (scope' : Option ScopeId) (hpresent : shape h.returnType ≠ .absent)
      (hclosed : ∀ d s, shape h.returnType = .declared d s → d.isOpen = false) :
      f.assignable depthLimit (some ⟨.handler g, scope, none⟩)
        (some ⟨.handler h, scope', none⟩) = false :=
    f.assignable_eq_false_of_returnType hlimit rfl rfl fun levels =>
      f.assignableWithin_eq_false_of_void levels hreturned hvoid hpresent hclosed
  constructor
  · refine hfails g scope (by simp [hreturned]) fun d s hd => ?_
    obtain ⟨rfl, -⟩ := Shape.declared.inj (hreturned.symm.trans hd)
    simp [TypeSymbol.isOpen, hvoid]
  · intro h scope' expected hh hargs hclosed
    have hexpected : shape h.returnType = .ofType expected := by
      rw [hh]
      exact shape_of_args_none hargs
    refine hfails h scope' (hexpected ▸ Shape.ofType_ne_absent expected) fun d s hd => ?_
    exact hclosed d (Shape.typeSymbol?_of_ofType (hexpected.symm.trans hd))

/-! A callback that takes a number and returns nothing. -/

namespace Callbacks

open Boxes (token number)

def void : TypeSymbol := .ofPrimitive (token 9 "void") .void

def silent : FunctionSymbol :=
  ⟨⟨token 8 "callback", [], {}⟩, some (.ofSymbol void), [some number]⟩

def silentType : StaticType := ⟨.handler silent, none, none⟩

end Callbacks

open Callbacks Boxes in
theorem not_assignable_self_iff_flawed_silent :
    assignable {} 1 (some silentType) (some silentType) = false ∧ Flawed 1 0 (some silentType) ∧
    ¬ Flawed 0 0 (some silentType) ∧ assignable {} 1 (some silentType) expected = false := by
  obtain ⟨hself, hother⟩ :=
    (not_assignable_self_iff_flawed {} 1).2 silent void none none (Nat.le_refl 1) rfl rfl
  have hflawed : Flawed 1 0 (some silentType) :=
    ((not_assignable_self_iff_flawed {} 1).1 silentType).1 hself
  have hshallow : ¬ Flawed 0 0 (some silentType) := by
    rw [← (not_assignable_self_iff_flawed {} 0).1 silentType]
    with_unfolding_all decide
  have hexpected := hother ⟨⟨token 8 "callback", [], {}⟩, some number, [some number]⟩ none number
    rfl rfl fun d hd => by cases hd; rfl
  exact ⟨hself, hflawed, hshallow, hexpected⟩

end ScopeForest

end ScriptSemantics
