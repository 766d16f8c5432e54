import ScriptSemantics.Assignable.Basic

/-! Assignability as a relation without an order of rules. Every rule stands for itself, none is
tried before another, and a pair of types is assignable exactly when some rule applies to it. -/

namespace ScriptSemantics

structure ScopeForest.Constructs (f : ScopeForest) (src : TypeSymbol) (declaredIn : Option ScopeId)
    (dest : TypeSymbol) (body : ScopeId) (ctor : FunctionSymbol) : Prop where
  dest_isClass : dest.isClass = true
  child : ∃ scope, declaredIn = some scope ∧ f.child? scope dest.ident.text = some body
  owner : ∃ owner, f.owner? body = some owner ∧ owner.isClass = true
  declared : ∃ overloads, f.find? body dest.ident.text = some (.functions overloads) ∧
    ctor ∈ overloads.toList
  converts : ∃ type param, ctor.paramTypes = [some type] ∧ type.typeSymbol? = some param ∧
    param.ident.id = src.ident.id

inductive ScopeForest.SymbolFits (f : ScopeForest) (src : TypeSymbol) (declaredIn : Option ScopeId)
    (dest : TypeSymbol) : Prop
  | anyDest (h : dest.primitive? = some .any)
  | autoDest (h : dest.primitive? = some .auto)
  | anySource (h : src.primitive? = some .any)
  | autoSource (h : src.primitive? = some .auto)
  | numbers (hs : src.primitive? = some .number) (hd : dest.primitive? = some .number)
  | bools (hs : src.primitive? = some .bool) (hd : dest.primitive? = some .bool)
  | strings (hs : src.primitive? = some .string)
      (hd : dest.ident.text = "string" ∨ dest.ident.text = "String")
  | template (hs : src.primitive? = some .template) (h : src.ident.id = dest.ident.id)
  | itself (hs : src.primitive? = none) (h : src.ident.id = dest.ident.id)
  | base (type : StaticType) (symbol : TypeSymbol) (hs : src.primitive? = none)
      (hmem : some type ∈ src.bases) (htype : type.typeSymbol? = some symbol)
      (h : symbol.ident.id = dest.ident.id)
  | constructor (body : ScopeId) (ctor : FunctionSymbol) (hs : src.primitive? ≠ some .void)
      (h : f.Constructs src declaredIn dest body ctor)

/-- Between types that may be absent, `depth` levels of handlers below the types first asked about. -/
inductive ScopeForest.Fits (f : ScopeForest) (depthLimit : Nat) :
    Nat → Option StaticType → Option StaticType → Prop
  | noSource {depth : Nat} {dest : Option StaticType} : Fits f depthLimit depth none dest
  | noDest {depth : Nat} {src : Option StaticType} : Fits f depthLimit depth src none
  | tooDeep {depth : Nat} {src dest : Option StaticType} (h : depthLimit < depth) :
      Fits f depthLimit depth src dest
  | noSourceLeft {depth : Nat} {src : StaticType} {dest : Option StaticType}
      (h : src.selfSubstitute = none) : Fits f depthLimit depth (some src) dest
  | noDestLeft {depth : Nat} {src : Option StaticType} {dest : StaticType}
      (h : dest.selfSubstitute = none) : Fits f depthLimit depth src (some dest)
  | handlers {depth : Nat} {src src' dest dest' : StaticType} {g h : FunctionSymbol}
      (hsrc : src.selfSubstitute = some src') (hdest : dest.selfSubstitute = some dest')
      (hg : src'.functionSymbol? = some g) (hh : dest'.functionSymbol? = some h)
      (hlength : g.paramTypes.length = h.paramTypes.length)
      (hreturn : Fits f depthLimit (depth + 1) g.returnType h.returnType)
      (hparams : ∀ (i : Nat) (s d : Option StaticType), g.paramTypes[i]? = some s →
        h.paramTypes[i]? = some d → Fits f depthLimit (depth + 1) s d) :
      Fits f depthLimit depth (some src) (some dest)
  | symbols {depth : Nat} {src src' dest dest' : StaticType} {s d : TypeSymbol}
      (hsrc : src.selfSubstitute = some src') (hdest : dest.selfSubstitute = some dest')
      (hs : src'.typeSymbol? = some s) (hd : dest'.typeSymbol? = some d)
      (h : f.SymbolFits s dest'.scope d) : Fits f depthLimit depth (some src) (some dest)

theorem TypeSymbol.same_iff_id (a b : TypeSymbol) : a.same b = true ↔ a.ident.id = b.ident.id :=
  Token.same_iff a.ident b.ident

theorem TypeSymbol.isOpen_iff (t : TypeSymbol) :
    t.isOpen = true ↔ t.primitive? = some .any ∨ t.primitive? = some .auto := by
  simp only [TypeSymbol.isOpen, Bool.or_eq_true, beq_iff_eq]

theorem TypeSymbol.hasBase_iff (t base : TypeSymbol) :
    t.hasBase base = true ↔ ∃ type symbol, some type ∈ t.bases ∧
      type.typeSymbol? = some symbol ∧ symbol.ident.id = base.ident.id := by
  rw [TypeSymbol.hasBase, List.any_eq_true]
  constructor
  · rintro ⟨_ | ⟨_ | _, scope, args⟩, hmem, h⟩
    · cases h
    · exact ⟨_, _, hmem, rfl, (TypeSymbol.same_iff_id _ _).1 h⟩
    · cases h
  · rintro ⟨⟨_ | _, scope, args⟩, symbol, hmem, htype, h⟩
    · cases htype
      exact ⟨_, hmem, (TypeSymbol.same_iff_id _ _).2 h⟩
    · cases htype

theorem FunctionSymbol.convertsFrom_iff (ctor : FunctionSymbol) (src : TypeSymbol) :
    ctor.convertsFrom src = true ↔ ∃ type param, ctor.paramTypes = [some type] ∧
      type.typeSymbol? = some param ∧ param.ident.id = src.ident.id := by
  rw [FunctionSymbol.convertsFrom]
  constructor
  · intro h
    split at h
    · next param scope args hp => exact ⟨_, param, hp, rfl, (TypeSymbol.same_iff_id _ _).1 h⟩
    · cases h
  · rintro ⟨⟨_ | _, scope, args⟩, param, hp, htype, h⟩
    · cases htype
      simp only [hp]
      exact (TypeSymbol.same_iff_id _ _).2 h
    · cases htype

theorem Entry.mem_overloads_iff (entry : Entry) (g : FunctionSymbol) :
    g ∈ entry.overloads ↔ ∃ overloads, entry = .functions overloads ∧ g ∈ overloads.toList := by
  cases entry <;> simp [Entry.overloads]

namespace ScopeForest

theorem constructorScope?_eq_some_iff (f : ScopeForest) (declaredIn : Option ScopeId)
    (cls : TypeSymbol) (body : ScopeId) :
    f.constructorScope? declaredIn cls = some body ↔ cls.isClass = true ∧
      (∃ scope, declaredIn = some scope ∧ f.child? scope cls.ident.text = some body) ∧
      ∃ owner, f.owner? body = some owner ∧ owner.isClass = true := by
  rw [constructorScope?]
  split
  · next h => simp only [Option.filter_eq_some_iff, Option.bind_eq_some_iff, Option.any_eq_true, h,
      true_and]
  · next h => simp only [reduceCtorEq, h, false_and]

theorem mem_constructors_iff (f : ScopeForest) (declaredIn : Option ScopeId) (cls : TypeSymbol)
    (ctor : FunctionSymbol) :
    ctor ∈ f.constructors declaredIn cls ↔ ∃ body, f.constructorScope? declaredIn cls = some body ∧
      ∃ overloads, f.find? body cls.ident.text = some (.functions overloads) ∧
        ctor ∈ overloads.toList := by
  rw [constructors]
  constructor
  · intro h
    split at h
    · next entry hentry =>
      obtain ⟨body, hbody, hfind⟩ := Option.bind_eq_some_iff.1 hentry
      obtain ⟨overloads, rfl, hmem⟩ := (Entry.mem_overloads_iff entry ctor).1 h
      exact ⟨body, hbody, overloads, hfind, hmem⟩
    · cases h
  · rintro ⟨body, hbody, overloads, hfind, hmem⟩
    rw [hbody, Option.bind_some, hfind]
    exact hmem

theorem constructible_iff (f : ScopeForest) (src : TypeSymbol) (declaredIn : Option ScopeId)
    (dest : TypeSymbol) :
    f.constructible src declaredIn dest = true ↔
      ∃ body ctor, f.Constructs src declaredIn dest body ctor := by
  rw [constructible, List.any_eq_true]
  constructor
  · rintro ⟨ctor, hmem, hconv⟩
    obtain ⟨body, hbody, hdeclared⟩ := (mem_constructors_iff f declaredIn dest ctor).1 hmem
    obtain ⟨hclass, hchild, howner⟩ := (constructorScope?_eq_some_iff f declaredIn dest body).1 hbody
    exact ⟨body, ctor, hclass, hchild, howner, hdeclared, (ctor.convertsFrom_iff src).1 hconv⟩
  · rintro ⟨body, ctor, hclass, hchild, howner, hdeclared, hconv⟩
    have hbody : f.constructorScope? declaredIn dest = some body :=
      (constructorScope?_eq_some_iff f declaredIn dest body).2 ⟨hclass, hchild, howner⟩
    exact ⟨ctor, (mem_constructors_iff f declaredIn dest ctor).2 ⟨body, hbody, hdeclared⟩,
      (ctor.convertsFrom_iff src).2 hconv⟩

theorem verdict_getD_iff (kind : Primitive) (src dest : TypeSymbol) (b : Bool) :
    (kind.verdict src dest).getD b = true ↔
      kind.accepts src dest = true ∨ kind ≠ .void ∧ b = true := by
  unfold Primitive.verdict
  by_cases hacc : kind.accepts src dest = true
  · simp [hacc]
  · by_cases hvoid : kind = .void
    · subst hvoid
      simp [hacc]
    · simp [hacc, hvoid]

theorem symbolAssignable_iff (f : ScopeForest) (src : TypeSymbol) (declaredIn : Option ScopeId)
    (dest : TypeSymbol) :
    f.symbolAssignable src declaredIn dest = true ↔ dest.isOpen = true ∨
      (∃ kind, src.primitive? = some kind ∧ kind.accepts src dest = true) ∨
      (src.primitive? = none ∧ (src.same dest = true ∨ src.hasBase dest = true)) ∨
      (src.primitive? ≠ some .void ∧ f.constructible src declaredIn dest = true) := by
  rw [symbolAssignable, Bool.or_eq_true]
  apply or_congr_right
  cases hsrc : src.primitive? with
  | none => simp only [Bool.or_eq_true, reduceCtorEq, false_and, exists_false, true_and, ne_eq,
      not_false_eq_true, false_or]
  | some kind => simp only [verdict_getD_iff, Option.some.injEq, exists_eq_left', reduceCtorEq,
      false_and, false_or, ne_eq]

theorem symbolFits_of_accepts {f : ScopeForest} {kind : Primitive} {src dest : TypeSymbol}
    {declaredIn : Option ScopeId} (hsrc : src.primitive? = some kind)
    (h : kind.accepts src dest = true) : f.SymbolFits src declaredIn dest := by
  cases kind with
  | template => exact .template hsrc ((TypeSymbol.same_iff_id _ _).1 h)
  | string => exact .strings hsrc (by simpa only [Primitive.accepts, Bool.or_eq_true, beq_iff_eq] using h)
  | bool => exact .bools hsrc (by simpa only [Primitive.accepts, beq_iff_eq] using h)
  | number => exact .numbers hsrc (by simpa only [Primitive.accepts, beq_iff_eq] using h)
  | void => cases h
  | any => exact .anySource hsrc
  | auto => exact .autoSource hsrc

theorem symbolAssignable_iff_symbolFits (f : ScopeForest) (src : TypeSymbol)
    (declaredIn : Option ScopeId) (dest : TypeSymbol) :
    f.symbolAssignable src declaredIn dest = true ↔ f.SymbolFits src declaredIn dest := by
  rw [symbolAssignable_iff, TypeSymbol.isOpen_iff, TypeSymbol.same_iff_id, TypeSymbol.hasBase_iff,
    constructible_iff]
  constructor
  · rintro ((hany | hauto) | ⟨kind, hsrc, hacc⟩ | ⟨hsrc, hsame | ⟨type, symbol, hmem, htype, hid⟩⟩ |
      ⟨hsrc, body, ctor, hctor⟩)
    · exact .anyDest hany
    · exact .autoDest hauto
    · exact symbolFits_of_accepts hsrc hacc
    · exact .itself hsrc hsame
    · exact .base type symbol hsrc hmem htype hid
    · exact .constructor body ctor hsrc hctor
  · intro h
    cases h with
    | anyDest h => exact .inl (.inl h)
    | autoDest h => exact .inl (.inr h)
    | anySource h => exact .inr (.inl ⟨.any, h, rfl⟩)
    | autoSource h => exact .inr (.inl ⟨.auto, h, rfl⟩)
    | numbers hs hd => exact .inr (.inl ⟨.number, hs, by simp only [Primitive.accepts, hd, beq_self_eq_true]⟩)
    | bools hs hd => exact .inr (.inl ⟨.bool, hs, by simp only [Primitive.accepts, hd, beq_self_eq_true]⟩)
    | strings hs hd =>
      refine .inr (.inl ⟨.string, hs, ?_⟩)
      simpa only [Primitive.accepts, Bool.or_eq_true, beq_iff_eq] using hd
    | template hs h => exact .inr (.inl ⟨.template, hs, (TypeSymbol.same_iff_id _ _).2 h⟩)
    | itself hs h => exact .inr (.inr (.inl ⟨hs, .inl h⟩))
    | base type symbol hs hmem htype h =>
      exact .inr (.inr (.inl ⟨hs, .inr ⟨type, symbol, hmem, htype, h⟩⟩))
    | constructor body ctor hs h => exact .inr (.inr (.inr ⟨hs, body, ctor, h⟩))

theorem all_zip_iff {α : Type} (p : α → α → Bool) {xs ys : List α} :
    ((xs.zip ys).all fun pair => p pair.1 pair.2) = true ↔
      ∀ (i : Nat) (x y : α), xs[i]? = some x → ys[i]? = some y → p x y = true := by
  rw [List.all_eq_true]
  constructor
  · intro h i x y hx hy
    have hpair : (xs.zip ys)[i]? = some (x, y) := List.getElem?_zip_eq_some.2 ⟨hx, hy⟩
    exact h (x, y) (List.mem_of_getElem? hpair)
  · rintro h ⟨x, y⟩ hmem
    obtain ⟨i, hi⟩ := List.mem_iff_getElem?.1 hmem
    obtain ⟨hx, hy⟩ := List.getElem?_zip_eq_some.1 hi
    exact h i x y hx hy

theorem assignableWithin_zero (f : ScopeForest) (src dest : Option StaticType) :
    f.assignableWithin 0 src dest = true := by
  cases src <;> cases dest <;> simp only [assignableWithin]

theorem assignableWithin_none_right (f : ScopeForest) (levels : Nat) (src : Option StaticType) :
    f.assignableWithin levels src none = true := by
  cases src <;> simp only [assignableWithin]

theorem assignableWithin_of_noSourceLeft (f : ScopeForest) (levels : Nat) {src : StaticType}
    (dest : Option StaticType) (h : src.selfSubstitute = none) :
    f.assignableWithin levels (some src) dest = true := by
  cases levels <;> cases dest <;> simp only [assignableWithin, h]

theorem assignableWithin_of_noDestLeft (f : ScopeForest) (levels : Nat) (src : Option StaticType)
    {dest : StaticType} (h : dest.selfSubstitute = none) :
    f.assignableWithin levels src (some dest) = true := by
  cases levels with
  | zero => exact assignableWithin_zero f src (some dest)
  | succ levels =>
    cases src with
    | none => rw [assignableWithin]
    | some src =>
      rw [assignableWithin, h]
      split <;> first | rfl | contradiction

theorem assignableWithin_succ_of_handlers (f : ScopeForest) (levels : Nat)
    {src src' dest dest' : StaticType} {g h : FunctionSymbol}
    (hsrc : src.selfSubstitute = some src') (hdest : dest.selfSubstitute = some dest')
    (hg : src'.functionSymbol? = some g) (hh : dest'.functionSymbol? = some h) :
    f.assignableWithin (levels + 1) (some src) (some dest) = true ↔
      g.paramTypes.length = h.paramTypes.length ∧
      f.assignableWithin levels g.returnType h.returnType = true ∧
      ∀ (i : Nat) (s d : Option StaticType), g.paramTypes[i]? = some s →
        h.paramTypes[i]? = some d → f.assignableWithin levels s d = true := by
  obtain ⟨_ | _, scope, args⟩ := src'
  · cases hg
  obtain ⟨_ | _, scope', args'⟩ := dest'
  · cases hh
  cases hg
  cases hh
  simp only [assignableWithin, hsrc, hdest, Bool.and_eq_true, beq_iff_eq, all_zip_iff, and_assoc,
    and_left_comm]

theorem assignableWithin_succ_of_symbols (f : ScopeForest) (levels : Nat)
    {src src' dest dest' : StaticType} {s d : TypeSymbol}
    (hsrc : src.selfSubstitute = some src') (hdest : dest.selfSubstitute = some dest')
    (hs : src'.typeSymbol? = some s) (hd : dest'.typeSymbol? = some d) :
    f.assignableWithin (levels + 1) (some src) (some dest) = f.symbolAssignable s dest'.scope d := by
  obtain ⟨_ | _, scope, args⟩ := src'
  · obtain ⟨_ | _, scope', args'⟩ := dest'
    · cases hs
      cases hd
      simp only [assignableWithin, hsrc, hdest]
    · cases hd
  · cases hs

theorem fits_of_assignableWithin {f : ScopeForest} {depthLimit : Nat} {levels depth : Nat}
    {src dest : Option StaticType} (hlevels : depth + levels = depthLimit + 1)
    (h : f.assignableWithin levels src dest = true) : f.Fits depthLimit depth src dest := by
  -- on the levels that are left, which go down as the depth goes up
  induction levels generalizing depth src dest with
  | zero => exact .tooDeep (by omega)
  | succ levels ih =>
    cases src with
    | none => exact .noSource
    | some src =>
    cases dest with
    | none => exact .noDest
    | some dest =>
    cases hsrc : src.selfSubstitute with
    | none => exact .noSourceLeft hsrc
    | some src' =>
    cases hdest : dest.selfSubstitute with
    | none => exact .noDestLeft hdest
    | some dest' =>
    rcases src' with ⟨s | g, scope, args⟩ <;> rcases dest' with ⟨d | g', scope', args'⟩
    · rw [assignableWithin_succ_of_symbols f levels hsrc hdest rfl rfl] at h
      exact .symbols hsrc hdest rfl rfl ((symbolAssignable_iff_symbolFits f _ _ _).1 h)
    -- a handler and a declared type never fit, whichever is the source
    · simp only [assignableWithin, hsrc, hdest, Bool.false_eq_true] at h
    · simp only [assignableWithin, hsrc, hdest, Bool.false_eq_true] at h
    · rw [assignableWithin_succ_of_handlers f levels hsrc hdest rfl rfl] at h
      obtain ⟨hlength, hreturn, hparams⟩ := h
      have hnext : depth + 1 + levels = depthLimit + 1 := by omega
      exact .handlers hsrc hdest rfl rfl hlength (ih hnext hreturn)
        fun i s d hs hd => ih hnext (hparams i s d hs hd)

theorem assignableWithin_of_fits {f : ScopeForest} {depthLimit : Nat} {levels depth : Nat}
    {src dest : Option StaticType} (hlevels : depth + levels = depthLimit + 1)
    (h : f.Fits depthLimit depth src dest) : f.assignableWithin levels src dest = true := by
  -- on the derivation: it may be longer than the levels allow, and then level 0 answers for the rest
  induction h generalizing levels with
  | noSource => rw [assignableWithin]
  | noDest => exact assignableWithin_none_right f levels _
  | tooDeep hdepth =>
    obtain rfl : levels = 0 := by omega
    exact assignableWithin_zero f _ _
  | noSourceLeft hnone => exact assignableWithin_of_noSourceLeft f levels _ hnone
  | noDestLeft hnone => exact assignableWithin_of_noDestLeft f levels _ hnone
  | handlers hsrc hdest hg hh hlength _ _ ihreturn ihparams =>
    cases levels with
    | zero => rw [assignableWithin]
    | succ levels =>
      rw [assignableWithin_succ_of_handlers f levels hsrc hdest hg hh]
      exact ⟨hlength, ihreturn (by omega), fun i s d hs hd => ihparams i s d hs hd (by omega)⟩
  | symbols hsrc hdest hs hd hfits =>
    cases levels with
    | zero => rw [assignableWithin]
    | succ levels =>
      rw [assignableWithin_succ_of_symbols f levels hsrc hdest hs hd]
      exact (symbolAssignable_iff_symbolFits f _ _ _).2 hfits

/-- Comparing in order, with a table that may pass the question on, levels counted down and each
side substituted first, comes to the same as the rules taken in any order. -/
theorem assignable_iff_fits (f : ScopeForest) (depthLimit : Nat) (src dest : Option StaticType) :
    f.assignable depthLimit src dest = true ↔ f.Fits depthLimit 0 src dest := by
  have hlevels : 0 + (depthLimit + 1) = depthLimit + 1 := Nat.zero_add _
  exact ⟨fits_of_assignableWithin hlevels, assignableWithin_of_fits hlevels⟩

end ScopeForest

end ScriptSemantics
