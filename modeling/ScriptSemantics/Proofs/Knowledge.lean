import ScriptSemantics.Proofs.Growth

/-! Knowing less never does harm. A type may be known in part only: a return type, a parameter type or
a template argument may be absent, at any depth. What fits still fits when more of it is absent, on
either side. -/

namespace ScriptSemantics

def TemplateArgs.paramIds (args : Option TemplateArgs) : Option (List TokenId) :=
  args.map fun args => args.bindings.map (·.param.id)

def TemplateArgs.values (args : Option TemplateArgs) : List (Option StaticType) :=
  (args.map fun args => args.bindings.map (·.value)).getD []

def Pointwise (R : Option StaticType → Option StaticType → Prop)
    (xs ys : List (Option StaticType)) : Prop :=
  ∀ (i : Nat) (x y : Option StaticType), xs[i]? = some x → ys[i]? = some y → R x y

/-- The first type is the second with some of its parts absent, maybe all of it. A declared type stays
the same, and so does the declaration of a handler. -/
inductive LessKnown : Option StaticType → Option StaticType → Prop
  | absent {t : Option StaticType} : LessKnown none t
  | symbol {symbol : TypeSymbol} {scope : Option ScopeId} {args' args : Option TemplateArgs}
      (hbound : TemplateArgs.paramIds args' = TemplateArgs.paramIds args)
      (hvalues : Pointwise LessKnown (TemplateArgs.values args') (TemplateArgs.values args)) :
      LessKnown (some ⟨.type symbol, scope, args'⟩) (some ⟨.type symbol, scope, args⟩)
  | handler {g' g : FunctionSymbol} {scope : Option ScopeId} {args' args : Option TemplateArgs}
      (hident : g'.ident.id = g.ident.id)
      (hbound : TemplateArgs.paramIds args' = TemplateArgs.paramIds args)
      (hvalues : Pointwise LessKnown (TemplateArgs.values args') (TemplateArgs.values args))
      (hreturn : LessKnown g'.returnType g.returnType)
      (hlength : g'.paramTypes.length = g.paramTypes.length)
      (hparams : Pointwise LessKnown g'.paramTypes g.paramTypes) :
      LessKnown (some ⟨.handler g', scope, args'⟩) (some ⟨.handler g, scope, args⟩)

theorem TemplateArgs.get?_lessKnown {args' args : TemplateArgs} {param' param : Token}
    (hparam : param'.id = param.id)
    (hbound : args'.bindings.map (·.param.id) = args.bindings.map (·.param.id))
    (hvalues : Pointwise LessKnown (args'.bindings.map (·.value)) (args.bindings.map (·.value))) :
    (args'.get? param' = none ∧ args.get? param = none) ∨
      ∃ v' v, args'.get? param' = some v' ∧ args.get? param = some v ∧ LessKnown v' v := by
  obtain ⟨bs'⟩ := args'
  obtain ⟨bs⟩ := args
  simp only [TemplateArgs.get?] at hbound hvalues ⊢
  induction bs' generalizing bs with
  | nil =>
    obtain rfl : bs = [] := by simpa using hbound.symm
    exact .inl ⟨rfl, rfl⟩
  | cons b' rest' ih =>
    cases bs with
    | nil => cases hbound
    | cons b rest =>
      obtain ⟨hid, hrest⟩ := List.cons.inj hbound
      by_cases hb : b.param.id = param.id
      · have hb' : b'.param.id = param'.id := hid.trans (hb.trans hparam.symm)
        exact .inr ⟨b'.value, b.value, by simp [Token.same, hb'], by simp [Token.same, hb],
          hvalues 0 _ _ rfl rfl⟩
      · have hb' : b'.param.id ≠ param'.id := fun h => hb (hid.symm.trans (h.trans hparam))
        have hrest' : Pointwise LessKnown (rest'.map (·.value)) (rest.map (·.value)) :=
          fun i v' v hv' hv => hvalues (i + 1) v' v hv' hv
        simpa [Token.same, hb, hb'] using ih rest hrest hrest'

theorem StaticType.substitute_lessKnown {t' t : StaticType} {args' args : Option TemplateArgs}
    (h : LessKnown (some t') (some t)) (hident : t'.ident.id = t.ident.id)
    (hbound : TemplateArgs.paramIds args' = TemplateArgs.paramIds args)
    (hvalues : Pointwise LessKnown (TemplateArgs.values args') (TemplateArgs.values args)) :
    LessKnown (t'.substitute args') (t.substitute args) := by
  cases args' with
  | none =>
    cases args with
    | none => exact h
    | some args => cases hbound
  | some args' =>
    cases args with
    | none => cases hbound
    | some args =>
      simp only [StaticType.substitute]
      obtain ⟨hnone', hnone⟩ | ⟨v', v, hv', hv, hless⟩ :=
        TemplateArgs.get?_lessKnown hident (Option.some.inj hbound) hvalues
      · rw [hnone', hnone]
        exact h
      · rw [hv', hv]
        exact hless

def selfSubstituteType (t : Option StaticType) : Option StaticType := t.bind (·.selfSubstitute)

theorem LessKnown.substituted {t' t : Option StaticType} (h : LessKnown t' t) :
    LessKnown (selfSubstituteType t') (selfSubstituteType t) := by
  have hless := h
  cases h with
  | absent => exact .absent
  | symbol hbound hvalues => exact StaticType.substitute_lessKnown hless rfl hbound hvalues
  | handler hident hbound hvalues =>
    exact StaticType.substitute_lessKnown hless hident hbound hvalues

structure FunctionSymbol.SignatureLessKnown (g' g : FunctionSymbol) : Prop where
  returnType : LessKnown g'.returnType g.returnType
  length : g'.paramTypes.length = g.paramTypes.length
  params : Pointwise LessKnown g'.paramTypes g.paramTypes

section
variable {src' : Option StaticType} {src t : StaticType}

theorem LessKnown.handler_cases {g : FunctionSymbol} (h : LessKnown src' (some src))
    (hsrc : src.selfSubstitute = some t) (hg : t.functionSymbol? = some g) :
    selfSubstituteType src' = none ∨ ∃ s' t' g', src' = some s' ∧ s'.selfSubstitute = some t' ∧
      t'.functionSymbol? = some g' ∧ g'.SignatureLessKnown g := by
  have hless : LessKnown (selfSubstituteType src') (some t) := hsrc ▸ h.substituted
  -- what is left of the type now stands as a variable, so that the cases of the order can be taken
  generalize hleft : selfSubstituteType src' = left at hless ⊢
  cases hless with
  | absent => exact .inl rfl
  | symbol => cases hg
  | handler _ _ _ hreturn hlength hparams =>
    cases hg
    obtain ⟨s', rfl, hs'⟩ := Option.bind_eq_some_iff.1 hleft
    exact .inr ⟨s', _, _, rfl, hs', rfl, hreturn, hlength, hparams⟩

theorem LessKnown.symbol_cases {s : TypeSymbol} (h : LessKnown src' (some src))
    (hsrc : src.selfSubstitute = some t) (hs : t.typeSymbol? = some s) :
    selfSubstituteType src' = none ∨ ∃ s' t', src' = some s' ∧ s'.selfSubstitute = some t' ∧
      t'.typeSymbol? = some s ∧ t'.scope = t.scope := by
  have hless : LessKnown (selfSubstituteType src') (some t) := hsrc ▸ h.substituted
  generalize hleft : selfSubstituteType src' = left at hless ⊢
  cases hless with
  | absent => exact .inl rfl
  | symbol =>
    obtain ⟨s', rfl, hs'⟩ := Option.bind_eq_some_iff.1 hleft
    exact .inr ⟨s', _, rfl, hs', hs, rfl⟩
  | handler => cases hs

theorem LessKnown.selfSubstituteType_eq_none (h : LessKnown src' (some src))
    (hsrc : src.selfSubstitute = none) : selfSubstituteType src' = none := by
  have hless : LessKnown (selfSubstituteType src') none := hsrc ▸ h.substituted
  generalize selfSubstituteType src' = left at hless
  cases hless
  rfl

end

theorem exists_getElem?_of_length_eq {α β : Type} {xs : List α} {ys : List β}
    (h : xs.length = ys.length) {i : Nat} {x : α} (hx : xs[i]? = some x) : ∃ y, ys[i]? = some y := by
  have hlt : i < ys.length := h ▸ (List.getElem?_eq_some_iff.1 hx).1
  exact ⟨ys[i], List.getElem?_eq_getElem hlt⟩

namespace ScopeForest

theorem Fits.of_noSourceLeft {f : ScopeForest} {depthLimit depth : Nat} {src dest : Option StaticType}
    (h : selfSubstituteType src = none) : f.Fits depthLimit depth src dest := by
  cases src with
  | none => exact .noSource
  | some src => exact .noSourceLeft h

theorem Fits.of_noDestLeft {f : ScopeForest} {depthLimit depth : Nat} {src dest : Option StaticType}
    (h : selfSubstituteType dest = none) : f.Fits depthLimit depth src dest := by
  cases dest with
  | none => exact .noDest
  | some dest => exact .noDestLeft h

theorem Fits.of_lessKnown {f : ScopeForest} {depthLimit depth : Nat}
    {src src' dest dest' : Option StaticType} (h : f.Fits depthLimit depth src dest)
    (hsrc : LessKnown src' src) (hdest : LessKnown dest' dest) :
    f.Fits depthLimit depth src' dest' := by
  induction h generalizing src' dest' with
  | noSource =>
    cases hsrc
    exact .noSource
  | noDest =>
    cases hdest
    exact .noDest
  | tooDeep h => exact .tooDeep h
  | noSourceLeft h => exact .of_noSourceLeft (hsrc.selfSubstituteType_eq_none h)
  | noDestLeft h => exact .of_noDestLeft (hdest.selfSubstituteType_eq_none h)
  | handlers hs hd hg hh hlength _ _ ihreturn ihparams =>
    obtain hgone | ⟨s', t', g', rfl, hs', hg', hless⟩ := hsrc.handler_cases hs hg
    · exact .of_noSourceLeft hgone
    obtain hgone | ⟨d', u', h', rfl, hd', hh', hless'⟩ := hdest.handler_cases hd hh
    · exact .of_noDestLeft hgone
    have hlength' := hless.length.trans (hlength.trans hless'.length.symm)
    refine .handlers hs' hd' hg' hh' hlength' (ihreturn hless.returnType hless'.returnType) ?_
    intro i p' q' hp' hq'
    -- the signatures are as long as before, so the pair at this place has a known one above it
    obtain ⟨p, hp⟩ := exists_getElem?_of_length_eq hless.length hp'
    obtain ⟨q, hq⟩ := exists_getElem?_of_length_eq hless'.length hq'
    exact ihparams i p q hp hq (hless.params i p' p hp' hp) (hless'.params i q' q hq' hq)
  | symbols hs hd hss hdd h =>
    obtain hgone | ⟨s', t', rfl, hs', hss', -⟩ := hsrc.symbol_cases hs hss
    · exact .of_noSourceLeft hgone
    obtain hgone | ⟨d', u', rfl, hd', hdd', hscope⟩ := hdest.symbol_cases hd hdd
    · exact .of_noDestLeft hgone
    exact .symbols hs' hd' hss' hdd' (hscope ▸ h)

/-- Where a value fits it still fits when less is known of its type, or less of the type that is
expected. -/
theorem assignable_of_lessKnown (f : ScopeForest) (depthLimit : Nat)
    (src src' dest dest' : Option StaticType) (h : f.assignable depthLimit src dest = true)
    (hsrc : LessKnown src' src) (hdest : LessKnown dest' dest) :
    f.assignable depthLimit src' dest' = true := by
  have hlevels : 0 + (depthLimit + 1) = depthLimit + 1 := Nat.zero_add _
  exact assignableWithin_of_fits hlevels ((fits_of_assignableWithin hlevels h).of_lessKnown hsrc hdest)

/-! A callback that takes a number and returns an element of a container, handed over where one is
expected that returns a number. What the elements are and what is to be taken may be unknown. -/

namespace Callbacks

open Boxes (token number)

def element (type : Option StaticType) : StaticType :=
  ⟨.type (.ofPrimitive (token 7 "T") .template), none, some ⟨[⟨token 7 "T", type⟩]⟩⟩

def callback (param returned : Option StaticType) : Option StaticType :=
  some ⟨.handler ⟨⟨token 8 "callback", [], {}⟩, returned, [param]⟩, none, none⟩

def given : Option StaticType := callback (some number) (some (element (some number)))

def expected : Option StaticType := callback (some number) (some number)

theorem number_lessKnown : LessKnown (some number) (some number) := .symbol rfl nofun

theorem element_lessKnown (type : Option StaticType) :
    LessKnown (some (element none)) (some (element type)) := by
  refine .symbol rfl fun i v' v hv' hv => ?_
  obtain _ | i := i <;> cases hv'
  exact .absent

theorem callback_lessKnown {param' param returned' returned : Option StaticType}
    (hparam : LessKnown param' param) (hreturned : LessKnown returned' returned) :
    LessKnown (callback param' returned') (callback param returned) := by
  refine .handler rfl rfl nofun hreturned rfl fun i p' p hp' hp => ?_
  obtain _ | i := i <;> cases hp'
  cases hp
  exact hparam

end Callbacks

open Callbacks Boxes in
theorem assignable_of_lessKnown_callback :
    assignable {} 64 given expected = true ∧
    LessKnown (callback (some number) (some (element none))) given ∧
    LessKnown (callback none (some number)) expected ∧
    assignable {} 64 (callback (some number) (some (element none)))
      (callback none (some number)) = true := by
  have hfits : assignable {} 64 given expected = true := by with_unfolding_all rfl
  have hgiven := callback_lessKnown number_lessKnown (element_lessKnown (some number))
  have hexpected := callback_lessKnown (LessKnown.absent (t := some number)) number_lessKnown
  exact ⟨hfits, hgiven, hexpected, assignable_of_lessKnown _ _ _ _ _ _ hfits hgiven hexpected⟩

end ScopeForest

end ScriptSemantics
