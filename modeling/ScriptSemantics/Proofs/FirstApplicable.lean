import ScriptSemantics.Session

/-! Which overload a call is bound to. `Applicable` says position by position when a function can be
called in a given way; a call is bound to the first overload of which that is true, and to the last
one, with complaints, when it is true of none. -/

namespace ScriptSemantics

/-- A position past the last parameter type counts as one with an absent type. -/
structure ScopeForest.Applicable (f : ScopeForest) (depthLimit : Nat) (call : Call)
    (g : FunctionSymbol) : Prop where
  arity : call.args.length ≤ g.decl.params.length
  defaults : ∀ (i : Nat) (param : Param), call.args.length ≤ i → g.decl.params[i]? = some param →
    param.hasDefault = true
  arguments : ∀ (i : Nat) (arg : Argument), call.args[i]? = some arg →
    substituteType call.templateArgs arg.type = none ∨
    substituteType call.templateArgs g.paramTypes[i]?.join = none ∨
    f.assignable depthLimit (substituteType call.templateArgs arg.type)
      (substituteType call.templateArgs g.paramTypes[i]?.join) = true

/-- The candidate at place `i` is the first with the property, or the last one if none has it. -/
structure Resolution.Chosen (p : FunctionSymbol → Prop) (callee : List FunctionSymbol) (i : Nat)
    (g : FunctionSymbol) : Prop where
  here : callee[i]? = some g
  before : ∀ (j : Nat) (h : FunctionSymbol), j < i → callee[j]? = some h → ¬ p h
  last : ¬ p g → i + 1 = callee.length

namespace Resolution

theorem Chosen.holds_iff {p : FunctionSymbol → Prop} {callee : List FunctionSymbol} {i : Nat}
    {g : FunctionSymbol} (c : Chosen p callee i g) : p g ↔ ∃ h ∈ callee, p h := by
  refine ⟨fun hg => ⟨g, List.mem_of_getElem? c.here, hg⟩, ?_⟩
  rintro ⟨h, hmem, hp⟩
  refine Classical.byContradiction fun hg => ?_
  obtain ⟨j, hj⟩ := List.mem_iff_getElem?.1 hmem
  obtain ⟨hlt, -⟩ := List.getElem?_eq_some_iff.1 hj
  have hlast : i + 1 = callee.length := c.last hg
  rcases Nat.lt_or_ge j i with hji | hij
  · exact c.before j h hji hj hp
  · obtain rfl : i = j := by omega
    obtain rfl : g = h := Option.some.inj (c.here.symm.trans hj)
    exact hg hp

theorem Chosen.le {p : FunctionSymbol → Prop} {callee : List FunctionSymbol} {i j : Nat}
    {g h : FunctionSymbol} (c : Chosen p callee i g) (hget : callee[j]? = some h) (hp : p h) :
    i ≤ j := Nat.le_of_not_lt fun hlt => c.before j h hlt hget hp

theorem Chosen.le_of_imp {p q : FunctionSymbol → Prop} {callee : List FunctionSymbol} {i j : Nat}
    {g h : FunctionSymbol} (c : Chosen p callee i g) (d : Chosen q callee j h)
    (himp : ∀ fn, p fn → q fn) : j ≤ i ∧ (q h ∨ h = g) := by
  have hj : j < callee.length := (List.getElem?_eq_some_iff.1 d.here).1
  by_cases hg : p g
  · have hh : q h := d.holds_iff.2 ⟨g, List.mem_of_getElem? c.here, himp g hg⟩
    exact ⟨d.le c.here (himp g hg), .inl hh⟩
  · have hi : i + 1 = callee.length := c.last hg
    refine ⟨by omega, ?_⟩
    by_cases hh : q h
    · exact .inl hh
    · -- none has the property, so that both times the last one is chosen
      have hlast : j + 1 = callee.length := d.last hh
      obtain rfl : j = i := by omega
      exact .inr (Option.some.inj (d.here.symm.trans c.here))

theorem Chosen.cons {p : FunctionSymbol → Prop} {callee : List FunctionSymbol} {i : Nat}
    {g h : FunctionSymbol} (c : Chosen p callee i g) (hh : ¬ p h) :
    Chosen p (h :: callee) (i + 1) g := by
  refine ⟨by simpa using c.here, fun j h' hj hget => ?_, fun hg => by simpa using c.last hg⟩
  cases j with
  | zero =>
    cases hget
    exact hh
  | succ j => exact c.before j h' (by omega) (by simpa using hget)

theorem select_eq_some_chosen {accepts : FunctionSymbol → Bool}
    {complaints : FunctionSymbol → List Diagnostic}
    (hnil : ∀ g, complaints g = [] ↔ accepts g = true) (index : Nat) (first : FunctionSymbol)
    (rest : List FunctionSymbol) :
    ∃ i g, Chosen (accepts · = true) (first :: rest) i g ∧
      select accepts complaints index (first :: rest) = some ⟨index + i, g, complaints g⟩ := by
  induction rest generalizing index first with
  | nil => exact ⟨0, first, ⟨rfl, fun j _ hj => absurd hj (Nat.not_lt_zero j), fun _ => rfl⟩, rfl⟩
  | cons next rest ih =>
    by_cases hacc : accepts first = true
    · refine ⟨0, first, ⟨rfl, fun j _ hj => absurd hj (Nat.not_lt_zero j), absurd hacc⟩, ?_⟩
      -- only here are no complaints collected, and there are none
      rw [select, if_pos hacc, (hnil first).2 hacc, Nat.add_zero]
    · obtain ⟨i, g, hchosen, hselect⟩ := ih (index + 1) next
      refine ⟨i + 1, g, hchosen.cons hacc, ?_⟩
      rw [select, if_neg hacc, hselect, Nat.add_assoc, Nat.add_comm 1]

def mapFunction (φ : FunctionSymbol → FunctionSymbol) (r : Resolution) : Resolution :=
  { r with function := φ r.function }

theorem select_map {accepts accepts' : FunctionSymbol → Bool}
    {complaints complaints' : FunctionSymbol → List Diagnostic} {φ : FunctionSymbol → FunctionSymbol}
    (haccepts : ∀ g, accepts' (φ g) = accepts g)
    (hcomplaints : ∀ g, complaints' (φ g) = complaints g) (index : Nat)
    (callee : List FunctionSymbol) :
    select accepts' complaints' index (callee.map φ) =
      (select accepts complaints index callee).map (·.mapFunction φ) := by
  induction callee generalizing index with
  | nil => rfl
  | cons g rest ih =>
    cases rest with
    | nil => simp [select, mapFunction, hcomplaints]
    | cons next rest =>
      rw [List.map_cons, List.map_cons, select, select, haccepts]
      split
      · rfl
      · exact ih (index + 1)

end Resolution

theorem FunctionDecl.missing?_eq_none_iff (decl : FunctionDecl) (given : Nat) :
    decl.missing? given = none ↔ ∀ (i : Nat) (param : Param), given ≤ i →
      decl.params[i]? = some param → param.hasDefault = true := by
  simp only [FunctionDecl.missing?, List.find?_eq_none, Bool.not_eq_true', Bool.not_eq_false]
  constructor
  · intro h i param hi hget
    apply h param
    refine List.mem_iff_getElem?.2 ⟨i - given, ?_⟩
    rw [List.getElem?_drop, Nat.add_sub_cancel' hi, hget]
  · intro h param hmem
    obtain ⟨i, hi⟩ := List.mem_iff_getElem?.1 hmem
    rw [List.getElem?_drop] at hi
    exact h (given + i) param (Nat.le_add_right given i) hi

namespace ScopeForest

theorem argumentsFit_iff (f : ScopeForest) (depthLimit : Nat) (templateArgs : Option TemplateArgs)
    (args : List Argument) (types : List (Option StaticType)) :
    f.argumentsFit depthLimit templateArgs args types = true ↔
      ∀ (i : Nat) (arg : Argument), args[i]? = some arg →
        f.assignable depthLimit (substituteType templateArgs arg.type)
          (substituteType templateArgs types[i]?.join) = true := by
  induction args generalizing types with
  | nil => simp [argumentsFit]
  | cons arg args ih =>
    rw [argumentsFit, Bool.and_eq_true, ih]
    constructor
    · rintro ⟨hfirst, hrest⟩ i arg' hget
      cases i with
      | zero =>
        cases hget
        rwa [← List.head?_eq_getElem?]
      | succ i => simpa using hrest i arg' (by simpa using hget)
    · intro h
      refine ⟨by simpa [List.head?_eq_getElem?] using h 0 arg rfl, fun i arg' hget => ?_⟩
      simpa using h (i + 1) arg' (by simpa using hget)

theorem assignable_iff_of_absent (f : ScopeForest) (depthLimit : Nat) (src dest : Option StaticType) :
    f.assignable depthLimit src dest = true ↔
      src = none ∨ dest = none ∨ f.assignable depthLimit src dest = true := by
  refine ⟨fun h => .inr (.inr h), ?_⟩
  rintro (rfl | rfl | h)
  · simp only [assignable, assignableWithin]
  · cases src <;> simp only [assignable, assignableWithin]
  · exact h

theorem accepts_iff_applicable (f : ScopeForest) (depthLimit : Nat) (call : Call)
    (g : FunctionSymbol) : f.accepts depthLimit call g = true ↔ f.Applicable depthLimit call g := by
  rw [accepts, Bool.and_eq_true, Bool.and_eq_true, decide_eq_true_eq, Option.isNone_iff_eq_none,
    FunctionDecl.missing?_eq_none_iff, argumentsFit_iff]
  constructor
  · rintro ⟨⟨harity, hdefaults⟩, hargs⟩
    exact ⟨harity, hdefaults, fun i arg hget =>
      (assignable_iff_of_absent f depthLimit _ _).1 (hargs i arg hget)⟩
  · rintro ⟨harity, hdefaults, hargs⟩
    exact ⟨⟨harity, hdefaults⟩, fun i arg hget =>
      (assignable_iff_of_absent f depthLimit _ _).2 (hargs i arg hget)⟩

theorem resolve_eq_some_chosen (f : ScopeForest) (depthLimit : Nat) (call : Call)
    (first : FunctionSymbol) (rest : List FunctionSymbol) :
    ∃ i g, Resolution.Chosen (f.Applicable depthLimit call) (first :: rest) i g ∧
      f.resolve depthLimit call (first :: rest) = some ⟨i, g, f.complaints depthLimit call g⟩ := by
  have happ : f.Applicable depthLimit call = (f.accepts depthLimit call · = true) :=
    funext fun g => propext (f.accepts_iff_applicable depthLimit call g).symm
  obtain ⟨i, g, hchosen, hselect⟩ :=
    Resolution.select_eq_some_chosen (f.complaints_eq_nil_iff depthLimit call) 0 first rest
  exact ⟨i, g, happ ▸ hchosen, by rw [resolve, hselect, Nat.zero_add]⟩

theorem exists_resolve (f : ScopeForest) (depthLimit : Nat) (call : Call)
    {callee : List FunctionSymbol} (h : callee ≠ []) : ∃ r, f.resolve depthLimit call callee = some r := by
  obtain ⟨first, rest, rfl⟩ := List.exists_cons_of_ne_nil h
  obtain ⟨i, g, -, hresolve⟩ := f.resolve_eq_some_chosen depthLimit call first rest
  exact ⟨_, hresolve⟩

section
variable {f : ScopeForest} {depthLimit : Nat} {call : Call} {callee : List FunctionSymbol}
  {r : Resolution}

theorem chosen_and_complaints_of_resolve (h : f.resolve depthLimit call callee = some r) :
    Resolution.Chosen (f.Applicable depthLimit call) callee r.index r.function ∧
      r.diagnostics = f.complaints depthLimit call r.function := by
  cases callee with
  | nil => cases h
  | cons first rest =>
    obtain ⟨i, g, hchosen, hresolve⟩ := f.resolve_eq_some_chosen depthLimit call first rest
    cases h.symm.trans hresolve
    exact ⟨hchosen, rfl⟩

theorem chosen_of_resolve (h : f.resolve depthLimit call callee = some r) :
    Resolution.Chosen (f.Applicable depthLimit call) callee r.index r.function :=
  (chosen_and_complaints_of_resolve h).1

theorem diagnostics_eq_nil_iff (h : f.resolve depthLimit call callee = some r) :
    r.diagnostics = [] ↔ ∃ g ∈ callee, f.Applicable depthLimit call g := by
  obtain ⟨hchosen, hdiagnostics⟩ := chosen_and_complaints_of_resolve h
  rw [hdiagnostics, complaints_eq_nil_iff, accepts_iff_applicable]
  exact hchosen.holds_iff

end

theorem get?_pushReference (f : ScopeForest) (s t : ScopeId) (r : Reference) :
    (f.pushReference s r).get? t = (f.get? t).map fun scope =>
      if t = s then { scope with references := scope.references ++ [r] } else scope := by
  rw [pushReference, get?_modify]
  by_cases h : t = s
  · simp only [h, if_true]
  · simp only [h, Ne.symm h, if_false]
    rfl

end ScopeForest

/-- What a call that is bound to `g` gives, and what it leaves of the session it was made in. Of the
scopes only the one the call is made from changes, and of that only the log of references. -/
structure Session.Bound (s : Session) (scope : ScopeId) (call : Call) (g : FunctionSymbol)
    (reported : List Diagnostic) (result : Option StaticType × Session) : Prop where
  type : result.1 = g.returnType
  diagnostics : result.2.diagnostics = s.diagnostics ++ reported
  scopes : ∀ t, result.2.scopes.get? t = (s.scopes.get? t).map fun body =>
    if t = scope then { body with references := body.references ++ [⟨.function g, call.site.ident⟩] }
    else body
  builtins : result.2.builtins = s.builtins
  depthLimit : result.2.depthLimit = s.depthLimit

theorem Session.call_bound {s : Session} {call : Call} {callee : List FunctionSymbol}
    {r : Resolution} (h : s.scopes.resolve s.depthLimit call callee = some r) (scope : ScopeId) :
    s.Bound scope call r.function r.diagnostics (s.call scope call callee) := by
  rw [Session.call, h]
  exact ⟨rfl, rfl, fun t => ScopeForest.get?_pushReference _ _ _ _, rfl, rfl⟩

/-- A call is bound before anyone looks at where it is made: the scope decides nothing but which log
the reference goes to. -/
theorem Session.call_binds_first_applicable (s : Session) (call : Call) (first : FunctionSymbol)
    (rest : List FunctionSymbol) :
    (∀ scope, s.call scope call [] = (none, s)) ∧
    ∃ (i : Nat) (g : FunctionSymbol) (reported : List Diagnostic),
      Resolution.Chosen (s.scopes.Applicable s.depthLimit call) (first :: rest) i g ∧
      (reported = [] ↔ ∃ h ∈ first :: rest, s.scopes.Applicable s.depthLimit call h) ∧
      ∀ scope, s.Bound scope call g reported (s.call scope call (first :: rest)) := by
  refine ⟨fun scope => rfl, ?_⟩
  obtain ⟨r, hr⟩ := s.scopes.exists_resolve s.depthLimit call (List.cons_ne_nil first rest)
  have hchosen := ScopeForest.chosen_of_resolve hr
  have hreported := ScopeForest.diagnostics_eq_nil_iff hr
  exact ⟨r.index, r.function, r.diagnostics, hchosen, hreported, Session.call_bound hr⟩

end ScriptSemantics
