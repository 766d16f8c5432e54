import ScriptSemantics.Proofs.Fits
import ScriptSemantics.Proofs.FirstApplicable

/-! Declaring more never breaks what was right before. The steps that build a forest only add to it:
scopes keep their links and owners, and overloads stay where they are. Whatever fits in a forest
therefore fits in all that are built from it. -/

namespace ScriptSemantics

structure Scope.Grows (a b : Scope) : Prop where
  link : b.link = a.link
  owner : ∀ o, a.owner = some o → b.owner = some o
  functions : ∀ name o, a.symbols.find? name = some (.functions o) →
    ∃ o', b.symbols.find? name = some (.functions o') ∧ o.toList <+: o'.toList

theorem Scope.grows_of_eq {a b : Scope} (hlink : b.link = a.link) (howner : b.owner = a.owner)
    (hsymbols : b.symbols = a.symbols) : a.Grows b := by
  refine ⟨hlink, fun o h => howner.trans h, fun name o h => ⟨o, ?_, List.prefix_refl _⟩⟩
  rw [hsymbols, h]

theorem Scope.Grows.refl (a : Scope) : a.Grows a := Scope.grows_of_eq rfl rfl rfl

theorem Scope.Grows.trans {a b c : Scope} (hab : a.Grows b) (hbc : b.Grows c) : a.Grows c := by
  refine ⟨hbc.link.trans hab.link, fun o h => hbc.owner o (hab.owner o h), fun name o h => ?_⟩
  obtain ⟨o', h', hpre⟩ := hab.functions name o h
  obtain ⟨o'', h'', hpre'⟩ := hbc.functions name o' h'
  exact ⟨o'', h'', hpre.trans hpre'⟩

theorem Scope.grows_offerOwner (a : Scope) (owner : Option ScopeOwner) :
    a.Grows (offerOwner owner a) := by
  refine ⟨rfl, fun o h => ?_, fun _ o h => ⟨o, h, List.prefix_refl _⟩⟩
  rw [offerOwner, h]
  rfl

theorem SymbolTable.functions_of_insert? {table table' : SymbolTable} {d : Declaration}
    (hins : table.insert? d = some table') {name : String} {o : Overloads}
    (h : table.find? name = some (.functions o)) :
    ∃ o', table'.find? name = some (.functions o') ∧ o.toList <+: o'.toList := by
  rw [SymbolTable.find?_insert? hins, h]
  by_cases hname : d.name = name
  · rw [if_pos hname]
    -- a declaration that cannot join the functions of its name would have been refused
    have hjoins : (Entry.functions o).extend? d ≠ none := by
      intro hnone
      have hrefused := SymbolTable.insert?_eq_none_iff.2 ⟨_, hname.symm ▸ h, hnone⟩
      rw [hins] at hrefused
      cases hrefused
    rcases d with symbol | g | symbol
    · exact absurd rfl hjoins
    · refine ⟨o.push g, rfl, ?_⟩
      rw [Overloads.toList_push]
      exact List.prefix_append _ _
    · exact absurd rfl hjoins
  · rw [if_neg hname]
    exact ⟨o, rfl, List.prefix_refl _⟩

theorem Scope.grows_symbols {a : Scope} {d : Declaration} {symbols : SymbolTable}
    (h : a.symbols.insert? d = some symbols) : a.Grows { a with symbols } :=
  ⟨rfl, fun _ ho => ho, fun _ _ hf => SymbolTable.functions_of_insert? h hf⟩

namespace ScopeForest

inductive Edit where
  | createScope (parent : ScopeId) (name : String) (owner : Option ScopeOwner)
  | declare (scope : ScopeId) (d : Declaration)
  | pushReference (scope : ScopeId) (r : Reference)
  | pushHint (scope : ScopeId) (h : Hint)

def Edit.apply (f : ScopeForest) : Edit → ScopeForest
  | createScope parent name owner => (f.createScope parent name owner).2
  | declare scope d =>
    match f.declare scope d with
    | .ok g => g
    | .error _ => f
  | pushReference scope r => f.pushReference scope r
  | pushHint scope h => f.pushHint scope h

def edit (f : ScopeForest) : List Edit → ScopeForest
  | [] => f
  | e :: es => (e.apply f).edit es

def Evolves (R : Scope → Scope → Prop) (f g : ScopeForest) : Prop :=
  ∀ s a, f.get? s = some a → ∃ b, g.get? s = some b ∧ R a b

section
variable {R : Scope → Scope → Prop}

theorem Evolves.refl (hR : ∀ a, R a a) (f : ScopeForest) : Evolves R f f :=
  fun _ a h => ⟨a, h, hR a⟩

theorem Evolves.trans (hR : ∀ {a b c}, R a b → R b c → R a c) {f g k : ScopeForest}
    (hfg : Evolves R f g) (hgk : Evolves R g k) : Evolves R f k := by
  intro s a ha
  obtain ⟨b, hb, hab⟩ := hfg s a ha
  obtain ⟨c, hc, hbc⟩ := hgk s b hb
  exact ⟨c, hc, hR hab hbc⟩

theorem evolves_push (hR : ∀ a, R a a) (f : ScopeForest) (scope : Scope) :
    Evolves R f (f.push scope) := by
  intro s a ha
  rw [get?_push, if_neg (Nat.ne_of_lt (get?_eq_some_lt ha))]
  exact ⟨a, ha, hR a⟩

theorem evolves_modify (hR : ∀ a, R a a) (f : ScopeForest) (s : ScopeId) (g : Scope → Scope)
    (h : ∀ a, f.get? s = some a → R a (g a)) : Evolves R f (f.modify s g) := by
  intro t a ha
  rw [get?_modify, ha]
  by_cases hst : s = t
  · subst hst
    exact ⟨g a, by simp, h a ha⟩
  · exact ⟨a, by simp [hst], hR a⟩

end

def Grows (f g : ScopeForest) : Prop := Evolves Scope.Grows f g

theorem grows_createScope (f : ScopeForest) (parent : ScopeId) (name : String)
    (owner : Option ScopeOwner) : f.Grows (f.createScope parent name owner).2 := by
  rw [createScope]
  split
  · exact evolves_modify .refl f _ _ fun a _ => a.grows_offerOwner owner
  · split
    · exact evolves_push .refl f _
    · exact evolves_push .refl f _

theorem eq_modify_of_declare {f g : ScopeForest} {s : ScopeId} {d : Declaration}
    (h : f.declare s d = .ok g) : ∃ a symbols, f.get? s = some a ∧
      a.symbols.insert? d = some symbols ∧ g = f.modify s fun a => { a with symbols } := by
  rw [declare] at h
  split at h
  · cases h
  · next a ha =>
    split at h
    · next symbols hins =>
      cases h
      exact ⟨a, symbols, ha, hins, rfl⟩
    · cases h

theorem grows_declare {f g : ScopeForest} {s : ScopeId} {d : Declaration}
    (h : f.declare s d = .ok g) : f.Grows g := by
  obtain ⟨a, symbols, ha, hins, rfl⟩ := eq_modify_of_declare h
  refine evolves_modify .refl f s _ fun b hb => ?_
  obtain rfl : a = b := Option.some.inj (ha.symm.trans hb)
  exact Scope.grows_symbols hins

theorem grows_apply (f : ScopeForest) (e : Edit) : f.Grows (e.apply f) := by
  cases e with
  | createScope parent name owner => exact grows_createScope f parent name owner
  | declare scope d =>
    rw [Edit.apply]
    split
    · next g hg => exact grows_declare hg
    · exact Evolves.refl .refl f
  | pushReference scope r => exact evolves_modify .refl f scope _ fun _ _ => Scope.grows_of_eq rfl rfl rfl
  | pushHint scope h => exact evolves_modify .refl f scope _ fun _ _ => Scope.grows_of_eq rfl rfl rfl

theorem grows_edit (f : ScopeForest) (es : List Edit) : f.Grows (f.edit es) := by
  induction es generalizing f with
  | nil => exact Evolves.refl .refl f
  | cons e es ih => exact Evolves.trans .trans (grows_apply f e) (ih (e.apply f))

theorem child?_eq_some_iff (f : ScopeForest) (parent : ScopeId) (name : String) (s : ScopeId) :
    f.child? parent name = some s ↔
      (∃ a, f.get? s = some a ∧ a.link = some ⟨parent, name⟩) ∧
      ∀ t a, t.index < s.index → f.get? t = some a → a.link ≠ some ⟨parent, name⟩ := by
  simp only [child?, get?, Option.map_eq_some_iff, Array.findIdx?_eq_some_iff_getElem,
    ← Scope.isChild_iff, Array.getElem?_eq_some_iff, ne_eq]
  constructor
  · rintro ⟨i, ⟨hi, hchild, hbefore⟩, rfl⟩
    refine ⟨⟨f.scopes[i], ⟨hi, rfl⟩, hchild⟩, ?_⟩
    rintro t a hlt ⟨ht, rfl⟩
    exact hbefore t.index hlt
  · rintro ⟨⟨a, ⟨hs, rfl⟩, hchild⟩, hbefore⟩
    exact ⟨s.index, ⟨hs, hchild, fun j hj => hbefore ⟨j⟩ _ hj ⟨Nat.lt_trans hj hs, rfl⟩⟩, rfl⟩

theorem Grows.child? {f g : ScopeForest} (h : f.Grows g) {parent : ScopeId} {name : String}
    {s : ScopeId} (hchild : f.child? parent name = some s) : g.child? parent name = some s := by
  obtain ⟨⟨a, ha, hlink⟩, hbefore⟩ := (child?_eq_some_iff f parent name s).1 hchild
  obtain ⟨b, hb, hab⟩ := h s a ha
  refine (child?_eq_some_iff g parent name s).2 ⟨⟨b, hb, hab.link.trans hlink⟩, ?_⟩
  intro t c hlt hc
  -- an older scope of the later forest was there before, with the same link
  have ht : t.index < f.scopes.size :=
    Nat.lt_trans hlt (Array.getElem?_eq_some_iff.1 ha).1
  have hget : f.get? t = some f.scopes[t.index] := Array.getElem?_eq_getElem ht
  obtain ⟨c', hc', hgrow⟩ := h t _ hget
  obtain rfl : c = c' := Option.some.inj (hc.symm.trans hc')
  rw [hgrow.link]
  exact hbefore t _ hlt hget

theorem Grows.owner? {f g : ScopeForest} (h : f.Grows g) {s : ScopeId} {o : ScopeOwner}
    (howner : f.owner? s = some o) : g.owner? s = some o := by
  obtain ⟨a, ha, ho⟩ := Option.bind_eq_some_iff.1 howner
  obtain ⟨b, hb, hab⟩ := h s a ha
  exact Option.bind_eq_some_iff.2 ⟨b, hb, hab.owner o ho⟩

theorem Grows.functions {f g : ScopeForest} (h : f.Grows g) {s : ScopeId} {name : String}
    {o : Overloads} (hfind : f.find? s name = some (.functions o)) :
    ∃ o', g.find? s name = some (.functions o') ∧ o.toList <+: o'.toList := by
  obtain ⟨a, ha, ho⟩ := Option.bind_eq_some_iff.1 hfind
  obtain ⟨b, hb, hab⟩ := h s a ha
  obtain ⟨o', ho', hpre⟩ := hab.functions name o ho
  exact ⟨o', Option.bind_eq_some_iff.2 ⟨b, hb, ho'⟩, hpre⟩

theorem Constructs.mono {f g : ScopeForest} (hgrow : f.Grows g) {src dest : TypeSymbol}
    {declaredIn : Option ScopeId} {body : ScopeId} {ctor : FunctionSymbol}
    (h : f.Constructs src declaredIn dest body ctor) : g.Constructs src declaredIn dest body ctor := by
  obtain ⟨hclass, ⟨scope, hscope, hchild⟩, ⟨owner, howner, hisClass⟩, ⟨o, ho, hmem⟩, hconv⟩ := h
  obtain ⟨o', ho', hpre⟩ := hgrow.functions ho
  exact ⟨hclass, ⟨scope, hscope, hgrow.child? hchild⟩, ⟨owner, hgrow.owner? howner, hisClass⟩,
    ⟨o', ho', hpre.subset hmem⟩, hconv⟩

theorem SymbolFits.mono {f g : ScopeForest} (hgrow : f.Grows g) {src dest : TypeSymbol}
    {declaredIn : Option ScopeId} (h : f.SymbolFits src declaredIn dest) :
    g.SymbolFits src declaredIn dest := by
  cases h with
  | anyDest h => exact .anyDest h
  | autoDest h => exact .autoDest h
  | anySource h => exact .anySource h
  | autoSource h => exact .autoSource h
  | numbers hs hd => exact .numbers hs hd
  | bools hs hd => exact .bools hs hd
  | strings hs hd => exact .strings hs hd
  | template hs h => exact .template hs h
  | itself hs h => exact .itself hs h
  | base type symbol hs hmem htype h => exact .base type symbol hs hmem htype h
  | constructor body ctor hs h => exact .constructor body ctor hs (h.mono hgrow)

theorem Fits.mono {f g : ScopeForest} (hgrow : f.Grows g) {depthLimit depth : Nat}
    {src dest : Option StaticType} (h : f.Fits depthLimit depth src dest) :
    g.Fits depthLimit depth src dest := by
  induction h with
  | noSource => exact .noSource
  | noDest => exact .noDest
  | tooDeep h => exact .tooDeep h
  | noSourceLeft h => exact .noSourceLeft h
  | noDestLeft h => exact .noDestLeft h
  | handlers hsrc hdest hg hh hlength _ _ ihreturn ihparams =>
    exact .handlers hsrc hdest hg hh hlength ihreturn ihparams
  | symbols hsrc hdest hs hd h => exact .symbols hsrc hdest hs hd (h.mono hgrow)

theorem assignable_mono {f g : ScopeForest} (hgrow : f.Grows g) {depthLimit : Nat}
    {src dest : Option StaticType} (h : f.assignable depthLimit src dest = true) :
    g.assignable depthLimit src dest = true := by
  have hlevels : 0 + (depthLimit + 1) = depthLimit + 1 := Nat.zero_add _
  exact assignableWithin_of_fits hlevels ((fits_of_assignableWithin hlevels h).mono hgrow)

theorem Applicable.mono {f g : ScopeForest} (hgrow : f.Grows g) {depthLimit : Nat} {call : Call}
    {fn : FunctionSymbol} (h : f.Applicable depthLimit call fn) :
    g.Applicable depthLimit call fn := by
  refine ⟨h.arity, h.defaults, fun i arg hget => ?_⟩
  rcases h.arguments i arg hget with hsrc | hdest | hfits
  · exact .inl hsrc
  · exact .inr (.inl hdest)
  · exact .inr (.inr (assignable_mono hgrow hfits))

theorem resolve_mono {f g : ScopeForest} (hgrow : f.Grows g) {depthLimit : Nat} {call : Call}
    {callee callee' : List FunctionSymbol} (hpre : callee <+: callee') {r : Resolution}
    (h : f.resolve depthLimit call callee = some r) (hclean : r.diagnostics = []) :
    ∃ r', g.resolve depthLimit call callee' = some r' ∧ r'.diagnostics = [] ∧ r'.index ≤ r.index := by
  have hchosen := chosen_of_resolve h
  have happ : f.Applicable depthLimit call r.function :=
    hchosen.holds_iff.2 ((diagnostics_eq_nil_iff h).1 hclean)
  have hget : callee'[r.index]? = some r.function := by
    obtain ⟨more, rfl⟩ := hpre
    rw [List.getElem?_append_left (List.getElem?_eq_some_iff.1 hchosen.here).1, hchosen.here]
  have hmem : r.function ∈ callee' := List.mem_of_getElem? hget
  -- the overload found before is applicable still, so nothing later is taken and nothing reported
  obtain ⟨r', hr'⟩ := exists_resolve g depthLimit call (List.ne_nil_of_mem hmem)
  exact ⟨r', hr', (diagnostics_eq_nil_iff hr').2 ⟨r.function, hmem, happ.mono hgrow⟩,
    (chosen_of_resolve hr').le hget (happ.mono hgrow)⟩

/-- Declaring more, in whatever order and with whatever refusals in between, keeps every conversion
that is allowed and every call that is right. Such a call may move to an earlier overload. -/
theorem checks_survive_edits (f : ScopeForest) (edits : List Edit) (depthLimit : Nat) :
    (∀ src dest, f.assignable depthLimit src dest = true →
      (f.edit edits).assignable depthLimit src dest = true) ∧
    ∀ (scope : ScopeId) (name : String) (overloads : Overloads) (call : Call) (r : Resolution),
      f.find? scope name = some (.functions overloads) →
      f.resolve depthLimit call overloads.toList = some r → r.diagnostics = [] →
      ∃ overloads' r', (f.edit edits).find? scope name = some (.functions overloads') ∧
        overloads.toList <+: overloads'.toList ∧
        (f.edit edits).resolve depthLimit call overloads'.toList = some r' ∧
        r'.diagnostics = [] ∧ r'.index ≤ r.index := by
  have hgrow : f.Grows (f.edit edits) := grows_edit f edits
  refine ⟨fun src dest h => assignable_mono hgrow h, ?_⟩
  intro scope name overloads call r hfind hresolve hclean
  obtain ⟨overloads', hfind', hpre⟩ := hgrow.functions hfind
  obtain ⟨r', hresolve', hclean', hindex⟩ := resolve_mono hgrow hpre hresolve hclean
  exact ⟨overloads', r', hfind', hpre, hresolve', hclean', hindex⟩

/-! A class `Box` and a function `put` for boxes and for numbers. With a number `put` means its second
overload, until `Box` gets a constructor that takes a number. -/

namespace Boxes

def token (index : UInt32) (text : String) : Token := ⟨⟨index⟩, text, .identifier, {}, {}⟩

def unary (ident : Token) (param : StaticType) : FunctionSymbol :=
  ⟨⟨ident, [⟨none, none⟩], {}⟩, none, [some param]⟩

def int : TypeSymbol := .ofPrimitive (token 1 "int") .number

def number : StaticType := .ofSymbol int

def boxDecl : ClassDecl := ⟨token 2 "Box", {}⟩

def boxClass : TypeSymbol := ⟨token 2 "Box", .classDecl boxDecl, none, []⟩

def box : StaticType := ⟨.type boxClass, some root, none⟩

def puts : Overloads := ⟨unary (token 3 "put") box, [unary (token 4 "put") number]⟩

def before : ScopeForest := edit {} (puts.toList.map fun g => .declare root (.function g))

def construction : List Edit :=
  [.createScope root "Box" (some (.classDecl boxDecl)),
    .declare ⟨1⟩ (.function (unary (token 5 "Box") number))]

def numberCall : Call := ⟨.function (token 6 "put") {}, [⟨some number, {}⟩], none⟩

end Boxes

open Boxes in
theorem checks_survive_edits_boxes :
    before.find? root "put" = some (.functions puts) ∧
    before.resolve 64 numberCall puts.toList = some ⟨1, unary (token 4 "put") number, []⟩ ∧
    ∃ overloads' r', (before.edit construction).find? root "put" = some (.functions overloads') ∧
      puts.toList <+: overloads'.toList ∧
      (before.edit construction).resolve 64 numberCall overloads'.toList = some r' ∧
      r'.diagnostics = [] ∧ r'.index ≤ 1 := by
  have hfind : before.find? root "put" = some (.functions puts) := rfl
  have hresolve : before.resolve 64 numberCall puts.toList =
      some ⟨1, unary (token 4 "put") number, []⟩ := by with_unfolding_all rfl
  exact ⟨hfind, hresolve,
    (checks_survive_edits before construction 64).2 root "put" puts numberCall _ hfind hresolve rfl⟩

open Boxes in
example : (before.edit construction).resolve 64 numberCall puts.toList =
    some ⟨0, unary (token 3 "put") box, []⟩ := by with_unfolding_all rfl

end ScopeForest

end ScriptSemantics
