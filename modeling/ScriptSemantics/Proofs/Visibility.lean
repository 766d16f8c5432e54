import ScriptSemantics.Proofs.Lineage

/-! What is visible from a scope. If every scope was asked for below one that was there, all scopes
hang together below the root and every search outwards ends. It ends in the innermost scope that has
what is looked for, whatever the scopes further out have under the same name. -/

namespace ScriptSemantics.ScopeForest

structure Rooted (f : ScopeForest) : Prop extends f.WellFormed where
  below : ∀ s, s.index < f.size → s ≠ ScopeForest.root →
    ∃ p, f.parent? s = some p ∧ p.index < s.index

theorem rooted_new : Rooted {} := by
  refine ⟨wellFormed_new, fun s hs hne => absurd ?_ hne⟩
  exact congrArg ScopeId.mk (Nat.lt_one_iff.1 hs)

theorem SameOutline.parent? {f g : ScopeForest} (h : f.SameOutline g) (s : ScopeId) :
    g.parent? s = f.parent? s := by
  rw [ScopeForest.parent?, ScopeForest.parent?, h.link?]

theorem Rooted.below_createScope {f : ScopeForest} (hf : f.Rooted) {parent : ScopeId}
    (hparent : parent.index < f.size) (name : String) (owner : Option ScopeOwner) {s : ScopeId}
    (hs : s.index < (f.createScope parent name owner).2.size) (hne : s ≠ root) :
    ∃ p, (f.createScope parent name owner).2.parent? s = some p ∧ p.index < s.index := by
  obtain ⟨t, -, heq⟩ | ⟨-, -, heq⟩ | ⟨-, hlt, -⟩ := f.createScope_cases parent name owner
  · rw [heq] at hs ⊢
    rw [size_modify] at hs
    rw [parent?, link?_modify f t s (Scope.link_offerOwner owner)]
    exact hf.below s hs hne
  · rw [heq] at hs ⊢
    rw [parent?, link?_push]
    by_cases hnew : s.index = f.size
    · rw [if_pos hnew]
      exact ⟨parent, rfl, hnew ▸ hparent⟩
    · rw [if_neg hnew]
      rw [size_push] at hs
      exact hf.below s (by omega) hne
  · omega

theorem Rooted.apply {f : ScopeForest} (hf : f.Rooted) {e : Edit}
    (hparent : ∀ r, e.request? f = some r → r.ParentExisted) : (e.apply f).Rooted := by
  refine ⟨hf.toWellFormed.apply e, fun s hs hne => ?_⟩
  cases hr : e.request? f with
  | none =>
    have hsame := sameOutline_of_request?_eq_none hr
    rw [hsame.size] at hs
    rw [hsame.parent?]
    exact hf.below s hs hne
  | some r =>
    have hexisted : r.ParentExisted := hparent r hr
    obtain ⟨parent, name, owner, rfl, rfl⟩ := eq_createScope_of_request? hr
    exact hf.below_createScope hexisted name owner hs hne

theorem Rooted.edit {f : ScopeForest} (hf : f.Rooted) {es : List Edit}
    (hparents : ∀ r ∈ f.requests es, r.ParentExisted) : (f.edit es).Rooted := by
  induction es generalizing f with
  | nil => exact hf
  | cons e es ih =>
    have hfirst : (e.apply f).Rooted := hf.apply fun r hr =>
      hparents r (List.mem_append_left _ (Option.mem_toList.2 hr))
    exact ih hfirst fun r hr => hparents r (List.mem_append_right _ hr)

theorem lt_size_of_parent? {f : ScopeForest} {s p : ScopeId} (h : f.parent? s = some p) :
    s.index < f.size := by
  obtain ⟨link, hlink, -⟩ := Option.map_eq_some_iff.1 h
  exact lt_size_of_link? hlink

theorem Rooted.parent?_ne_self {f : ScopeForest} (hf : f.Rooted) (s : ScopeId) :
    f.parent? s ≠ some s := by
  intro hself
  have hne : s ≠ ScopeForest.root := by
    rintro rfl
    cases hf.parent?_root.symm.trans hself
  obtain ⟨p, hp, hlt⟩ := hf.below s (lt_size_of_parent? hself) hne
  obtain rfl : p = s := Option.some.inj (hp.symm.trans hself)
  exact Nat.lt_irrefl _ hlt

theorem Rooted.ends {f : ScopeForest} (hf : f.Rooted) (s : ScopeId) : f.Ends s :=
  hf.toWellFormed.ends s fun t _ => hf.parent?_ne_self t

/-! ### Searches -/

/-- Of the scopes from `s` outwards `t` is the first that has anything, and it has `a`. -/
structure Innermost (f : ScopeForest) {α : Type} (look : ScopeId → Option α) (s t : ScopeId)
    (a : α) : Prop where
  visible : f.Reaches s t
  here : look t = some a
  inside : ∀ u, f.Reaches s u → f.Reaches u t → u ≠ t → look u = none

theorem WellFormed.index_le_of_reaches {f : ScopeForest} (hf : f.WellFormed) {s t : ScopeId}
    (h : f.Reaches s t) : t.index ≤ s.index := by
  unfold Reaches at h
  induction h with
  | refl => exact Nat.le_refl _
  | tail _ hp ih => exact Nat.le_trans (hf.parent?_le hp) ih

theorem WellFormed.reaches_antisymm {f : ScopeForest} (hf : f.WellFormed) {s t : ScopeId}
    (hst : f.Reaches s t) (hts : f.Reaches t s) : s = t :=
  congrArg ScopeId.mk (Nat.le_antisymm (hf.index_le_of_reaches hts) (hf.index_le_of_reaches hst))

theorem reaches_total {f : ScopeForest} {s t u : ScopeId} (ht : f.Reaches s t)
    (hu : f.Reaches s u) : f.Reaches t u ∨ f.Reaches u t :=
  Relation.ReflTransGen.total_of_right_unique (fun _ _ _ h h' => Option.some.inj (h.symm.trans h'))
    ht hu

theorem eq_or_reaches_of_parent? {f : ScopeForest} {s p t : ScopeId} (hp : f.parent? s = some p)
    (h : f.Reaches s t) : t = s ∨ f.Reaches p t := by
  obtain rfl | ⟨q, hq, hreach⟩ := Relation.ReflTransGen.cases_head h
  · exact .inl rfl
  · obtain rfl : p = q := Option.some.inj (hp.symm.trans hq)
    exact .inr hreach

section
variable {f : ScopeForest} {α : Type} {look : ScopeId → Option α} {s t t' : ScopeId} {a a' : α}

theorem Innermost.unique (h : f.Innermost look s t a) (h' : f.Innermost look s t' a') :
    t = t' ∧ a = a' := by
  -- of two different scopes on the way out one comes first, and there the other search ends too
  have heq : t = t' := by
    refine Classical.byContradiction fun hne => ?_
    rcases reaches_total h.visible h'.visible with hreach | hreach
    · cases (h'.inside t h.visible hreach hne).symm.trans h.here
    · cases (h.inside t' h'.visible hreach (Ne.symm hne)).symm.trans h'.here
  subst heq
  exact ⟨rfl, Option.some.inj (h.here.symm.trans h'.here)⟩

theorem Innermost.above {p : ScopeId} (hlook : look s = none) (hp : f.parent? s = some p)
    (h : f.Innermost look p t a) : f.Innermost look s t a := by
  refine ⟨Relation.ReflTransGen.head hp h.visible, h.here, fun u hsu hut hne => ?_⟩
  rcases eq_or_reaches_of_parent? hp hsu with rfl | hpu
  · exact hlook
  · exact h.inside u hpu hut hne

theorem Finds.exists_innermost (hf : f.WellFormed) {result : Option α}
    (h : f.Finds look s result) (hresult : result = some a) : ∃ t, f.Innermost look s t a := by
  induction h with
  | @here s b hlook =>
    obtain rfl := Option.some.inj hresult
    refine ⟨s, Relation.ReflTransGen.refl, hlook, fun u hsu hus hne => ?_⟩
    exact absurd (hf.reaches_antisymm hus hsu) hne
  | nowhere => cases hresult
  | above hlook hp _ ih =>
    obtain ⟨t, ht⟩ := ih hresult
    exact ⟨t, ht.above hlook hp⟩

theorem Finds.eq_none_of_reaches {result : Option α} (h : f.Finds look s result)
    (hresult : result = none) (ht : f.Reaches s t) : look t = none := by
  induction h with
  | here => cases hresult
  | nowhere hlook hp =>
    obtain rfl | ⟨q, hq, -⟩ := Relation.ReflTransGen.cases_head ht
    · exact hlook
    · cases hp.symm.trans hq
  | above hlook hp _ ih =>
    rcases eq_or_reaches_of_parent? hp ht with rfl | hreach
    · exact hlook
    · exact ih hresult hreach

theorem WellFormed.findSome?_chain_eq_none_iff (hf : f.WellFormed) (hs : f.Ends s) :
    (f.chain s).findSome? look = none ↔ ∀ t, f.Reaches s t → look t = none := by
  have hfinds := hf.finds_chain hs look
  refine ⟨fun h t ht => hfinds.eq_none_of_reaches h ht, fun h => ?_⟩
  cases hresult : (f.chain s).findSome? look with
  | none => rfl
  | some a =>
    obtain ⟨t, ht⟩ := hfinds.exists_innermost hf hresult
    cases (h t ht.visible).symm.trans ht.here

theorem WellFormed.findSome?_chain_eq_some_iff (hf : f.WellFormed) (hs : f.Ends s) :
    (f.chain s).findSome? look = some a ↔ ∃ t, f.Innermost look s t a := by
  have hfinds := hf.finds_chain hs look
  refine ⟨fun h => hfinds.exists_innermost hf h, ?_⟩
  rintro ⟨t, ht⟩
  cases hresult : (f.chain s).findSome? look with
  | none => cases (hfinds.eq_none_of_reaches hresult ht.visible).symm.trans ht.here
  | some b =>
    obtain ⟨t', ht'⟩ := hfinds.exists_innermost hf hresult
    rw [(ht.unique ht').2]

theorem exists_innermost_paired_iff :
    (∃ u, f.Innermost (fun t => (look t).map (t, ·)) s u (t, a)) ↔ f.Innermost look s t a := by
  constructor
  · rintro ⟨u, hvisible, hhere, hinside⟩
    obtain ⟨b, hb, heq⟩ := Option.map_eq_some_iff.1 hhere
    obtain ⟨rfl, rfl⟩ := Prod.mk.inj heq
    exact ⟨hvisible, hb, fun v hsv hvt hne => Option.map_eq_none_iff.1 (hinside v hsv hvt hne)⟩
  · rintro ⟨hvisible, hhere, hinside⟩
    exact ⟨t, hvisible, by rw [hhere, Option.map_some], fun v hsv hvt hne =>
      Option.map_eq_none_iff.2 (hinside v hsv hvt hne)⟩

end

/-- From any number, taken or not, a name stands for its entry in the innermost scope that has one,
and for the child of the innermost scope that has a child of that name. If no scope on the way out
has one, nothing is found. The searches have these results although nothing bounds them. -/
theorem lookup_innermost (edits : List Edit) (hparents : ∀ r ∈ requests {} edits, r.ParentExisted)
    (s : ScopeId) (name : String) :
    let f := edit {} edits
    (∀ t e, f.findVisible? s name = some (t, e) ↔ f.Innermost (f.find? · name) s t e) ∧
    (f.findVisible? s name = none ↔ ∀ t, f.Reaches s t → f.find? t name = none) ∧
    (∀ c, f.childVisible? s name = some c ↔ ∃ t, f.Innermost (f.child? · name) s t c) ∧
    (f.childVisible? s name = none ↔ ∀ t, f.Reaches s t → f.child? t name = none) ∧
    f.Finds (fun t => (f.find? t name).map (t, ·)) s (f.findVisible? s name) ∧
    f.Finds (f.child? · name) s (f.childVisible? s name) := by
  intro f
  have hf : f.Rooted := rooted_new.edit hparents
  have hs : f.Ends s := hf.ends s
  refine ⟨fun t e => ?_, ?_, fun c => hf.findSome?_chain_eq_some_iff hs,
    hf.findSome?_chain_eq_none_iff hs, hf.finds_chain hs _, hf.finds_chain hs _⟩
  · exact (hf.findSome?_chain_eq_some_iff hs).trans exists_innermost_paired_iff
  · refine (hf.findSome?_chain_eq_none_iff hs).trans ?_
    simp only [Option.map_eq_none_iff]

/-! Scopes `A`, `A::B`, `C` and `A::C`. The root declares a variable, and so does `A` under the same
name. -/

namespace Shadowing

open Boxes (token)

def outer : VariableSymbol := ⟨token 1 "x", none⟩

def inner : VariableSymbol := ⟨token 2 "x", none⟩

def shadowed : List Edit :=
  [.createScope root "A" none, .createScope ⟨1⟩ "B" none, .createScope root "C" none,
    .createScope ⟨1⟩ "C" none, .declare root (.variable outer), .declare ⟨1⟩ (.variable inner)]

end Shadowing

open Shadowing in
theorem lookup_innermost_shadowed :
    (∀ r ∈ requests {} shadowed, r.ParentExisted) ∧
    (edit {} shadowed).Innermost ((edit {} shadowed).find? · "x") ⟨2⟩ ⟨1⟩ (.variable inner) ∧
    (∃ t, (edit {} shadowed).Innermost ((edit {} shadowed).child? · "C") ⟨2⟩ t ⟨4⟩) ∧
    ∀ t, (edit {} shadowed).Reaches ⟨9⟩ t → (edit {} shadowed).find? t "x" = none := by
  have hparents : ∀ r ∈ requests {} shadowed, r.ParentExisted := by decide +kernel
  have hsymbol : (edit {} shadowed).findVisible? ⟨2⟩ "x" = some (⟨1⟩, .variable inner) := by
    with_unfolding_all rfl
  have hchild : (edit {} shadowed).childVisible? ⟨2⟩ "C" = some ⟨4⟩ := by with_unfolding_all rfl
  have hnone : (edit {} shadowed).findVisible? ⟨9⟩ "x" = none := by with_unfolding_all rfl
  obtain ⟨hfound, -⟩ := lookup_innermost shadowed hparents ⟨2⟩ "x"
  obtain ⟨-, -, hchildFound, -⟩ := lookup_innermost shadowed hparents ⟨2⟩ "C"
  obtain ⟨-, hnotFound, -⟩ := lookup_innermost shadowed hparents ⟨9⟩ "x"
  exact ⟨hparents, (hfound _ _).1 hsymbol, (hchildFound _).1 hchild, hnotFound.1 hnone⟩

end ScriptSemantics.ScopeForest
