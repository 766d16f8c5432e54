import ScriptSemantics.Proofs.JoinedTexts
import ScriptSemantics.Proofs.Visibility

/-! Names as addresses. The path of a scope, read off on the way out, leads back to it on the way in
from the root, and no other path does. Joined into one text, a path and a simple name can be told
apart again as long as no part of them contains the character that the separator is made of. -/

namespace ScriptSemantics

namespace ScopeForest

def descend (f : ScopeForest) : ScopeId → List String → Option ScopeId
  | s, [] => some s
  | s, name :: names => (f.child? s name).bind fun c => f.descend c names

theorem descend_append_singleton (f : ScopeForest) (s : ScopeId) (names : List String)
    (name : String) :
    f.descend s (names ++ [name]) = (f.descend s names).bind (f.child? · name) := by
  induction names generalizing s with
  | nil => exact Option.bind_fun_some _
  | cons first names ih =>
    rw [List.cons_append, descend, descend, Option.bind_assoc]
    simp only [ih]

theorem Rooted.path_of_child? {f : ScopeForest} (hf : f.Rooted) {p s : ScopeId} {name : String}
    (h : f.child? p name = some s) : f.path s = f.path p ++ [name] := by
  obtain ⟨hparent, hname⟩ := (hf.child?_eq_some_iff_parent? p name s).1 h
  rw [hf.path_of_parent? hparent (hf.parent?_ne_self s), hname, Option.toList_some]

theorem Rooted.path_of_descend {f : ScopeForest} (hf : f.Rooted) {s t : ScopeId}
    {names : List String} (hs : s.index < f.size) (h : f.descend s names = some t) :
    t.index < f.size ∧ f.path t = f.path s ++ names := by
  induction names generalizing s with
  | nil =>
    obtain rfl := Option.some.inj h
    exact ⟨hs, (List.append_nil _).symm⟩
  | cons name names ih =>
    obtain ⟨c, hc, hrest⟩ := Option.bind_eq_some_iff.1 h
    obtain ⟨ht, hpath⟩ := ih (lt_size_of_child? hc) hrest
    refine ⟨ht, ?_⟩
    rw [hpath, hf.path_of_child? hc, List.append_assoc, List.singleton_append]

theorem Rooted.descend_path {f : ScopeForest} (hf : f.Rooted) {s : ScopeId}
    (hs : s.index < f.size) : f.descend ScopeForest.root (f.path s) = some s := by
  -- along the way out from the scope, which ends in the root
  induction hf.ends s with
  | @top s htop =>
    have hroot : s = ScopeForest.root := by
      refine Classical.byContradiction fun hne => ?_
      obtain ⟨p, hp, -⟩ := hf.below s hs hne
      cases htop.symm.trans hp
    rw [path_of_top htop, hroot]
    rfl
  | @up s p hparent _ ih =>
    obtain ⟨⟨_, name⟩, hlink, rfl⟩ := Option.map_eq_some_iff.1 hparent
    have hchild := (hf.child?_iff _ name s).2 hlink
    have hp := hf.parent_lt_of_child? hchild
    rw [hf.path_of_child? hchild, descend_append_singleton, ih hp]
    exact hchild

theorem Rooted.descend_root_iff {f : ScopeForest} (hf : f.Rooted) (names : List String)
    (s : ScopeId) :
    f.descend ScopeForest.root names = some s ↔ s.index < f.size ∧ f.path s = names := by
  constructor
  · intro h
    obtain ⟨a, ha, -⟩ := hf.root
    obtain ⟨hs, hpath⟩ := hf.path_of_descend (get?_eq_some_lt ha) h
    rw [path_of_top hf.parent?_root, List.nil_append] at hpath
    exact ⟨hs, hpath⟩
  · rintro ⟨hs, rfl⟩
    exact hf.descend_path hs

theorem Rooted.path_inj {f : ScopeForest} (hf : f.Rooted) {s t : ScopeId} (hs : s.index < f.size)
    (ht : t.index < f.size) (h : f.path s = f.path t) : s = t := by
  have hback := hf.descend_path ht
  rw [← h, hf.descend_path hs] at hback
  exact Option.some.inj hback

/-- The names from the root in lead to a scope exactly if they are its path, which is what the walk
outwards spells. Qualified names of existing scopes are equal only for the same scope and the same
simple name, unless a part of them contains a colon. -/
theorem paths_identify_scopes (edits : List Edit)
    (hparents : ∀ r ∈ requests {} edits, r.ParentExisted) :
    let f := edit {} edits
    (∀ s names, f.descend root names = some s ↔ s.index < f.size ∧ f.path s = names) ∧
    (∀ s, f.Spells s (f.path s)) ∧
    ∀ s t name name', s.index < f.size → t.index < f.size →
      (∀ part ∈ f.path s ++ [name], ':' ∉ part.toList) →
      (∀ part ∈ f.path t ++ [name'], ':' ∉ part.toList) →
      f.qualifiedName s name = f.qualifiedName t name' → s = t ∧ name = name' := by
  intro f
  have hf : f.Rooted := rooted_new.edit hparents
  refine ⟨fun s names => hf.descend_root_iff names s, fun s => hf.spells_path (hf.ends s), ?_⟩
  intro s t name name' hs ht hplain hplain' heq
  obtain ⟨hpath, hname⟩ := join_inj hplain hplain' heq
  exact ⟨hf.path_inj hs ht hpath, hname⟩

/-! Names may be empty, and then only the number of separators tells where they stand. A name that
contains the separator passes for a path. -/

namespace Addresses

def unnamed : List Edit :=
  [.createScope root "A" none, .createScope ⟨1⟩ "" none, .createScope root "" none,
    .createScope ⟨3⟩ "A" none]

def disguised : List Edit :=
  [.createScope root "A" none, .createScope ⟨1⟩ "B" none, .createScope root "A::B" none]

end Addresses

open Addresses in
theorem paths_identify_scopes_unnamed :
    (∀ r ∈ requests {} unnamed, r.ParentExisted) ∧
    (edit {} unnamed).descend root ["A", ""] = some ⟨2⟩ ∧
    (edit {} unnamed).path ⟨2⟩ = ["A", ""] ∧
    (edit {} unnamed).qualifiedName ⟨2⟩ "" ≠ (edit {} unnamed).qualifiedName ⟨4⟩ "" := by
  have hparents : ∀ r ∈ requests {} unnamed, r.ParentExisted := by decide +kernel
  have hdescend : (edit {} unnamed).descend root ["A", ""] = some ⟨2⟩ := by with_unfolding_all rfl
  have hpath' : (edit {} unnamed).path ⟨4⟩ = ["", "A"] := by with_unfolding_all rfl
  obtain ⟨hdown, -, hinj⟩ := paths_identify_scopes unnamed hparents
  have hpath : (edit {} unnamed).path ⟨2⟩ = ["A", ""] := ((hdown ⟨2⟩ _).1 hdescend).2
  refine ⟨hparents, hdescend, hpath, fun heq => ?_⟩
  have hplain : ∀ part ∈ (edit {} unnamed).path ⟨2⟩ ++ [""], ':' ∉ part.toList := by
    rw [hpath]
    decide
  have hplain' : ∀ part ∈ (edit {} unnamed).path ⟨4⟩ ++ [""], ':' ∉ part.toList := by
    rw [hpath']
    decide
  have hsize : (edit {} unnamed).size = 5 := by with_unfolding_all rfl
  cases (hinj ⟨2⟩ ⟨4⟩ "" "" (by rw [hsize]; decide) (by rw [hsize]; decide) hplain hplain' heq).1

open Addresses in
example : (edit {} disguised).qualifiedName ⟨2⟩ "x" = (edit {} disguised).qualifiedName ⟨3⟩ "x" := by
  with_unfolding_all rfl

end ScopeForest

end ScriptSemantics
