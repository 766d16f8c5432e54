import Mathlib.Logic.Relation
import ScriptSemantics.Proofs.Growth
import ScriptSemantics.Scope.Lookup

/-! How scopes descend from each other. Scopes may be asked for below any number, taken or not. Still
no parent is younger than its child, and a scope is its own parent only if it was asked for below the
number it then got. So a walk from parent to parent ends, unless it meets such a scope. -/

namespace ScriptSemantics

namespace ScopeForest

/-- One call for a scope: what was asked for, how many scopes there were, and the answer. The count
is also the number that a new scope would get. -/
structure Request where
  parent : ScopeId
  name : String
  owner : Option ScopeOwner
  size : Nat
  answer : Except ScopeError ScopeId

/-- The scope was added for this request, be it with a link or without. -/
def Request.Adds (r : Request) (s : ScopeId) : Prop :=
  r.size = s.index ∧ (r.answer = .ok s ∨ r.answer = .error .noSuchParent)

def Request.ParentExisted (r : Request) : Prop := r.parent.index < r.size

instance (r : Request) : Decidable r.ParentExisted := inferInstanceAs (Decidable (_ < _))

def Edit.request? (f : ScopeForest) : Edit → Option Request
  | createScope parent name owner =>
    some ⟨parent, name, owner, f.size, (f.createScope parent name owner).1⟩
  | declare .. | pushReference .. | pushHint .. => none

def requests (f : ScopeForest) : List Edit → List Request
  | [] => []
  | e :: es => (e.request? f).toList ++ (e.apply f).requests es

theorem eq_createScope_of_request? {f : ScopeForest} {e : Edit} {r : Request}
    (h : e.request? f = some r) : ∃ parent name owner, e = .createScope parent name owner ∧
      r = ⟨parent, name, owner, f.size, (f.createScope parent name owner).1⟩ := by
  cases e <;> cases h
  exact ⟨_, _, _, rfl, rfl⟩

theorem edit_append (f : ScopeForest) (es es' : List Edit) :
    f.edit (es ++ es') = (f.edit es).edit es' := by
  induction es generalizing f with
  | nil => rfl
  | cons e es ih => exact ih (e.apply f)

theorem exists_point_of_mem_requests {f : ScopeForest} {es : List Edit} {r : Request}
    (h : r ∈ f.requests es) : ∃ before after,
      es = before ++ .createScope r.parent r.name r.owner :: after ∧ r.size = (f.edit before).size ∧
      r.answer = ((f.edit before).createScope r.parent r.name r.owner).1 := by
  induction es generalizing f with
  | nil => cases h
  | cons e es ih =>
    rcases List.mem_append.1 h with hhead | htail
    · obtain ⟨parent, name, owner, rfl, rfl⟩ := eq_createScope_of_request? (Option.mem_toList.1 hhead)
      exact ⟨[], es, rfl, rfl, rfl⟩
    · obtain ⟨before, after, rfl, hsize, hanswer⟩ := ih htail
      exact ⟨e :: before, after, rfl, hsize, hanswer⟩

theorem link?_push (f : ScopeForest) (a : Scope) (s : ScopeId) :
    (f.push a).link? s = if s.index = f.size then a.link else f.link? s := by
  rw [link?, get?_push]
  split <;> rfl

theorem owner?_push (f : ScopeForest) (a : Scope) (s : ScopeId) :
    (f.push a).owner? s = if s.index = f.size then a.owner else f.owner? s := by
  rw [owner?, get?_push]
  split <;> rfl

theorem link?_modify (f : ScopeForest) (s t : ScopeId) {g : Scope → Scope}
    (hg : ∀ a, (g a).link = a.link) : (f.modify s g).link? t = f.link? t :=
  read_modify (·.bind (·.link)) f s t hg

theorem owner?_modify (f : ScopeForest) (s t : ScopeId) {g : Scope → Scope}
    (hg : ∀ a, (g a).owner = a.owner) : (f.modify s g).owner? t = f.owner? t :=
  read_modify (·.bind (·.owner)) f s t hg

theorem lt_size_of_link? {f : ScopeForest} {s : ScopeId} {link : Link}
    (h : f.link? s = some link) : s.index < f.size := by
  obtain ⟨a, ha, -⟩ := Option.bind_eq_some_iff.1 h
  exact get?_eq_some_lt ha

theorem child?_eq_some_iff_link? (f : ScopeForest) (parent : ScopeId) (name : String) (s : ScopeId) :
    f.child? parent name = some s ↔ f.link? s = some ⟨parent, name⟩ ∧
      ∀ t, t.index < s.index → f.link? t ≠ some ⟨parent, name⟩ := by
  simp only [child?_eq_some_iff, link?, Option.bind_eq_some_iff, ne_eq, not_exists, not_and]
  exact and_congr_right fun _ => ⟨fun h t hlt a => h t a hlt, fun h t a hlt => h t hlt a⟩

theorem lt_size_of_child? {f : ScopeForest} {p s : ScopeId} {name : String}
    (h : f.child? p name = some s) : s.index < f.size :=
  lt_size_of_link? ((child?_eq_some_iff_link? f p name s).1 h).1

theorem child?_eq_none_iff (f : ScopeForest) (parent : ScopeId) (name : String) :
    f.child? parent name = none ↔ ∀ s, f.link? s ≠ some ⟨parent, name⟩ := by
  simp only [child?, Option.map_eq_none_iff, Array.findIdx?_eq_none_iff, link?,
    Option.bind_eq_some_iff, ne_eq, not_exists, not_and, ← Scope.isChild_iff, Bool.not_eq_true]
  constructor
  · intro h s a ha
    exact h a (Array.mem_of_getElem? ha)
  · intro h a hmem
    obtain ⟨i, hi⟩ := Array.mem_iff_getElem?.1 hmem
    exact h ⟨i⟩ a hi

theorem child?_push (f : ScopeForest) (a : Scope) (parent : ScopeId) (name : String) :
    (f.push a).child? parent name = (f.child? parent name).or
      (if a.link = some ⟨parent, name⟩ then some ⟨f.size⟩ else none) := by
  simp only [child?, push, Array.findIdx?_push, Scope.isChild_iff, Option.map_or, size]
  split <;> rfl

theorem child?_congr {f g : ScopeForest} (h : ∀ s, g.link? s = f.link? s) (parent : ScopeId)
    (name : String) : g.child? parent name = f.child? parent name := by
  refine Option.ext fun s => ?_
  simp only [child?_eq_some_iff_link?, h]

theorem child?_offerOwner (f : ScopeForest) (s : ScopeId) (owner : Option ScopeOwner)
    (parent : ScopeId) (name : String) :
    (f.modify s (Scope.offerOwner owner)).child? parent name = f.child? parent name :=
  child?_congr (link?_modify f s · (Scope.link_offerOwner owner)) parent name

theorem child?_inj {f : ScopeForest} {parent parent' s : ScopeId} {name name' : String}
    (h : f.child? parent name = some s) (h' : f.child? parent' name' = some s) :
    parent = parent' ∧ name = name' := by
  have hlink := ((child?_eq_some_iff_link? f parent name s).1 h).1
  have hlink' := ((child?_eq_some_iff_link? f parent' name' s).1 h').1
  exact Link.mk.inj (Option.some.inj (hlink.symm.trans hlink'))

theorem createScope_cases (f : ScopeForest) (parent : ScopeId) (name : String)
    (owner : Option ScopeOwner) :
    (∃ s, f.child? parent name = some s ∧ f.createScope parent name owner =
      (.ok s, f.modify s (Scope.offerOwner owner))) ∨
    (f.child? parent name = none ∧ parent.index ≤ f.size ∧ f.createScope parent name owner =
      (.ok ⟨f.size⟩, f.push { link := some ⟨parent, name⟩, owner })) ∨
    (f.child? parent name = none ∧ f.size < parent.index ∧ f.createScope parent name owner =
      (.error .noSuchParent, f.push { owner })) := by
  cases hchild : f.child? parent name with
  | some s =>
    refine .inl ⟨s, rfl, ?_⟩
    simp only [createScope, hchild]
  | none =>
    by_cases hle : parent.index ≤ f.size
    · refine .inr (.inl ⟨rfl, hle, ?_⟩)
      simp only [createScope, hchild, if_pos hle]
    · refine .inr (.inr ⟨rfl, Nat.lt_of_not_le hle, ?_⟩)
      simp only [createScope, hchild, if_neg hle]

structure SameOutline (f g : ScopeForest) : Prop where
  size : g.size = f.size
  link? : ∀ s, g.link? s = f.link? s
  owner? : ∀ s, g.owner? s = f.owner? s

theorem SameOutline.refl (f : ScopeForest) : f.SameOutline f := ⟨rfl, fun _ => rfl, fun _ => rfl⟩

theorem sameOutline_modify (f : ScopeForest) (s : ScopeId) {g : Scope → Scope}
    (hlink : ∀ a, (g a).link = a.link) (howner : ∀ a, (g a).owner = a.owner) :
    f.SameOutline (f.modify s g) :=
  ⟨size_modify f s g, fun t => link?_modify f s t hlink, fun t => owner?_modify f s t howner⟩

theorem sameOutline_of_request?_eq_none {f : ScopeForest} {e : Edit} (h : e.request? f = none) :
    f.SameOutline (e.apply f) := by
  cases e with
  | createScope parent name owner => cases h
  | declare scope d =>
    rw [Edit.apply]
    split
    · next g hg =>
      obtain ⟨a, symbols, -, -, rfl⟩ := eq_modify_of_declare hg
      exact sameOutline_modify f scope (fun _ => rfl) fun _ => rfl
    · exact .refl f
  | pushReference scope r => exact sameOutline_modify f scope (fun _ => rfl) fun _ => rfl
  | pushHint scope h => exact sameOutline_modify f scope (fun _ => rfl) fun _ => rfl

theorem link?_apply_cases {f : ScopeForest} {e : Edit} {s : ScopeId} {link : Link}
    (h : (e.apply f).link? s = some link) :
    f.link? s = some link ∨ ∃ owner, s = ⟨f.size⟩ ∧ link.parent.index ≤ f.size ∧
      f.child? link.parent link.name = none ∧
      e.request? f = some ⟨link.parent, link.name, owner, f.size, .ok s⟩ := by
  cases hr : e.request? f with
  | none => exact .inl (((sameOutline_of_request?_eq_none hr).link? s).symm.trans h)
  | some r =>
    obtain ⟨parent, name, owner, rfl, rfl⟩ := eq_createScope_of_request? hr
    obtain ⟨t, -, heq⟩ | ⟨hchild, hle, heq⟩ | ⟨-, -, heq⟩ := f.createScope_cases parent name owner
    · rw [Edit.apply, heq, link?_modify f t s (Scope.link_offerOwner owner)] at h
      exact .inl h
    · rw [Edit.apply, heq, link?_push] at h
      split at h
      · next hs =>
        cases h
        obtain rfl : s = ⟨f.size⟩ := congrArg ScopeId.mk hs
        exact .inr ⟨owner, rfl, hle, hchild, by rw [heq]⟩
      · exact .inl h
    · rw [Edit.apply, heq, link?_push] at h
      split at h
      · cases h
      · exact .inl h

structure WellFormed (f : ScopeForest) : Prop where
  root : ∃ a, f.get? root = some a ∧ a.link = none
  parent_le : ∀ s link, f.link? s = some link → link.parent.index ≤ s.index
  distinct : ∀ s t link, f.link? s = some link → f.link? t = some link → s = t

theorem link?_new (s : ScopeId) : ({} : ScopeForest).link? s = none := by
  obtain ⟨_ | i⟩ := s <;> rfl

theorem wellFormed_new : WellFormed {} := by
  refine ⟨⟨{}, rfl, rfl⟩, fun s link h => ?_, fun s t link h => ?_⟩ <;> rw [link?_new] at h <;> cases h

theorem WellFormed.apply {f : ScopeForest} (hf : f.WellFormed) (e : Edit) :
    (e.apply f).WellFormed := by
  refine ⟨?_, fun s link h => ?_, fun s t link hs ht => ?_⟩
  · obtain ⟨a, ha, hlink⟩ := hf.root
    obtain ⟨b, hb, hgrow⟩ := f.grows_apply e _ a ha
    exact ⟨b, hb, hgrow.link.trans hlink⟩
  · rcases link?_apply_cases h with hold | ⟨owner, rfl, hle, -, -⟩
    · exact hf.parent_le s link hold
    · exact hle
  · rcases link?_apply_cases hs with hs | ⟨owner, rfl, -, hfree, -⟩ <;>
      rcases link?_apply_cases ht with ht | ⟨owner', rfl, -, hfree', -⟩
    · exact hf.distinct s t link hs ht
    -- the name was free, so no old scope has the link of the new one
    · exact absurd hs ((f.child?_eq_none_iff _ _).1 hfree' s)
    · exact absurd ht ((f.child?_eq_none_iff _ _).1 hfree t)
    · rfl

theorem WellFormed.edit {f : ScopeForest} (hf : f.WellFormed) (es : List Edit) :
    (f.edit es).WellFormed := by
  induction es generalizing f with
  | nil => exact hf
  | cons e es ih => exact ih (hf.apply e)

theorem WellFormed.parent?_root {f : ScopeForest} (hf : f.WellFormed) :
    f.parent? ScopeForest.root = none := by
  obtain ⟨a, ha, hlink⟩ := hf.root
  simp only [parent?, link?, ha, Option.bind_some, hlink, Option.map_none]

theorem WellFormed.child?_iff {f : ScopeForest} (hf : f.WellFormed) (parent : ScopeId)
    (name : String) (s : ScopeId) :
    f.child? parent name = some s ↔ f.link? s = some ⟨parent, name⟩ := by
  rw [child?_eq_some_iff_link?]
  refine ⟨And.left, fun h => ⟨h, fun t hlt ht => ?_⟩⟩
  obtain rfl : s = t := hf.distinct s t _ h ht
  exact Nat.lt_irrefl _ hlt

theorem WellFormed.child?_of_size_le {f : ScopeForest} (hf : f.WellFormed) {parent : ScopeId}
    (h : f.size ≤ parent.index) (name : String) : f.child? parent name = none := by
  rw [child?_eq_none_iff]
  intro s hlink
  have hle : parent.index ≤ s.index := hf.parent_le s _ hlink
  have hlt : s.index < f.size := lt_size_of_link? hlink
  omega

theorem WellFormed.parent_lt_of_child? {f : ScopeForest} (hf : f.WellFormed) {parent s : ScopeId}
    {name : String} (h : f.child? parent name = some s) : parent.index < f.size := by
  refine Nat.lt_of_not_le fun hle => ?_
  cases (hf.child?_of_size_le hle name).symm.trans h

theorem exists_request_of_link? {f : ScopeForest} {es : List Edit} {s : ScopeId} {link : Link}
    (h : (f.edit es).link? s = some link) :
    f.link? s = some link ∨ ∃ r ∈ f.requests es,
      r.parent = link.parent ∧ r.name = link.name ∧ r.size = s.index ∧ r.answer = .ok s := by
  induction es generalizing f with
  | nil => exact .inl h
  | cons e es ih =>
    rcases ih h with hlink | ⟨r, hmem, hr⟩
    -- the rest of the run found the link there, so it is older or this edit made it
    · rcases link?_apply_cases hlink with hold | ⟨owner, rfl, -, -, hr⟩
      · exact .inl hold
      · refine .inr ⟨_, List.mem_append_left _ (Option.mem_toList.2 hr), rfl, rfl, rfl, rfl⟩
    · exact .inr ⟨r, List.mem_append_right _ hmem, hr⟩

theorem child?_of_createScope {f : ScopeForest} {parent s : ScopeId} {name : String}
    {owner : Option ScopeOwner} (h : (f.createScope parent name owner).1 = .ok s) :
    (f.createScope parent name owner).2.child? parent name = some s := by
  obtain ⟨t, hchild, heq⟩ | ⟨hchild, -, heq⟩ | ⟨-, -, heq⟩ := f.createScope_cases parent name owner <;>
    rw [heq] at h ⊢ <;> cases h
  · rw [child?_offerOwner, hchild]
  · rw [child?_push, hchild, if_pos rfl, Option.none_or]

theorem child?_of_mem_requests {f : ScopeForest} {es : List Edit} {r : Request} {s : ScopeId}
    (hmem : r ∈ f.requests es) (h : r.answer = .ok s) :
    (f.edit es).child? r.parent r.name = some s := by
  obtain ⟨before, after, rfl, -, hanswer⟩ := exists_point_of_mem_requests hmem
  rw [edit_append]
  exact (grows_edit _ after).child? (child?_of_createScope (hanswer.symm.trans h))

/-! ### Numbers -/

theorem index_le_size_of_mem_requests {f : ScopeForest} {es : List Edit} {r : Request} {s : ScopeId}
    (hmem : r ∈ f.requests es) (h : r.answer = .ok s) : s.index ≤ r.size := by
  obtain ⟨before, after, -, hsize, hanswer⟩ := exists_point_of_mem_requests hmem
  rw [hsize]
  rw [hanswer] at h
  obtain ⟨t, hchild, heq⟩ | ⟨-, -, heq⟩ | ⟨-, -, heq⟩ :=
    (f.edit before).createScope_cases r.parent r.name r.owner <;> rw [heq] at h <;> cases h
  · exact Nat.le_of_lt (lt_size_of_child? hchild)
  · exact Nat.le_refl _

theorem lt_size_createScope_iff (f : ScopeForest) (parent : ScopeId) (name : String)
    (owner : Option ScopeOwner) (s : ScopeId) :
    s.index < (f.createScope parent name owner).2.size ↔ s.index < f.size ∨
      Request.Adds ⟨parent, name, owner, f.size, (f.createScope parent name owner).1⟩ s := by
  rw [Request.Adds]
  obtain ⟨t, hchild, heq⟩ | ⟨-, -, heq⟩ | ⟨-, -, heq⟩ := f.createScope_cases parent name owner <;>
    rw [heq]
  · rw [size_modify]
    refine (or_iff_left_of_imp ?_).symm
    rintro ⟨-, hanswer | hanswer⟩ <;> cases hanswer
    exact lt_size_of_child? hchild
  · rw [size_push, Nat.lt_succ_iff_lt_or_eq]
    exact or_congr_right ⟨fun h => ⟨h.symm, .inl (by rw [← h])⟩, fun h => h.1.symm⟩
  · rw [size_push, Nat.lt_succ_iff_lt_or_eq]
    exact or_congr_right ⟨fun h => ⟨h.symm, .inr rfl⟩, fun h => h.1.symm⟩

theorem lt_size_apply_iff (f : ScopeForest) (e : Edit) (s : ScopeId) :
    s.index < (e.apply f).size ↔
      s.index < f.size ∨ ∃ r, e.request? f = some r ∧ r.Adds s := by
  cases hr : e.request? f with
  | none =>
    rw [(sameOutline_of_request?_eq_none hr).size]
    simp only [reduceCtorEq, false_and, exists_false, or_false]
  | some r =>
    obtain ⟨parent, name, owner, rfl, rfl⟩ := eq_createScope_of_request? hr
    rw [Edit.apply, lt_size_createScope_iff]
    simp only [Option.some.injEq, exists_eq_left']

theorem lt_size_edit_iff (f : ScopeForest) (es : List Edit) (s : ScopeId) :
    s.index < (f.edit es).size ↔ s.index < f.size ∨ ∃ r ∈ f.requests es, r.Adds s := by
  induction es generalizing f with
  | nil => simp only [edit, requests, List.not_mem_nil, false_and, exists_false, or_false]
  | cons e es ih =>
    rw [edit, ih, lt_size_apply_iff, or_assoc, ← exists_or]
    simp only [requests, List.mem_append, Option.mem_toList, or_and_right]

/-! ### Walks -/

def Reaches (f : ScopeForest) : ScopeId → ScopeId → Prop :=
  Relation.ReflTransGen (f.parent? · = some ·)

inductive Ends (f : ScopeForest) : ScopeId → Prop
  | top {s : ScopeId} (h : f.parent? s = none) : Ends f s
  | up {s p : ScopeId} (h : f.parent? s = some p) (hp : Ends f p) : Ends f s

/-- A search through a scope and its parents, one after the other. It has no bound and remembers
nothing on its way, so it has a result only if it comes to an end. -/
inductive Finds (f : ScopeForest) {α : Type} (look : ScopeId → Option α) :
    ScopeId → Option α → Prop
  | here {s : ScopeId} {a : α} (h : look s = some a) : Finds f look s (some a)
  | nowhere {s : ScopeId} (h : look s = none) (hp : f.parent? s = none) : Finds f look s none
  | above {s p : ScopeId} {result : Option α} (h : look s = none) (hp : f.parent? s = some p)
      (hr : Finds f look p result) : Finds f look s result

inductive Spells (f : ScopeForest) : ScopeId → List String → Prop
  | top {s : ScopeId} (h : f.parent? s = none) : Spells f s []
  | under {s p : ScopeId} {names : List String} (h : f.parent? s = some p) (hp : Spells f p names) :
      Spells f s (names ++ (f.name? s).toList)

structure WalksEnd (f : ScopeForest) (s : ScopeId) : Prop where
  symbol : ∀ name, f.Finds (fun t => (f.find? t name).map (t, ·)) s (f.findVisible? s name)
  scope : ∀ name, f.Finds (f.child? · name) s (f.childVisible? s name)
  path : f.Spells s (f.path s)

theorem Ends.parent?_ne {f : ScopeForest} {s : ScopeId} (h : f.Ends s) : f.parent? s ≠ some s := by
  induction h with
  | top h =>
    rw [h]
    nofun
  | up h _ ih =>
    intro hself
    obtain rfl := Option.some.inj (h.symm.trans hself)
    exact ih hself

theorem WellFormed.parent?_le {f : ScopeForest} (hf : f.WellFormed) {s p : ScopeId}
    (h : f.parent? s = some p) : p.index ≤ s.index := by
  obtain ⟨link, hlink, rfl⟩ := Option.map_eq_some_iff.1 h
  exact hf.parent_le s link hlink

theorem WellFormed.parent?_lt {f : ScopeForest} (hf : f.WellFormed) {s p : ScopeId}
    (h : f.parent? s = some p) (hne : f.parent? s ≠ some s) : p.index < s.index := by
  refine Nat.lt_of_le_of_ne (hf.parent?_le h) fun heq => hne ?_
  rw [h, show p = s from congrArg ScopeId.mk heq]

theorem WellFormed.ends {f : ScopeForest} (hf : f.WellFormed) (s : ScopeId)
    (h : ∀ t, f.Reaches s t → f.parent? t ≠ some t) : f.Ends s := by
  -- on the number of the scope, since a parent that is not the scope itself has a lower one
  induction hs : s.index using Nat.strongRecOn generalizing s with
  | ind n ih =>
    cases hp : f.parent? s with
    | none => exact .top hp
    | some p =>
      have hlt : p.index < n := hs ▸ hf.parent?_lt hp (h s Relation.ReflTransGen.refl)
      have hp' (t : ScopeId) (ht : f.Reaches p t) : f.parent? t ≠ some t :=
        h t (Relation.ReflTransGen.head hp ht)
      exact .up hp (ih p.index hlt p hp' rfl)

theorem Ends.parent?_ne_of_reaches {f : ScopeForest} {s t : ScopeId} (h : f.Ends s)
    (hreach : f.Reaches s t) : f.parent? t ≠ some t := by
  unfold Reaches at hreach
  induction hreach using Relation.ReflTransGen.head_induction_on with
  | refl => exact h.parent?_ne
  | head hp _ ih =>
    cases h with
    | top htop => cases htop.symm.trans hp
    | up hup hends =>
      cases hup.symm.trans hp
      exact ih hends

theorem chain_of_top {f : ScopeForest} {s : ScopeId} (h : f.parent? s = none) : f.chain s = [s] := by
  rw [chain, h]

theorem WellFormed.chain_of_parent? {f : ScopeForest} (hf : f.WellFormed) {s p : ScopeId}
    (h : f.parent? s = some p) (hne : f.parent? s ≠ some s) : f.chain s = s :: f.chain p := by
  rw [chain, h]
  simp only [if_pos (hf.parent?_lt h hne)]

theorem WellFormed.finds_chain {f : ScopeForest} (hf : f.WellFormed) {s : ScopeId} (hs : f.Ends s)
    {α : Type} (look : ScopeId → Option α) : f.Finds look s ((f.chain s).findSome? look) := by
  induction hs with
  | @top s hp =>
    rw [chain_of_top hp]
    cases hlook : look s with
    | none => simpa [hlook] using Finds.nowhere hlook hp
    | some a => simpa [hlook] using Finds.here hlook
  | @up s p hp hends ih =>
    rw [hf.chain_of_parent? hp (Ends.up hp hends).parent?_ne]
    cases hlook : look s with
    | none => simpa [hlook] using Finds.above hlook hp ih
    | some a => simpa [hlook] using Finds.here hlook

theorem path_of_top {f : ScopeForest} {s : ScopeId} (h : f.parent? s = none) : f.path s = [] := by
  have hname : f.name? s = none := Option.map_eq_none_iff.2 (Option.map_eq_none_iff.1 h)
  rw [path, chain_of_top h, List.reverse_singleton, List.filterMap_cons_none hname, List.filterMap_nil]

theorem WellFormed.path_of_parent? {f : ScopeForest} (hf : f.WellFormed) {s p : ScopeId}
    (h : f.parent? s = some p) (hne : f.parent? s ≠ some s) :
    f.path s = f.path p ++ (f.name? s).toList := by
  have hlast : [s].filterMap f.name? = (f.name? s).toList := by cases h : f.name? s <;> simp [h]
  rw [path, hf.chain_of_parent? h hne, List.reverse_cons, List.filterMap_append, hlast, path]

theorem WellFormed.spells_path {f : ScopeForest} (hf : f.WellFormed) {s : ScopeId} (hs : f.Ends s) :
    f.Spells s (f.path s) := by
  induction hs with
  | top hp =>
    rw [path_of_top hp]
    exact .top hp
  | up hp hends ih =>
    rw [hf.path_of_parent? hp (Ends.up hp hends).parent?_ne]
    exact .under hp ih

theorem Spells.ends {f : ScopeForest} {s : ScopeId} {names : List String} (h : f.Spells s names) :
    f.Ends s := by
  induction h with
  | top hp => exact .top hp
  | under hp _ ih => exact .up hp ih

theorem WellFormed.walksEnd_iff {f : ScopeForest} (hf : f.WellFormed) (s : ScopeId) :
    f.WalksEnd s ↔ ∀ t, f.Reaches s t → f.parent? t ≠ some t := by
  refine ⟨fun h t => h.path.ends.parent?_ne_of_reaches, fun h => ?_⟩
  have hs : f.Ends s := hf.ends s h
  exact ⟨fun _ => hf.finds_chain hs _, fun _ => hf.finds_chain hs _, hf.spells_path hs⟩

theorem WellFormed.child?_eq_some_iff_parent? {f : ScopeForest} (hf : f.WellFormed)
    (parent : ScopeId) (name : String) (s : ScopeId) :
    f.child? parent name = some s ↔ f.parent? s = some parent ∧ f.name? s = some name := by
  rw [hf.child?_iff, parent?, name?]
  rcases f.link? s with _ | ⟨p, n⟩ <;> simp

theorem exists_request_of_parent? {edits : List Edit} {s p : ScopeId}
    (h : (edit {} edits).parent? s = some p) :
    ∃ r ∈ requests {} edits, r.parent = p ∧ r.size = s.index ∧ r.answer = .ok s := by
  obtain ⟨link, hlink, rfl⟩ := Option.map_eq_some_iff.1 h
  rcases exists_request_of_link? hlink with hnew | ⟨r, hmem, hparent, -, hsize, hanswer⟩
  · rw [link?_new] at hnew
    cases hnew
  · exact ⟨r, hmem, hparent, hsize, hanswer⟩

/-- The scopes after any run. Their numbers are that of the root and those that stood next when a
scope was added for a request, and no request is given another. Lookup downwards and upwards tell
the same lineage, in which a scope has one parent and one name, and a parent one child of a name. A
parent is older than its child, or else is the child, which then was asked for below the number it
was given. Asked for below any later number a scope is added all the same, with its owner and
without a link. All walks end that do not meet a scope which is its own parent. -/
theorem lineage_of_edits (edits : List Edit) :
    let f := edit {} edits
    let asked := requests {} edits
    (∀ s, s.index < f.size ↔ s = root ∨ ∃ r ∈ asked, r.Adds s) ∧
    (∀ r ∈ asked, ∀ s, r.answer = .ok s → s.index ≤ r.size ∧ s.index < f.size) ∧
    f.parent? root = none ∧
    (∀ parent name s, f.child? parent name = some s ↔
      f.parent? s = some parent ∧ f.name? s = some name) ∧
    (∀ s t parent name, f.parent? s = some parent ∧ f.name? s = some name →
      f.parent? t = some parent ∧ f.name? t = some name → s = t) ∧
    (∀ s parent, f.parent? s = some parent → parent.index ≤ s.index ∧
      ∃ r ∈ asked, r.parent = parent ∧ r.size = s.index ∧ r.answer = .ok s) ∧
    (∀ parent name owner, f.size < parent.index →
      f.createScope parent name owner = (.error .noSuchParent, f.push { owner })) ∧
    (∀ s, f.WalksEnd s ↔ ∀ t, f.Reaches s t → f.parent? t ≠ some t) ∧
    ((∀ r ∈ asked, r.ParentExisted) → ∀ s, f.WalksEnd s) := by
  intro f asked
  have hf : f.WellFormed := wellFormed_new.edit edits
  have hdown := hf.child?_eq_some_iff_parent?
  refine ⟨fun s => ?_, fun r hr s hs => ?_, hf.parent?_root, hdown, fun s t parent name hs ht => ?_, fun s parent h => ?_,
    fun parent name owner h => ?_, hf.walksEnd_iff, fun hparents s => ?_⟩
  · have hroot : s.index < ({} : ScopeForest).size ↔ s = root :=
      Nat.lt_one_iff.trans ⟨congrArg ScopeId.mk, congrArg ScopeId.index⟩
    rw [lt_size_edit_iff, hroot]
  · exact ⟨index_le_size_of_mem_requests hr hs, lt_size_of_child? (child?_of_mem_requests hr hs)⟩
  · have hchild := (hdown parent name s).2 hs
    have hchild' := (hdown parent name t).2 ht
    exact Option.some.inj (hchild.symm.trans hchild')
  · exact ⟨hf.parent?_le h, exists_request_of_parent? h⟩
  · have hnone := hf.child?_of_size_le (Nat.le_of_lt h) name
    simp only [createScope, hnone, if_neg (Nat.not_le_of_lt h)]
  · rw [hf.walksEnd_iff]
    intro t _ hself
    obtain ⟨r, hmem, rfl, hsize, -⟩ := exists_request_of_parent? hself
    have hlt : r.parent.index < r.size := hparents r hmem
    omega

/-! Scopes `A` and `A::B`, then one that is asked for below a number too high, then one that is
asked for below its own. -/

namespace Tangle

def nested : List Edit := [.createScope root "A" none, .createScope ⟨1⟩ "B" none]

def tangled : List Edit := nested ++ [.createScope ⟨9⟩ "C" none, .createScope ⟨4⟩ "D" none]

end Tangle

open Tangle in
theorem lineage_of_edits_tangled :
    ((edit {} tangled).parent? ⟨4⟩ = some ⟨4⟩ ∧
      ∃ r ∈ requests {} tangled, r.parent = ⟨4⟩ ∧ r.size = 4 ∧ r.answer = .ok ⟨4⟩) ∧
    ((edit {} tangled).size < 9 ∧ (edit {} tangled).createScope ⟨9⟩ "C" none =
      (.error .noSuchParent, (edit {} tangled).push {})) ∧
    (∃ r ∈ requests {} tangled, r.Adds ⟨3⟩) ∧
    (edit {} tangled).WalksEnd ⟨2⟩ ∧ ¬ (edit {} tangled).WalksEnd ⟨4⟩ ∧
    (∀ r ∈ requests {} nested, r.ParentExisted) ∧ (edit {} nested).WalksEnd ⟨2⟩ := by
  have hself : (edit {} tangled).parent? ⟨4⟩ = some ⟨4⟩ := by with_unfolding_all rfl
  have hsize : (edit {} tangled).size < 9 := by decide +kernel
  have hthere : 3 < (edit {} tangled).size := by decide +kernel
  have hends : (edit {} tangled).Ends ⟨2⟩ := by
    refine .up (p := ⟨1⟩) ?_ (.up (p := root) ?_ (.top ?_)) <;> with_unfolding_all rfl
  have hparents : ∀ r ∈ requests {} nested, r.ParentExisted := by decide +kernel
  obtain ⟨hnumbers, -, -, -, -, hparent, horphan, hwalks, -⟩ := lineage_of_edits tangled
  obtain ⟨-, -, -, -, -, -, -, -, hwalks'⟩ := lineage_of_edits nested
  have hadded := ((hnumbers ⟨3⟩).1 hthere).resolve_left nofun
  refine ⟨⟨hself, (hparent _ _ hself).2⟩, ⟨hsize, horphan ⟨9⟩ "C" none hsize⟩, hadded,
    (hwalks ⟨2⟩).2 fun t => hends.parent?_ne_of_reaches, fun hends' => ?_, hparents,
    hwalks' hparents ⟨2⟩⟩
  exact (hwalks ⟨4⟩).1 hends' ⟨4⟩ Relation.ReflTransGen.refl hself

end ScopeForest

end ScriptSemantics
