import ScriptSemantics.Proofs.Lineage

/-! Asking for scopes again. A parent and a name stand for one scope, from the first request on that
finds the parent there. Later requests give the same scope, and one of them may give it its owner. -/

namespace ScriptSemantics.ScopeForest

def Request.isFor (parent : ScopeId) (name : String) (r : Request) : Bool :=
  decide r.ParentExisted && r.parent == parent && r.name == name

def Request.gets (parent : ScopeId) (name : String) (r : Request) : Bool :=
  r.answer.isOk && r.parent == parent && r.name == name

def firstOwner? (asked : List Request) (parent : ScopeId) (name : String) : Option ScopeOwner :=
  (asked.filter (·.gets parent name)).findSome? (·.owner)

def childOwner? (f : ScopeForest) (parent : ScopeId) (name : String) : Option ScopeOwner :=
  (f.child? parent name).bind f.owner?

theorem SameOutline.childOwner? {f g : ScopeForest} (h : f.SameOutline g) (parent : ScopeId)
    (name : String) : g.childOwner? parent name = f.childOwner? parent name := by
  rw [ScopeForest.childOwner?, ScopeForest.childOwner?, child?_congr h.link?, funext h.owner?]

theorem childOwner?_push_of_ne (f : ScopeForest) {a : Scope} {parent : ScopeId} {name : String}
    (h : a.link ≠ some ⟨parent, name⟩) :
    (f.push a).childOwner? parent name = f.childOwner? parent name := by
  rw [childOwner?, childOwner?, child?_push, if_neg h, Option.or_none]
  cases hchild : f.child? parent name with
  | none => rfl
  | some s =>
    have hlink := ((child?_eq_some_iff_link? f parent name s).1 hchild).1
    have hne : s.index ≠ f.size := Nat.ne_of_lt (lt_size_of_link? hlink)
    rw [Option.bind_some, Option.bind_some, owner?_push, if_neg hne]

theorem childOwner?_push_of_free (f : ScopeForest) {a : Scope} {parent : ScopeId} {name : String}
    (hfree : f.child? parent name = none) (h : a.link = some ⟨parent, name⟩) :
    (f.push a).childOwner? parent name = a.owner := by
  rw [childOwner?, child?_push, hfree, if_pos h, Option.none_or, Option.bind_some, owner?_push,
    if_pos rfl]

theorem childOwner?_offerOwner {f : ScopeForest} {s parent : ScopeId} {name : String}
    (h : f.child? parent name = some s) (owner : Option ScopeOwner) :
    (f.modify s (Scope.offerOwner owner)).childOwner? parent name =
      (f.childOwner? parent name).or owner := by
  obtain ⟨a, ha, -⟩ := ((child?_eq_some_iff f parent name s).1 h).1
  rw [childOwner?, childOwner?, child?_offerOwner, h, Option.bind_some, Option.bind_some, owner?,
    owner?, get?_modify, ha]
  simp [Scope.offerOwner]

theorem childOwner?_offerOwner_of_ne {f : ScopeForest} {s parent : ScopeId} {name : String}
    (h : f.child? parent name ≠ some s) (owner : Option ScopeOwner) :
    (f.modify s (Scope.offerOwner owner)).childOwner? parent name = f.childOwner? parent name := by
  rw [childOwner?, childOwner?, child?_offerOwner]
  cases hchild : f.child? parent name with
  | none => rfl
  | some t =>
    have hne : s ≠ t := fun hst => h (hst ▸ hchild)
    simp [owner?, get?_modify, hne]

theorem firstOwner?_singleton (r : Request) (parent : ScopeId) (name : String) :
    firstOwner? [r] parent name =
      if r.answer.isOk = true ∧ r.parent = parent ∧ r.name = name then r.owner else none := by
  by_cases h : r.answer.isOk = true ∧ r.parent = parent ∧ r.name = name
  · obtain ⟨hok, rfl, rfl⟩ := h
    cases howner : r.owner <;> simp [firstOwner?, Request.gets, hok, howner]
  · have hnot : r.gets parent name = false := by
      simpa [Request.gets, and_assoc] using h
    rw [if_neg h, firstOwner?, List.filter_cons_of_neg (by simp [hnot])]
    rfl

theorem childOwner?_createScope (f : ScopeForest) (parent : ScopeId) (name : String)
    (owner : Option ScopeOwner) (parent' : ScopeId) (name' : String) :
    (f.createScope parent name owner).2.childOwner? parent' name' =
      (f.childOwner? parent' name').or
        (if (f.createScope parent name owner).1.isOk = true ∧ parent = parent' ∧ name = name' then
          owner else none) := by
  by_cases hkey : parent = parent' ∧ name = name'
  · obtain ⟨rfl, rfl⟩ := hkey
    obtain ⟨s, hchild, heq⟩ | ⟨hfree, -, heq⟩ | ⟨-, -, heq⟩ := f.createScope_cases parent name owner
    · rw [heq, if_pos ⟨rfl, rfl, rfl⟩, childOwner?_offerOwner hchild]
    · have hnone : f.childOwner? parent name = none := by rw [childOwner?, hfree, Option.bind_none]
      rw [heq, if_pos ⟨rfl, rfl, rfl⟩, childOwner?_push_of_free f hfree rfl, hnone, Option.none_or]
    · rw [heq, if_neg fun h => Bool.false_ne_true h.1, Option.or_none, childOwner?_push_of_ne]
      nofun
  · rw [if_neg fun h => hkey h.2, Option.or_none]
    obtain ⟨s, hchild, heq⟩ | ⟨-, -, heq⟩ | ⟨-, -, heq⟩ := f.createScope_cases parent name owner
    · have hother : f.child? parent' name' ≠ some s := fun h => hkey (child?_inj hchild h)
      rw [heq, childOwner?_offerOwner_of_ne hother]
    · rw [heq, childOwner?_push_of_ne]
      simpa using hkey
    · rw [heq, childOwner?_push_of_ne]
      nofun

theorem childOwner?_apply (f : ScopeForest) (e : Edit) (parent : ScopeId) (name : String) :
    (e.apply f).childOwner? parent name =
      (f.childOwner? parent name).or (firstOwner? (e.request? f).toList parent name) := by
  cases hr : e.request? f with
  | none =>
    rw [(sameOutline_of_request?_eq_none hr).childOwner?]
    exact Option.or_none.symm
  | some r =>
    obtain ⟨parent', name', owner, rfl, rfl⟩ := eq_createScope_of_request? hr
    rw [Option.toList_some, firstOwner?_singleton]
    exact f.childOwner?_createScope parent' name' owner parent name

theorem childOwner?_edit (f : ScopeForest) (es : List Edit) (parent : ScopeId) (name : String) :
    (f.edit es).childOwner? parent name =
      (f.childOwner? parent name).or (firstOwner? (f.requests es) parent name) := by
  induction es generalizing f with
  | nil => exact Option.or_none.symm
  | cons e es ih =>
    -- what the first edit offers comes before all that the others do
    rw [edit, ih, childOwner?_apply, Option.or_assoc, requests, firstOwner?, firstOwner?,
      ← List.findSome?_append, ← List.filter_append]
    rfl

theorem childOwner?_edit_new (es : List Edit) (parent : ScopeId) (name : String) :
    (edit {} es).childOwner? parent name = firstOwner? (requests {} es) parent name := by
  have hnew : childOwner? {} parent name = none := by
    rw [childOwner?, (child?_eq_none_iff {} _ _).2 (by simp [link?_new]), Option.bind_none]
  rw [childOwner?_edit, hnew, Option.none_or]

theorem exists_answer {f : ScopeForest} {es : List Edit} {r : Request} (hmem : r ∈ f.requests es)
    (h : r.ParentExisted) : ∃ s, r.answer = .ok s := by
  obtain ⟨before, after, -, hsize, hanswer⟩ := exists_point_of_mem_requests hmem
  rw [Request.ParentExisted, hsize] at h
  rw [hanswer]
  obtain ⟨s, -, heq⟩ | ⟨-, -, heq⟩ | ⟨-, hlt, -⟩ :=
    (f.edit before).createScope_cases r.parent r.name r.owner
  · exact ⟨s, by rw [heq]⟩
  · exact ⟨⟨(f.edit before).size⟩, by rw [heq]⟩
  · exact absurd h (Nat.lt_asymm hlt)

theorem get?_createScope (f : ScopeForest) (parent : ScopeId) (name : String)
    (owner : Option ScopeOwner) {t : ScopeId} {a : Scope} (ht : f.get? t = some a) :
    ∃ o, (f.createScope parent name owner).2.get? t = some { a with owner := o } ∧
      ((f.createScope parent name owner).1 ≠ .ok t → o = a.owner) := by
  have hne : t.index ≠ f.size := Nat.ne_of_lt (get?_eq_some_lt ht)
  obtain ⟨s, -, heq⟩ | ⟨-, -, heq⟩ | ⟨-, -, heq⟩ := f.createScope_cases parent name owner <;> rw [heq]
  · rw [get?_modify, ht]
    by_cases hst : s = t
    · subst hst
      exact ⟨a.owner <|> owner, by simp [Scope.offerOwner], fun h => absurd rfl h⟩
    · exact ⟨a.owner, by simp [hst], fun _ => rfl⟩
  · exact ⟨a.owner, by rw [get?_push, if_neg hne, ht], fun _ => rfl⟩
  · exact ⟨a.owner, by rw [get?_push, if_neg hne, ht], fun _ => rfl⟩

theorem answer_eq_iff {edits : List Edit} {r r' : Request} {s : ScopeId}
    (hmem : r ∈ requests {} edits) (hs : r.answer = .ok s) (hmem' : r' ∈ requests {} edits)
    (hexisted' : r'.ParentExisted) :
    r'.answer = .ok s ↔ r'.parent = r.parent ∧ r'.name = r.name := by
  have hchild := child?_of_mem_requests hmem hs
  constructor
  · intro hs'
    exact child?_inj (child?_of_mem_requests hmem' hs') hchild
  · rintro ⟨hparent, hname⟩
    obtain ⟨s', hs'⟩ := exists_answer hmem' hexisted'
    have hchild' := child?_of_mem_requests hmem' hs'
    rw [hparent, hname, hchild] at hchild'
    rw [hs', Option.some.inj hchild']

theorem isOk_answer_iff {f : ScopeForest} (hf : f.WellFormed) {es : List Edit} {r : Request}
    (hmem : r ∈ f.requests es) (hne : r.parent.index ≠ r.size) :
    r.answer.isOk = true ↔ r.ParentExisted := by
  obtain ⟨before, after, -, hsize, hanswer⟩ := exists_point_of_mem_requests hmem
  rw [hsize] at hne
  rw [Request.ParentExisted, hsize, hanswer]
  obtain ⟨s, hchild, heq⟩ | ⟨-, hle, heq⟩ | ⟨-, hlt, heq⟩ :=
    (f.edit before).createScope_cases r.parent r.name r.owner <;> rw [heq]
  · exact iff_of_true rfl ((hf.edit before).parent_lt_of_child? hchild)
  · exact iff_of_true rfl (Nat.lt_of_le_of_ne hle hne)
  · exact iff_of_false Bool.false_ne_true (Nat.lt_asymm hlt)

theorem owner?_of_answer {edits : List Edit}
    (hown : ∀ r ∈ requests {} edits, r.parent.index ≠ r.size) {r : Request} {s : ScopeId}
    (hmem : r ∈ requests {} edits) (hs : r.answer = .ok s) :
    (edit {} edits).owner? s =
      ((requests {} edits).filter (·.isFor r.parent r.name)).findSome? (·.owner) := by
  have hasked : (requests {} edits).filter (·.isFor r.parent r.name) =
      (requests {} edits).filter (·.gets r.parent r.name) := by
    refine List.filter_congr fun r' hr' => ?_
    have hok := isOk_answer_iff wellFormed_new hr' (hown r' hr')
    rw [Request.isFor, Request.gets, Bool.eq_iff_iff.2 (hok.trans decide_eq_true_iff.symm)]
  have howner := childOwner?_edit_new edits r.parent r.name
  rwa [childOwner?, child?_of_mem_requests hmem hs, Option.bind_some, firstOwner?, ← hasked] at howner

/-- Requests that find their parent are answered, and by the same scope exactly if they are for the
same name below the same parent. Its owner is the first one they bring along, however late. No
request touches anything else. -/
theorem requests_get_or_create (edits : List Edit)
    (hown : ∀ r ∈ requests {} edits, r.parent.index ≠ r.size) :
    let f := edit {} edits
    let asked := requests {} edits
    (∀ r ∈ asked, r.ParentExisted → ∃ s, r.answer = .ok s ∧
      (∀ r' ∈ asked, r'.ParentExisted →
        (r'.answer = .ok s ↔ r'.parent = r.parent ∧ r'.name = r.name)) ∧
      f.owner? s = (asked.filter (·.isFor r.parent r.name)).findSome? (·.owner)) ∧
    ∀ parent name owner t a, f.get? t = some a → ∃ o,
      (f.createScope parent name owner).2.get? t = some { a with owner := o } ∧
      ((f.createScope parent name owner).1 ≠ .ok t → o = a.owner) := by
  intro f asked
  refine ⟨fun r hmem hexisted => ?_, fun parent name owner t a ht => f.get?_createScope _ _ _ ht⟩
  obtain ⟨s, hs⟩ := exists_answer hmem hexisted
  exact ⟨s, hs, fun r' => answer_eq_iff hmem hs, owner?_of_answer hown hmem hs⟩

/-! A scope is asked for four times: without an owner, then below a parent that is not there, then
twice with an owner. -/

namespace Reopening

def block (line : UInt32) : ScopeOwner := .block { line }

def reopened : List Edit :=
  [.createScope root "A" none, .createScope ⟨9⟩ "A" (some (block 1)),
    .createScope root "A" (some (block 2)), .createScope root "A" (some (block 3))]

def first : Request := ⟨root, "A", none, 1, .ok ⟨1⟩⟩

def later : List Request :=
  [⟨⟨9⟩, "A", some (block 1), 2, .error .noSuchParent⟩, ⟨root, "A", some (block 2), 3, .ok ⟨1⟩⟩,
    ⟨root, "A", some (block 3), 3, .ok ⟨1⟩⟩]

end Reopening

open Reopening in
theorem requests_get_or_create_reopened :
    requests {} reopened = first :: later ∧
    (∀ r ∈ requests {} reopened, r.parent.index ≠ r.size) ∧ first.ParentExisted ∧
    (edit {} reopened).owner? ⟨1⟩ = some (block 2) := by
  have hasked : requests {} reopened = first :: later := by with_unfolding_all rfl
  have hown : ∀ r ∈ requests {} reopened, r.parent.index ≠ r.size := by decide +kernel
  have hexisted : first.ParentExisted := by decide
  have hmem : first ∈ requests {} reopened := hasked ▸ List.mem_cons_self
  obtain ⟨s, hs, -, howner⟩ := (requests_get_or_create reopened hown).1 first hmem hexisted
  cases hs
  rw [hasked] at howner
  exact ⟨hasked, hown, hexisted, howner⟩

end ScriptSemantics.ScopeForest
