import ScriptSemantics.Proofs.Declarations
import ScriptSemantics.Proofs.Requests

/-! Whose constructors are taken. The body of a class is found by its name below the scope that
declares it, and has to be owned by a class. Which class that is depends on who asked for the body
first, so classes of one name in one scope share their constructors. A class has its own as long as
no body is opened for a class that its name does not stand for. -/

namespace ScriptSemantics

theorem ScopeOwner.exists_classDecl {owner : ScopeOwner} (h : owner.isClass = true) :
    ∃ decl, owner = .classDecl decl := by
  cases owner with
  | classDecl decl => exact ⟨decl, rfl⟩
  | enumDecl decl => cases h
  | functionDecl decl => cases h
  | block span => cases h

namespace ScopeForest

theorem find?_type_apply {f : ScopeForest} {s : ScopeId} {name : String} {symbol : TypeSymbol}
    (h : f.find? s name = some (.type symbol)) (e : Edit) :
    (e.apply f).find? s name = some (.type symbol) := by
  cases e with
  | createScope parent key owner => rw [Edit.apply, find?_createScope, h]
  | declare scope d =>
    rw [Edit.apply]
    split
    · next g hg =>
      rw [find?_of_declare hg]
      split
      · next hhere =>
        obtain ⟨rfl, rfl⟩ := hhere
        -- a name that stands for a type takes no further declaration
        obtain ⟨a, symbols, ha, hins, -⟩ := eq_modify_of_declare hg
        rw [find?, ha, Option.bind_some] at h
        have hrefused := SymbolTable.insert?_eq_none_iff.2 ⟨_, h, rfl⟩
        cases hins.symm.trans hrefused
      · exact h
    · exact h
  | pushReference scope r =>
    rw [Edit.apply, pushReference, find?_modify, h]
    exact fun _ => rfl
  | pushHint scope hint =>
    rw [Edit.apply, pushHint, find?_modify, h]
    exact fun _ => rfl

theorem find?_type_edit {f : ScopeForest} {s : ScopeId} {name : String} {symbol : TypeSymbol}
    (h : f.find? s name = some (.type symbol)) (es : List Edit) :
    (f.edit es).find? s name = some (.type symbol) := by
  induction es generalizing f with
  | nil => exact h
  | cons e es ih => exact ih (find?_type_apply h e)

def Edit.NamesOwner (f : ScopeForest) (e : Edit) : Prop :=
  ∀ parent name decl, e = .createScope parent name (some (.classDecl decl)) →
    ∃ symbol, f.find? parent name = some (.type symbol) ∧ symbol.ident.id = decl.ident.id

/-- A body is asked for only after the class was declared where the body hangs. -/
def BodiesFollow (f : ScopeForest) : List Edit → Prop
  | [] => True
  | e :: es => e.NamesOwner f ∧ (e.apply f).BodiesFollow es

theorem BodiesFollow.find?_of_request {f : ScopeForest} {es : List Edit} (h : f.BodiesFollow es)
    {r : Request} (hr : r ∈ f.requests es) {decl : ClassDecl}
    (howner : r.owner = some (.classDecl decl)) :
    ∃ symbol, (f.edit es).find? r.parent r.name = some (.type symbol) ∧
      symbol.ident.id = decl.ident.id := by
  induction es generalizing f with
  | nil => cases hr
  | cons e es ih =>
    obtain ⟨hnames, hrest⟩ := h
    rcases List.mem_append.1 hr with hhead | htail
    · obtain ⟨parent, name, owner, rfl, rfl⟩ := eq_createScope_of_request? (Option.mem_toList.1 hhead)
      subst howner
      obtain ⟨symbol, hsymbol, hid⟩ := hnames parent name decl rfl
      exact ⟨symbol, find?_type_edit hsymbol (_ :: es), hid⟩
    · exact ih hrest htail

theorem owner?_of_child? {edits : List Edit} {parent s : ScopeId} {name : String}
    (h : (edit {} edits).child? parent name = some s) :
    (edit {} edits).owner? s = firstOwner? (requests {} edits) parent name := by
  rw [← childOwner?_edit_new, childOwner?, h, Option.bind_some]

theorem exists_request_of_firstOwner? {asked : List Request} {parent : ScopeId} {name : String}
    {owner : ScopeOwner} (h : firstOwner? asked parent name = some owner) :
    ∃ r ∈ asked, r.gets parent name = true ∧ r.owner = some owner := by
  obtain ⟨r, hr, howner⟩ := List.exists_of_findSome?_eq_some h
  obtain ⟨hmem, hgets⟩ := List.mem_filter.1 hr
  exact ⟨r, hmem, hgets, howner⟩

/-- A class is built from another type by a constructor in the scope that its name leads to. The owner
of that scope is a class, and the first owner that it was given. It is the class in question if no
other class was given. It is the class that the name stands for if classes are declared before their
bodies are opened. -/
theorem constructors_of_first_owner (edits : List Edit) (src cls : TypeSymbol)
    (declaredIn : Option ScopeId) (h : (edit {} edits).constructible src declaredIn cls = true) :
    let f := edit {} edits
    let name := cls.ident.text
    ∃ scope body ctor owner, declaredIn = some scope ∧ f.child? scope name = some body ∧
      f.Constructs src declaredIn cls body ctor ∧ f.owner? body = some (.classDecl owner) ∧
      firstOwner? (requests {} edits) scope name = some (.classDecl owner) ∧
      ((∀ r ∈ requests {} edits, r.gets scope name = true → ∀ other,
        r.owner = some (.classDecl other) → other.ident.id = cls.ident.id) →
        owner.ident.id = cls.ident.id) ∧
      (BodiesFollow {} edits → ∃ symbol, f.find? scope name = some (.type symbol) ∧
        symbol.ident.id = owner.ident.id) := by
  intro f name
  obtain ⟨body, ctor, hctor⟩ := (f.constructible_iff src declaredIn cls).1 h
  obtain ⟨scope, hscope, hchild⟩ := hctor.child
  obtain ⟨o, howner, hclass⟩ := hctor.owner
  obtain ⟨owner, rfl⟩ := ScopeOwner.exists_classDecl hclass
  have hfirst : firstOwner? (requests {} edits) scope name = some (.classDecl owner) := by
    rw [← owner?_of_child? hchild, howner]
  obtain ⟨r, hr, hgets, hgiven⟩ := exists_request_of_firstOwner? hfirst
  refine ⟨scope, body, ctor, owner, hscope, hchild, hctor, howner, hfirst, fun honly => ?_,
    fun hfollow => ?_⟩
  · exact honly r hr hgets owner hgiven
  · obtain ⟨-, hparent, hname⟩ : r.answer.isOk = true ∧ r.parent = scope ∧ r.name = name := by
      simpa [Request.gets, and_assoc] using hgets
    rw [← hparent, ← hname]
    exact hfollow.find?_of_request hr hgiven

/-! Two classes `Box` in one scope, the second of which is refused. Both open a body, and it is the
same. -/

namespace Rivals

open Boxes (token unary number boxDecl boxClass)

def rivalDecl : ClassDecl := ⟨token 9 "Box", {}⟩

def rival : TypeSymbol := ⟨token 9 "Box", .classDecl rivalDecl, none, []⟩

def orderly : List Edit :=
  [.createScope root "Box" none, .declare root (.type boxClass),
    .createScope root "Box" (some (.classDecl boxDecl)),
    .declare ⟨1⟩ (.function (unary (token 5 "Box") number))]

def contested : List Edit :=
  orderly ++ [.declare root (.type rival), .createScope root "Box" (some (.classDecl rivalDecl))]

theorem bodiesFollow_orderly : BodiesFollow {} orderly := by
  refine ⟨fun _ _ _ he => ?_, nofun, fun _ _ _ he => ?_, nofun, trivial⟩
  · cases he
  · cases he
    exact ⟨boxClass, by with_unfolding_all rfl, rfl⟩

end Rivals

open Rivals in
open Boxes (int boxDecl boxClass) in
theorem constructors_of_first_owner_orderly :
    (edit {} orderly).constructible int (some root) boxClass = true ∧ BodiesFollow {} orderly ∧
    ∃ body owner symbol, (edit {} orderly).child? root "Box" = some body ∧
      (edit {} orderly).owner? body = some (.classDecl owner) ∧
      owner.ident.id = boxClass.ident.id ∧
      (edit {} orderly).find? root "Box" = some (.type symbol) ∧
      symbol.ident.id = owner.ident.id := by
  have h : (edit {} orderly).constructible int (some root) boxClass = true := by
    with_unfolding_all rfl
  have hasked : requests {} orderly =
      [⟨root, "Box", none, 1, .ok ⟨1⟩⟩,
        ⟨root, "Box", some (.classDecl boxDecl), 2, .ok ⟨1⟩⟩] := by
    with_unfolding_all rfl
  obtain ⟨scope, body, ctor, owner, hscope, hchild, -, howner, -, hown, hfollow⟩ :=
    constructors_of_first_owner orderly int boxClass (some root) h
  cases hscope
  have honly : owner.ident.id = boxClass.ident.id := by
    refine hown fun r hr _ other hother => ?_
    rw [hasked, List.mem_cons, List.mem_singleton] at hr
    rcases hr with rfl | rfl
    · cases hother
    · cases hother
      rfl
  obtain ⟨symbol, hsymbol, hid⟩ := hfollow bodiesFollow_orderly
  exact ⟨h, bodiesFollow_orderly, body, owner, symbol, hchild, howner, honly, hsymbol, hid⟩

open Rivals in
open Boxes (int boxDecl) in
/-- The body that a class takes constructors from may be owned by another class of its name. -/
theorem constructible_in_body_of_rival :
    rival.origin = .classDecl rivalDecl ∧ rivalDecl.ident = rival.ident ∧
    (edit {} contested).constructible int (some root) rival = true ∧
    (edit {} contested).constructorScope? (some root) rival = some ⟨1⟩ ∧
    ¬ ∃ owner, (edit {} contested).owner? ⟨1⟩ = some (.classDecl owner) ∧
      owner.ident.id = rival.ident.id := by
  refine ⟨rfl, rfl, by with_unfolding_all rfl, by with_unfolding_all rfl, ?_⟩
  rintro ⟨owner, howner, hid⟩
  have hbox : (edit {} contested).owner? ⟨1⟩ = some (.classDecl boxDecl) := by
    with_unfolding_all rfl
  cases howner.symm.trans hbox
  cases hid

end ScopeForest

end ScriptSemantics
