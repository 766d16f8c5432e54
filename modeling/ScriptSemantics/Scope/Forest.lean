import ScriptSemantics.Diagnostic
import ScriptSemantics.Scope.Symbols

/-! The scopes of a program. Each scope may be linked to a parent that knows it by name. The first
scope is the root; a scope opened below a parent that does not exist is left without a link, so
the scopes form a forest. -/

namespace ScriptSemantics

inductive ScopeOwner where
  | classDecl (decl : ClassDecl)
  | enumDecl (decl : EnumDecl)
  | functionDecl (decl : FunctionDecl)
  | block (span : Span)
deriving DecidableEq

def ScopeOwner.isClass : ScopeOwner → Bool
  | classDecl _ => true
  | enumDecl _ | functionDecl _ | block _ => false

structure Link where
  parent : ScopeId
  name : String
deriving DecidableEq

structure Reference where
  declared : Declaration
  token : Token

/-- What an editor may complete inside a span: the symbols of a scope, the members of a type, or
the contents of a namespace given by its path. -/
inductive Hint where
  | scope (span : Span) (target : ScopeId)
  | type (span : Span) (target : TypeSymbol)
  | path (span : Span) (target : List Token)

structure Scope where
  link : Option Link := none
  owner : Option ScopeOwner := none
  symbols : SymbolTable := {}
  references : List Reference := []
  hints : List Hint := []

def Scope.isChild (scope : Scope) (parent : ScopeId) (name : String) : Bool :=
  match scope.link with
  | some link => link.parent == parent && link.name == name
  | none => false

theorem Scope.isChild_iff (scope : Scope) (parent : ScopeId) (name : String) :
    scope.isChild parent name = true ↔ scope.link = some ⟨parent, name⟩ := by
  unfold Scope.isChild
  rcases scope.link with _ | ⟨p, n⟩
  · simp only [Bool.false_eq_true, reduceCtorEq]
  · simp only [Bool.and_eq_true, beq_iff_eq, Option.some.injEq, Link.mk.injEq]

def Scope.offerOwner (owner : Option ScopeOwner) (scope : Scope) : Scope :=
  { scope with owner := scope.owner <|> owner }

theorem Scope.link_offerOwner (owner : Option ScopeOwner) (scope : Scope) :
    (offerOwner owner scope).link = scope.link := rfl

theorem Scope.symbols_offerOwner (owner : Option ScopeOwner) (scope : Scope) :
    (offerOwner owner scope).symbols = scope.symbols := rfl

inductive ScopeError where
  | noSuchParent
deriving DecidableEq

def ScopeError.message : ScopeError → String
  | noSuchParent => "Graph::add_edge: node indices out of bounds"

inductive DeclareError where
  | noSuchScope
  | duplicate (d : Declaration)

/-- A scope that does not exist takes no declarations, and says nothing about it. -/
def DeclareError.diagnostic? : DeclareError → Option Diagnostic
  | noSuchScope => none
  | duplicate d => some (.duplicateSymbol d.name d.ident.span)

structure ScopeForest where
  scopes : Array Scope := #[{}]

namespace ScopeForest

def root : ScopeId := ⟨0⟩

def size (f : ScopeForest) : Nat := f.scopes.size

def ids (f : ScopeForest) : List ScopeId := (List.range f.size).map ScopeId.mk

def get? (f : ScopeForest) (s : ScopeId) : Option Scope := f.scopes[s.index]?

def link? (f : ScopeForest) (s : ScopeId) : Option Link := (f.get? s).bind (·.link)

def parent? (f : ScopeForest) (s : ScopeId) : Option ScopeId := (f.link? s).map (·.parent)

def name? (f : ScopeForest) (s : ScopeId) : Option String := (f.link? s).map (·.name)

def owner? (f : ScopeForest) (s : ScopeId) : Option ScopeOwner := (f.get? s).bind (·.owner)

def references (f : ScopeForest) (s : ScopeId) : List Reference :=
  ((f.get? s).map (·.references)).getD []

def hints (f : ScopeForest) (s : ScopeId) : List Hint := ((f.get? s).map (·.hints)).getD []

def find? (f : ScopeForest) (s : ScopeId) (name : String) : Option Entry :=
  (f.get? s).bind (·.symbols.find? name)

def child? (f : ScopeForest) (s : ScopeId) (name : String) : Option ScopeId :=
  (f.scopes.findIdx? (·.isChild s name)).map ScopeId.mk

def push (f : ScopeForest) (scope : Scope) : ScopeForest := ⟨f.scopes.push scope⟩

def modify (f : ScopeForest) (s : ScopeId) (g : Scope → Scope) : ScopeForest :=
  ⟨f.scopes.modify s.index g⟩

/-- Opens the child scope of a name, or returns the one there is. Below a parent that does not exist
the new scope is kept, but without a link, and the call fails. A scope may be its own parent: the
number it is about to get counts as existing. -/
def createScope (f : ScopeForest) (parent : ScopeId) (name : String) (owner : Option ScopeOwner) :
    Except ScopeError ScopeId × ScopeForest :=
  match f.child? parent name with
  | some s => (.ok s, f.modify s (Scope.offerOwner owner))
  | none =>
    if parent.index ≤ f.size then (.ok ⟨f.size⟩, f.push { link := some ⟨parent, name⟩, owner })
    else (.error .noSuchParent, f.push { owner })

def declare (f : ScopeForest) (s : ScopeId) (d : Declaration) : Except DeclareError ScopeForest :=
  match f.get? s with
  | none => .error .noSuchScope
  | some scope =>
    match scope.symbols.insert? d with
    | some symbols => .ok (f.modify s fun scope => { scope with symbols })
    | none => .error (.duplicate d)

def pushReference (f : ScopeForest) (s : ScopeId) (r : Reference) : ScopeForest :=
  f.modify s fun scope => { scope with references := scope.references ++ [r] }

def pushHint (f : ScopeForest) (s : ScopeId) (h : Hint) : ScopeForest :=
  f.modify s fun scope => { scope with hints := scope.hints ++ [h] }

@[simp] theorem size_push (f : ScopeForest) (scope : Scope) : (f.push scope).size = f.size + 1 := by
  simp only [size, push, Array.size_push]

@[simp] theorem size_modify (f : ScopeForest) (s : ScopeId) (g : Scope → Scope) :
    (f.modify s g).size = f.size := by
  simp only [size, modify, Array.size_modify]

theorem get?_eq_none_iff (f : ScopeForest) (s : ScopeId) : f.get? s = none ↔ f.size ≤ s.index :=
  Array.getElem?_eq_none_iff

theorem get?_eq_some_lt {f : ScopeForest} {s : ScopeId} {scope : Scope}
    (h : f.get? s = some scope) : s.index < f.size := (Array.getElem?_eq_some_iff.1 h).1

theorem get?_push (f : ScopeForest) (scope : Scope) (s : ScopeId) :
    (f.push scope).get? s = if s.index = f.size then some scope else f.get? s := by
  unfold get? push size
  rw [Array.getElem?_push]

theorem get?_modify (f : ScopeForest) (s t : ScopeId) (g : Scope → Scope) :
    (f.modify s g).get? t = (f.get? t).map (if s = t then g else id) := by
  rcases s with ⟨i⟩
  rcases t with ⟨j⟩
  simp only [get?, modify, Array.getElem?_modify, ScopeId.mk.injEq]
  split <;> simp

/-! What is read of the scopes stays the same everywhere if a new scope has nothing of it, or a
changed one keeps it. -/

section
variable {α : Type} (read : Option Scope → α)

theorem read_push (f : ScopeForest) {scope : Scope} (h : read (some scope) = read none)
    (s : ScopeId) : read ((f.push scope).get? s) = read (f.get? s) := by
  rw [get?_push]
  split
  · next hs =>
    have hnone : f.get? s = none := (get?_eq_none_iff f s).2 (Nat.le_of_eq hs.symm)
    rw [hnone, h]
  · rfl

theorem read_modify (f : ScopeForest) (s t : ScopeId) {g : Scope → Scope}
    (h : ∀ scope, read (some (g scope)) = read (some scope)) :
    read ((f.modify s g).get? t) = read (f.get? t) := by
  rw [get?_modify]
  cases f.get? t with
  | none => rfl
  | some scope =>
    by_cases hst : s = t
    · rw [if_pos hst, Option.map_some, h]
    · rw [if_neg hst, Option.map_id, id]

end

end ScopeForest

end ScriptSemantics
