import ScriptSemantics.Source.Decl
import ScriptSemantics.Scope.Id

/-! Static types: what analysis found an expression to be. A type that could not be worked out is
absent, written as `none` throughout. -/

namespace ScriptSemantics

/-- What a builtin type stands for. `template` is a template parameter, `any` accepts every value
and `auto` stands for a type still to be inferred. -/
inductive Primitive where
  | template
  | string
  | bool
  | number
  | void
  | any
  | auto
deriving DecidableEq

inductive TypeOrigin where
  | primitive (kind : Primitive)
  | enumDecl (decl : EnumDecl)
  | classDecl (decl : ClassDecl)
deriving DecidableEq

mutual

/-- A declared type. A type without a list of template parameters is not generic; one with an
empty list is. -/
structure TypeSymbol where
  ident : Token
  origin : TypeOrigin
  templateParams : Option (List Token)
  bases : List (Option StaticType)

/-- A declared function. `paramTypes` holds the types found for its parameters, and may be shorter
or longer than the list of parameters as declared. -/
structure FunctionSymbol where
  decl : FunctionDecl
  returnType : Option StaticType
  paramTypes : List (Option StaticType)

inductive TypeHead where
  | type (symbol : TypeSymbol)
  | handler (symbol : FunctionSymbol)

structure StaticType where
  head : TypeHead
  scope : Option ScopeId
  args : Option TemplateArgs

structure Binding where
  param : Token
  value : Option StaticType

structure TemplateArgs where
  bindings : List Binding

end

namespace TypeOrigin

def primitive? : TypeOrigin → Option Primitive
  | primitive kind => some kind
  | enumDecl _ | classDecl _ => none

def isClass : TypeOrigin → Bool
  | classDecl _ => true
  | primitive _ | enumDecl _ => false

end TypeOrigin

namespace TypeSymbol

def ofPrimitive (ident : Token) (kind : Primitive) : TypeSymbol := ⟨ident, .primitive kind, none, []⟩

def primitive? (t : TypeSymbol) : Option Primitive := t.origin.primitive?

def isClass (t : TypeSymbol) : Bool := t.origin.isClass

def same (a b : TypeSymbol) : Bool := a.ident.same b.ident

end TypeSymbol

def FunctionSymbol.ident (f : FunctionSymbol) : Token := f.decl.ident

def TypeHead.ident : TypeHead → Token
  | type symbol => symbol.ident
  | handler symbol => symbol.ident

namespace StaticType

def ofSymbol (symbol : TypeSymbol) : StaticType := ⟨.type symbol, none, none⟩

def ident (t : StaticType) : Token := t.head.ident

def typeSymbol? (t : StaticType) : Option TypeSymbol :=
  match t.head with
  | .type symbol => some symbol
  | .handler _ => none

def functionSymbol? (t : StaticType) : Option FunctionSymbol :=
  match t.head with
  | .type _ => none
  | .handler symbol => some symbol

def sameDeclaration (a b : StaticType) : Bool := a.ident.same b.ident

end StaticType

def TypeSymbol.hasBase (t base : TypeSymbol) : Bool :=
  -- a base of a base does not count
  t.bases.any fun
    | some ⟨.type symbol, _, _⟩ => symbol.same base
    | _ => false

end ScriptSemantics
