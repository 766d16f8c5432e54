import ScriptSemantics.Source.Token

/-! Declarations as they stand in the source text. -/

namespace ScriptSemantics

structure ClassDecl where
  ident : Token
  span : Span
deriving DecidableEq

structure EnumDecl where
  ident : Token
  span : Span
deriving DecidableEq

structure Param where
  name : Option Token
  defaultValue : Option Span
deriving DecidableEq

def Param.hasDefault (p : Param) : Bool := p.defaultValue.isSome

def Param.displayName (p : Param) : String :=
  match p.name with
  | some token => token.text
  | none => "(unnamed)"

structure FunctionDecl where
  ident : Token
  params : List Param
  span : Span
deriving DecidableEq

end ScriptSemantics
