import ScriptSemantics.Types.Basic

/-! Calls as they stand in the source text. -/

namespace ScriptSemantics

inductive CallSite where
  | function (ident : Token) (span : Span)
  | construction (type : Token) (span : Span)
deriving DecidableEq

namespace CallSite

def ident : CallSite → Token
  | function ident _ => ident
  | construction type _ => type

def span : CallSite → Span
  | function _ span => span
  | construction _ span => span

end CallSite

structure Argument where
  type : Option StaticType
  span : Span

/-- A call to be resolved. `templateArgs` are those of the value that the call is made on; they are
substituted into both arguments and parameters. -/
structure Call where
  site : CallSite
  args : List Argument
  templateArgs : Option TemplateArgs

end ScriptSemantics
