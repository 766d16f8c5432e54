import ScriptSemantics.Types.Basic

/-! Builtin types as sources: which destinations take them without a constructor. -/

namespace ScriptSemantics

namespace Primitive

def accepts : Primitive → TypeSymbol → TypeSymbol → Bool
  | template, src, dest => src.same dest
  | string, _, dest => dest.ident.text == "string" || dest.ident.text == "String"
  | bool, _, dest => dest.primitive? == some bool
  | number, _, dest => dest.primitive? == some number
  | void, _, _ => false
  | any, _, _ => true
  | auto, _, _ => true

/-- `some` is final. `none` leaves the pair to the constructors of the destination, which a source
without a value never gets to. -/
def verdict (kind : Primitive) (src dest : TypeSymbol) : Option Bool :=
  if kind.accepts src dest then some true
  else if kind == void then some false
  else none

end Primitive

def TypeSymbol.isOpen (t : TypeSymbol) : Bool :=
  t.primitive? == some .any || t.primitive? == some .auto

end ScriptSemantics
