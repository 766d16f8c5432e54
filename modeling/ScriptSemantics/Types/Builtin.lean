import ScriptSemantics.Types.Basic

/-! The builtin types of a session: numeric types under configurable names, and five fixed ones.
Each set of builtin types has tokens of its own, so two sets never share a declaration. -/

namespace ScriptSemantics

structure MissingNumericAlias where
  name : String
deriving DecidableEq

def MissingNumericAlias.message (e : MissingNumericAlias) : String :=
  "internal error: numeric builtin '" ++ e.name ++ "' is not registered"

structure BuiltinTypes where
  numbers : List TypeSymbol
  string : TypeSymbol
  bool : TypeSymbol
  void : TypeSymbol
  any : TypeSymbol
  auto : TypeSymbol

def TypeSymbol.keepLast : List TypeSymbol → List TypeSymbol
  | [] => []
  | t :: ts =>
    if ts.any (·.ident.text == t.ident.text) then TypeSymbol.keepLast ts
    else t :: TypeSymbol.keepLast ts

def TypeSymbol.makeBuiltin (kind : Primitive) (name : String) : TokenM TypeSymbol := do
  return .ofPrimitive (← Token.builtin name) kind

namespace BuiltinTypes

def ofNumberNames (names : List String) : TokenM BuiltinTypes := do
  let numbers ← names.mapM (TypeSymbol.makeBuiltin .number)
  let string ← TypeSymbol.makeBuiltin .string "string"
  let bool ← TypeSymbol.makeBuiltin .bool "bool"
  let void ← TypeSymbol.makeBuiltin .void "void"
  let any ← TypeSymbol.makeBuiltin .any "?"
  let auto ← TypeSymbol.makeBuiltin .auto "auto"
  return { numbers := TypeSymbol.keepLast numbers, string, bool, void, any, auto }

def number? (b : BuiltinTypes) (name : String) : Option TypeSymbol :=
  b.numbers.find? (·.ident.text == name)

def numberCount (b : BuiltinTypes) : Nat := b.numbers.length

def get? (b : BuiltinTypes) : String → Option TypeSymbol
  -- the fixed names win over numeric ones
  | "string" => some b.string
  | "bool" => some b.bool
  | "void" => some b.void
  | "?" => some b.any
  | "auto" => some b.auto
  | name => b.number? name

/-- The builtin type a token names. Four fixed names go by their text. Any other token has to be
flagged as numeric, and then its type must exist. -/
def ofToken (b : BuiltinTypes) (token : Token) : Except MissingNumericAlias (Option StaticType) :=
  match token.text with
  | "bool" => .ok (some (.ofSymbol b.bool))
  | "void" => .ok (some (.ofSymbol b.void))
  | "?" => .ok (some (.ofSymbol b.any))
  | "auto" => .ok (some (.ofSymbol b.auto))
  | name =>
    if token.flags.numberReserved then
      match b.number? name with
      | some symbol => .ok (some (.ofSymbol symbol))
      | none => .error ⟨name⟩
    else .ok none

end BuiltinTypes

end ScriptSemantics
