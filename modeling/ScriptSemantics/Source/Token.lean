import ScriptSemantics.Source.Span

/-! Tokens. A token is told apart by the identity it drew when it was made, never by its text, so
two declarations spelled alike stay distinct. -/

namespace ScriptSemantics

structure TokenId where
  index : UInt32
deriving DecidableEq

inductive TokenKind where
  | reserved
  | identifier
  | number
  | string
  | comment
deriving DecidableEq

structure TokenFlags where
  numberReserved : Bool := false
  builtin : Bool := false
deriving DecidableEq

def TokenFlags.bits (flags : TokenFlags) : Nat := flags.numberReserved.toNat + 2 * flags.builtin.toNat

structure Token where
  id : TokenId
  text : String
  kind : TokenKind
  span : Span
  flags : TokenFlags
deriving DecidableEq

/-- The identity of the next token; it wraps around after the last word. -/
structure TokenSupply where
  next : TokenId := ⟨1⟩

abbrev TokenM := StateM TokenSupply

def TokenId.fresh : TokenM TokenId :=
  modifyGet fun supply => (supply.next, ⟨⟨supply.next.index + 1⟩⟩)

def numberTypeNames : List String :=
  ["int", "int8", "int16", "int32", "int64", "uint", "uint8", "uint16", "uint32", "uint64",
    "float", "double"]

namespace Token

def same (a b : Token) : Bool := a.id == b.id

def make (text : String) (kind : TokenKind) (span : Span) (flags : TokenFlags) : TokenM Token := do
  return ⟨← TokenId.fresh, text, kind, span, flags⟩

def identifier (text : String) (span : Span) : TokenM Token := make text .identifier span {}

def reserved (text : String) (span : Span) : TokenM Token :=
  make text .reserved span { numberReserved := numberTypeNames.contains text }

def builtin (text : String) : TokenM Token :=
  make text .reserved {} { numberReserved := numberTypeNames.contains text, builtin := true }

@[simp] theorem same_iff (a b : Token) : a.same b = true ↔ a.id = b.id := by simp [same]

end Token

end ScriptSemantics
