import ScriptSemantics.Types.Basic

/-! Template arguments as an ordered finite map keyed by the identity of the parameter, and the one
step of substitution they perform. A parameter bound to an absent type is still bound. -/

namespace ScriptSemantics

def Binding.insert (param : Token) (value : Option StaticType) : List Binding → List Binding
  | [] => [⟨param, value⟩]
  | binding :: rest =>
    if binding.param.same param then { binding with value } :: rest
    else binding :: Binding.insert param value rest

namespace TemplateArgs

def empty : TemplateArgs := ⟨[]⟩

def size (args : TemplateArgs) : Nat := args.bindings.length

def isEmpty (args : TemplateArgs) : Bool := args.bindings.isEmpty

def insert (args : TemplateArgs) (param : Token) (value : Option StaticType) : TemplateArgs :=
  ⟨Binding.insert param value args.bindings⟩

/-- `none` when the parameter is not bound, `some none` when it is bound to an absent type. -/
def get? (args : TemplateArgs) (param : Token) : Option (Option StaticType) :=
  (args.bindings.find? (·.param.same param)).map (·.value)

def contains (args : TemplateArgs) (param : Token) : Bool := (args.get? param).isSome

/-- Binds parameters by position: one without a value is bound to an absent type, and values past
the last parameter are dropped. -/
def bindAll (args : TemplateArgs) : List Token → List (Option StaticType) → TemplateArgs
  | [], _ => args
  | param :: params, values => (args.insert param values.head?.join).bindAll params values.tail

def ofLists (params : List Token) (values : List (Option StaticType)) : TemplateArgs :=
  empty.bindAll params values

@[simp] theorem get?_empty (param : Token) : empty.get? param = none := rfl

theorem get?_insert (args : TemplateArgs) (param : Token) (value : Option StaticType) (q : Token) :
    (args.insert param value).get? q = if param.id = q.id then some value else args.get? q := by
  rcases args with ⟨bindings⟩
  simp only [get?, insert]
  induction bindings with
  | nil => by_cases h : param.id = q.id <;> simp [Binding.insert, Token.same, h]
  | cons binding rest ih =>
    by_cases hb : binding.param.id = param.id
    · by_cases h : param.id = q.id <;> simp [Binding.insert, Token.same, hb, h]
    · by_cases hq : binding.param.id = q.id
      · have h : param.id ≠ q.id := fun h => hb (hq.trans h.symm)
        simp [Binding.insert, Token.same, hq, h, h.symm]
      · simpa [Binding.insert, Token.same, hb, hq] using ih

theorem contains_insert (args : TemplateArgs) (param : Token) (value : Option StaticType) (q : Token) :
    (args.insert param value).contains q = (args.contains q || param.same q) := by
  rw [contains, contains, get?_insert]
  by_cases h : param.id = q.id <;> simp [Token.same, h]

end TemplateArgs

namespace StaticType

def substitute (t : StaticType) : Option TemplateArgs → Option StaticType
  | none => some t
  -- what a parameter is bound to is not substituted again
  | some args => (args.get? t.ident).getD (some t)

def selfSubstitute (t : StaticType) : Option StaticType := t.substitute t.args

def instantiate (generic : StaticType) (values : List (Option StaticType)) : StaticType :=
  match generic.typeSymbol?.bind (·.templateParams) with
  | some params => { generic with args := some (.ofLists params values) }
  | none => generic

theorem instantiate_of_templateParams {generic : StaticType} {symbol : TypeSymbol}
    {params : List Token} (hsymbol : generic.typeSymbol? = some symbol)
    (hparams : symbol.templateParams = some params) (values : List (Option StaticType)) :
    generic.instantiate values = { generic with args := some (.ofLists params values) } := by
  simp only [instantiate, hsymbol, Option.bind_some, hparams]

theorem instantiate_of_not_generic {generic : StaticType}
    (h : ∀ symbol, generic.typeSymbol? = some symbol → symbol.templateParams = none)
    (values : List (Option StaticType)) : generic.instantiate values = generic := by
  have hnone : generic.typeSymbol?.bind (·.templateParams) = none := Option.bind_eq_none_iff.2 h
  simp only [instantiate, hnone]

end StaticType

def substituteType (args : Option TemplateArgs) (t : Option StaticType) : Option StaticType :=
  t.bind (·.substitute args)

def substituteTypes (args : Option TemplateArgs) (types : List (Option StaticType)) :
    List (Option StaticType) := types.map (substituteType args)

end ScriptSemantics
