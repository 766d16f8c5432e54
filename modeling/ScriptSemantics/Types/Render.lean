import ScriptSemantics.Types.Basic

/-! Types as messages quote them: the declared name, then the template arguments in angle brackets
when the type carries any list of them, even an empty one. -/

namespace ScriptSemantics

mutual

def StaticType.render : StaticType → String
  | ⟨head, _, none⟩ => head.ident.text
  | ⟨head, _, some args⟩ => head.ident.text ++ "<" ++ ", ".intercalate args.render ++ ">"

def TemplateArgs.render : TemplateArgs → List String
  | ⟨bindings⟩ => Binding.renderAll bindings

def Binding.renderAll : List Binding → List String
  | [] => []
  | binding :: rest => binding.render :: Binding.renderAll rest

def Binding.render : Binding → String
  | ⟨_, none⟩ => "(unknown)"
  | ⟨_, some value⟩ => value.render

end

def renderType : Option StaticType → String
  | none => "(unknown)"
  | some t => t.render

theorem Binding.render_eq (binding : Binding) : binding.render = renderType binding.value := by
  rcases binding with ⟨_, _ | value⟩ <;> simp only [Binding.render, renderType]

theorem TemplateArgs.render_eq (args : TemplateArgs) :
    args.render = args.bindings.map fun binding => renderType binding.value := by
  have renderAll_eq (bindings : List Binding) :
      Binding.renderAll bindings = bindings.map fun binding => renderType binding.value := by
    induction bindings with
    | nil => rfl
    | cons binding rest ih => simp only [Binding.renderAll, Binding.render_eq, ih, List.map_cons]
  cases args
  simp only [TemplateArgs.render, renderAll_eq]

theorem StaticType.render_eq (t : StaticType) :
    t.render = match t.args with
      | none => t.ident.text
      | some args =>
        t.ident.text ++ "<" ++ ", ".intercalate (args.bindings.map (renderType ·.value)) ++ ">" := by
  rcases t with ⟨_, _, _ | args⟩
  · simp only [StaticType.render, StaticType.ident]
  · simp only [StaticType.render, StaticType.ident, TemplateArgs.render_eq]

end ScriptSemantics
