import ScriptSemantics.Assignable.Construction
import ScriptSemantics.Assignable.Table
import ScriptSemantics.Types.Render
import ScriptSemantics.Types.TemplateArgs

/-! Whether a value of one type may stand where another type is expected. An absent type fits
everything, since the fault behind it was reported before. -/

namespace ScriptSemantics.ScopeForest

def symbolAssignable (f : ScopeForest) (src : TypeSymbol) (declaredIn : Option ScopeId)
    (dest : TypeSymbol) : Bool :=
  dest.isOpen ||
    match src.primitive? with
    | some kind => (kind.verdict src dest).getD (f.constructible src declaredIn dest)
    | none => src.same dest || src.hasBase dest || f.constructible src declaredIn dest

/-- Compares types through so many levels of handler signatures; below the last level everything
fits. Each side is substituted once by its own template arguments. Handlers fit by signature, from
source to destination in every place, and never fit a declared type. -/
def assignableWithin (f : ScopeForest) : Nat → Option StaticType → Option StaticType → Bool
  | _, none, _ => true
  | _, _, none => true
  | 0, some _, some _ => true
  | levels + 1, some src, some dest =>
    match src.selfSubstitute, dest.selfSubstitute with
    | none, _ => true
    | _, none => true
    | some ⟨.handler g, _, _⟩, some ⟨.handler h, _, _⟩ =>
      f.assignableWithin levels g.returnType h.returnType &&
        g.paramTypes.length == h.paramTypes.length &&
        (g.paramTypes.zip h.paramTypes).all fun pair => f.assignableWithin levels pair.1 pair.2
    | some ⟨.type s, _, _⟩, some ⟨.type d, declaredIn, _⟩ => f.symbolAssignable s declaredIn d
    | some ⟨.handler _, _, _⟩, some ⟨.type _, _, _⟩ => false
    | some ⟨.type _, _, _⟩, some ⟨.handler _, _, _⟩ => false

def assignable (f : ScopeForest) (depthLimit : Nat) (src dest : Option StaticType) : Bool :=
  -- the types themselves are level 0
  f.assignableWithin (depthLimit + 1) src dest

def conversionError? (f : ScopeForest) (depthLimit : Nat) (src dest : Option StaticType)
    (span : Span) : Option Diagnostic :=
  if f.assignable depthLimit src dest then none
  else some (.typeConversion (renderType src) (renderType dest) span)

theorem conversionError?_eq_none_iff (f : ScopeForest) (depthLimit : Nat)
    (src dest : Option StaticType) (span : Span) :
    f.conversionError? depthLimit src dest span = none ↔ f.assignable depthLimit src dest = true := by
  rw [conversionError?]
  split
  · next h => simp only [h]
  · next h => simp only [reduceCtorEq, h]

end ScriptSemantics.ScopeForest
