import ScriptSemantics.Proofs.Reports

/-! Calls with arguments of unknown type. Such an argument fits every parameter, so the less is known
of the arguments the fewer complaints an overload has, and all that are left it had before. A call
then moves to an earlier overload or stays where it is, and reports nothing new. -/

namespace ScriptSemantics

def Argument.forget (arg : Argument) : Argument := { arg with type := none }

def Argument.forgetAt (unknown : Nat → Bool) (args : List Argument) : List Argument :=
  args.mapIdx fun i arg => if unknown i then arg.forget else arg

def Call.forgetAt (c : Call) (unknown : Nat → Bool) : Call :=
  { c with args := Argument.forgetAt unknown c.args }

theorem Argument.length_forgetAt (unknown : Nat → Bool) (args : List Argument) :
    (forgetAt unknown args).length = args.length := List.length_mapIdx

theorem Argument.forgetAt_cons (unknown : Nat → Bool) (arg : Argument) (args : List Argument) :
    forgetAt unknown (arg :: args) =
      (if unknown 0 then arg.forget else arg) :: forgetAt (fun i => unknown (i + 1)) args :=
  List.mapIdx_cons

namespace ScopeForest

theorem conversionError?_none_left (f : ScopeForest) (depthLimit : Nat) (dest : Option StaticType)
    (span : Span) : f.conversionError? depthLimit none dest span = none :=
  (f.conversionError?_eq_none_iff depthLimit none dest span).2
    ((f.assignable_iff_of_absent depthLimit none dest).2 (.inl rfl))

theorem conversionComplaints_forgetAt_sublist (f : ScopeForest) (depthLimit : Nat)
    (templateArgs : Option TemplateArgs) (unknown : Nat → Bool) (args : List Argument)
    (types : List (Option StaticType)) :
    (f.conversionComplaints depthLimit templateArgs (Argument.forgetAt unknown args) types).Sublist
      (f.conversionComplaints depthLimit templateArgs args types) := by
  induction args generalizing unknown types with
  | nil => exact List.Sublist.refl _
  | cons arg args ih =>
    rw [Argument.forgetAt_cons, conversionComplaints, conversionComplaints]
    refine List.Sublist.append ?_ (ih (fun i => unknown (i + 1)) types.tail)
    by_cases hunknown : unknown 0 = true
    · have hsrc : substituteType templateArgs arg.forget.type = none := rfl
      rw [if_pos hunknown, hsrc, conversionError?_none_left]
      exact List.nil_sublist _
    · simp only [if_neg hunknown, List.Sublist.refl]

theorem complaints_forgetAt_sublist (f : ScopeForest) (depthLimit : Nat) (c : Call)
    (unknown : Nat → Bool) (g : FunctionSymbol) :
    (f.complaints depthLimit (c.forgetAt unknown) g).Sublist (f.complaints depthLimit c g) := by
  have hlength : (c.forgetAt unknown).args.length = c.args.length :=
    Argument.length_forgetAt unknown c.args
  rw [complaints, complaints, hlength]
  split
  · exact List.Sublist.refl _
  · -- what is missing depends on the number of arguments, which stays the same
    refine List.Sublist.append ?_ (List.Sublist.refl _)
    exact f.conversionComplaints_forgetAt_sublist depthLimit c.templateArgs unknown c.args g.paramTypes

theorem Applicable.forgetAt {f : ScopeForest} {depthLimit : Nat} {c : Call} {g : FunctionSymbol}
    (h : f.Applicable depthLimit c g) (unknown : Nat → Bool) :
    f.Applicable depthLimit (c.forgetAt unknown) g := by
  rw [← accepts_iff_applicable, ← complaints_eq_nil_iff] at h ⊢
  have hsub := f.complaints_forgetAt_sublist depthLimit c unknown g
  rw [h] at hsub
  exact List.sublist_nil.1 hsub

theorem resolve_forgetAt {f : ScopeForest} {depthLimit : Nat} {c : Call} {unknown : Nat → Bool}
    {callee : List FunctionSymbol} {r r' : Resolution}
    (h : f.resolve depthLimit c callee = some r)
    (h' : f.resolve depthLimit (c.forgetAt unknown) callee = some r') :
    r'.index ≤ r.index ∧ r'.diagnostics.Sublist r.diagnostics := by
  obtain ⟨hchosen, hdiagnostics⟩ := chosen_and_complaints_of_resolve h
  obtain ⟨hchosen', hdiagnostics'⟩ := chosen_and_complaints_of_resolve h'
  obtain ⟨hindex, hfits | hsame⟩ := hchosen.le_of_imp hchosen' fun fn hfn => hfn.forgetAt unknown
  · have hquiet : r'.diagnostics = [] :=
      (diagnostics_eq_nil_iff h').2 ⟨_, List.mem_of_getElem? hchosen'.here, hfits⟩
    rw [hquiet]
    exact ⟨hindex, List.nil_sublist _⟩
  · rw [hdiagnostics, hdiagnostics', hsame]
    exact ⟨hindex, f.complaints_forgetAt_sublist depthLimit c unknown r.function⟩

end ScopeForest

/-- Whichever argument types are unknown, the call is bound to no later overload than if they were
known, and what it reports is part of what it would report then, in the same order. -/
theorem Session.call_forgetAt (s : Session) (scope : ScopeId) (c : Call) (unknown : Nat → Bool)
    (first : FunctionSymbol) (rest : List FunctionSymbol) :
    let vague := c.forgetAt unknown
    (s.call scope c [] = (none, s) ∧ s.call scope vague [] = (none, s)) ∧
    ∃ r r', s.scopes.resolve s.depthLimit c (first :: rest) = some r ∧
      s.scopes.resolve s.depthLimit vague (first :: rest) = some r' ∧
      s.Bound scope c r.function r.diagnostics (s.call scope c (first :: rest)) ∧
      s.Bound scope vague r'.function r'.diagnostics (s.call scope vague (first :: rest)) ∧
      r'.index ≤ r.index ∧ r'.diagnostics.Sublist r.diagnostics := by
  intro vague
  refine ⟨⟨rfl, rfl⟩, ?_⟩
  have hne : first :: rest ≠ [] := List.cons_ne_nil first rest
  obtain ⟨r, hr⟩ := s.scopes.exists_resolve s.depthLimit c hne
  obtain ⟨r', hr'⟩ := s.scopes.exists_resolve s.depthLimit vague hne
  exact ⟨r, r', hr, hr', Session.call_bound hr scope, Session.call_bound hr' scope,
    ScopeForest.resolve_forgetAt hr hr'⟩

open Session.Misuse in
open Session.Overloading (blank putNumber) in
example : ((blank.scopes.resolve 64 boxCall [putNumber, putThree]).map (·.index) = some 1) ∧
    (blank.scopes.resolve 64 (boxCall.forgetAt (· == 0)) [putNumber, putThree]).map (·.index) =
      some 0 := by decide +kernel

end ScriptSemantics
