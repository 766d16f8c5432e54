import ScriptSemantics.Proofs.Growth

/-! Checks do not get in each other's way. A check reads the links, owners and symbols of scopes and
writes to their logs and to the list of diagnostics, so what one check leaves behind no other can
see: each has the same outcome after any number of others, in any order. -/

namespace ScriptSemantics

structure Scope.LogsGrow (a b : Scope) : Prop where
  link : b.link = a.link
  owner : b.owner = a.owner
  symbols : b.symbols = a.symbols
  references : a.references <+: b.references
  hints : a.hints <+: b.hints

theorem Scope.LogsGrow.refl (a : Scope) : a.LogsGrow a :=
  ⟨rfl, rfl, rfl, List.prefix_refl _, List.prefix_refl _⟩

theorem Scope.LogsGrow.trans {a b c : Scope} (hab : a.LogsGrow b) (hbc : b.LogsGrow c) :
    a.LogsGrow c :=
  ⟨hbc.link.trans hab.link, hbc.owner.trans hab.owner, hbc.symbols.trans hab.symbols,
    hab.references.trans hbc.references, hab.hints.trans hbc.hints⟩

theorem Scope.LogsGrow.grows {a b : Scope} (h : a.LogsGrow b) : a.Grows b :=
  Scope.grows_of_eq h.link h.owner h.symbols

theorem Scope.LogsGrow.grows_back {a b : Scope} (h : a.LogsGrow b) : b.Grows a :=
  Scope.grows_of_eq h.link.symm h.owner.symm h.symbols.symm

namespace ScopeForest

structure LogsGrow (f g : ScopeForest) : Prop where
  size : g.size = f.size
  scopes : Evolves Scope.LogsGrow f g

theorem LogsGrow.refl (f : ScopeForest) : f.LogsGrow f := ⟨rfl, Evolves.refl .refl f⟩

theorem LogsGrow.trans {f g k : ScopeForest} (hfg : f.LogsGrow g) (hgk : g.LogsGrow k) :
    f.LogsGrow k := ⟨hgk.size.trans hfg.size, Evolves.trans .trans hfg.scopes hgk.scopes⟩

theorem logsGrow_pushReference (f : ScopeForest) (s : ScopeId) (r : Reference) :
    f.LogsGrow (f.pushReference s r) :=
  ⟨size_modify f s _, evolves_modify .refl f s _ fun _ _ =>
    ⟨rfl, rfl, rfl, List.prefix_append _ _, List.prefix_refl _⟩⟩

theorem logsGrow_pushHint (f : ScopeForest) (s : ScopeId) (h : Hint) :
    f.LogsGrow (f.pushHint s h) :=
  ⟨size_modify f s _, evolves_modify .refl f s _ fun _ _ =>
    ⟨rfl, rfl, rfl, List.prefix_refl _, List.prefix_append _ _⟩⟩

theorem LogsGrow.grows {f g : ScopeForest} (h : f.LogsGrow g) : f.Grows g := by
  intro s a ha
  obtain ⟨b, hb, hab⟩ := h.scopes s a ha
  exact ⟨b, hb, hab.grows⟩

theorem LogsGrow.get?_eq_none {f g : ScopeForest} (h : f.LogsGrow g) {s : ScopeId}
    (hs : f.get? s = none) : g.get? s = none := by
  rw [get?_eq_none_iff, h.size]
  exact (get?_eq_none_iff f s).1 hs

theorem LogsGrow.grows_back {f g : ScopeForest} (h : f.LogsGrow g) : g.Grows f := by
  intro s b hb
  cases ha : f.get? s with
  | none => cases (h.get?_eq_none ha).symm.trans hb
  | some a =>
    obtain ⟨b', hb', hab⟩ := h.scopes s a ha
    obtain rfl : b = b' := Option.some.inj (hb.symm.trans hb')
    exact ⟨a, rfl, hab.grows_back⟩

theorem LogsGrow.assignable {f g : ScopeForest} (h : f.LogsGrow g) (depthLimit : Nat)
    (src dest : Option StaticType) :
    g.assignable depthLimit src dest = f.assignable depthLimit src dest := by
  -- what is assignable grows with the forest, and each of the two has grown out of the other
  rw [Bool.eq_iff_iff]
  exact ⟨assignable_mono h.grows_back, assignable_mono h.grows⟩

section
variable {f g : ScopeForest} {depthLimit : Nat}
  (h : ∀ src dest, g.assignable depthLimit src dest = f.assignable depthLimit src dest)
include h

theorem conversionError?_congr (src dest : Option StaticType) (span : Span) :
    g.conversionError? depthLimit src dest span = f.conversionError? depthLimit src dest span := by
  rw [conversionError?, conversionError?, h]

theorem argumentsFit_congr (templateArgs : Option TemplateArgs) (args : List Argument)
    (types : List (Option StaticType)) :
    g.argumentsFit depthLimit templateArgs args types =
      f.argumentsFit depthLimit templateArgs args types := by
  induction args generalizing types with
  | nil => simp only [argumentsFit]
  | cons arg args ih => simp only [argumentsFit, h, ih]

theorem conversionComplaints_congr (templateArgs : Option TemplateArgs) (args : List Argument)
    (types : List (Option StaticType)) :
    g.conversionComplaints depthLimit templateArgs args types =
      f.conversionComplaints depthLimit templateArgs args types := by
  induction args generalizing types with
  | nil => simp only [conversionComplaints]
  | cons arg args ih => simp only [conversionComplaints, conversionError?_congr h, ih]

theorem resolve_congr (call : Call) (callee : List FunctionSymbol) :
    g.resolve depthLimit call callee = f.resolve depthLimit call callee := by
  have haccepts : g.accepts depthLimit call = f.accepts depthLimit call := by
    funext fn
    rw [accepts, accepts, argumentsFit_congr h]
  have hcomplaints : g.complaints depthLimit call = f.complaints depthLimit call := by
    funext fn
    rw [complaints, complaints, conversionComplaints_congr h]
  rw [resolve, resolve, haccepts, hcomplaints]

end

theorem references_pushReference (f : ScopeForest) (s t : ScopeId) (r : Reference) :
    (f.pushReference s r).references t =
      f.references t ++ if t = s ∧ t.index < f.size then [r] else [] := by
  rw [references, references, get?_pushReference]
  cases hget : f.get? t with
  | none =>
    have hle : f.size ≤ t.index := (get?_eq_none_iff f t).1 hget
    simp [Nat.not_lt.2 hle]
  | some a =>
    have hlt : t.index < f.size := (Array.getElem?_eq_some_iff.1 hget).1
    by_cases hts : t = s
    · subst hts
      simp [hlt]
    · simp [hts]

end ScopeForest

namespace Session

inductive Query where
  | assignable (src dest : Option StaticType)
  | check (src dest : Option StaticType) (span : Span)
  | call (scope : ScopeId) (call : Call) (callee : List FunctionSymbol)

inductive Answer where
  | fits (yes : Bool)
  | type (type : Option StaticType)

def Query.ask (s : Session) : Query → Answer × Session
  | assignable src dest => (.fits (s.assignable src dest), s)
  | check src dest span => (.fits (s.check src dest span).1, (s.check src dest span).2)
  | call scope c callee => (.type (s.call scope c callee).1, (s.call scope c callee).2)

inductive CheckStep where
  | query (q : Query)
  | pushReference (scope : ScopeId) (r : Reference)
  | pushHint (scope : ScopeId) (h : Hint)
  | report (d : Diagnostic)
  | takeDiagnostics

def CheckStep.apply (s : Session) : CheckStep → Session
  | query q => (q.ask s).2
  | pushReference scope r => s.pushReference scope r
  | pushHint scope h => s.pushHint scope h
  | report d => s.report d
  | takeDiagnostics => s.takeDiagnostics.2

def checkAll (s : Session) : List CheckStep → Session
  | [] => s
  | step :: steps => (step.apply s).checkAll steps

structure Undisturbed (s s' : Session) : Prop where
  scopes : s.scopes.LogsGrow s'.scopes
  builtins : s'.builtins = s.builtins
  depthLimit : s'.depthLimit = s.depthLimit

theorem Undisturbed.refl (s : Session) : s.Undisturbed s := ⟨.refl _, rfl, rfl⟩

theorem Undisturbed.trans {s s' s'' : Session} (h : s.Undisturbed s') (h' : s'.Undisturbed s'') :
    s.Undisturbed s'' :=
  ⟨h.scopes.trans h'.scopes, h'.builtins.trans h.builtins, h'.depthLimit.trans h.depthLimit⟩

theorem undisturbed_ask (s : Session) (q : Query) : s.Undisturbed (q.ask s).2 := by
  cases q with
  | assignable src dest => exact .refl s
  | check src dest span =>
    simp only [Query.ask, Session.check]
    split
    · exact .refl s
    · exact ⟨.refl _, rfl, rfl⟩
  | call scope call callee =>
    simp only [Query.ask, Session.call]
    split
    · exact .refl s
    · exact ⟨ScopeForest.logsGrow_pushReference _ _ _, rfl, rfl⟩

theorem undisturbed_apply (s : Session) (step : CheckStep) : s.Undisturbed (step.apply s) := by
  cases step with
  | query q => exact undisturbed_ask s q
  | pushReference scope r => exact ⟨ScopeForest.logsGrow_pushReference _ _ _, rfl, rfl⟩
  | pushHint scope h => exact ⟨ScopeForest.logsGrow_pushHint _ _ _, rfl, rfl⟩
  | report d => exact ⟨.refl _, rfl, rfl⟩
  | takeDiagnostics => exact ⟨.refl _, rfl, rfl⟩

theorem undisturbed_checkAll (s : Session) (steps : List CheckStep) :
    s.Undisturbed (s.checkAll steps) := by
  induction steps generalizing s with
  | nil => exact .refl s
  | cons step steps ih => exact (undisturbed_apply s step).trans (ih (step.apply s))

structure Outcome where
  answer : Answer
  reported : List Diagnostic
  logged : ScopeId → List Reference

structure Query.Gives (q : Query) (s : Session) (o : Outcome) : Prop where
  answer : (q.ask s).1 = o.answer
  diagnostics : (q.ask s).2.diagnostics = s.diagnostics ++ o.reported
  references : ∀ t, (q.ask s).2.scopes.references t = s.scopes.references t ++ o.logged t

def Query.outcome (s : Session) : Query → Outcome
  | assignable src dest => ⟨.fits (s.assignable src dest), [], fun _ => []⟩
  | check src dest span =>
    let error := s.scopes.conversionError? s.depthLimit src dest span
    ⟨.fits error.isNone, error.toList, fun _ => []⟩
  | call scope c callee =>
    match s.scopes.resolve s.depthLimit c callee with
    | none => ⟨.type none, [], fun _ => []⟩
    | some r =>
      ⟨.type r.function.returnType, r.diagnostics, fun t =>
        if t = scope ∧ t.index < s.scopes.size then [⟨.function r.function, c.site.ident⟩] else []⟩

theorem Query.gives_outcome (q : Query) (s : Session) : q.Gives s (q.outcome s) := by
  cases q with
  | assignable src dest =>
    exact ⟨rfl, (List.append_nil _).symm, fun t => (List.append_nil _).symm⟩
  | check src dest span =>
    have hquiet (t : ScopeId) : (s.check src dest span).2.scopes.references t =
        s.scopes.references t ++ [] := by
      rw [List.append_nil, Session.check]
      split <;> rfl
    cases herror : s.scopes.conversionError? s.depthLimit src dest span with
    | none =>
      have hcheck : s.check src dest span = (true, s) := by rw [Session.check, herror]
      refine ⟨?_, ?_, hquiet⟩
      · simp only [Query.ask, Query.outcome, hcheck, herror, Option.isNone_none]
      · simp only [Query.ask, Query.outcome, hcheck, herror, Option.toList_none, List.append_nil]
    | some d =>
      have hcheck : s.check src dest span = (false, s.report d) := by rw [Session.check, herror]
      refine ⟨?_, ?_, hquiet⟩
      · simp only [Query.ask, Query.outcome, hcheck, herror, Option.isNone_some]
      · simp only [Query.ask, Query.outcome, hcheck, herror, Option.toList_some]
        rfl
  | call scope c callee =>
    cases hresolve : s.scopes.resolve s.depthLimit c callee with
    | none =>
      have hcall : s.call scope c callee = (none, s) := by rw [Session.call, hresolve]
      refine ⟨?_, ?_, fun t => ?_⟩ <;>
        simp only [Query.ask, Query.outcome, hcall, hresolve, List.append_nil]
    | some r =>
      refine ⟨?_, ?_, fun t => ?_⟩ <;> simp only [Query.ask, Query.outcome, Session.call, hresolve]
      · rfl
      · exact ScopeForest.references_pushReference _ _ _ _

theorem Undisturbed.outcome {s s' : Session} (h : s.Undisturbed s') (q : Query) :
    q.outcome s' = q.outcome s := by
  have hassignable (src dest : Option StaticType) :
      s'.scopes.assignable s.depthLimit src dest = s.scopes.assignable s.depthLimit src dest :=
    h.scopes.assignable s.depthLimit src dest
  cases q with
  | assignable src dest =>
    simp only [Query.outcome, Session.assignable, h.depthLimit, hassignable]
  | check src dest span =>
    simp only [Query.outcome, h.depthLimit, ScopeForest.conversionError?_congr hassignable]
  | call scope c callee =>
    simp only [Query.outcome, h.depthLimit, ScopeForest.resolve_congr hassignable, h.scopes.size]

/-- Checking leaves alone what checks read, and so a question has one outcome, whatever was checked
before it, how often and in which order. -/
theorem outcome_independent_of_checks (s : Session) :
    (∀ steps, s.Undisturbed (s.checkAll steps)) ∧
    ∀ q : Query, ∃ o, ∀ steps, q.Gives (s.checkAll steps) o := by
  refine ⟨undisturbed_checkAll s, fun q => ⟨q.outcome s, fun steps => ?_⟩⟩
  rw [← (undisturbed_checkAll s steps).outcome q]
  exact q.gives_outcome (s.checkAll steps)

end Session

end ScriptSemantics
