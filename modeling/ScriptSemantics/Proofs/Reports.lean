import ScriptSemantics.Proofs.Declarations

/-! Where diagnostics come from and where they go. Every step reports something of its own, told by
what it does in a session that has nothing to say. In any run the diagnostics handed over and those
still there are exactly what the steps reported, in order. What a call reports that fits no overload
is told by the last overload alone. -/

namespace ScriptSemantics

namespace Session

def Step.reports (x : Session) (step : Step) : List Diagnostic :=
  (step.apply x.takeDiagnostics.2).diagnostics

def reported (x : Session) : List Step → List Diagnostic
  | [] => []
  | step :: steps => step.reports x ++ (step.apply x).reported steps

def Step.taken? (x : Session) : Step → Option (List Diagnostic)
  | check .takeDiagnostics => some x.takeDiagnostics.1
  | createScope .. | declare .. => none
  | check (.query _) | check (.pushReference ..) | check (.pushHint ..) | check (.report _) => none

def taken (x : Session) : List Step → List (List Diagnostic)
  | [] => []
  | step :: steps => (step.taken? x).toList ++ (step.apply x).taken steps

theorem outcome_takeDiagnostics (x : Session) (q : Query) :
    q.outcome x.takeDiagnostics.2 = q.outcome x :=
  (undisturbed_apply x .takeDiagnostics).outcome q

theorem reports_query (x : Session) (q : Query) :
    (Step.check (.query q)).reports x = (q.outcome x).reported := by
  have hgives := (q.gives_outcome x.takeDiagnostics.2).diagnostics
  rw [outcome_takeDiagnostics] at hgives
  exact hgives

theorem diagnostics_declare (x : Session) (scope : ScopeId) (d : Declaration) :
    (x.declare scope d).2.diagnostics = x.diagnostics ++
      if scope.index < x.scopes.size ∧ (x.declare scope d).1 = false then
        [.duplicateSymbol d.name d.ident.span]
      else [] := by
  obtain ⟨hle, heq⟩ | ⟨hlt, -, heq⟩ | ⟨scopes, e, -, -, -, heq⟩ := x.declare_cases scope d
  · have hnot : ¬ scope.index < x.scopes.size := Nat.not_lt_of_le hle
    rw [heq, if_neg fun h => hnot h.1, List.append_nil]
  · rw [heq, if_pos ⟨hlt, rfl⟩]
    rfl
  · rw [heq, if_neg fun h => Bool.noConfusion h.2, List.append_nil]

theorem reports_declare (x : Session) (scope : ScopeId) (d : Declaration) :
    (Step.declare scope d).reports x =
      if scope.index < x.scopes.size ∧ (x.declare scope d).1 = false then
        [.duplicateSymbol d.name d.ident.span]
      else [] := by
  have hadded := x.takeDiagnostics.2.diagnostics_declare scope d
  -- whether a declaration is taken does not depend on what was reported before it
  have hsame : (x.takeDiagnostics.2.declare scope d).1 = (x.declare scope d).1 := by
    unfold declare
    rw [show x.takeDiagnostics.2.scopes = x.scopes from rfl]
    split <;> rfl
  rw [hsame] at hadded
  exact hadded

theorem taken?_append_diagnostics (x : Session) (step : Step) :
    (step.taken? x).toList.flatten ++ (step.apply x).diagnostics =
      x.diagnostics ++ step.reports x := by
  cases step with
  | createScope parent name owner => exact (List.append_nil _).symm
  | declare scope d =>
    rw [reports_declare]
    exact diagnostics_declare x scope d
  | check step =>
    cases step with
    | query q =>
      rw [reports_query]
      exact (q.gives_outcome x).diagnostics
    | pushReference scope r => exact (List.append_nil _).symm
    | pushHint scope h => exact (List.append_nil _).symm
    | report d => rfl
    | takeDiagnostics => exact List.append_assoc _ _ _

theorem taken_append_diagnostics (x : Session) (steps : List Step) :
    (x.taken steps).flatten ++ (x.run steps).diagnostics = x.diagnostics ++ x.reported steps := by
  induction steps generalizing x with
  | nil => exact (List.append_nil _).symm
  | cons step steps ih =>
    calc (x.taken (step :: steps)).flatten ++ (x.run (step :: steps)).diagnostics
        = (step.taken? x).toList.flatten ++
            (((step.apply x).taken steps).flatten ++ ((step.apply x).run steps).diagnostics) := by
          rw [taken, List.flatten_append, List.append_assoc, run]
      _ = (step.taken? x).toList.flatten ++ (step.apply x).diagnostics ++
            (step.apply x).reported steps := by rw [ih, List.append_assoc]
      _ = x.diagnostics ++ x.reported (step :: steps) := by
          rw [taken?_append_diagnostics, List.append_assoc, reported]

theorem reports_check (x : Session) (src dest : Option StaticType) (span : Span) :
    (Step.check (.query (.check src dest span))).reports x =
      if (x.check src dest span).1 = false then
        [.typeConversion (renderType src) (renderType dest) span]
      else [] := by
  rw [reports_query]
  simp only [Query.outcome, Session.check, ScopeForest.conversionError?]
  by_cases h : x.scopes.assignable x.depthLimit src dest = true <;> simp [h]

theorem reports_call {x : Session} {c : Call} {callee : List FunctionSymbol} {r : Resolution}
    (h : x.scopes.resolve x.depthLimit c callee = some r) (scope : ScopeId) :
    (Step.check (.query (.call scope c callee))).reports x = r.diagnostics := by
  rw [reports_query, Query.outcome, h]

theorem reports_call_eq_nil_iff (x : Session) (scope : ScopeId) (c : Call)
    (callee : List FunctionSymbol) :
    (Step.check (.query (.call scope c callee))).reports x = [] ↔
      callee = [] ∨ ∃ g ∈ callee, x.scopes.Applicable x.depthLimit c g := by
  by_cases hnil : callee = []
  · subst hnil
    exact ⟨fun _ => .inl rfl, fun _ => rfl⟩
  · obtain ⟨r, hr⟩ := x.scopes.exists_resolve x.depthLimit c hnil
    rw [reports_call hr, ScopeForest.diagnostics_eq_nil_iff hr]
    simp only [hnil, false_or]

/-- Diagnostics are neither lost nor made up nor put out of order. A declaration contributes one
exactly if a scope that exists refuses it, a check one exactly if it fails, and a call some exactly
if it has overloads to choose from and none of them fits. Nothing else contributes but a report;
lookups do not come into it, since they leave no session behind. -/
theorem diagnostics_conserved (builtins : BuiltinTypes) (depthLimit : Nat) (steps : List Step) :
    let start : Session := { builtins, depthLimit }
    (start.taken steps).flatten ++ (start.run steps).diagnostics = start.reported steps ∧
    ∀ x : Session,
      (∀ scope d, (Step.declare scope d).reports x =
        if scope.index < x.scopes.size ∧ (x.declare scope d).1 = false then
          [.duplicateSymbol d.name d.ident.span]
        else []) ∧
      (∀ src dest span, (Step.check (.query (.check src dest span))).reports x =
        if (x.check src dest span).1 = false then
          [.typeConversion (renderType src) (renderType dest) span]
        else []) ∧
      (∀ scope c callee, (Step.check (.query (.call scope c callee))).reports x = [] ↔
        callee = [] ∨ ∃ g ∈ callee, x.scopes.Applicable x.depthLimit c g) ∧
      (∀ d, (Step.check (.report d)).reports x = [d]) ∧
      (∀ src dest, (Step.check (.query (.assignable src dest))).reports x = []) ∧
      (∀ parent name owner, (Step.createScope parent name owner).reports x = []) ∧
      (∀ scope r, (Step.check (.pushReference scope r)).reports x = []) ∧
      (∀ scope h, (Step.check (.pushHint scope h)).reports x = []) ∧
      (Step.check .takeDiagnostics).reports x = [] := by
  intro start
  refine ⟨taken_append_diagnostics start steps, fun x => ⟨reports_declare x, reports_check x,
    reports_call_eq_nil_iff x, ?_⟩⟩
  exact ⟨fun _ => rfl, fun _ _ => rfl, fun _ _ _ => rfl, fun _ _ => rfl, fun _ _ => rfl, rfl⟩

end Session

/-! ### Calls that fail -/

def Call.comparisons (c : Call) (g : FunctionSymbol) : List Session.Query :=
  c.args.mapIdx fun i arg => .check (substituteType c.templateArgs arg.type)
    (substituteType c.templateArgs g.paramTypes[i]?.join) arg.span

theorem FunctionDecl.exists_of_missing? {decl : FunctionDecl} {given : Nat} {param : Param}
    (h : decl.missing? given = some param) :
    ∃ i, given ≤ i ∧ decl.params[i]? = some param ∧ param.hasDefault = false ∧
      ∀ (j : Nat) (p : Param), given ≤ j → j < i → decl.params[j]? = some p →
        p.hasDefault = true := by
  unfold FunctionDecl.missing? at h
  obtain ⟨hno, k, hk, hget, hbefore⟩ := List.find?_eq_some_iff_getElem.1 h
  have hget' : decl.params[given + k]? = some param := by
    rw [← List.getElem?_drop, List.getElem?_eq_getElem hk, hget]
  refine ⟨given + k, Nat.le_add_right given k, hget', by simpa using hno, ?_⟩
  intro j p hj hlt hp
  have hjk : j - given < k := by omega
  have hp' : (decl.params.drop given)[j - given]? = some p := by
    rw [List.getElem?_drop, Nat.add_sub_cancel' hj, hp]
  obtain ⟨hlt', hp'⟩ := List.getElem?_eq_some_iff.1 hp'
  have hdefault := hbefore (j - given) hjk
  rw [hp'] at hdefault
  simpa using hdefault

namespace Session

theorem reported_queries (x : Session) (qs : List Query) :
    x.reported (qs.map fun q => .check (.query q)) = qs.flatMap fun q => (q.outcome x).reported := by
  induction qs generalizing x with
  | nil => rfl
  | cons q qs ih =>
    -- the checks after the first one find what the first one found
    have hlater (q' : Query) : q'.outcome (q.ask x).2 = q'.outcome x :=
      (undisturbed_ask x q).outcome q'
    have hrest : ((Step.check (.query q)).apply x).reported (qs.map fun q => .check (.query q)) =
        qs.flatMap fun q => (q.outcome x).reported := by
      rw [ih]
      simp only [Step.apply, CheckStep.apply, hlater]
    rw [List.map_cons, reported, reports_query, hrest, List.flatMap_cons]

theorem conversionComplaints_eq_reported (x : Session) (c : Call) (g : FunctionSymbol) :
    x.scopes.conversionComplaints x.depthLimit c.templateArgs c.args g.paramTypes =
      x.reported ((c.comparisons g).map fun q => .check (.query q)) := by
  rw [reported_queries, Call.comparisons]
  generalize c.args = args
  generalize g.paramTypes = types
  induction args generalizing types with
  | nil => rfl
  | cons arg args ih =>
    have hhead : types.head? = types[0]? := List.head?_eq_getElem?
    have htail (i : Nat) : types[i + 1]? = types.tail[i]? := List.getElem?_tail.symm
    rw [ScopeForest.conversionComplaints, List.mapIdx_cons, List.flatMap_cons, ih, hhead]
    simp only [htail]
    rfl

/-- What there is to say against calling `g` in this way: that there are too many arguments and
nothing more, or what checking each argument reports, and then which parameter is the first to be
left without a value, if any is. -/
inductive Faults (x : Session) (c : Call) (g : FunctionSymbol) : List Diagnostic → Prop
  | tooMany (harity : g.decl.params.length < c.args.length) :
      Faults x c g [.arityMismatch g.decl.params.length c.args.length c.site.span]
  | misfits (harity : c.args.length ≤ g.decl.params.length)
      (hdefaults : ∀ (i : Nat) (param : Param), c.args.length ≤ i →
        g.decl.params[i]? = some param → param.hasDefault = true) :
      Faults x c g (x.reported ((c.comparisons g).map fun q => .check (.query q)))
  | missing (i : Nat) (param : Param) (harity : c.args.length ≤ g.decl.params.length)
      (hi : c.args.length ≤ i) (hparam : g.decl.params[i]? = some param)
      (hno : param.hasDefault = false)
      (hfirst : ∀ (j : Nat) (p : Param), c.args.length ≤ j → j < i →
        g.decl.params[j]? = some p → p.hasDefault = true) :
      Faults x c g (x.reported ((c.comparisons g).map fun q => .check (.query q)) ++
        [.missingArgument param.displayName c.site.span])

theorem faults_complaints (x : Session) (c : Call) (g : FunctionSymbol) :
    x.Faults c g (x.scopes.complaints x.depthLimit c g) := by
  unfold ScopeForest.complaints
  split
  · next harity => exact .tooMany harity
  · next harity =>
    have harity := Nat.le_of_not_lt harity
    rw [conversionComplaints_eq_reported]
    cases hmissing : g.decl.missing? c.args.length with
    | none =>
      have hdefaults := (g.decl.missing?_eq_none_iff c.args.length).1 hmissing
      simpa using Faults.misfits harity hdefaults
    | some param =>
      obtain ⟨i, hi, hparam, hno, hfirst⟩ := FunctionDecl.exists_of_missing? hmissing
      exact .missing i param harity hi hparam hno hfirst

theorem resolve_of_none_applicable {x : Session} {c : Call} {earlier : List FunctionSymbol}
    {g : FunctionSymbol}
    (h : ∀ fn ∈ earlier ++ [g], ¬ x.scopes.Applicable x.depthLimit c fn) :
    x.scopes.resolve x.depthLimit c (earlier ++ [g]) =
      some ⟨earlier.length, g, x.scopes.complaints x.depthLimit c g⟩ := by
  have hne : earlier ++ [g] ≠ [] := List.append_ne_nil_of_right_ne_nil _ (List.cons_ne_nil _ _)
  obtain ⟨⟨i, fn, ds⟩, hr⟩ := x.scopes.exists_resolve x.depthLimit c hne
  obtain ⟨hchosen, hds⟩ := ScopeForest.chosen_and_complaints_of_resolve hr
  have hmem : fn ∈ earlier ++ [g] := List.mem_of_getElem? hchosen.here
  have hlast : i + 1 = (earlier ++ [g]).length := hchosen.last (h fn hmem)
  have hi : i = earlier.length := by simpa using hlast
  have hhere : (earlier ++ [g])[i]? = some fn := hchosen.here
  rw [hi, List.getElem?_concat_length] at hhere
  obtain rfl : g = fn := Option.some.inj hhere
  rw [hr, hi, show ds = _ from hds]

theorem diagnostics_call {x : Session} {c : Call} {callee : List FunctionSymbol} {r : Resolution}
    (h : x.scopes.resolve x.depthLimit c callee = some r) (scope : ScopeId) :
    (x.call scope c callee).2.diagnostics = x.diagnostics ++ r.diagnostics :=
  (call_bound h scope).diagnostics

/-- A call that an overload allows reports nothing. One that none allows reports the faults the last
overload finds with it, just as if that were the only one. -/
theorem faults_of_failed_call (x : Session) (scope : ScopeId) (c : Call)
    (earlier : List FunctionSymbol) (g : FunctionSymbol) :
    ((∃ fn ∈ earlier ++ [g], x.scopes.Applicable x.depthLimit c fn) →
      (x.call scope c (earlier ++ [g])).2.diagnostics = x.diagnostics) ∧
    ((∀ fn ∈ earlier ++ [g], ¬ x.scopes.Applicable x.depthLimit c fn) →
      ∃ faults, x.Faults c g faults ∧
        (x.call scope c (earlier ++ [g])).2.diagnostics = x.diagnostics ++ faults ∧
        (x.call scope c [g]).2.diagnostics = x.diagnostics ++ faults) := by
  constructor
  · intro happlicable
    have hne : earlier ++ [g] ≠ [] := List.append_ne_nil_of_right_ne_nil _ (List.cons_ne_nil _ _)
    obtain ⟨r, hr⟩ := x.scopes.exists_resolve x.depthLimit c hne
    have hquiet : r.diagnostics = [] := (ScopeForest.diagnostics_eq_nil_iff hr).2 happlicable
    rw [diagnostics_call hr, hquiet, List.append_nil]
  · intro hnone
    have halone : ∀ fn ∈ [] ++ [g], ¬ x.scopes.Applicable x.depthLimit c fn :=
      fun fn hfn => hnone fn (List.mem_append_right earlier hfn)
    exact ⟨x.scopes.complaints x.depthLimit c g, x.faults_complaints c g,
      diagnostics_call (resolve_of_none_applicable hnone) scope,
      diagnostics_call (resolve_of_none_applicable halone) scope⟩

/-! A box is put where a number belongs. One overload takes just the number; the other one takes two
more values as well, of which the first has a default. -/

namespace Misuse

open ScopeForest.Boxes (token number box)

def param (index : UInt32) (name : String) (defaultValue : Option Span) : Param :=
  ⟨some (token index name), defaultValue⟩

def putThree : FunctionSymbol :=
  ⟨⟨token 10 "put", [param 11 "value" none, param 12 "count" (some {}), param 13 "place" none], {}⟩,
    none, [some number, some number]⟩

def boxCall : Call := ⟨.function (token 14 "put") { line := 3 }, [⟨some box, { line := 4 }⟩], none⟩

end Misuse

open Misuse in
open Overloading (blank putNumber) in
open ScopeForest (root) in
open ScopeForest.Boxes (numberCall) in
theorem faults_of_failed_call_misuse :
    (∀ fn ∈ [putNumber] ++ [putThree], ¬ blank.scopes.Applicable blank.depthLimit boxCall fn) ∧
    blank.Faults boxCall putThree
      [.typeConversion "Box" "int" { line := 4 }, .missingArgument "place" { line := 3 }] ∧
    (∃ fn ∈ [putNumber] ++ [putThree],
      blank.scopes.Applicable blank.depthLimit numberCall fn) ∧
    (blank.call root numberCall ([putNumber] ++ [putThree])).2.diagnostics = [] := by
  have hnone : ∀ fn ∈ [putNumber] ++ [putThree],
      ¬ blank.scopes.Applicable blank.depthLimit boxCall fn := by
    simp only [← ScopeForest.accepts_iff_applicable]
    decide +kernel
  have hsome : ∃ fn ∈ [putNumber] ++ [putThree],
      blank.scopes.Applicable blank.depthLimit numberCall fn := by
    refine ⟨putNumber, List.mem_cons_self, ?_⟩
    rw [← ScopeForest.accepts_iff_applicable]
    decide +kernel
  obtain ⟨faults, hfaults, heq, -⟩ :=
    (faults_of_failed_call blank root boxCall [putNumber] putThree).2 hnone
  have hlist : faults = [.typeConversion "Box" "int" { line := 4 },
      .missingArgument "place" { line := 3 }] := by
    rw [← List.nil_append faults]
    refine heq.symm.trans ?_
    with_unfolding_all rfl
  exact ⟨hnone, hlist ▸ hfaults, hsome,
    (faults_of_failed_call blank root numberCall [putNumber] putThree).1 hsome⟩

end Session

end ScriptSemantics
