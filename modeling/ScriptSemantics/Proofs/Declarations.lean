import ScriptSemantics.Proofs.Checking
import ScriptSemantics.Proofs.Lineage

/-! What a name stands for in a scope follows from what was declared there under it, in which order.
The first declaration settles whether it is a type, a variable or functions. Only functions take more,
and what cannot be taken is reported and leaves no trace. -/

namespace ScriptSemantics

def Declaration.function? : Declaration → Option FunctionSymbol
  | .function symbol => some symbol
  | .type _ | .variable _ => none

theorem Declaration.eq_function {d : Declaration} {g : FunctionSymbol} (h : d.function? = some g) :
    d = .function g := by
  cases d <;> cases h
  rfl

namespace Entry

def declarations : Entry → List Declaration
  | .type symbol => [.type symbol]
  | .functions overloads => overloads.toList.map .function
  | .variable symbol => [.variable symbol]

def join? (entry : Option Entry) (d : Declaration) : Option Entry :=
  match entry with
  | none => some (.ofDeclaration d)
  | some e => e.extend? d

theorem extend?_ofDeclaration {d : Declaration} (h : d.function? = none) (d' : Declaration) :
    (ofDeclaration d).extend? d' = none := by
  cases d <;> first | rfl | cases h

theorem extend?_functions (overloads : Overloads) (d : Declaration) :
    (functions overloads).extend? d = d.function?.map fun g => functions (overloads.push g) := by
  cases d <;> rfl

theorem declarations_ofDeclaration (d : Declaration) : (ofDeclaration d).declarations = [d] := by
  cases d <;> rfl

theorem declarations_ne_nil (e : Entry) : e.declarations ≠ [] := by
  cases e <;> exact List.cons_ne_nil _ _

end Entry

structure Attempt where
  declared : Declaration
  accepted : Bool

/-- What the attempts to declare one name leave in a scope. -/
inductive Attempt.Leave : List Attempt → Option Entry → Prop
  | nothing : Leave [] none
  | single {d : Declaration} {later : List Attempt} (hd : d.function? = none)
      (h : ∀ a ∈ later, a.accepted = false) : Leave (⟨d, true⟩ :: later) (some (.ofDeclaration d))
  | functions {g : FunctionSymbol} {later : List Attempt} {overloads : Overloads}
      (hall : overloads.toList = g :: later.filterMap (·.declared.function?))
      (h : ∀ a ∈ later, a.accepted = a.declared.function?.isSome) :
      Leave (⟨.function g, true⟩ :: later) (some (.functions overloads))

namespace Attempt

theorem forall_mem_concat {p : Attempt → Prop} {as : List Attempt} {a : Attempt}
    (h : ∀ b ∈ as, p b) (ha : p a) : ∀ b ∈ as ++ [a], p b := by
  simpa [or_imp, forall_and] using ⟨h, ha⟩

theorem Leave.accept {as : List Attempt} {entry : Option Entry} {e : Entry} {d : Declaration}
    (h : Leave as entry) (hjoin : Entry.join? entry d = some e) :
    Leave (as ++ [⟨d, true⟩]) (some e) := by
  cases h with
  | nothing =>
    cases hjoin
    cases hd : d.function? with
    | none => exact .single hd nofun
    | some g =>
      obtain rfl := Declaration.eq_function hd
      exact .functions rfl nofun
  | single hd =>
    rw [Entry.join?, Entry.extend?_ofDeclaration hd] at hjoin
    cases hjoin
  | functions hall h =>
    rw [Entry.join?, Entry.extend?_functions] at hjoin
    obtain ⟨g, hg, rfl⟩ := Option.map_eq_some_iff.1 hjoin
    obtain rfl := Declaration.eq_function hg
    rw [List.cons_append]
    refine .functions ?_ (forall_mem_concat h rfl)
    rw [Overloads.toList_push, hall, List.filterMap_append]
    rfl

theorem Leave.refuse {as : List Attempt} {entry : Option Entry} {d : Declaration}
    (h : Leave as entry) (hjoin : Entry.join? entry d = none) : Leave (as ++ [⟨d, false⟩]) entry := by
  cases h with
  | nothing => cases hjoin
  | single hd h => exact .single hd (forall_mem_concat h rfl)
  | functions hall h =>
    rw [Entry.join?, Entry.extend?_functions] at hjoin
    have hd : d.function? = none := Option.map_eq_none_iff.1 hjoin
    rw [List.cons_append]
    refine .functions ?_ (forall_mem_concat h (by simp [hd]))
    rw [hall, List.filterMap_append]
    simp [hd]

theorem Leave.mem_declarations {as : List Attempt} {e : Entry} (h : Leave as (some e))
    {d : Declaration} (hd : d ∈ e.declarations) : ∃ a ∈ as, a.declared = d := by
  generalize hentry : some e = entry at h
  cases h with
  | nothing => cases hentry
  | @single d' =>
    cases hentry
    rw [Entry.declarations_ofDeclaration] at hd
    exact ⟨_, List.mem_cons_self, (List.mem_singleton.1 hd).symm⟩
  | functions hall =>
    cases hentry
    obtain ⟨g, hg, rfl⟩ := List.mem_map.1 hd
    rw [hall] at hg
    rcases List.mem_cons.1 hg with rfl | hg
    · exact ⟨_, List.mem_cons_self, rfl⟩
    · obtain ⟨a, ha, hfun⟩ := List.mem_filterMap.1 hg
      exact ⟨a, List.mem_cons_of_mem _ ha, Declaration.eq_function hfun⟩

end Attempt

namespace ScopeForest

theorem find?_new (s : ScopeId) (name : String) : ({} : ScopeForest).find? s name = none := by
  obtain ⟨_ | i⟩ := s <;> rfl

theorem find?_push (f : ScopeForest) {a : Scope} (h : a.symbols = {}) (s : ScopeId)
    (name : String) : (f.push a).find? s name = f.find? s name := by
  refine read_push (·.bind (·.symbols.find? name)) f ?_ s
  rw [Option.bind_some, h]
  rfl

theorem find?_modify (f : ScopeForest) (s t : ScopeId) {g : Scope → Scope}
    (hg : ∀ a, (g a).symbols = a.symbols) (name : String) :
    (f.modify s g).find? t name = f.find? t name :=
  read_modify (·.bind (·.symbols.find? name)) f s t fun a => congrArg (·.find? name) (hg a)

theorem find?_createScope (f : ScopeForest) (parent : ScopeId) (name : String)
    (owner : Option ScopeOwner) (s : ScopeId) (key : String) :
    (f.createScope parent name owner).2.find? s key = f.find? s key := by
  obtain ⟨t, -, heq⟩ | ⟨-, -, heq⟩ | ⟨-, -, heq⟩ := f.createScope_cases parent name owner <;> rw [heq]
  · exact find?_modify f t s (Scope.symbols_offerOwner owner) key
  · exact find?_push f rfl s key
  · exact find?_push f rfl s key

theorem LogsGrow.find? {f g : ScopeForest} (h : f.LogsGrow g) (s : ScopeId) (name : String) :
    g.find? s name = f.find? s name := by
  rw [ScopeForest.find?, ScopeForest.find?]
  cases hf : f.get? s with
  | none => rw [h.get?_eq_none hf]
  | some a =>
    obtain ⟨b, hb, hab⟩ := h.scopes s a hf
    rw [hb, Option.bind_some, Option.bind_some, hab.symbols]

theorem find?_of_declare {f g : ScopeForest} {t : ScopeId} {d : Declaration}
    (h : f.declare t d = .ok g) (s : ScopeId) (name : String) :
    g.find? s name = if t = s ∧ d.name = name then Entry.join? (f.find? s name) d
      else f.find? s name := by
  obtain ⟨a, symbols, ha, hins, rfl⟩ := eq_modify_of_declare h
  rw [find?, find?, get?_modify]
  by_cases hts : t = s
  · subst hts
    simp only [ha, true_and, Option.bind_some, Option.map_some, if_true]
    exact SymbolTable.find?_insert? hins name
  · have hboth : ¬(t = s ∧ d.name = name) := fun h => hts h.1
    rw [if_neg hboth, if_neg hts, Option.map_id]
    rfl

end ScopeForest

theorem SymbolTable.insert?_eq_none_iff_join? (table : SymbolTable) (d : Declaration) :
    table.insert? d = none ↔ Entry.join? (table.find? d.name) d = none := by
  rw [SymbolTable.insert?_eq_none_iff]
  cases table.find? d.name with
  | none => simp [Entry.join?]
  | some e => simp [Entry.join?]

namespace Session

theorem declare_cases (x : Session) (scope : ScopeId) (d : Declaration) :
    (x.scopes.size ≤ scope.index ∧ x.declare scope d = (false, x)) ∨
    (scope.index < x.scopes.size ∧ Entry.join? (x.scopes.find? scope d.name) d = none ∧
      x.declare scope d = (false, x.report (.duplicateSymbol d.name d.ident.span))) ∨
    ∃ scopes e, scope.index < x.scopes.size ∧
      Entry.join? (x.scopes.find? scope d.name) d = some e ∧
      x.scopes.declare scope d = .ok scopes ∧ x.declare scope d = (true, { x with scopes }) := by
  cases hget : x.scopes.get? scope with
  | none =>
    have hdeclare : x.scopes.declare scope d = .error .noSuchScope := by
      rw [ScopeForest.declare, hget]
    refine .inl ⟨(ScopeForest.get?_eq_none_iff _ _).1 hget, ?_⟩
    rw [declare, hdeclare]
    simp [DeclareError.diagnostic?, reportAll]
  | some a =>
    have hlt := ScopeForest.get?_eq_some_lt hget
    have hfind : x.scopes.find? scope d.name = a.symbols.find? d.name := by
      rw [ScopeForest.find?, hget, Option.bind_some]
    have hjoin := a.symbols.insert?_eq_none_iff_join? d
    rw [← hfind] at hjoin
    cases hins : a.symbols.insert? d with
    | none =>
      have hdeclare : x.scopes.declare scope d = .error (.duplicate d) := by
        simp only [ScopeForest.declare, hget, hins]
      refine .inr (.inl ⟨hlt, hjoin.1 hins, ?_⟩)
      rw [declare, hdeclare]
      rfl
    | some symbols =>
      have hdeclare : ∃ scopes, x.scopes.declare scope d = .ok scopes := by
        simp only [ScopeForest.declare, hget, hins]
        exact ⟨_, rfl⟩
      obtain ⟨scopes, hscopes⟩ := hdeclare
      have hsome : Entry.join? (x.scopes.find? scope d.name) d ≠ none := fun hnone => by
        cases hins.symm.trans (hjoin.2 hnone)
      obtain ⟨e, he⟩ := Option.ne_none_iff_exists'.1 hsome
      refine .inr (.inr ⟨scopes, e, hlt, he, hscopes, ?_⟩)
      rw [declare, hscopes]

inductive Step where
  | createScope (parent : ScopeId) (name : String) (owner : Option ScopeOwner)
  | declare (scope : ScopeId) (d : Declaration)
  | check (step : CheckStep)

def Step.apply (x : Session) : Step → Session
  | createScope parent name owner => (x.createScope parent name owner).2
  | declare scope d => (x.declare scope d).2
  | check step => step.apply x

def run (x : Session) : List Step → Session
  | [] => x
  | step :: steps => (step.apply x).run steps

def Step.attempt? (x : Session) (scope : ScopeId) (name : String) : Step → Option Attempt
  | declare target d =>
    if target = scope ∧ target.index < x.scopes.size ∧ d.name = name then
      some ⟨d, (x.declare target d).1⟩
    else none
  | createScope .. | check _ => none

def attempts (x : Session) (scope : ScopeId) (name : String) : List Step → List Attempt
  | [] => []
  | step :: steps =>
    (step.attempt? x scope name).toList ++ (step.apply x).attempts scope name steps

section
variable {x : Session} {scope : ScopeId} {name : String} {as : List Attempt}

theorem leave_declare (h : Attempt.Leave as (x.scopes.find? scope name)) (target : ScopeId)
    (d : Declaration) :
    Attempt.Leave (as ++ ((Step.declare target d).attempt? x scope name).toList)
      ((x.declare target d).2.scopes.find? scope name) := by
  rw [Step.attempt?]
  -- nowhere to go, refused, or taken
  obtain ⟨hle, heq⟩ | ⟨hlt, hjoin, heq⟩ | ⟨scopes, e, hlt, hjoin, hscopes, heq⟩ :=
    x.declare_cases target d
  · have hnot : ¬(target = scope ∧ target.index < x.scopes.size ∧ d.name = name) :=
      fun h => Nat.not_le_of_lt h.2.1 hle
    rw [if_neg hnot, heq]
    simpa using h
  · rw [heq]
    by_cases hhere : target = scope ∧ d.name = name
    · obtain ⟨rfl, rfl⟩ := hhere
      rw [if_pos ⟨rfl, hlt, rfl⟩]
      exact h.refuse hjoin
    · rw [if_neg fun h => hhere ⟨h.1, h.2.2⟩]
      simpa [report] using h
  · have hfind := ScopeForest.find?_of_declare hscopes scope name
    rw [heq]
    by_cases hhere : target = scope ∧ d.name = name
    · obtain ⟨rfl, rfl⟩ := hhere
      rw [if_pos ⟨rfl, hlt, rfl⟩]
      rw [if_pos ⟨rfl, rfl⟩, hjoin] at hfind
      exact hfind ▸ h.accept hjoin
    · rw [if_neg hhere] at hfind
      rw [if_neg fun h => hhere ⟨h.1, h.2.2⟩, hfind]
      simpa using h

theorem leave_apply (h : Attempt.Leave as (x.scopes.find? scope name)) (step : Step) :
    Attempt.Leave (as ++ (step.attempt? x scope name).toList)
      ((step.apply x).scopes.find? scope name) := by
  cases step with
  | createScope parent name' owner =>
    have hfind := x.scopes.find?_createScope parent name' owner scope name
    simpa [Step.attempt?] using hfind.symm ▸ h
  | declare target d => exact leave_declare h target d
  | check step =>
    have hfind := (undisturbed_apply x step).scopes.find? scope name
    simpa [Step.attempt?] using hfind.symm ▸ h

theorem leave_run (h : Attempt.Leave as (x.scopes.find? scope name)) (steps : List Step) :
    Attempt.Leave (as ++ x.attempts scope name steps) ((x.run steps).scopes.find? scope name) := by
  induction steps generalizing x as with
  | nil => simpa [attempts, run] using h
  | cons step steps ih =>
    rw [attempts, ← List.append_assoc]
    exact ih (leave_apply h step)

theorem Step.name_of_attempt? {step : Step} {a : Attempt}
    (h : step.attempt? x scope name = some a) : a.declared.name = name := by
  cases step with
  | createScope parent name' owner => cases h
  | check step => cases h
  | declare target d =>
    rw [Step.attempt?] at h
    split at h
    · next hhere =>
      cases h
      exact hhere.2.2
    · cases h

theorem name_of_mem_attempts {steps : List Step} {a : Attempt}
    (h : a ∈ x.attempts scope name steps) : a.declared.name = name := by
  induction steps generalizing x with
  | nil => cases h
  | cons step steps ih =>
    rcases List.mem_append.1 h with hhead | htail
    · exact Step.name_of_attempt? (Option.mem_toList.1 hhead)
    · exact ih htail

end

/-- Whatever else a session does, the entry of a name is what the attempts to declare it in its scope
leave. An attempt that fails there is reported once, and one in a scope that does not exist is
not; neither changes a scope. -/
theorem entries_left_by_attempts (builtins : BuiltinTypes) (depthLimit : Nat) (steps : List Step) :
    let start : Session := { builtins, depthLimit }
    let x := start.run steps
    (∀ scope name, Attempt.Leave (start.attempts scope name steps) (x.scopes.find? scope name)) ∧
    (∀ scope name entry, x.scopes.find? scope name = some entry →
      entry.declarations ≠ [] ∧ ∀ d ∈ entry.declarations, d.name = name) ∧
    (∀ scope d, scope.index < x.scopes.size → (x.declare scope d).1 = false →
      (x.declare scope d).2 = x.report (.duplicateSymbol d.name d.ident.span)) ∧
    ∀ scope d, x.scopes.size ≤ scope.index → x.declare scope d = (false, x) := by
  intro start x
  have hleave (scope : ScopeId) (name : String) :
      Attempt.Leave (start.attempts scope name steps) (x.scopes.find? scope name) := by
    have hnew : Attempt.Leave [] (start.scopes.find? scope name) := by
      rw [show start.scopes = {} from rfl, ScopeForest.find?_new]
      exact .nothing
    exact leave_run hnew steps
  refine ⟨hleave, fun scope name entry hfind => ⟨entry.declarations_ne_nil, fun d hd => ?_⟩, ?_, ?_⟩
  · obtain ⟨a, ha, rfl⟩ := (hfind ▸ hleave scope name).mem_declarations hd
    exact name_of_mem_attempts ha
  · intro scope d hlt hrefused
    obtain ⟨hle, -⟩ | ⟨-, -, heq⟩ | ⟨scopes, e, -, -, -, heq⟩ := x.declare_cases scope d
    · exact absurd hlt (Nat.not_lt_of_le hle)
    · rw [heq]
    · rw [heq] at hrefused
      cases hrefused
  · intro scope d hle
    obtain ⟨-, heq⟩ | ⟨hlt, -⟩ | ⟨scopes, e, hlt, -⟩ := x.declare_cases scope d
    · exact heq
    · exact absurd hle (Nat.not_le_of_lt hlt)
    · exact absurd hle (Nat.not_le_of_lt hlt)

/-! A function, a variable and a second function are declared under one name. -/

namespace Overloading

open ScopeForest (root)
open ScopeForest.Boxes (token unary number box)

def blank : Session := { builtins := ((BuiltinTypes.ofNumberNames ["int"]).run {}).1, depthLimit := 64 }

def putNumber : FunctionSymbol := unary (token 3 "put") number

def putBox : FunctionSymbol := unary (token 5 "put") box

def putVariable : Declaration := .variable ⟨token 4 "put", some number⟩

def steps : List Step :=
  [.declare root (.function putNumber), .declare root putVariable, .declare root (.function putBox)]

end Overloading

open Overloading in
open ScopeForest (root) in
theorem entries_left_by_attempts_overloading :
    blank.attempts root "put" steps =
      [⟨.function putNumber, true⟩, ⟨putVariable, false⟩, ⟨.function putBox, true⟩] ∧
    (blank.run steps).scopes.find? root "put" = some (.functions ⟨putNumber, [putBox]⟩) ∧
    (∀ d ∈ (Entry.functions ⟨putNumber, [putBox]⟩).declarations, d.name = "put") ∧
    ((blank.run steps).declare root putVariable).2 =
      (blank.run steps).report (.duplicateSymbol "put" {}) ∧
    (blank.run steps).declare ⟨7⟩ putVariable = (false, blank.run steps) := by
  have hfind : (blank.run steps).scopes.find? root "put" =
      some (.functions ⟨putNumber, [putBox]⟩) := by with_unfolding_all rfl
  have hsize : (blank.run steps).scopes.size = 1 := by with_unfolding_all rfl
  obtain ⟨-, hnames, hrefused, hnowhere⟩ := entries_left_by_attempts blank.builtins 64 steps
  refine ⟨by with_unfolding_all rfl, hfind, (hnames root "put" _ hfind).2,
    hrefused root putVariable ?_ (by with_unfolding_all rfl), hnowhere ⟨7⟩ putVariable ?_⟩
  · exact Nat.lt_of_lt_of_eq Nat.one_pos hsize.symm
  · exact Nat.le_trans (Nat.le_of_eq hsize) (by decide)

end Session

end ScriptSemantics
