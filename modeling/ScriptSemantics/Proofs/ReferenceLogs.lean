import ScriptSemantics.Proofs.Declarations

/-! What becomes of references. A session records one for each that is pushed into a scope that is
there, and one for each call that has something to be bound to. The logs hold these records and
nothing else, each in its own scope, so both questions that can be put to the logs are answered from
the records. -/

namespace ScriptSemantics

section
variable {α : Type} (key : α → Nat)

theorem mem_iff_of_filter_key_eq {l l' : List α}
    (h : ∀ k, l.filter (key · == k) = l'.filter (key · == k)) (a : α) : a ∈ l ↔ a ∈ l' := by
  have ha := congrArg (a ∈ ·) (h (key a))
  simpa using ha

theorem eq_of_filter_key_eq {l l' : List α} (hl : l.Pairwise (key · ≤ key ·))
    (hl' : l'.Pairwise (key · ≤ key ·))
    (h : ∀ k, l.filter (key · == k) = l'.filter (key · == k)) : l = l' := by
  induction l generalizing l' with
  | nil =>
    have hnone (a : α) : a ∉ l' := fun ha =>
      List.not_mem_nil ((mem_iff_of_filter_key_eq key h a).2 ha)
    exact (List.eq_nil_iff_forall_not_mem.2 hnone).symm
  | cons a l ih =>
    have hmem := mem_iff_of_filter_key_eq key h
    cases l' with
    | nil => exact absurd ((hmem a).1 List.mem_cons_self) List.not_mem_nil
    | cons b l' =>
      obtain ⟨hfirst, hrest⟩ := List.pairwise_cons.1 hl
      obtain ⟨hfirst', hrest'⟩ := List.pairwise_cons.1 hl'
      -- each of the two first elements stands in the other list, so neither key is below the other
      have hab : key a ≤ key b := by
        rcases List.mem_cons.1 ((hmem b).2 List.mem_cons_self) with rfl | hb
        · exact Nat.le_refl _
        · exact hfirst b hb
      have hba : key b ≤ key a := by
        rcases List.mem_cons.1 ((hmem a).1 List.mem_cons_self) with rfl | ha
        · exact Nat.le_refl _
        · exact hfirst' a ha
      have hhead := h (key a)
      simp only [List.filter_cons, Nat.le_antisymm hba hab, beq_self_eq_true, if_true] at hhead
      obtain ⟨rfl, -⟩ := List.cons.inj hhead
      have htail (k : Nat) : l.filter (key · == k) = l'.filter (key · == k) := by
        have hk := h k
        simp only [List.filter_cons] at hk
        split at hk
        · exact (List.cons.inj hk).2
        · exact hk
      rw [ih hrest hrest' htail]

theorem le_trans_key (a b c : α) (hab : decide (key a ≤ key b) = true)
    (hbc : decide (key b ≤ key c) = true) : decide (key a ≤ key c) = true :=
  decide_eq_true (Nat.le_trans (of_decide_eq_true hab) (of_decide_eq_true hbc))

theorem le_total_key (a b : α) : (decide (key a ≤ key b) || decide (key b ≤ key a)) = true := by
  simpa using Nat.le_total (key a) (key b)

theorem pairwise_filter_key (l : List α) (k : Nat) :
    (l.filter (key · == k)).Pairwise (key · ≤ key ·) := by
  refine List.pairwise_of_forall_mem_list fun a ha b hb => ?_
  have hka : key a = k := by simpa using (List.mem_filter.1 ha).2
  have hkb : key b = k := by simpa using (List.mem_filter.1 hb).2
  exact Nat.le_of_eq (hka.trans hkb.symm)

theorem filter_mergeSort_key (l : List α) (k : Nat) :
    (l.mergeSort fun a b => decide (key a ≤ key b)).filter (key · == k) = l.filter (key · == k) := by
  have hequal : (l.filter (key · == k)).Pairwise fun a b => decide (key a ≤ key b) = true := by
    simpa only [decide_eq_true_eq] using pairwise_filter_key key l k
  -- elements of one key are in order already, and what is in order keeps its order
  have hsub := (List.sublist_mergeSort (le_trans_key key) (le_total_key key) hequal
    List.filter_sublist).filter (key · == k)
  rw [List.filter_filter] at hsub
  simp only [Bool.and_self] at hsub
  have hperm := (List.mergeSort_perm l fun a b => decide (key a ≤ key b)).filter (key · == k)
  exact (hsub.eq_of_length hperm.length_eq.symm).symm

theorem filter_flatMap_range (l : List α) (n k : Nat) :
    ((List.range n).flatMap fun i => l.filter (key · == i)).filter (key · == k) =
      if k < n then l.filter (key · == k) else [] := by
  induction n with
  | zero => rfl
  | succ n ih =>
    have hlast : (l.filter (key · == n)).filter (key · == k) =
        if k = n then l.filter (key · == k) else [] := by
      rw [List.filter_filter]
      split
      · next h => simp only [h, Bool.and_self]
      · next h =>
        refine List.filter_eq_nil_iff.2 fun a _ ha => h ?_
        obtain ⟨hk, hn⟩ : key a = k ∧ key a = n := by simpa using ha
        exact hk.symm.trans hn
    rw [List.range_succ, List.flatMap_append, List.filter_append, ih, List.flatMap_singleton, hlast]
    rcases Nat.lt_trichotomy k n with hlt | rfl | hgt
    · simp [hlt, Nat.ne_of_lt hlt, Nat.lt_succ_of_lt hlt]
    · simp
    · simp [Nat.not_lt_of_gt hgt, Nat.ne_of_gt hgt, Nat.not_lt.2 hgt]

theorem mergeSort_key_eq_flatMap (l : List α) {n : Nat} (hn : ∀ a ∈ l, key a < n) :
    (l.mergeSort fun a b => decide (key a ≤ key b)) =
      (List.range n).flatMap fun i => l.filter (key · == i) := by
  have hsorted : (l.mergeSort fun a b => decide (key a ≤ key b)).Pairwise (key · ≤ key ·) := by
    have h := List.pairwise_mergeSort (le_trans_key key) (le_total_key key) l
    simpa only [decide_eq_true_eq] using h
  have hcollected : ((List.range n).flatMap fun i => l.filter (key · == i)).Pairwise
      (key · ≤ key ·) := by
    refine List.pairwise_flatMap.2 ⟨fun i _ => pairwise_filter_key key l i, ?_⟩
    refine List.pairwise_lt_range.imp fun {i j} hij a ha b hb => ?_
    have hia : key a = i := by simpa using (List.mem_filter.1 ha).2
    have hjb : key b = j := by simpa using (List.mem_filter.1 hb).2
    omega
  refine eq_of_filter_key_eq key hsorted hcollected fun k => ?_
  rw [filter_mergeSort_key, filter_flatMap_range]
  split
  · rfl
  · next hk =>
    refine List.filter_eq_nil_iff.2 fun a ha hak => hk ?_
    have hka : key a = k := by simpa using hak
    exact hka ▸ hn a ha

end

structure Record where
  scope : ScopeId
  reference : Reference

def Record.inOrder (records : List Record) : List Record :=
  records.mergeSort fun a b => decide (a.scope.index ≤ b.scope.index)

theorem Record.filter_record {scope : ScopeId} {n : Nat} {r : Reference} (t : ScopeId) :
    ((if scope.index < n then some (Record.mk scope r) else none).toList.filter
        (·.scope == t)).map (·.reference) =
      if t = scope ∧ t.index < n then [r] else [] := by
  by_cases hscope : t = scope
  · subst hscope
    by_cases hlt : t.index < n <;> simp [hlt]
  · have hne : scope ≠ t := Ne.symm hscope
    by_cases hlt : scope.index < n <;> simp [hlt, hne, hscope]

namespace ScopeForest

instance (f : ScopeForest) (depthLimit : Nat) (call : Call) :
    DecidablePred (f.Applicable depthLimit call) :=
  fun g => decidable_of_iff _ (f.accepts_iff_applicable depthLimit call g)

theorem references_push (f : ScopeForest) {a : Scope} (h : a.references = []) (s : ScopeId) :
    (f.push a).references s = f.references s :=
  read_push (fun scope => (scope.map Scope.references).getD []) f h s

theorem references_modify (f : ScopeForest) (s t : ScopeId) {g : Scope → Scope}
    (hg : ∀ a, (g a).references = a.references) : (f.modify s g).references t = f.references t :=
  read_modify (fun scope => (scope.map Scope.references).getD []) f s t hg

theorem references_createScope (f : ScopeForest) (parent : ScopeId) (name : String)
    (owner : Option ScopeOwner) (s : ScopeId) :
    (f.createScope parent name owner).2.references s = f.references s := by
  obtain ⟨t, -, heq⟩ | ⟨-, -, heq⟩ | ⟨-, -, heq⟩ := f.createScope_cases parent name owner <;> rw [heq]
  · exact references_modify f t s fun _ => rfl
  · exact references_push f rfl s
  · exact references_push f rfl s

theorem references_of_declare {f g : ScopeForest} {t : ScopeId} {d : Declaration}
    (h : f.declare t d = .ok g) (s : ScopeId) : g.references s = f.references s := by
  obtain ⟨a, symbols, -, -, rfl⟩ := eq_modify_of_declare h
  exact references_modify f t s fun _ => rfl

theorem allReferences_eq_flatMap (f : ScopeForest) :
    f.allReferences = (List.range f.size).flatMap fun i => f.references ⟨i⟩ := by
  have hlist (l : List Scope) : l.flatMap (·.references) =
      (List.range l.length).flatMap fun i => (l[i]?.map (·.references)).getD [] := by
    induction l with
    | nil => rfl
    | cons a l ih =>
      rw [List.flatMap_cons, List.length_cons, List.range_succ_eq_map, List.flatMap_cons,
        List.flatMap_map, ih]
      rfl
  rw [allReferences, hlist, Array.length_toList]
  simp only [Array.getElem?_toList]
  rfl

end ScopeForest

theorem Resolution.Chosen.first_or_last {p : FunctionSymbol → Prop} [DecidablePred p]
    {callee : List FunctionSymbol} {i : Nat} {g : FunctionSymbol} (h : Chosen p callee i g) :
    (callee.find? fun g => decide (p g)).or callee.getLast? = some g := by
  by_cases hg : p g
  · obtain ⟨hlt, hget⟩ := List.getElem?_eq_some_iff.1 h.here
    have hfind : callee.find? (fun g => decide (p g)) = some g := by
      refine List.find?_eq_some_iff_getElem.2 ⟨decide_eq_true hg, i, hlt, hget, fun j hj => ?_⟩
      have hbefore := h.before j _ hj (List.getElem?_eq_getElem (Nat.lt_trans hj hlt))
      simpa using hbefore
    rw [hfind, Option.some_or]
  · have hnone : callee.find? (fun g => decide (p g)) = none := by
      refine List.find?_eq_none.2 fun fn hfn hp => hg (h.holds_iff.2 ⟨fn, hfn, ?_⟩)
      exact of_decide_eq_true hp
    have hlast : callee.length - 1 = i := by
      have := h.last hg
      omega
    rw [hnone, Option.none_or, List.getLast?_eq_getElem?, hlast, h.here]

namespace Session

def bound? (x : Session) (c : Call) (callee : List FunctionSymbol) : Option FunctionSymbol :=
  (callee.find? fun g => decide (x.scopes.Applicable x.depthLimit c g)).or callee.getLast?

def Step.record? (x : Session) : Step → Option Record
  | check (.pushReference scope r) => if scope.index < x.scopes.size then some ⟨scope, r⟩ else none
  | check (.query (.call scope c callee)) =>
    (x.bound? c callee).bind fun g =>
      if scope.index < x.scopes.size then some ⟨scope, .function g, c.site.ident⟩ else none
  | createScope .. | declare .. => none
  | check (.query (.assignable ..)) | check (.query (.check ..)) => none
  | check (.pushHint ..) | check (.report _) | check .takeDiagnostics => none

def records (x : Session) : List Step → List Record
  | [] => []
  | step :: steps => (step.record? x).toList ++ (step.apply x).records steps

theorem map_function_resolve (x : Session) (c : Call) (callee : List FunctionSymbol) :
    (x.scopes.resolve x.depthLimit c callee).map (·.function) = x.bound? c callee := by
  cases hr : x.scopes.resolve x.depthLimit c callee with
  | none =>
    have hnil : callee = [] := by
      refine Classical.byContradiction fun hne => ?_
      obtain ⟨r, hr'⟩ := x.scopes.exists_resolve x.depthLimit c hne
      cases hr.symm.trans hr'
    rw [hnil]
    rfl
  | some r => exact (ScopeForest.chosen_of_resolve hr).first_or_last.symm

theorem references_call (x : Session) (scope : ScopeId) (c : Call) (callee : List FunctionSymbol)
    (t : ScopeId) :
    (x.call scope c callee).2.scopes.references t = x.scopes.references t ++
      (((Step.check (.query (.call scope c callee))).record? x).toList.filter
        (·.scope == t)).map (·.reference) := by
  have hlogged := ((Query.call scope c callee).gives_outcome x).references t
  refine hlogged.trans (congrArg (x.scopes.references t ++ ·) ?_)
  rw [Step.record?, ← map_function_resolve, Query.outcome]
  cases x.scopes.resolve x.depthLimit c callee with
  | none => rfl
  | some r => exact (Record.filter_record t).symm

theorem references_declare (x : Session) (scope : ScopeId) (d : Declaration) (t : ScopeId) :
    (x.declare scope d).2.scopes.references t = x.scopes.references t := by
  obtain ⟨-, heq⟩ | ⟨-, -, heq⟩ | ⟨scopes, e, -, -, hscopes, heq⟩ := x.declare_cases scope d <;>
    rw [heq]
  · rfl
  · exact ScopeForest.references_of_declare hscopes t

theorem references_apply (x : Session) (step : Step) (t : ScopeId) :
    (step.apply x).scopes.references t = x.scopes.references t ++
      ((step.record? x).toList.filter (·.scope == t)).map (·.reference) := by
  have hsilent {y : Session} (h : y.scopes.references t = x.scopes.references t) :
      y.scopes.references t = x.scopes.references t ++ [] := h.trans (List.append_nil _).symm
  cases step with
  | createScope parent name owner =>
    exact hsilent (x.scopes.references_createScope parent name owner t)
  | declare scope d => exact hsilent (x.references_declare scope d t)
  | check step =>
    cases step with
    | query q =>
      cases q with
      | assignable src dest => exact hsilent rfl
      | check src dest span => exact ((Query.check src dest span).gives_outcome x).references t
      | call scope c callee => exact x.references_call scope c callee t
    | pushReference scope r =>
      rw [Step.record?, Record.filter_record]
      exact x.scopes.references_pushReference scope t r
    | pushHint scope h => exact hsilent (x.scopes.references_modify scope t fun _ => rfl)
    | report d => exact hsilent rfl
    | takeDiagnostics => exact hsilent rfl

theorem references_run (x : Session) (steps : List Step) (t : ScopeId) :
    (x.run steps).scopes.references t = x.scopes.references t ++
      ((x.records steps).filter (·.scope == t)).map (·.reference) := by
  induction steps generalizing x with
  | nil => exact (List.append_nil _).symm
  | cons step steps ih =>
    rw [run, ih, references_apply, records, List.filter_append, List.map_append, List.append_assoc]

section
variable {f : ScopeForest} {records : List Record}
  (h : ∀ s, f.references s = (records.filter (·.scope == s)).map (·.reference))
include h

theorem lt_size_of_mem_records {r : Record} (hr : r ∈ records) : r.scope.index < f.size := by
  refine Nat.lt_of_not_le fun hle => ?_
  have hnone : f.references r.scope = [] := by
    rw [ScopeForest.references, (ScopeForest.get?_eq_none_iff f r.scope).2 hle]
    rfl
  have hempty : records.filter (·.scope == r.scope) = [] := by
    rw [h] at hnone
    exact List.map_eq_nil_iff.1 hnone
  have hmem : r ∈ records.filter (·.scope == r.scope) := List.mem_filter.2 ⟨hr, beq_self_eq_true _⟩
  rw [hempty] at hmem
  exact List.not_mem_nil hmem

theorem allReferences_eq_inOrder : f.allReferences = (Record.inOrder records).map (·.reference) := by
  have hscope (s : ScopeId) : records.filter (·.scope == s) =
      records.filter (·.scope.index == s.index) := by
    refine List.filter_congr fun r _ => ?_
    obtain ⟨⟨i⟩, reference⟩ := r
    obtain ⟨j⟩ := s
    rw [Bool.eq_iff_iff]
    simp only [beq_iff_eq, ScopeId.mk.injEq]
  rw [ScopeForest.allReferences_eq_flatMap, Record.inOrder,
    mergeSort_key_eq_flatMap (·.scope.index) records fun r hr => lt_size_of_mem_records h hr,
    List.map_flatMap]
  simp only [h, hscope]

end

/-- Every record is in the log of its own scope, once and in order of time, and no log holds more.
So the references to a declaration are the records of it, by scopes and then by time. A position
refers to a declaration only if a record of that covers it, and to none only if no record does. -/
theorem logs_hold_records (builtins : BuiltinTypes) (depthLimit : Nat) (steps : List Step) :
    let start : Session := { builtins, depthLimit }
    let f := (start.run steps).scopes
    let records := start.records steps
    (∀ s, f.references s = (records.filter (·.scope == s)).map (·.reference)) ∧
    (∀ token, f.referencesTo token = ((Record.inOrder records).filter
      (·.reference.declared.ident.id == token.id)).map (·.reference)) ∧
    (∀ line col d, f.declarationAt line col = some d → ∃ r ∈ f.referencesTo d.ident,
      r.declared = d ∧ r.token.span.contains line col = true) ∧
    ∀ line col, f.declarationAt line col = none →
      ∀ r ∈ records, r.reference.token.span.contains line col = false := by
  intro start f records
  have hlogs (s : ScopeId) : f.references s = (records.filter (·.scope == s)).map (·.reference) := by
    have hnew : start.scopes.references s = [] := by
      obtain ⟨_ | i⟩ := s <;> rfl
    have hrun := start.references_run steps s
    rwa [hnew, List.nil_append] at hrun
  have hall : f.allReferences = (Record.inOrder records).map (·.reference) :=
    allReferences_eq_inOrder hlogs
  refine ⟨hlogs, fun token => ?_, fun line col d hd => ?_, fun line col hnone r hr => ?_⟩
  · rw [ScopeForest.referencesTo, hall, List.filter_map]
    rfl
  · obtain ⟨r, hr, rfl⟩ := Option.map_eq_some_iff.1 hd
    have hmem : r ∈ f.allReferences := List.mem_of_find?_eq_some hr
    have hcovers : r.token.span.contains line col = true := by simpa using List.find?_some hr
    exact ⟨r, List.mem_filter.2 ⟨hmem, (Token.same_iff _ _).2 rfl⟩, rfl, hcovers⟩
  · have hmem : r.reference ∈ f.allReferences := by
      rw [hall]
      exact List.mem_map_of_mem ((List.mergeSort_perm _ _).mem_iff.2 hr)
    have hno := List.find?_eq_none.1 (Option.map_eq_none_iff.1 hnone) _ hmem
    simpa using hno

/-! A call in the root, and before it a reference from a scope inside and one that has nowhere to
go. -/

namespace Referring

open ScopeForest (root)
open ScopeForest.Boxes (number)
open Overloading (putNumber putBox putVariable)

def name (index line : UInt32) : Token :=
  ⟨⟨index⟩, "put", .identifier, { line, col := 4, len := 3 }, {}⟩

def call : Call := ⟨.function (name 20 2) {}, [⟨some number, {}⟩], none⟩

def steps : List Step :=
  [.createScope root "A" none, .check (.pushReference ⟨1⟩ ⟨putVariable, name 21 1⟩),
    .check (.pushReference ⟨7⟩ ⟨putVariable, name 22 3⟩),
    .check (.query (.call root call [putBox, putNumber]))]

end Referring

open Referring in
open ScopeForest (root) in
open Overloading (blank putNumber putVariable) in
theorem logs_hold_records_referring :
    blank.records steps = [⟨⟨1⟩, putVariable, name 21 1⟩, ⟨root, .function putNumber, name 20 2⟩] ∧
    ((blank.run steps).scopes.declarationAt 2 6 = some (.function putNumber) ∧
      ∃ r ∈ (blank.run steps).scopes.referencesTo putNumber.ident,
        r.declared = .function putNumber ∧ r.token.span.contains 2 6 = true) ∧
    (blank.run steps).scopes.declarationAt 3 6 = none ∧
    ∀ r ∈ blank.records steps, r.reference.token.span.contains 3 6 = false := by
  have hcovered : (blank.run steps).scopes.declarationAt 2 6 = some (.function putNumber) := by
    with_unfolding_all rfl
  have hbare : (blank.run steps).scopes.declarationAt 3 6 = none := by with_unfolding_all rfl
  obtain ⟨-, -, hdeclared, hnowhere⟩ := logs_hold_records blank.builtins 64 steps
  exact ⟨by with_unfolding_all rfl, ⟨hcovered, hdeclared 2 6 _ hcovered⟩, hbare,
    hnowhere 3 6 hbare⟩

end Session

end ScriptSemantics
