import ScriptSemantics.Proofs.ReferenceLogs

/-! What a position refers to. A cursor right behind a name is still on it, and the first reference
found wins, so where two names touch it matters which was logged first. It does not if the names of
different declarations stand apart, however the logs are then arranged. -/

namespace ScriptSemantics

namespace Span

def Apart (a b : Span) : Prop :=
  a.col.toNat + a.len.toNat < b.col.toNat ∨ b.col.toNat + b.len.toNat < a.col.toNat

theorem Covers.not_apart {a b : Span} {line col : UInt32} (ha : a.Covers line col)
    (hb : b.Covers line col) : ¬ a.Apart b := by
  obtain ⟨-, -, ha₁, ha₂⟩ := ha
  obtain ⟨-, -, hb₁, hb₂⟩ := hb
  unfold Apart
  omega

end Span

namespace ScopeForest

def Recorded (f : ScopeForest) (r : Reference) : Prop := ∃ s, r ∈ f.references s

def Separated (f : ScopeForest) : Prop :=
  ∀ r r', f.Recorded r → f.Recorded r' → r.declared.ident.id ≠ r'.declared.ident.id →
    r.token.span.isVirtual = false → r'.token.span.isVirtual = false →
    r.token.span.line = r'.token.span.line → r.token.span.Apart r'.token.span

/-- The same references, in whatever order and whichever scopes. Those from outside all files do not
count. -/
def SameReferences (f g : ScopeForest) : Prop :=
  ∀ r, r.token.span.isVirtual = false → (g.Recorded r ↔ f.Recorded r)

theorem mem_allReferences_iff (f : ScopeForest) (r : Reference) :
    r ∈ f.allReferences ↔ f.Recorded r := by
  rw [allReferences_eq_flatMap, List.mem_flatMap]
  constructor
  · rintro ⟨i, -, hr⟩
    exact ⟨⟨i⟩, hr⟩
  · rintro ⟨s, hr⟩
    have hlt : s.index < f.size := by
      refine Nat.lt_of_not_le fun hle => ?_
      rw [references, (get?_eq_none_iff f s).2 hle] at hr
      exact List.not_mem_nil hr
    exact ⟨s.index, List.mem_range.2 hlt, hr⟩

theorem declarationAt_eq_find?_covers (f : ScopeForest) (line col : UInt32) :
    f.declarationAt line col = (f.allReferences.find? fun r =>
      decide (r.token.span.Covers line col)).map (·.declared) := by
  have hcovers : (fun r : Reference => r.token.span.contains line col) =
      fun r => decide (r.token.span.Covers line col) := by
    funext r
    rw [Bool.eq_iff_iff, decide_eq_true_eq, Span.contains_iff]
  rw [declarationAt, hcovers]

section
variable {f g : ScopeForest} {line col : UInt32} {r r' : Reference}

theorem exists_of_declarationAt {d : Declaration} (h : f.declarationAt line col = some d) :
    ∃ r, f.Recorded r ∧ r.declared = d ∧ r.token.span.Covers line col := by
  obtain ⟨r, hr, rfl⟩ := Option.map_eq_some_iff.1 h
  have hmem := (f.mem_allReferences_iff r).1 (List.mem_of_find?_eq_some hr)
  have hcontains : r.token.span.contains line col = true := by simpa using List.find?_some hr
  exact ⟨r, hmem, rfl, (r.token.span.contains_iff line col).1 hcontains⟩

theorem exists_declarationAt (hr : f.Recorded r) (hcovers : r.token.span.Covers line col) :
    ∃ d, f.declarationAt line col = some d := by
  have hsome : (f.allReferences.find? (·.token.span.contains line col)).isSome = true :=
    List.find?_isSome.2
      ⟨r, (f.mem_allReferences_iff r).2 hr, (r.token.span.contains_iff line col).2 hcovers⟩
  obtain ⟨first, hfirst⟩ := Option.isSome_iff_exists.1 hsome
  exact ⟨first.declared, by rw [declarationAt, hfirst, Option.map_some]⟩

theorem isVirtual_of_covers (h : r.token.span.Covers line col) : r.token.span.isVirtual = false :=
  beq_eq_false_iff_ne.2 h.1

theorem Separated.declared_id_eq (hsep : f.Separated) (hr : f.Recorded r) (hr' : f.Recorded r')
    (h : r.token.span.Covers line col) (h' : r'.token.span.Covers line col) :
    r.declared.ident.id = r'.declared.ident.id := by
  refine Classical.byContradiction fun hne => h.not_apart h' ?_
  exact hsep r r' hr hr' hne (isVirtual_of_covers h) (isVirtual_of_covers h') (h.2.1.trans h'.2.1.symm)

theorem Separated.declarationAt_iff (hsep : f.Separated) (d : TokenId) :
    (∃ s, f.declarationAt line col = some s ∧ s.ident.id = d) ↔
      ∃ r, f.Recorded r ∧ r.declared.ident.id = d ∧ r.token.span.Covers line col := by
  constructor
  · rintro ⟨s, hs, rfl⟩
    obtain ⟨r, hr, rfl, hcovers⟩ := exists_of_declarationAt hs
    exact ⟨r, hr, rfl, hcovers⟩
  · rintro ⟨r, hr, rfl, hcovers⟩
    obtain ⟨s, hs⟩ := exists_declarationAt hr hcovers
    -- the reference found first need not be this one, but it is of the same declaration
    obtain ⟨first, hfirst, rfl, hfirstCovers⟩ := exists_of_declarationAt hs
    exact ⟨_, hs, hsep.declared_id_eq hfirst hr hfirstCovers hcovers⟩

theorem SameReferences.separated (h : f.SameReferences g) (hsep : f.Separated) : g.Separated := by
  intro r r' hr hr' hne hreal hreal' hline
  exact hsep r r' ((h r hreal).1 hr) ((h r' hreal').1 hr') hne hreal hreal' hline

theorem SameReferences.declarationAt_id (h : f.SameReferences g) (hsep : f.Separated) :
    (g.declarationAt line col).map (·.ident.id) = (f.declarationAt line col).map (·.ident.id) := by
  refine Option.ext fun d => ?_
  rw [Option.map_eq_some_iff, Option.map_eq_some_iff, hsep.declarationAt_iff,
    (h.separated hsep).declarationAt_iff]
  refine exists_congr fun r => and_congr_left fun hcovers => ?_
  exact h r (isVirtual_of_covers hcovers.2)

theorem SameReferences.declarationAt_eq (h : f.SameReferences g) (hsep : f.Separated)
    (hone : ∀ r r', f.Recorded r → f.Recorded r' →
      r.declared.ident.id = r'.declared.ident.id → r.declared = r'.declared) :
    g.declarationAt line col = f.declarationAt line col := by
  have hid : (g.declarationAt line col).map (·.ident.id) =
      (f.declarationAt line col).map (·.ident.id) := h.declarationAt_id hsep
  cases hg : g.declarationAt line col with
  | none =>
    rw [hg] at hid
    exact (Option.map_eq_none_iff.1 hid.symm).symm
  | some d =>
    rw [hg] at hid
    obtain ⟨d', hf, hd⟩ := Option.map_eq_some_iff.1 hid.symm
    obtain ⟨r, hr, rfl, hcovers⟩ := exists_of_declarationAt hg
    obtain ⟨r', hr', rfl, -⟩ := exists_of_declarationAt hf
    rw [hf, hone r' r hr' ((h r (isVirtual_of_covers hcovers)).1 hr) hd]

end

/-- If names of different declarations do not touch, a position refers to a declaration exactly if some
reference to it covers the position, as columns are counted without a greatest one. The same
references give the same declaration in any other scopes and any other order, and references from
outside all files do nothing. -/
theorem declarationAt_of_separated (f : ScopeForest) (hsep : f.Separated) (line col : UInt32) :
    (∀ d : TokenId, (∃ s, f.declarationAt line col = some s ∧ s.ident.id = d) ↔
      ∃ r, f.Recorded r ∧ r.declared.ident.id = d ∧ r.token.span.Covers line col) ∧
    (∀ g, f.SameReferences g →
      (g.declarationAt line col).map (·.ident.id) = (f.declarationAt line col).map (·.ident.id) ∧
      ((∀ r r', f.Recorded r → f.Recorded r' → r.declared.ident.id = r'.declared.ident.id →
        r.declared = r'.declared) → g.declarationAt line col = f.declarationAt line col)) ∧
    f.declarationAt line col = (f.allReferences.find? fun r =>
      decide (r.token.span.Covers line col)).map (·.declared) := by
  refine ⟨fun d => hsep.declarationAt_iff d, fun g h => ⟨h.declarationAt_id hsep, fun hone => ?_⟩,
    f.declarationAt_eq_find?_covers line col⟩
  exact h.declarationAt_eq hsep hone

/-! Two names on one line with a column between them, the second of which runs past the greatest
column. They are logged in either order, once together with a reference from outside all files. -/

namespace Neighbours

open Session.Overloading (putNumber putVariable)

def name (index line col len : UInt32) : Token :=
  ⟨⟨index⟩, "put", .identifier, { line, col, len }, {}⟩

def left : Reference := ⟨.function putNumber, name 30 2 4 3⟩

def right : Reference := ⟨putVariable, name 31 2 9 4294967295⟩

def outside : Reference := ⟨putVariable, name 32 0 4 3⟩

def touching : Reference := ⟨putVariable, name 33 2 7 4⟩

def together : ScopeForest := edit {} [.pushReference root left, .pushReference root right]

def scattered : ScopeForest :=
  edit {} [.createScope root "A" none, .pushReference root outside, .pushReference root right,
    .pushReference ⟨1⟩ left]

theorem recorded_together (r : Reference) : together.Recorded r ↔ r = left ∨ r = right := by
  rw [← mem_allReferences_iff, show together.allReferences = [left, right] from rfl]
  simp

theorem recorded_scattered (r : Reference) :
    scattered.Recorded r ↔ r = outside ∨ r = right ∨ r = left := by
  have hall : scattered.allReferences = [outside, right, left] := by with_unfolding_all rfl
  rw [← mem_allReferences_iff, hall]
  simp

theorem separated_together : together.Separated := by
  intro r r' hr hr' hne _ _ _
  rw [recorded_together] at hr hr'
  obtain rfl | rfl := hr <;> obtain rfl | rfl := hr'
  · exact absurd rfl hne
  · exact .inl (by decide)
  · exact .inr (by decide)
  · exact absurd rfl hne

theorem sameReferences_scattered : together.SameReferences scattered := by
  intro r hreal
  rw [recorded_together, recorded_scattered]
  constructor
  · rintro (rfl | rfl | rfl)
    · cases hreal
    · exact .inr rfl
    · exact .inl rfl
  · rintro (rfl | rfl)
    · exact .inr (.inr rfl)
    · exact .inr (.inl rfl)

end Neighbours

open Neighbours in
theorem declarationAt_of_separated_neighbours :
    together.Separated ∧ together.SameReferences scattered ∧
    (scattered.declarationAt 2 7).map (·.ident.id) = (together.declarationAt 2 7).map (·.ident.id) ∧
    ∃ s, together.declarationAt 2 4294967295 = some s ∧ s.ident.id = right.declared.ident.id := by
  have hend := (declarationAt_of_separated together separated_together 2 4294967295).1
    right.declared.ident.id
  obtain ⟨-, hsame, -⟩ := declarationAt_of_separated together separated_together 2 7
  exact ⟨separated_together, sameReferences_scattered, (hsame scattered sameReferences_scattered).1,
    hend.2 ⟨right, (recorded_together right).2 (.inr rfl), rfl, by decide⟩⟩

open Neighbours in
example : ((edit {} [.pushReference root left, .pushReference root touching]).declarationAt 2 7).map
      (·.ident.id) ≠
    ((edit {} [.pushReference root touching, .pushReference root left]).declarationAt 2 7).map
      (·.ident.id) := by decide +kernel

end ScopeForest

end ScriptSemantics
