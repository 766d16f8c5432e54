import ScriptSemantics.Proofs.Shape

/-! The depth limit. Comparing deeper can only find more that does not fit, and there is nothing left
to find below the height of the lower type. The comparison is told once more, with the depths it
gets to and with or without a limit; without one it ends because every part of a signature is
smaller than the type. -/

namespace ScriptSemantics

def height (t : Option StaticType) : Nat :=
  match ht : shape t with
  | .absent => 0
  | .declared _ _ => 0
  | .handler g => 1 + (g.parts.attach.map fun p => height p.1).max?.getD 0
termination_by sizeOf t
decreasing_by exact sizeOf_part_lt_of_shape ht p.2

structure Comparison where
  answer : Bool
  depths : List Nat

namespace Comparison

def settled (answer : Bool) : Comparison := ⟨answer, []⟩

def and (a b : Comparison) : Comparison :=
  if a.answer then ⟨b.answer, a.depths ++ b.depths⟩ else a

def all (cs : List Comparison) : Comparison := cs.foldr and (settled true)

def atDepth (depth : Nat) (c : Comparison) : Comparison := { c with depths := depth :: c.depths }

end Comparison

def ScopeForest.compareAt (f : ScopeForest) (limit : Option Nat) (depth : Nat)
    (src dest : Option StaticType) : Comparison :=
  .atDepth depth <|
    if limit.any (· < depth) then .settled true
    else match hsrc : shape src, shape dest with
      | .handler g, .handler h =>
        (f.compareAt limit (depth + 1) g.returnType h.returnType).and <|
          (Comparison.settled (g.paramTypes.length == h.paramTypes.length)).and <|
            .all ((g.paramTypes.zip h.paramTypes).attach.map fun pair =>
              f.compareAt limit (depth + 1) pair.1.1 pair.1.2)
      | s, d => .settled (f.flatAssignable s d)
termination_by sizeOf src
decreasing_by
  · exact sizeOf_part_lt_of_shape hsrc g.returnType_mem_parts
  · exact sizeOf_part_lt_of_shape hsrc (FunctionSymbol.mem_parts (List.of_mem_zip pair.2).1)

theorem height_of_handler {t : Option StaticType} {g : FunctionSymbol} (h : shape t = .handler g) :
    height t = 1 + (g.parts.map height).max?.getD 0 := by
  rw [height]
  split
  · next ht => cases h.symm.trans ht
  · next ht => cases h.symm.trans ht
  · next ht =>
    cases h.symm.trans ht
    rw [List.attach_map_val]

theorem height_part_lt {t : Option StaticType} {g : FunctionSymbol} (h : shape t = .handler g)
    {p : Option StaticType} (hp : p ∈ g.parts) : height p < height t := by
  have hle := List.le_max?_getD_of_mem (k := 0) (List.mem_map_of_mem (f := height) hp)
  rw [height_of_handler h]
  omega

namespace Comparison

theorem answer_and (a b : Comparison) : (a.and b).answer = (a.answer && b.answer) := by
  unfold and
  cases h : a.answer with
  | false => rw [if_neg Bool.false_ne_true, h, Bool.false_and]
  | true => rw [if_pos rfl, Bool.true_and]

theorem answer_all (cs : List Comparison) : (all cs).answer = cs.all (·.answer) := by
  induction cs with
  | nil => rfl
  | cons c cs ih => rw [List.all_cons, ← ih, ← answer_and, all, List.foldr_cons, all]

theorem mem_depths_and {a b : Comparison} {k : Nat} (h : k ∈ (a.and b).depths) :
    k ∈ a.depths ∨ k ∈ b.depths := by
  unfold and at h
  split at h
  · exact List.mem_append.1 h
  · exact .inl h

theorem mem_depths_all {cs : List Comparison} {k : Nat} (h : k ∈ (all cs).depths) :
    ∃ c ∈ cs, k ∈ c.depths := by
  induction cs with
  | nil => cases h
  | cons c cs ih =>
    obtain hc | hcs := mem_depths_and (a := c) (b := all cs) h
    · exact ⟨c, List.mem_cons_self, hc⟩
    · obtain ⟨c', hc', hk⟩ := ih hcs
      exact ⟨c', List.mem_cons_of_mem _ hc', hk⟩

end Comparison

namespace ScopeForest

theorem compareAt_eq (f : ScopeForest) (limit : Option Nat) (depth : Nat)
    (src dest : Option StaticType) :
    f.compareAt limit depth src dest = .atDepth depth (
      if limit.any (· < depth) then .settled true
      else match shape src, shape dest with
        | .handler g, .handler h =>
          (f.compareAt limit (depth + 1) g.returnType h.returnType).and <|
            (Comparison.settled (g.paramTypes.length == h.paramTypes.length)).and <|
              .all ((g.paramTypes.zip h.paramTypes).map fun pair =>
                f.compareAt limit (depth + 1) pair.1 pair.2)
        | s, d => .settled (f.flatAssignable s d)) := by
  rw [compareAt]
  congr 2
  split
  · next g h hsrc hdest =>
    have hpairs := List.attach_map_val (l := g.paramTypes.zip h.paramTypes)
      (f := fun pair => f.compareAt limit (depth + 1) pair.1 pair.2)
    rw [hsrc, hdest, hpairs]
  · next hnot =>
    split
    · next g h hsrc hdest => exact (hnot g h hsrc hdest).elim
    · rfl

theorem answer_compareAt (f : ScopeForest) (limit : Option Nat) (depth : Nat)
    (src dest : Option StaticType) :
    (f.compareAt limit depth src dest).answer = (limit.any (· < depth) ||
      f.shapeAssignable (fun p q => (f.compareAt limit (depth + 1) p q).answer)
        (shape src) (shape dest)) := by
  rw [compareAt_eq, Comparison.atDepth]
  split
  · next hpast => rw [hpast, Comparison.settled, Bool.true_or]
  · next hwithin =>
    rw [Bool.eq_false_iff.2 hwithin, Bool.false_or]
    generalize shape src = s
    generalize shape dest = d
    cases s <;> cases d
    case handler.handler g h =>
      simp only [Comparison.answer_and, Comparison.answer_all, Comparison.settled, List.all_map,
        shapeAssignable, FunctionSymbol.relatedBy, Bool.and_assoc, Function.comp_def]
    all_goals rfl

theorem assignableWithin_succ_eq_answer (f : ScopeForest) {limit : Option Nat} {levels depth : Nat}
    {src dest : Option StaticType} (hwithin : limit.any (· < depth) = false)
    (hparts : ∀ g h, shape src = .handler g → shape dest = .handler h →
      ∀ p ∈ g.parts, ∀ q ∈ h.parts,
        f.assignableWithin levels p q = (f.compareAt limit (depth + 1) p q).answer) :
    f.assignableWithin (levels + 1) src dest = (f.compareAt limit depth src dest).answer := by
  rw [answer_compareAt, assignableWithin_succ, hwithin, Bool.false_or]
  exact shapeAssignable_congr hparts

theorem assignableWithin_eq_answer_some (f : ScopeForest) {limit levels depth : Nat}
    (hlevels : depth + levels = limit + 1) (src dest : Option StaticType) :
    f.assignableWithin levels src dest = (f.compareAt (some limit) depth src dest).answer := by
  induction levels generalizing depth src dest with
  | zero =>
    have hpast : (some limit).any (· < depth) = true := by
      simp only [Option.any_some, decide_eq_true_eq]
      omega
    rw [assignableWithin_zero, answer_compareAt, hpast, Bool.true_or]
  | succ levels ih =>
    have hwithin : (some limit).any (· < depth) = false := by
      simp only [Option.any_some, decide_eq_false_iff_not]
      omega
    have hnext : depth + 1 + levels = limit + 1 := by omega
    exact f.assignableWithin_succ_eq_answer hwithin fun _ _ _ _ p _ q _ => ih hnext p q

theorem assignableWithin_eq_answer_none (f : ScopeForest) {levels : Nat} (depth : Nat)
    {src dest : Option StaticType} (hlevels : min (height src) (height dest) < levels) :
    f.assignableWithin levels src dest = (f.compareAt none depth src dest).answer := by
  induction levels generalizing depth src dest with
  | zero => exact absurd hlevels (Nat.not_lt_zero _)
  | succ levels ih =>
    -- a level is used up, but each part is lower than the type it stands in
    refine f.assignableWithin_succ_eq_answer rfl fun g h hsrc hdest p hp q hq => ih (depth + 1) ?_
    have hlt := height_part_lt hsrc hp
    have hlt' := height_part_lt hdest hq
    omega

theorem assignableWithin_of_le (f : ScopeForest) {levels levels' : Nat} (hle : levels ≤ levels')
    {src dest : Option StaticType} (h : f.assignableWithin levels' src dest = true) :
    f.assignableWithin levels src dest = true := by
  induction levels generalizing levels' src dest with
  | zero => exact assignableWithin_zero f src dest
  | succ levels ih =>
    obtain ⟨levels', rfl⟩ := Nat.exists_eq_add_of_le' hle
    rw [← Nat.add_assoc, assignableWithin_succ] at h
    rw [assignableWithin_succ]
    have hle' : levels ≤ levels' + levels := Nat.le_add_left levels levels'
    exact shapeAssignable_mono (fun g g' _ _ p _ q _ => ih hle') h

theorem le_of_mem_depths (f : ScopeForest) (limit : Option Nat) (src : Option StaticType)
    {depth k : Nat} {dest : Option StaticType} (hk : k ∈ (f.compareAt limit depth src dest).depths) :
    k ≤ depth + min (height src) (height dest) := by
  -- parts are compared one level deeper, and both of them are lower by one at least
  induction src using shape_induction generalizing depth dest with
  | step src ih =>
  rw [compareAt_eq] at hk
  obtain rfl | hk := List.mem_cons.1 hk
  · exact Nat.le_add_right _ _
  split at hk
  · cases hk
  split at hk
  · next g h hsrc hdest =>
    have hpart {p q : Option StaticType} (hp : p ∈ g.parts) (hq : q ∈ h.parts)
        (hk : k ∈ (f.compareAt limit (depth + 1) p q).depths) :
        k ≤ depth + min (height src) (height dest) := by
      have hle := ih g hsrc p hp hk
      have hlt := height_part_lt hsrc hp
      have hlt' := height_part_lt hdest hq
      omega
    obtain hk | hk := Comparison.mem_depths_and hk
    · exact hpart g.returnType_mem_parts h.returnType_mem_parts hk
    obtain hk | hk := Comparison.mem_depths_and hk
    · cases hk
    obtain ⟨c, hc, hk⟩ := Comparison.mem_depths_all hk
    obtain ⟨⟨p, q⟩, hpair, rfl⟩ := List.mem_map.1 hc
    obtain ⟨hp, hq⟩ := List.of_mem_zip hpair
    exact hpart (FunctionSymbol.mem_parts hp) (FunctionSymbol.mem_parts hq) hk
  · cases hk

/-- A lower limit lets through what a higher one does. A limit as high as the lower of the two types
is as good as none, and no comparison goes deeper than that type does. -/
theorem depth_limit_only_admits (f : ScopeForest) (src dest : Option StaticType) :
    (∀ limit limit', limit ≤ limit' →
      f.assignable limit' src dest = true → f.assignable limit src dest = true) ∧
    (∀ limit, min (height src) (height dest) ≤ limit →
      f.assignable limit src dest = (f.compareAt none 0 src dest).answer) ∧
    ∀ limit, f.assignable limit src dest = (f.compareAt (some limit) 0 src dest).answer ∧
      ∀ depth ∈ (f.compareAt (some limit) 0 src dest).depths,
        depth ≤ min (height src) (height dest) := by
  refine ⟨fun limit limit' hle => ?_, fun limit hle => ?_, fun limit => ⟨?_, fun depth hdepth => ?_⟩⟩
  · exact f.assignableWithin_of_le (Nat.succ_le_succ hle)
  · exact f.assignableWithin_eq_answer_none 0 (Nat.lt_succ_of_le hle)
  · exact f.assignableWithin_eq_answer_some (Nat.zero_add _) src dest
  · have hle := f.le_of_mem_depths (some limit) src hdepth
    rwa [Nat.zero_add] at hle

/-! Callbacks that take callbacks, so that what differs stands two levels down. -/

namespace Callbacks

def caller (param : StaticType) : Option StaticType := callback (callback (some param) none) none

end Callbacks

open Callbacks Boxes in
theorem depth_limit_only_admits_caller :
    assignable {} 1 (caller number) (caller box) = true ∧
    assignable {} 0 (caller number) (caller box) = true ∧
    assignable {} 2 (caller number) (caller box) = false ∧
    (compareAt {} none 0 (caller number) (caller box)).answer = false ∧
    ∀ depth ∈ (compareAt {} (some 64) 0 (caller number) (caller box)).depths, depth ≤ 2 := by
  obtain ⟨hlower, henough, hdepths⟩ := depth_limit_only_admits {} (caller number) (caller box)
  have hcut : assignable {} 1 (caller number) (caller box) = true := by with_unfolding_all rfl
  have hfound : assignable {} 2 (caller number) (caller box) = false := by with_unfolding_all rfl
  have hheight : min (height (caller number)) (height (caller box)) = 2 := by with_unfolding_all rfl
  refine ⟨hcut, hlower 0 1 (Nat.zero_le 1) hcut, hfound, ?_, ?_⟩
  · exact (henough 2 (Nat.le_of_eq hheight)).symm.trans hfound
  · exact hheight ▸ (hdepths 64).2

end ScopeForest

end ScriptSemantics
