/-! Texts put together from parts, and how to take them apart again. The first part of a text ends at
the first character that cannot belong to it. -/

namespace ScriptSemantics

theorem eq_and_eq_of_append_eq {α : Type} {p : α → Bool} {xs ys rs ss : List α}
    (hxs : ∀ a ∈ xs, p a = true) (hys : ∀ a ∈ ys, p a = true)
    (hrs : ∀ a ∈ rs.head?, p a = false) (hss : ∀ a ∈ ss.head?, p a = false)
    (h : xs ++ rs = ys ++ ss) : xs = ys ∧ rs = ss := by
  -- the two first parts are what comes before the first element without the property
  have htake (zs ts : List α) (hzs : ∀ a ∈ zs, p a = true) (hts : ∀ a ∈ ts.head?, p a = false) :
      (zs ++ ts).takeWhile p = zs := by
    rw [List.takeWhile_append_of_pos hzs]
    cases ts with
    | nil => simp
    | cons t ts =>
      have ht : p t = false := hts t rfl
      simp [ht]
  have hfirst : xs = ys := by
    rw [← htake xs rs hxs hrs, h, htake ys ss hys hss]
  subst hfirst
  exact ⟨rfl, List.append_cancel_left h⟩

theorem toList_intercalate_cons (sep part : String) (parts : List String) :
    (sep.intercalate (part :: parts)).toList =
      part.toList ++ parts.flatMap fun next => sep.toList ++ next.toList := by
  induction parts generalizing part with
  | nil => simp
  | cons next parts ih =>
    rw [String.intercalate_cons_cons, String.toList_append, String.toList_append, ih,
      List.flatMap_cons, List.append_assoc, List.append_assoc]

def separated (parts : List String) : List Char :=
  parts.flatMap fun part => ':' :: ':' :: part.toList

theorem separated_cons (part : String) (parts : List String) :
    separated (part :: parts) = ':' :: ':' :: (part.toList ++ separated parts) := rfl

theorem head?_separated (parts : List String) : ∀ c ∈ (separated parts).head?, c = ':' := by
  cases parts with
  | nil => nofun
  | cons part parts =>
    intro c hc
    exact (Option.some.inj hc).symm

theorem separated_eq (part : String) (parts : List String) :
    separated (part :: parts) = ':' :: ':' :: ("::".intercalate (part :: parts)).toList := by
  rw [toList_intercalate_cons]
  rfl

theorem separated_inj {xs ys : List String} (hxs : ∀ x ∈ xs, ':' ∉ x.toList)
    (hys : ∀ y ∈ ys, ':' ∉ y.toList) (h : separated xs = separated ys) : xs = ys := by
  induction xs generalizing ys with
  | nil =>
    cases ys with
    | nil => rfl
    | cons y ys => cases h
  | cons x xs ih =>
    cases ys with
    | nil => cases h
    | cons y ys =>
      have hplain {z : String} (hz : ':' ∉ z.toList) : ∀ c ∈ z.toList, (c != ':') = true := by
        intro c hc
        have hne : c ≠ ':' := fun heq => hz (heq ▸ hc)
        simpa using hne
      have hstop (zs : List String) : ∀ c ∈ (separated zs).head?, (c != ':') = false := by
        intro c hc
        simp [head?_separated zs c hc]
      rw [separated_cons, separated_cons, List.cons.injEq, List.cons.injEq] at h
      obtain ⟨hfirst, hrest⟩ := eq_and_eq_of_append_eq (hplain (hxs x List.mem_cons_self))
        (hplain (hys y List.mem_cons_self)) (hstop xs) (hstop ys) h.2.2
      rw [String.toList_inj.1 hfirst, ih (fun z hz => hxs z (List.mem_cons_of_mem _ hz))
        (fun z hz => hys z (List.mem_cons_of_mem _ hz)) hrest]

theorem join_inj {xs ys : List String} {x y : String} (hxs : ∀ z ∈ xs ++ [x], ':' ∉ z.toList)
    (hys : ∀ z ∈ ys ++ [y], ':' ∉ z.toList)
    (h : "::".intercalate (xs ++ [x]) = "::".intercalate (ys ++ [y])) : xs = ys ∧ x = y := by
  have hseparated (zs : List String) (z : String) : separated (zs ++ [z]) =
      ':' :: ':' :: ("::".intercalate (zs ++ [z])).toList := by
    cases zs with
    | nil => exact separated_eq z []
    | cons first zs => exact separated_eq first (zs ++ [z])
  have heq : xs ++ [x] = ys ++ [y] := by
    refine separated_inj hxs hys ?_
    rw [hseparated, hseparated, h]
  obtain ⟨hpath, hlast⟩ := List.append_inj' heq rfl
  exact ⟨hpath, List.singleton_inj.1 hlast⟩

end ScriptSemantics
