import Mathlib.Data.Finset.Card
import ScriptSemantics.Proofs.Growth

/-! Template arguments as a finite map that remembers its order. A parameter stands where it was first
bound and has the value it was bound to last. So a generic type given values by position hands them
out by position again, to whatever is declared as one of its parameters. -/

namespace ScriptSemantics

theorem find?_reverse_eq_some_iff {α : Type} {p : α → Bool} {l : List α} {a : α} :
    l.reverse.find? p = some a ↔ ∃ i : Nat, l[i]? = some a ∧ p a = true ∧
      ∀ (j : Nat) (b : α), i < j → l[j]? = some b → p b = false := by
  constructor
  · intro h
    obtain ⟨ha, k, hk, hget, hbefore⟩ := List.find?_eq_some_iff_getElem.1 h
    rw [List.length_reverse] at hk
    rw [List.getElem_reverse] at hget
    refine ⟨l.length - 1 - k, List.getElem?_eq_some_iff.2 ⟨by omega, hget⟩, ha, fun j b hj hb => ?_⟩
    obtain ⟨hlt, rfl⟩ := List.getElem?_eq_some_iff.1 hb
    have hback : l.length - 1 - (l.length - 1 - j) = j := by omega
    have hnot := hbefore (l.length - 1 - j) (by omega)
    simpa only [List.getElem_reverse, hback, Bool.not_eq_true'] using hnot
  · rintro ⟨i, hi, ha, hlast⟩
    obtain ⟨hlt, rfl⟩ := List.getElem?_eq_some_iff.1 hi
    have hsplit : l.reverse = (l.drop (i + 1)).reverse ++ l[i] :: (l.take i).reverse := by
      conv_lhs => rw [← List.take_append_drop i l, List.drop_eq_getElem_cons hlt]
      simp
    refine List.find?_eq_some_iff_append.2 ⟨ha, _, _, hsplit, fun b hb => ?_⟩
    obtain ⟨j, hj⟩ := List.mem_iff_getElem?.1 (List.mem_reverse.1 hb)
    rw [List.getElem?_drop] at hj
    simpa using hlast (i + 1 + j) b (by omega) hj

theorem take_append_replicate_eq_map {α : Type} (n : Nat) (l : List (Option α)) :
    l.take n ++ List.replicate (n - l.length) none = (List.range n).map fun i => l[i]?.join := by
  refine List.ext_getElem? fun i => ?_
  rw [List.getElem?_map, List.getElem?_append, List.length_take]
  by_cases hn : i < n
  · rw [List.getElem?_range hn]
    by_cases hl : i < l.length
    · simp [hn, hl]
    · have hmin : ¬ i < min n l.length := by omega
      have hpad : i - min n l.length < n - l.length := by omega
      simp [hmin, hpad, hl]
  · have hmin : ¬ i < min n l.length := by omega
    have hpad : ¬ i - min n l.length < n - l.length := by omega
    rw [if_neg hmin]
    simp [hpad, hn]

theorem Binding.map_param_insert (param : Token) (value : Option StaticType) (bs : List Binding) :
    (Binding.insert param value bs).map (·.param) =
      if bs.any (·.param.same param) then bs.map (·.param) else bs.map (·.param) ++ [param] := by
  induction bs with
  | nil => rfl
  | cons b bs ih =>
    by_cases h : b.param.same param = true
    · simp [Binding.insert, h]
    · by_cases hany : bs.any (·.param.same param) = true <;> simp [Binding.insert, h, hany, ih]

namespace TemplateArgs

def params (args : TemplateArgs) : List Token := args.bindings.map (·.param)

def insertAll (args : TemplateArgs) : List Binding → TemplateArgs
  | [] => args
  | b :: bs => (args.insert b.param b.value).insertAll bs

theorem get?_congr (args : TemplateArgs) {p q : Token} (h : p.id = q.id) :
    args.get? p = args.get? q := by
  have hsame : (fun b : Binding => b.param.same p) = fun b => b.param.same q := by
    funext b
    rw [Token.same, Token.same, h]
  rw [get?, get?, hsame]

theorem contains_eq_any (args : TemplateArgs) (q : Token) :
    args.contains q = args.bindings.any (·.param.same q) := by
  rw [contains, get?, Option.isSome_map, List.isSome_find?]

theorem contains_iff (args : TemplateArgs) (q : Token) :
    args.contains q = true ↔ q.id ∈ args.params.map (·.id) := by
  simp [contains_eq_any, params]

theorem params_insert (args : TemplateArgs) (param : Token) (value : Option StaticType) :
    (args.insert param value).params =
      if args.contains param then args.params else args.params ++ [param] := by
  rw [contains_eq_any]
  exact Binding.map_param_insert param value args.bindings

theorem params_insertAll (args : TemplateArgs) (bs : List Binding) :
    (args.insertAll bs).params =
      args.params ++ ((bs.map (·.param)).filter (!args.contains ·)).eraseDupsBy Token.same := by
  induction bs generalizing args with
  | nil => exact (List.append_nil _).symm
  | cons b bs ih =>
    rw [insertAll, ih, params_insert, List.map_cons, List.filter_cons]
    by_cases hb : args.contains b.param = true
    · -- the parameter is there already, so nothing else is bound now than was before
      have hsame (q : Token) : (args.insert b.param b.value).contains q = args.contains q := by
        rw [contains_insert]
        by_cases hq : b.param.id = q.id
        · rw [contains, get?_congr args hq] at hb
          simp [contains, hb]
        · simp [Token.same, hq]
      simp [hb, hsame]
    · rw [Bool.not_eq_true] at hb
      have hrest : (bs.map (·.param)).filter (!(args.insert b.param b.value).contains ·) =
          ((bs.map (·.param)).filter (!args.contains ·)).filter
            fun q => decide (q.same b.param = false) := by
        rw [List.filter_filter]
        refine List.filter_congr fun q _ => ?_
        rw [contains_insert, Bool.not_or, Bool.and_comm, Token.same, Token.same, BEq.comm]
        cases q.id == b.param.id <;> rfl
      rw [hrest, hb, if_neg Bool.false_ne_true, Bool.not_false, if_pos rfl, List.eraseDupsBy_cons,
        List.append_assoc, List.singleton_append]

theorem get?_insertAll (args : TemplateArgs) (bs : List Binding) (q : Token) :
    (args.insertAll bs).get? q =
      ((bs.reverse.find? (·.param.same q)).map (·.value)).or (args.get? q) := by
  induction bs generalizing args with
  | nil => rfl
  | cons b bs ih =>
    rw [insertAll, ih, get?_insert, List.reverse_cons, List.find?_append, Option.map_or,
      Option.or_assoc]
    congr 1
    by_cases h : b.param.id = q.id <;> simp [Token.same, h]

theorem nodup_insert {args : TemplateArgs} (h : (args.params.map (·.id)).Nodup) (param : Token)
    (value : Option StaticType) : ((args.insert param value).params.map (·.id)).Nodup := by
  rw [params_insert]
  split
  · exact h
  · next hnew =>
    have hfresh : param.id ∉ args.params.map (·.id) := fun hmem =>
      hnew ((args.contains_iff param).2 hmem)
    rw [List.map_append, List.map_singleton, ← List.concat_eq_append]
    exact h.concat hfresh

theorem nodup_insertAll {args : TemplateArgs} (h : (args.params.map (·.id)).Nodup)
    (bs : List Binding) : ((args.insertAll bs).params.map (·.id)).Nodup := by
  induction bs generalizing args with
  | nil => exact h
  | cons b bs ih => exact ih (nodup_insert h b.param b.value)

theorem nodup_insertAll_empty (bs : List Binding) :
    ((empty.insertAll bs).params.map (·.id)).Nodup := by
  have hnil : (empty.params.map (·.id)).Nodup := List.nodup_nil
  exact nodup_insertAll hnil bs

theorem get?_of_mem {args : TemplateArgs} (h : (args.params.map (·.id)).Nodup) {b : Binding}
    (hb : b ∈ args.bindings) : args.get? b.param = some b.value := by
  rw [params, List.map_map] at h
  have hsome : (args.bindings.find? (·.param.same b.param)).isSome = true :=
    List.find?_isSome.2 ⟨b, hb, (Token.same_iff _ _).2 rfl⟩
  obtain ⟨c, hc⟩ := Option.isSome_iff_exists.1 hsome
  have hsame : c.param.same b.param = true := by simpa only using List.find?_some hc
  have hid : c.param.id = b.param.id := (Token.same_iff _ _).1 hsame
  obtain rfl : c = b := List.inj_on_of_nodup_map h (List.mem_of_find?_eq_some hc) hb hid
  rw [get?, hc, Option.map_some]

theorem bindings_eq_map {args : TemplateArgs} (h : (args.params.map (·.id)).Nodup) :
    args.bindings = args.params.map fun p => ⟨p, (args.get? p).join⟩ := by
  rw [params, List.map_map]
  refine (List.map_id _).symm.trans (List.map_congr_left fun b hb => ?_)
  rw [Function.comp_apply, get?_of_mem h hb, Option.join_some]
  cases b
  rfl

theorem mem_ids_insert (args : TemplateArgs) (param : Token) (value : Option StaticType)
    (id : TokenId) :
    id ∈ (args.insert param value).params.map (·.id) ↔
      id ∈ args.params.map (·.id) ∨ id = param.id := by
  rw [params_insert]
  split
  · next hbound =>
    refine (or_iff_left_of_imp fun hid => ?_).symm
    exact hid ▸ (args.contains_iff param).1 hbound
  · rw [List.map_append, List.mem_append, List.map_singleton, List.mem_singleton]

theorem mem_ids_insertAll (args : TemplateArgs) (bs : List Binding) (id : TokenId) :
    id ∈ (args.insertAll bs).params.map (·.id) ↔
      id ∈ args.params.map (·.id) ∨ id ∈ bs.map (·.param.id) := by
  induction bs generalizing args with
  | nil => simp [insertAll]
  | cons b bs ih => rw [insertAll, ih, mem_ids_insert, List.map_cons, List.mem_cons, or_assoc]

theorem size_insertAll_empty (bs : List Binding) :
    (empty.insertAll bs).size = (bs.map (·.param.id)).toFinset.card := by
  have hnodup := nodup_insertAll_empty bs
  have hids : (bs.map (·.param.id)).toFinset = ((empty.insertAll bs).params.map (·.id)).toFinset := by
    ext id
    rw [List.mem_toFinset, List.mem_toFinset, mem_ids_insertAll]
    exact (or_iff_right List.not_mem_nil).symm
  rw [hids, List.toFinset_card_of_nodup hnodup, List.length_map, params, List.length_map, size]

theorem params_insertAll_empty (bs : List Binding) :
    (empty.insertAll bs).params = (bs.map (·.param)).eraseDupsBy Token.same := by
  have hall : (bs.map (·.param)).filter (!empty.contains ·) = bs.map (·.param) :=
    List.filter_eq_self.2 fun _ _ => rfl
  rw [params_insertAll, hall]
  rfl

theorem get?_insertAll_empty (bs : List Binding) (q : Token) :
    (empty.insertAll bs).get? q = (bs.reverse.find? (·.param.same q)).map (·.value) := by
  rw [get?_insertAll, get?_empty, Option.or_none]

theorem bindAll_eq_insertAll (args : TemplateArgs) (params : List Token)
    (values : List (Option StaticType)) :
    args.bindAll params values =
      args.insertAll (params.mapIdx fun i param => ⟨param, values[i]?.join⟩) := by
  induction params generalizing args values with
  | nil => rfl
  | cons param params ih =>
    rw [bindAll, ih, List.mapIdx_cons, insertAll, List.head?_eq_getElem?]
    simp only [List.getElem?_tail]

theorem params_ofLists (params : List Token) (values : List (Option StaticType)) :
    (ofLists params values).params = params.eraseDupsBy Token.same := by
  have hparams : (params.mapIdx fun i param => Binding.mk param values[i]?.join).map (·.param) =
      params := by
    refine List.ext_getElem? fun i => ?_
    rw [List.getElem?_map, List.getElem?_mapIdx, Option.map_map]
    exact Option.map_id'
  rw [ofLists, bindAll_eq_insertAll, params_insertAll_empty, hparams]

section
variable {params : List Token} {i : Nat} {p q : Token}

theorem get?_ofLists_of_last (values : List (Option StaticType)) (hi : params[i]? = some p)
    (hlast : ∀ j p', i < j → params[j]? = some p' → p'.id ≠ p.id) (hq : q.id = p.id) :
    (ofLists params values).get? q = some values[i]?.join := by
  have hfind : (params.mapIdx fun i param => Binding.mk param values[i]?.join).reverse.find?
      (·.param.same q) = some ⟨p, values[i]?.join⟩ := by
    refine find?_reverse_eq_some_iff.2 ⟨i, ?_, (Token.same_iff _ _).2 hq.symm, fun j b hij hb => ?_⟩
    · rw [List.getElem?_mapIdx, hi, Option.map_some]
    · rw [List.getElem?_mapIdx] at hb
      obtain ⟨p', hp', rfl⟩ := Option.map_eq_some_iff.1 hb
      have hne : p'.id ≠ q.id := hq ▸ hlast j p' hij hp'
      simp [Token.same, hne]
  rw [ofLists, bindAll_eq_insertAll, get?_insertAll_empty, hfind, Option.map_some]

theorem get?_ofLists_of_forall_ne (values : List (Option StaticType))
    (h : ∀ p ∈ params, p.id ≠ q.id) : (ofLists params values).get? q = none := by
  rw [ofLists, bindAll_eq_insertAll, get?_insertAll_empty, Option.map_eq_none_iff, List.find?_eq_none]
  intro b hb
  obtain ⟨i, hi, rfl⟩ := List.mem_mapIdx.1 (List.mem_reverse.1 hb)
  rw [Token.same_iff]
  exact h _ (List.getElem_mem hi)

theorem substituteType_ofLists_of_last (values : List (Option StaticType)) (hi : params[i]? = some p)
    (hlast : ∀ j p', i < j → params[j]? = some p' → p'.id ≠ p.id) {t : StaticType}
    (ht : t.ident.id = p.id) :
    substituteType (some (ofLists params values)) (some t) = values[i]?.join := by
  change ((ofLists params values).get? t.ident).getD (some t) = _
  rw [get?_ofLists_of_last values hi hlast ht, Option.getD_some]

theorem substituteType_ofLists_of_forall_ne (values : List (Option StaticType)) {t : StaticType}
    (ht : ∀ p ∈ params, p.id ≠ t.ident.id) :
    substituteType (some (ofLists params values)) (some t) = some t := by
  change ((ofLists params values).get? t.ident).getD (some t) = _
  rw [get?_ofLists_of_forall_ne values ht, Option.getD_none]

theorem substituteTypes_ofLists (hdistinct : (params.map (·.id)).Nodup)
    (values : List (Option StaticType)) {types : List StaticType}
    (htypes : types.map (·.ident.id) = params.map (·.id)) :
    substituteTypes (some (ofLists params values)) (types.map some) =
      values.take params.length ++ List.replicate (params.length - values.length) none := by
  have hlength : types.length = params.length := by simpa using congrArg List.length htypes
  rw [take_append_replicate_eq_map, substituteTypes, List.map_map]
  refine List.ext_getElem (by simp [hlength]) fun i htype hvalue => ?_
  have hparam : i < params.length := by simpa using hvalue
  have hid : (types.map (·.ident.id))[i]? = (params.map (·.id))[i]? := by rw [htypes]
  rw [List.getElem?_map, List.getElem?_map, List.getElem?_eq_getElem hparam,
    List.getElem?_eq_getElem (hlength ▸ hparam)] at hid
  rw [List.getElem_map, List.getElem_map, List.getElem_range]
  refine substituteType_ofLists_of_last values (List.getElem?_eq_getElem hparam) ?_
    (Option.some.inj hid)
  intro j p' hij hp' hsame
  -- the parameters are distinct, so the same one does not come again
  have hagain : (params.map (·.id))[j]? = (params.map (·.id))[i]? := by
    rw [List.getElem?_map, List.getElem?_map, hp', List.getElem?_eq_getElem hparam, Option.map_some,
      hsame, Option.map_some]
  exact Nat.ne_of_lt hij ((List.getElem?_inj (by simpa using hparam) hdistinct).1 hagain.symm)

end

end TemplateArgs

namespace TemplateArgs

/-- However parameters are bound, each is listed once, where it was first bound, and has the value it
was bound to last. Bound by position, it stands for the value at its last position, if there is one,
and a type that is no parameter stands for itself. So different parameters together give back the
values, cut off or filled up with absent ones. A type is given such arguments if it has a list of
template parameters, and is left alone otherwise. -/
theorem ordered_map_laws :
    (∀ inserts : List Binding,
      (∀ p, (empty.insertAll inserts).get? p =
        (inserts.reverse.find? (·.param.same p)).map (·.value)) ∧
      (empty.insertAll inserts).bindings = ((inserts.map (·.param)).eraseDupsBy Token.same).map
        (fun p => ⟨p, (inserts.reverse.find? (·.param.same p)).bind (·.value)⟩) ∧
      ((empty.insertAll inserts).bindings.map (·.param.id)).Nodup ∧
      (empty.insertAll inserts).size = (inserts.map (·.param.id)).toFinset.card) ∧
    (∀ (params : List Token) (values : List (Option StaticType)),
      (ofLists params values).bindings.map (·.param) = params.eraseDupsBy Token.same ∧
      (∀ (i : Nat) (p : Token), params[i]? = some p →
        (∀ (j : Nat) (p' : Token), i < j → params[j]? = some p' → p'.id ≠ p.id) →
        ∀ t : StaticType, t.ident.id = p.id →
          substituteType (some (ofLists params values)) (some t) = values[i]?.join) ∧
      (∀ t : StaticType, (∀ p ∈ params, p.id ≠ t.ident.id) →
        substituteType (some (ofLists params values)) (some t) = some t) ∧
      ((params.map (·.id)).Nodup → ∀ types : List StaticType,
        types.map (·.ident.id) = params.map (·.id) →
        substituteTypes (some (ofLists params values)) (types.map some) =
          values.take params.length ++ List.replicate (params.length - values.length) none)) ∧
    ∀ (generic : StaticType) (values : List (Option StaticType)),
      (∀ symbol params, generic.typeSymbol? = some symbol → symbol.templateParams = some params →
        generic.instantiate values = { generic with args := some (ofLists params values) }) ∧
      ((∀ symbol, generic.typeSymbol? = some symbol → symbol.templateParams = none) →
        generic.instantiate values = generic) := by
  refine ⟨fun inserts => ?_, fun params values => ?_, fun generic values => ?_⟩
  · have hnodup := nodup_insertAll_empty inserts
    refine ⟨get?_insertAll_empty inserts, ?_, ?_, size_insertAll_empty inserts⟩
    · rw [bindings_eq_map hnodup, params_insertAll_empty]
      refine List.map_congr_left fun p _ => ?_
      rw [get?_insertAll_empty]
      cases inserts.reverse.find? (·.param.same p) <;> rfl
    · rwa [params, List.map_map] at hnodup
  · exact ⟨params_ofLists params values,
      fun i p hi hlast t ht => substituteType_ofLists_of_last values hi hlast ht,
      fun t ht => substituteType_ofLists_of_forall_ne values ht,
      fun hdistinct types htypes => substituteTypes_ofLists hdistinct values htypes⟩
  · exact ⟨fun symbol params hsymbol hparams =>
      StaticType.instantiate_of_templateParams hsymbol hparams values,
      fun h => StaticType.instantiate_of_not_generic h values⟩

/-! A pair whose parameters are used as types. It is given one value only, or three for a list in
which the first parameter comes again. -/

namespace Pairs

open ScopeForest.Boxes (token)

def key : Token := token 20 "K"

def value : Token := token 21 "V"

def parameter (ident : Token) : StaticType := .ofSymbol (.ofPrimitive ident .template)

def pair (params : Option (List Token)) : StaticType :=
  .ofSymbol ⟨token 22 "Pair", .classDecl ⟨token 22 "Pair", {}⟩, params, []⟩

end Pairs

open Pairs in
open ScopeForest.Boxes (number box) in
theorem ordered_map_laws_pairs :
    substituteTypes (some (ofLists [key, value] [some number])) [some (parameter key),
      some (parameter value)] = [some number, none] ∧
    substituteType (some (ofLists [key, value, key] [some number, none, some box]))
      (some (parameter key)) = some box ∧
    substituteType (some (ofLists [key, value] [some number])) (some box) = some box ∧
    (pair (some [])).instantiate [some number] = { pair (some []) with args := some empty } ∧
    (pair none).instantiate [some number] = pair none := by
  obtain ⟨-, hlists, hinstances⟩ := ordered_map_laws
  obtain ⟨-, -, hother, hdistinct⟩ := hlists [key, value] [some number]
  obtain ⟨-, hlast, -, -⟩ := hlists [key, value, key] [some number, none, some box]
  refine ⟨hdistinct (by decide) [parameter key, parameter value] rfl,
    hlast 2 key rfl (fun j p' hj hp' => ?_) (parameter key) rfl, hother box (by decide),
    (hinstances (pair (some [])) [some number]).1 _ [] rfl rfl,
    (hinstances (pair none) [some number]).2 fun symbol hsymbol => ?_⟩
  · rw [List.getElem?_eq_none hj] at hp'
    cases hp'
  · cases hsymbol
    rfl

end TemplateArgs

end ScriptSemantics
