import ScriptSemantics.Proofs.JoinedTexts
import ScriptSemantics.Proofs.Knowledge

/-! Quoted types, read backwards. A quoted type begins with a name and ends where a comma, a closing
bracket or nothing follows. So as long as names keep clear of the characters that set off template
arguments, the text gives back which names there are and how they are nested. -/

namespace ScriptSemantics

structure PlainName (name : String) : Prop where
  ne_empty : name ≠ ""
  no_opening : '<' ∉ name.toList
  no_closing : '>' ∉ name.toList
  no_comma : ',' ∉ name.toList
  ne_unknown : name ≠ "(unknown)"

instance (name : String) : Decidable (PlainName name) :=
  decidable_of_iff (name ≠ "" ∧ '<' ∉ name.toList ∧ '>' ∉ name.toList ∧ ',' ∉ name.toList ∧
      name ≠ "(unknown)")
    ⟨fun ⟨hempty, hopening, hclosing, hcomma, hunknown⟩ =>
        ⟨hempty, hopening, hclosing, hcomma, hunknown⟩,
      fun h => ⟨h.ne_empty, h.no_opening, h.no_closing, h.no_comma, h.ne_unknown⟩⟩

inductive Legible : Option StaticType → Prop
  | absent : Legible none
  | known {t : StaticType} (hname : PlainName t.ident.text)
      (hvalues : ∀ value ∈ TemplateArgs.values t.args, Legible value) : Legible (some t)

/-- The same names stand in the same places. No template arguments are not the same as an empty list of
them. -/
inductive ReadsAlike : Option StaticType → Option StaticType → Prop
  | absent : ReadsAlike none none
  | plain {t u : StaticType} (hname : t.ident.text = u.ident.text) (ht : t.args = none)
      (hu : u.args = none) : ReadsAlike (some t) (some u)
  | applied {t u : StaticType} {args args' : TemplateArgs} (hname : t.ident.text = u.ident.text)
      (ht : t.args = some args) (hu : u.args = some args') (hsize : args.size = args'.size)
      (hvalues : Pointwise ReadsAlike (TemplateArgs.values (some args))
        (TemplateArgs.values (some args'))) :
      ReadsAlike (some t) (some u)

theorem Pointwise.cons {R : Option StaticType → Option StaticType → Prop} {x y : Option StaticType}
    {xs ys : List (Option StaticType)} (h : R x y) (hrest : Pointwise R xs ys) :
    Pointwise R (x :: xs) (y :: ys) := by
  intro i a b ha hb
  cases i with
  | zero =>
    cases ha
    cases hb
    exact h
  | succ i => exact hrest i a b ha hb

theorem Pointwise.map_eq {g : Option StaticType → String} {xs ys : List (Option StaticType)}
    (hlength : xs.length = ys.length) (h : Pointwise (fun x y => g x = g y) xs ys) :
    xs.map g = ys.map g := by
  refine List.ext_getElem (by simpa using hlength) fun i hx hy => ?_
  rw [List.length_map] at hx hy
  rw [List.getElem_map, List.getElem_map]
  exact h i _ _ (List.getElem?_eq_getElem hx) (List.getElem?_eq_getElem hy)

/-! ### The text of a type -/

theorem TemplateArgs.length_values (args : TemplateArgs) : (values (some args)).length = args.size :=
  List.length_map _

theorem TemplateArgs.map_renderType_values (args : TemplateArgs) :
    (values (some args)).map renderType = args.bindings.map (renderType ·.value) := List.map_map

def quotedName : Option StaticType → String
  | none => "(unknown)"
  | some t => t.ident.text

def continued (types : List (Option StaticType)) : List Char :=
  (types.map renderType).flatMap fun text => ", ".toList ++ text.toList

def listed : List (Option StaticType) → List Char
  | [] => []
  | t :: ts => (renderType t).toList ++ continued ts

def bracketed : Option TemplateArgs → List Char
  | none => []
  | some args => '<' :: (listed (TemplateArgs.values (some args)) ++ ['>'])

theorem continued_cons (t : Option StaticType) (ts : List (Option StaticType)) :
    continued (t :: ts) = ',' :: ' ' :: ((renderType t).toList ++ continued ts) := rfl

theorem toList_intercalate_render (types : List (Option StaticType)) :
    (", ".intercalate (types.map renderType)).toList = listed types := by
  cases types with
  | nil => rfl
  | cons t ts => exact toList_intercalate_cons ", " (renderType t) (ts.map renderType)

theorem toList_renderType (t : Option StaticType) :
    (renderType t).toList = (quotedName t).toList ++ bracketed (t.bind (·.args)) := by
  cases t with
  | none => exact (List.append_nil _).symm
  | some t =>
    rw [renderType, StaticType.render_eq, Option.bind_some]
    cases t.args with
    | none => exact (List.append_nil _).symm
    | some args =>
      simp only [← args.map_renderType_values, String.toList_append, toList_intercalate_render,
        bracketed, quotedName, List.append_assoc]
      rfl

def marks : List Char := ['<', '>', ',']

theorem not_mem_of_mem_marks {text : List Char} (hopening : '<' ∉ text) (hclosing : '>' ∉ text)
    (hcomma : ',' ∉ text) : ∀ c ∈ marks, c ∉ text :=
  List.forall_mem_cons.2
    ⟨hopening, List.forall_mem_cons.2 ⟨hclosing, List.forall_mem_singleton.2 hcomma⟩⟩

def Closes (rest : List Char) : Prop := ∀ c ∈ rest.head?, c = ',' ∨ c = '>'

theorem closes_nil : Closes [] := nofun

theorem Closes.ne_bracket {r s : List Char} (h : Closes r) : r ≠ '<' :: s := by
  rintro rfl
  obtain hc | hc := h '<' rfl <;> cases hc

theorem closes_continued (types : List (Option StaticType)) (rest : List Char) :
    Closes (continued types ++ '>' :: rest) := by
  intro c hc
  cases types with
  | nil => exact .inr (Option.some.inj hc).symm
  | cons t ts => exact .inl (Option.some.inj hc).symm

theorem Closes.head?_bracketed {rest : List Char} (h : Closes rest) (args : Option TemplateArgs) :
    ∀ c ∈ (bracketed args ++ rest).head?, c ∈ marks := by
  intro c hc
  cases args with
  | none => obtain rfl | rfl := h c hc <;> decide
  | some args =>
    obtain rfl : '<' = c := Option.some.inj hc
    decide

/-! ### Reading -/

section
variable {a b : Option StaticType} {r s : List Char}

theorem Legible.unmarked (ha : Legible a) : ∀ c ∈ marks, c ∉ (quotedName a).toList := by
  cases ha with
  | absent => exact not_mem_of_mem_marks (by decide) (by decide) (by decide)
  | known hname => exact not_mem_of_mem_marks hname.no_opening hname.no_closing hname.no_comma

theorem Legible.quotedName_ne_empty (ha : Legible a) : quotedName a ≠ "" := by
  cases ha with
  | absent => decide
  | known hname => exact hname.ne_empty

theorem Legible.toList_append_ne (ha : Legible a) : (renderType a).toList ++ r ≠ '>' :: s := by
  intro h
  rw [toList_renderType] at h
  cases hname : (quotedName a).toList with
  | nil => exact ha.quotedName_ne_empty (String.toList_eq_nil_iff.1 hname)
  | cons c cs =>
    rw [hname] at h
    obtain rfl : c = '>' := (List.cons.inj h).1
    exact ha.unmarked '>' (by decide) (hname ▸ List.mem_cons_self)

theorem Legible.split (ha : Legible a) (hb : Legible b) (hr : Closes r) (hs : Closes s)
    (h : (renderType a).toList ++ r = (renderType b).toList ++ s) :
    quotedName a = quotedName b ∧
      bracketed (a.bind (·.args)) ++ r = bracketed (b.bind (·.args)) ++ s := by
  have hunmarked {t : Option StaticType} (ht : Legible t) :
      ∀ c ∈ (quotedName t).toList, decide (c ∉ marks) = true :=
    fun c hc => decide_eq_true fun hmark => ht.unmarked c hmark hc
  have hstop {rest : List Char} (hrest : Closes rest) (args : Option TemplateArgs) :
      ∀ c ∈ (bracketed args ++ rest).head?, decide (c ∉ marks) = false :=
    fun c hc => decide_eq_false (not_not_intro (hrest.head?_bracketed args c hc))
  rw [toList_renderType, toList_renderType, List.append_assoc, List.append_assoc] at h
  obtain ⟨hname, hrest⟩ :=
    eq_and_eq_of_append_eq (hunmarked ha) (hunmarked hb) (hstop hr _) (hstop hs _) h
  exact ⟨String.toList_inj.1 hname, hrest⟩

end

def Delimited (a : Option StaticType) : Prop :=
  ∀ (b : Option StaticType) (r s : List Char), Legible b → Closes r → Closes s →
    (renderType a).toList ++ r = (renderType b).toList ++ s → ReadsAlike a b ∧ r = s

section
variable {xs ys : List (Option StaticType)} {r s : List Char}

theorem continued_inj (hxs : ∀ x ∈ xs, Delimited x) (hys : ∀ y ∈ ys, Legible y)
    (h : continued xs ++ '>' :: r = continued ys ++ '>' :: s) :
    xs.length = ys.length ∧ Pointwise ReadsAlike xs ys ∧ r = s := by
  induction xs generalizing ys with
  | nil =>
    cases ys with
    | nil => exact ⟨rfl, nofun, (List.cons.inj h).2⟩
    | cons y ys => cases h
  | cons x xs ih =>
    cases ys with
    | nil => cases h
    | cons y ys =>
      rw [List.forall_mem_cons] at hxs hys
      rw [continued_cons, continued_cons] at h
      simp only [List.cons_append, List.append_assoc, List.cons.injEq, true_and] at h
      obtain ⟨halike, hrest⟩ := hxs.1 y _ _ hys.1 (closes_continued xs r) (closes_continued ys s) h
      obtain ⟨hlength, hpointwise, hrs⟩ := ih hxs.2 hys.2 hrest
      exact ⟨congrArg (· + 1) hlength, hpointwise.cons halike, hrs⟩

theorem listed_inj (hxs : ∀ x ∈ xs, Legible x ∧ Delimited x) (hys : ∀ y ∈ ys, Legible y)
    (h : listed xs ++ '>' :: r = listed ys ++ '>' :: s) :
    xs.length = ys.length ∧ Pointwise ReadsAlike xs ys ∧ r = s := by
  cases xs with
  | nil =>
    cases ys with
    | nil => exact ⟨rfl, nofun, (List.cons.inj h).2⟩
    | cons y ys =>
      rw [listed, listed, List.append_assoc] at h
      exact absurd h.symm (hys y List.mem_cons_self).toList_append_ne
  | cons x xs =>
    cases ys with
    | nil =>
      rw [listed, listed, List.append_assoc] at h
      exact absurd h (hxs x List.mem_cons_self).1.toList_append_ne
    | cons y ys =>
      -- with a comma in front the first types are like all the others
      refine continued_inj (fun z hz => (hxs z hz).2) hys ?_
      rw [continued_cons, continued_cons]
      exact congrArg (',' :: ' ' :: ·) h

end

theorem Legible.delimited {a : Option StaticType} (ha : Legible a) : Delimited a := by
  -- over the nesting, with whatever follows the text left open, since that changes on the way in
  induction ha with
  | absent =>
    intro b r s hb hr hs h
    obtain ⟨hname, hrest⟩ := Legible.absent.split hb hr hs h
    cases hb with
    | absent => exact ⟨.absent, hrest⟩
    | known hplain => exact absurd hname.symm hplain.ne_unknown
  | @known t hplain hvalues ih =>
    intro b r s hb hr hs h
    obtain ⟨hname, hrest⟩ := (Legible.known hplain hvalues).split hb hr hs h
    cases hb with
    | absent => exact absurd hname hplain.ne_unknown
    | @known u _ hvalues' =>
      -- the names are the same, and a bracket follows both of them or none
      rw [Option.bind_some, Option.bind_some] at hrest
      cases ht : t.args <;> cases hu : u.args <;> rw [ht, hu] at hrest
      case none.none => exact ⟨.plain hname ht hu, hrest⟩
      case none.some args' => exact absurd hrest hr.ne_bracket
      case some.none args => exact absurd hrest.symm hs.ne_bracket
      case some.some args args' =>
        rw [ht] at hvalues ih
        rw [hu] at hvalues'
        simp only [bracketed, List.cons_append, List.append_assoc, List.cons.injEq, true_and,
          List.nil_append] at hrest
        obtain ⟨hlength, hpointwise, hrs⟩ :=
          listed_inj (fun x hx => ⟨hvalues x hx, ih x hx⟩) hvalues' hrest
        rw [args.length_values, args'.length_values] at hlength
        exact ⟨.applied hname ht hu hlength hpointwise, hrs⟩

theorem ReadsAlike.renderType_eq {a b : Option StaticType} (h : ReadsAlike a b) :
    renderType a = renderType b := by
  induction h with
  | absent => rfl
  | plain hname ht hu =>
    rw [renderType, renderType, StaticType.render_eq, StaticType.render_eq, ht, hu]
    exact hname
  | @applied t u args args' hname ht hu hsize _ ih =>
    rw [← args.length_values, ← args'.length_values] at hsize
    have hvalues := Pointwise.map_eq hsize ih
    rw [args.map_renderType_values, args'.map_renderType_values] at hvalues
    rw [renderType, renderType, StaticType.render_eq, StaticType.render_eq, ht, hu]
    simp only [hname, hvalues]

theorem Legible.renderType_eq_iff {a b : Option StaticType} (ha : Legible a) (hb : Legible b) :
    renderType a = renderType b ↔ ReadsAlike a b := by
  refine ⟨fun h => ?_, ReadsAlike.renderType_eq⟩
  have hnil : (renderType a).toList ++ [] = (renderType b).toList ++ [] := by rw [h]
  exact (ha.delimited b [] [] hb closes_nil closes_nil hnil).1

theorem Diagnostic.message_typeConversion (src dest : String) (span : Span) :
    (typeConversion src dest span).message = "at " ++ span.render ++ ": " ++
      ("'" ++ src ++ "' cannot be converted to '" ++ dest ++ "'") := rfl

theorem Diagnostic.message_typeConversion_src (src src' dest : String) (span : Span) :
    (typeConversion src dest span).message = (typeConversion src' dest span).message ↔
      src = src' := by
  rw [message_typeConversion, message_typeConversion, String.append_right_inj, String.append_left_inj,
    String.append_left_inj, String.append_left_inj, String.append_right_inj]

theorem Diagnostic.message_typeConversion_dest (src dest dest' : String) (span : Span) :
    (typeConversion src dest span).message = (typeConversion src dest' span).message ↔
      dest = dest' := by
  rw [message_typeConversion, message_typeConversion, String.append_right_inj, String.append_left_inj,
    String.append_right_inj]

/-- Types whose names are plain are quoted alike exactly if the same names stand in the same places. So
conversion messages that agree in everything else do not confuse them either. -/
theorem quoted_types_uniquely_readable (a b : Option StaticType) (ha : Legible a) (hb : Legible b) :
    (renderType a = renderType b ↔ ReadsAlike a b) ∧
    ∀ (other : String) (span : Span),
      ((Diagnostic.typeConversion (renderType a) other span).message =
        (Diagnostic.typeConversion (renderType b) other span).message ↔ ReadsAlike a b) ∧
      ((Diagnostic.typeConversion other (renderType a) span).message =
        (Diagnostic.typeConversion other (renderType b) span).message ↔ ReadsAlike a b) := by
  have hiff := ha.renderType_eq_iff hb
  exact ⟨hiff, fun other span => ⟨(Diagnostic.message_typeConversion_src _ _ other span).trans hiff,
    (Diagnostic.message_typeConversion_dest other _ _ span).trans hiff⟩⟩

/-! Dictionaries of dictionaries whose second argument is absent. A function may have the name of a
type and then takes its place. Names that are not plain pass for something else. -/

namespace Dictionaries

open ScopeForest.Boxes (token number unary)

def named (text : String) : StaticType := .ofSymbol (.ofPrimitive (token 20 text) .any)

def dict : StaticType := named "dict"

def callback : StaticType := ⟨.handler (unary (token 21 "dict") number), none, none⟩

def applied (t : StaticType) (values : List (Option StaticType)) : StaticType :=
  { t with args := some ⟨values.mapIdx fun i value => ⟨token (.ofNat i) "T", value⟩⟩ }

def nested (outer inner : StaticType) : Option StaticType :=
  some (applied outer [some (applied inner [some number]), none])

theorem legible_nested {outer inner : StaticType} (houter : PlainName outer.ident.text)
    (hinner : PlainName inner.ident.text) : Legible (nested outer inner) := by
  have hnumber : Legible (some number) := .known (by decide) nofun
  have hvalue : Legible (some (applied inner [some number])) :=
    .known hinner (List.forall_mem_singleton.2 hnumber)
  exact .known houter (List.forall_mem_cons.2 ⟨hvalue, List.forall_mem_singleton.2 .absent⟩)

end Dictionaries

open Dictionaries in
theorem quoted_types_uniquely_readable_dictionaries :
    Legible (nested dict callback) ∧ Legible (nested callback dict) ∧
    renderType (nested dict callback) = "dict<dict<int>, (unknown)>" ∧
    ReadsAlike (nested dict callback) (nested callback dict) ∧
    renderType (some dict) ≠ renderType (some (applied dict [])) := by
  have hname : PlainName "dict" := by decide
  have hleft : Legible (nested dict callback) := legible_nested hname hname
  have hright : Legible (nested callback dict) := legible_nested hname hname
  have htext : renderType (nested dict callback) = "dict<dict<int>, (unknown)>" := by
    decide +kernel
  have hsame : renderType (nested dict callback) = renderType (nested callback dict) := by
    decide +kernel
  have halike := (quoted_types_uniquely_readable _ _ hleft hright).1.1 hsame
  refine ⟨hleft, hright, htext, halike, fun h => ?_⟩
  have hdict : Legible (some dict) := .known hname nofun
  have hempty : Legible (some (applied dict [])) := .known hname nofun
  cases (quoted_types_uniquely_readable _ _ hdict hempty).1.1 h with
  | plain _ _ hargs => cases hargs
  | applied _ hargs => cases hargs

open Dictionaries ScopeForest.Boxes in
example : renderType (some (named "(unknown)")) = renderType none ∧
    renderType (some (applied dict [some (named "")])) = renderType (some (applied dict [])) ∧
    renderType (some (applied dict [some (named "int, int")])) =
      renderType (some (applied dict [some number, some number])) := by
  decide +kernel

end ScriptSemantics
