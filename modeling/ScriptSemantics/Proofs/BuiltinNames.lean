import Mathlib.Algebra.Ring.Nat
import ScriptSemantics.Proofs.Instantiation
import ScriptSemantics.Types.Builtin

/-! Builtin types by name. Two lookups go by names and differ in what they do first, but not in what
they find. Every set of builtin types draws its own tokens, and as long as the numbers last no two
types of one set or of two have a declaration in common. -/

namespace ScriptSemantics

/-! ### Token numbers -/

namespace TokenId

def ahead (id : TokenId) (k : Nat) : TokenId := ⟨id.index + .ofNat k⟩

theorem ahead_zero (id : TokenId) : id.ahead 0 = id := by
  simp [ahead]

theorem ahead_ahead (id : TokenId) (i j : Nat) : (id.ahead i).ahead j = id.ahead (i + j) := by
  simp [ahead, UInt32.add_assoc]

theorem ahead_inj {id : TokenId} {i j : Nat} (hi : i < 2 ^ 32) (hj : j < 2 ^ 32)
    (h : id.ahead i = id.ahead j) : i = j := by
  have hword : UInt32.ofNat i = UInt32.ofNat j :=
    (UInt32.add_right_inj id.index).1 (TokenId.mk.inj h)
  have hnat := congrArg UInt32.toNat hword
  rwa [UInt32.toNat_ofNat', UInt32.toNat_ofNat', Nat.mod_eq_of_lt hi, Nat.mod_eq_of_lt hj] at hnat

end TokenId

theorem TokenM.run_mapM {α β : Type} {make : α → TokenM β} {count : α → Nat}
    (hcount : ∀ a supply, ((make a).run supply).2 = ⟨supply.next.ahead (count a)⟩) (as : List α)
    (supply : TokenSupply) :
    (∀ i : Nat, ((as.mapM make).run supply).1[i]? = as[i]?.map fun a =>
      ((make a).run ⟨supply.next.ahead ((as.take i).map count).sum⟩).1) ∧
    ((as.mapM make).run supply).2 = ⟨supply.next.ahead (as.map count).sum⟩ := by
  induction as generalizing supply with
  | nil =>
    rw [List.mapM_nil]
    refine ⟨fun i => rfl, ?_⟩
    rw [List.map_nil, List.sum_nil, TokenId.ahead_zero]
    rfl
  | cons a as ih =>
    have hrun : ((a :: as).mapM make).run supply =
        (((make a).run supply).1 :: ((as.mapM make).run ((make a).run supply).2).1,
          ((as.mapM make).run ((make a).run supply).2).2) := by
      rw [List.mapM_cons]
      rfl
    obtain ⟨hmade, hsupply⟩ := ih ⟨supply.next.ahead (count a)⟩
    rw [hrun, hcount]
    refine ⟨fun i => ?_, ?_⟩
    · cases i with
      | zero => simp [TokenId.ahead_zero]
      | succ i =>
        rw [List.getElem?_cons_succ, hmade]
        simp [TokenId.ahead_ahead]
    · simpa [TokenId.ahead_ahead] using hsupply

/-! ### One set of builtin types -/

namespace TypeSymbol

def builtin (id : TokenId) (kind : Primitive) (name : String) : TypeSymbol :=
  .ofPrimitive ⟨id, name, .reserved, {},
    { numberReserved := numberTypeNames.contains name, builtin := true }⟩ kind

theorem run_makeBuiltin (kind : Primitive) (name : String) (supply : TokenSupply) :
    (makeBuiltin kind name).run supply = (.builtin supply.next kind name, ⟨supply.next.ahead 1⟩) :=
  rfl

theorem find?_keepLast (ts : List TypeSymbol) (name : String) :
    (keepLast ts).find? (·.ident.text == name) = ts.reverse.find? (·.ident.text == name) := by
  induction ts with
  | nil => rfl
  | cons t ts ih =>
    rw [List.reverse_cons, List.find?_append, ← ih, keepLast]
    split
    · next hagain =>
      -- a later symbol has this name, so this one is not missed
      have hlater (ht : t.ident.text = name) : ts.reverse.find? (·.ident.text == name) ≠ none := by
        subst ht
        simpa using hagain
      by_cases ht : t.ident.text = name
      · rw [ih, Option.or_of_isSome (Option.isSome_iff_ne_none.2 (hlater ht))]
      · simp [ht]
    · next hlast =>
      have hnone (ht : t.ident.text = name) : ts.reverse.find? (·.ident.text == name) = none := by
        subst ht
        simpa using hlast
      by_cases ht : t.ident.text = name
      · rw [ih, hnone ht]
        simp [ht]
      · simp [ht]

theorem map_text_keepLast (ts : List TypeSymbol) :
    (keepLast ts).map (·.ident.text) = (ts.map (·.ident.text)).dedup := by
  induction ts with
  | nil => rfl
  | cons t ts ih =>
    rw [keepLast, List.map_cons]
    split
    · next hagain =>
      have hmem : t.ident.text ∈ ts.map (·.ident.text) := by simpa using hagain
      rw [ih, List.dedup_cons_of_mem hmem]
    · next hlast =>
      have hnew : t.ident.text ∉ ts.map (·.ident.text) := by simpa using hlast
      rw [List.map_cons, ih, List.dedup_cons_of_notMem hnew]

end TypeSymbol

namespace BuiltinTypes

def fixedNames : List String := ["string", "bool", "void", "?", "auto"]

variable (names : List String) (supply : TokenSupply)

def numbersMade : List TypeSymbol :=
  ((names.mapM (TypeSymbol.makeBuiltin .number)).run supply).1

def made : BuiltinTypes := ((ofNumberNames names).run supply).1

theorem getElem?_numbersMade (k : Nat) :
    (numbersMade names supply)[k]? = names[k]?.map (.builtin (supply.next.ahead k) .number) := by
  have hmade := (TokenM.run_mapM (fun name supply => congrArg Prod.snd
    (TypeSymbol.run_makeBuiltin .number name supply)) names supply).1 k
  rw [numbersMade, hmade]
  cases hk : names[k]? with
  | none => rfl
  | some name =>
    have hle : k ≤ names.length := Nat.le_of_lt (List.getElem?_eq_some_iff.1 hk).1
    simp [TypeSymbol.run_makeBuiltin, hle]

theorem run_numbers_snd :
    ((names.mapM (TypeSymbol.makeBuiltin .number)).run supply).2 =
      ⟨supply.next.ahead names.length⟩ := by
  have hsupply := (TokenM.run_mapM (fun name supply => congrArg Prod.snd
    (TypeSymbol.run_makeBuiltin .number name supply)) names supply).2
  simpa using hsupply

theorem map_text_numbersMade :
    (numbersMade names supply).map (·.ident.text) = names := by
  refine List.ext_getElem? fun k => ?_
  rw [List.getElem?_map, getElem?_numbersMade, Option.map_map]
  exact Option.map_id'

theorem run_ofNumberNames :
    (ofNumberNames names).run supply =
      (let first := supply.next.ahead names.length
       (⟨TypeSymbol.keepLast (numbersMade names supply), .builtin first .string "string",
          .builtin (first.ahead 1) .bool "bool", .builtin (first.ahead 2) .void "void",
          .builtin (first.ahead 3) .any "?", .builtin (first.ahead 4) .auto "auto"⟩,
        ⟨first.ahead 5⟩)) := by
  have hrun : (ofNumberNames names).run supply =
      (let first := ((names.mapM (TypeSymbol.makeBuiltin .number)).run supply).2.next
       (⟨TypeSymbol.keepLast (numbersMade names supply), .builtin first .string "string",
          .builtin (first.ahead 1) .bool "bool", .builtin ((first.ahead 1).ahead 1) .void "void",
          .builtin (((first.ahead 1).ahead 1).ahead 1) .any "?",
          .builtin ((((first.ahead 1).ahead 1).ahead 1).ahead 1) .auto "auto"⟩,
        ⟨((((first.ahead 1).ahead 1).ahead 1).ahead 1).ahead 1⟩)) := rfl
  rw [hrun, run_numbers_snd]
  simp only [TokenId.ahead_ahead]

theorem number?_made (n : String) :
    (made names supply).number? n =
      (numbersMade names supply).reverse.find? (·.ident.text == n) := by
  rw [number?, made, run_ofNumberNames]
  exact TypeSymbol.find?_keepLast (numbersMade names supply) n

theorem number?_eq_some_iff (n : String) (t : TypeSymbol) :
    (made names supply).number? n = some t ↔ ∃ k : Nat, names[k]? = some n ∧
      (numbersMade names supply)[k]? = some t ∧ ∀ l : Nat, k < l → names[l]? ≠ some n := by
  have htext (k : Nat) : names[k]? = (numbersMade names supply)[k]?.map (·.ident.text) := by
    rw [← List.getElem?_map, map_text_numbersMade]
  rw [number?_made, find?_reverse_eq_some_iff]
  refine exists_congr fun k => ⟨?_, ?_⟩
  · rintro ⟨hk, hname, hlast⟩
    refine ⟨by simpa [htext, hk] using hname, hk, fun l hl hagain => ?_⟩
    rw [htext] at hagain
    obtain ⟨u, hu, hsame⟩ := Option.map_eq_some_iff.1 hagain
    simpa [hsame] using hlast l u hl hu
  · rintro ⟨hname, hk, hlast⟩
    refine ⟨hk, by simpa [htext, hk] using hname, fun l u hl hu => ?_⟩
    have hne := hlast l hl
    simpa [htext, hu] using hne

theorem exists_number?_iff (n : String) :
    (∃ t, (made names supply).number? n = some t) ↔ n ∈ names := by
  rw [← Option.isSome_iff_exists, number?_made, List.find?_isSome]
  conv_rhs => rw [← map_text_numbersMade names supply]
  simp

theorem numberCount_made : (made names supply).numberCount = names.toFinset.card := by
  have hnumbers : (made names supply).numbers = TypeSymbol.keepLast (numbersMade names supply) := by
    rw [made, run_ofNumberNames]
  rw [numberCount, hnumbers, List.card_toFinset, ← List.length_map (·.ident.text),
    TypeSymbol.map_text_keepLast, map_text_numbersMade]

theorem get?_of_not_mem_fixedNames (b : BuiltinTypes) {n : String} (h : n ∉ fixedNames) :
    b.get? n = b.number? n := by
  rw [get?]
  all_goals
    rintro rfl
    exact h (by decide)

theorem exists_position {names : List String} {supply : TokenSupply} {n : String} {t : TypeSymbol}
    (h : (made names supply).get? n = some t) :
    ∃ k : Nat, (names ++ fixedNames)[k]? = some n ∧ t.ident.text = n ∧
      t.ident.id = supply.next.ahead k := by
  by_cases hn : n ∈ fixedNames
  · have hfixed (j : Nat) : (names ++ fixedNames)[names.length + j]? = fixedNames[j]? := by
      rw [List.getElem?_append_right (Nat.le_add_right _ _), Nat.add_sub_cancel_left]
    rw [made, run_ofNumberNames] at h
    simp only [fixedNames, List.mem_cons, List.not_mem_nil, or_false] at hn
    rcases hn with rfl | rfl | rfl | rfl | rfl <;> cases h
    · exact ⟨_, hfixed 0, rfl, rfl⟩
    · exact ⟨_, hfixed 1, rfl, TokenId.ahead_ahead _ _ _⟩
    · exact ⟨_, hfixed 2, rfl, TokenId.ahead_ahead _ _ _⟩
    · exact ⟨_, hfixed 3, rfl, TokenId.ahead_ahead _ _ _⟩
    · exact ⟨_, hfixed 4, rfl, TokenId.ahead_ahead _ _ _⟩
  · rw [get?_of_not_mem_fixedNames _ hn] at h
    obtain ⟨k, hk, hmade, -⟩ := (number?_eq_some_iff names supply n t).1 h
    rw [getElem?_numbersMade, hk] at hmade
    cases hmade
    have hlt : k < names.length := (List.getElem?_eq_some_iff.1 hk).1
    exact ⟨k, by rw [List.getElem?_append_left hlt, hk], rfl, rfl⟩

theorem exists_get?_iff (n : String) :
    (∃ t, (made names supply).get? n = some t) ↔ n ∈ names ∨ n ∈ fixedNames := by
  by_cases hn : n ∈ fixedNames
  · refine iff_of_true ?_ (.inr hn)
    simp only [fixedNames, List.mem_cons, List.not_mem_nil, or_false] at hn
    rcases hn with rfl | rfl | rfl | rfl | rfl <;> exact ⟨_, rfl⟩
  · rw [get?_of_not_mem_fixedNames _ hn, exists_number?_iff, or_iff_left hn]

def plainNames : List String := ["bool", "void", "?", "auto"]

theorem ofToken_of_not_mem_plainNames (b : BuiltinTypes) {token : Token}
    (h : token.text ∉ plainNames) :
    b.ofToken token = if token.flags.numberReserved then
      match b.number? token.text with
      | some symbol => .ok (some (.ofSymbol symbol))
      | none => .error ⟨token.text⟩
    else .ok none := by
  have hnot {n : String} (hn : n ∈ plainNames) (htext : token.text = n) : False := h (htext ▸ hn)
  rw [ofToken]
  split
  · next htext => exact (hnot (by decide) htext).elim
  · next htext => exact (hnot (by decide) htext).elim
  · next htext => exact (hnot (by decide) htext).elim
  · next htext => exact (hnot (by decide) htext).elim
  · rfl

theorem ofToken_of_mem_plainNames (b : BuiltinTypes) {token : Token} (h : token.text ∈ plainNames) :
    ∃ symbol, b.get? token.text = some symbol ∧ b.ofToken token = .ok (some (.ofSymbol symbol)) := by
  rw [ofToken]
  simp only [plainNames, List.mem_cons, List.not_mem_nil, or_false] at h
  rcases h with h | h | h | h <;> rw [h] <;> exact ⟨_, rfl, rfl⟩

theorem ofToken_eq_error_iff (token : Token) (e : MissingNumericAlias) :
    (made names supply).ofToken token = .error e ↔ e = ⟨token.text⟩ ∧
      token.flags.numberReserved = true ∧ token.text ∉ plainNames ∧ token.text ∉ names := by
  by_cases hplain : token.text ∈ plainNames
  · obtain ⟨symbol, -, hok⟩ := (made names supply).ofToken_of_mem_plainNames hplain
    simp [hok, hplain]
  · rw [ofToken_of_not_mem_plainNames _ hplain, ← exists_number?_iff names supply]
    cases token.flags.numberReserved with
    | false => simp
    | true => cases (made names supply).number? token.text <;> simp [hplain, eq_comm]

theorem get?_of_ofToken {b : BuiltinTypes} {token : Token} {t : StaticType}
    (h : b.ofToken token = .ok (some t)) (htext : token.text ≠ "string") :
    ∃ symbol, b.get? token.text = some symbol ∧ t = .ofSymbol symbol := by
  by_cases hplain : token.text ∈ plainNames
  · obtain ⟨symbol, hget, hok⟩ := b.ofToken_of_mem_plainNames hplain
    rw [hok] at h
    cases h
    exact ⟨symbol, hget, rfl⟩
  · have hfixed : token.text ∉ fixedNames := fun hmem =>
      (List.mem_cons.1 hmem).elim htext hplain
    rw [ofToken_of_not_mem_plainNames _ hplain] at h
    rw [get?_of_not_mem_fixedNames _ hfixed]
    split at h
    · split at h
      · next symbol hnumber =>
        cases h
        exact ⟨symbol, hnumber, rfl⟩
      · cases h
    · cases h

theorem ofToken_ne_error (hnames : ∀ n ∈ numberTypeNames, n ∈ names) {token : Token}
    (hflag : token.flags.numberReserved = true → token.text ∈ numberTypeNames)
    (e : MissingNumericAlias) : (made names supply).ofToken token ≠ .error e := by
  intro h
  obtain ⟨-, hreserved, -, hmissing⟩ := (ofToken_eq_error_iff names supply token e).1 h
  exact hmissing (hnames _ (hflag hreserved))

end BuiltinTypes

/-! ### Many sets -/

inductive Making where
  | token (text : String) (kind : TokenKind) (span : Span) (flags : TokenFlags)
  | builtins (names : List String)

inductive Made where
  | token (token : Token)
  | builtins (b : BuiltinTypes)

namespace Making

def perform : Making → TokenM Made
  | token text kind span flags => do return .token (← Token.make text kind span flags)
  | builtins names => do return .builtins (← BuiltinTypes.ofNumberNames names)

def count : Making → Nat
  | token .. => 1
  | builtins names => names.length + BuiltinTypes.fixedNames.length

theorem run_perform_snd (m : Making) (supply : TokenSupply) :
    (m.perform.run supply).2 = ⟨supply.next.ahead m.count⟩ := by
  cases m with
  | token text kind span flags => rfl
  | builtins names =>
    have hrun : ((builtins names).perform.run supply).2 =
        ((BuiltinTypes.ofNumberNames names).run supply).2 := rfl
    rw [hrun, BuiltinTypes.run_ofNumberNames]
    exact congrArg TokenSupply.mk (TokenId.ahead_ahead _ _ _)

def performAll (ms : List Making) (supply : TokenSupply) : List Made :=
  ((ms.mapM perform).run supply).1

def before (ms : List Making) (i : Nat) : Nat := ((ms.take i).map count).sum

theorem before_add_lt {ms : List Making} {i j k : Nat} {m : Making} (hm : ms[i]? = some m)
    (hk : k < m.count) (hij : i < j) : before ms i + k < before ms j := by
  obtain ⟨d, rfl⟩ := Nat.exists_eq_add_of_le (Nat.succ_le_of_lt hij)
  have htake : ms.take (i + 1 + d) = ms.take i ++ m :: (ms.drop (i + 1)).take d := by
    rw [List.take_add, List.take_add_one, hm, List.append_assoc]
    rfl
  rw [before, before, htake, List.map_append, List.sum_append, List.map_cons, List.sum_cons]
  omega

theorem exists_made {ms : List Making} {supply : TokenSupply} {i : Nat} {b : BuiltinTypes}
    (h : (performAll ms supply)[i]? = some (.builtins b)) :
    ∃ names, ms[i]? = some (.builtins names) ∧
      b = .made names ⟨supply.next.ahead (before ms i)⟩ := by
  rw [performAll, (TokenM.run_mapM run_perform_snd ms supply).1] at h
  obtain ⟨m, hm, hmade⟩ := Option.map_eq_some_iff.1 h
  cases m with
  | token text kind span flags => cases hmade
  | builtins names => exact ⟨names, hm, (Made.builtins.inj hmade).symm⟩

theorem exists_place {ms : List Making} {supply : TokenSupply} {i : Nat} {b : BuiltinTypes}
    {n : String} {t : TypeSymbol} (hb : (performAll ms supply)[i]? = some (.builtins b))
    (ht : b.get? n = some t) :
    ∃ (names : List String) (k : Nat), ms[i]? = some (.builtins names) ∧
      (names ++ BuiltinTypes.fixedNames)[k]? = some n ∧ k < (builtins names).count ∧
      t.ident.id = supply.next.ahead (before ms i + k) := by
  obtain ⟨names, hm, rfl⟩ := exists_made hb
  obtain ⟨k, hk, -, hid⟩ := BuiltinTypes.exists_position ht
  have hlt : k < (names ++ BuiltinTypes.fixedNames).length := (List.getElem?_eq_some_iff.1 hk).1
  refine ⟨names, k, hm, hk, ?_, by rw [hid, TokenId.ahead_ahead]⟩
  rwa [List.length_append] at hlt

theorem eq_of_same_declaration {ms : List Making} (hcount : (ms.map count).sum ≤ 2 ^ 32)
    {supply : TokenSupply} {i j : Nat} {b b' : BuiltinTypes} {n n' : String} {t t' : TypeSymbol}
    (hb : (performAll ms supply)[i]? = some (.builtins b))
    (hb' : (performAll ms supply)[j]? = some (.builtins b')) (ht : b.get? n = some t)
    (ht' : b'.get? n' = some t') (h : t.ident.id = t'.ident.id) : i = j ∧ n = n' := by
  obtain ⟨names, k, hm, hk, hlt, hid⟩ := exists_place hb ht
  obtain ⟨names', k', hm', hk', hlt', hid'⟩ := exists_place hb' ht'
  have htotal : before ms ms.length ≤ 2 ^ 32 := by rwa [before, List.take_length]
  have hplace := before_add_lt hm hlt (List.getElem?_eq_some_iff.1 hm).1
  have hplace' := before_add_lt hm' hlt' (List.getElem?_eq_some_iff.1 hm').1
  rw [hid, hid'] at h
  have heq : before ms i + k = before ms j + k' :=
    TokenId.ahead_inj (Nat.lt_of_lt_of_le hplace htotal) (Nat.lt_of_lt_of_le hplace' htotal) h
  -- what one of two sets draws comes before all that the other does
  rcases Nat.lt_trichotomy i j with hij | rfl | hij
  · have := before_add_lt hm hlt hij
    omega
  · obtain rfl : names = names' := Making.builtins.inj (Option.some.inj (hm.symm.trans hm'))
    obtain rfl : k = k' := Nat.add_left_cancel heq
    exact ⟨rfl, Option.some.inj (hk.symm.trans hk')⟩
  · have := before_add_lt hm' hlt' hij
    omega

end Making

open BuiltinTypes in
/-- A set of builtin types has the numeric names it was made with and the five fixed ones, each for a
type declared under it. A numeric name stands for the symbol made for its last occurrence. A token
can go wrong only by a flag that the names do not bear out, and finds what its text finds otherwise,
save for `string`. As long as token numbers last, a declaration tells the set it is from and its
name there. -/
theorem builtins_agree_and_differ :
    (∀ (names : List String) (supply : TokenSupply),
      let b := made names supply
      (∀ n, (∃ t, b.get? n = some t) ↔ n ∈ names ∨ n ∈ ["string", "bool", "void", "?", "auto"]) ∧
      (∀ n t, b.get? n = some t → t.ident.text = n) ∧
      (∀ n t, b.number? n = some t ↔ ∃ k : Nat, names[k]? = some n ∧
        (numbersMade names supply)[k]? = some t ∧ ∀ l : Nat, k < l → names[l]? ≠ some n) ∧
      b.numberCount = names.toFinset.card ∧
      (∀ token e, b.ofToken token = .error e ↔ e = ⟨token.text⟩ ∧
        token.flags.numberReserved = true ∧ token.text ∉ ["bool", "void", "?", "auto"] ∧
        token.text ∉ names) ∧
      (∀ token t, b.ofToken token = .ok (some t) → token.text ≠ "string" →
        ∃ symbol, b.get? token.text = some symbol ∧ t = .ofSymbol symbol) ∧
      ((∀ n ∈ numberTypeNames, n ∈ names) → ∀ text span (supply' : TokenSupply) e,
        b.ofToken ((Token.identifier text span).run supply').1 ≠ .error e ∧
        b.ofToken ((Token.reserved text span).run supply').1 ≠ .error e ∧
        b.ofToken ((Token.builtin text).run supply').1 ≠ .error e)) ∧
    ∀ (ms : List Making) (supply : TokenSupply), (ms.map Making.count).sum ≤ 2 ^ 32 →
      ∀ (i j : Nat) (b b' : BuiltinTypes) (n n' : String) (t t' : TypeSymbol),
        (Making.performAll ms supply)[i]? = some (.builtins b) →
        (Making.performAll ms supply)[j]? = some (.builtins b') →
        b.get? n = some t → b'.get? n' = some t' → t.ident.id = t'.ident.id → i = j ∧ n = n' := by
  refine ⟨fun names supply => ?_, fun ms supply hcount i j b b' n n' t t' hb hb' ht ht' h =>
    Making.eq_of_same_declaration hcount hb hb' ht ht' h⟩
  refine ⟨exists_get?_iff names supply, fun n t ht => ?_, number?_eq_some_iff names supply,
    numberCount_made names supply, ofToken_eq_error_iff names supply,
    fun token t ht htext => get?_of_ofToken ht htext, fun hnames text span supply' e => ?_⟩
  · obtain ⟨k, -, htext, -⟩ := exists_position ht
    exact htext
  · have hreserved : numberTypeNames.contains text = true → text ∈ numberTypeNames :=
      List.contains_iff_mem.1
    have hplain (h : false = true) : text ∈ numberTypeNames := absurd h Bool.false_ne_true
    exact ⟨ofToken_ne_error names supply hnames hplain e,
      ofToken_ne_error names supply hnames hreserved e,
      ofToken_ne_error names supply hnames hreserved e⟩

/-! A set in which a numeric name comes twice and another is one of the fixed names, and after it a
word and a set without numeric names. -/

namespace TwoSets

def names : List String := ["int", "string", "int"]

def makings : List Making := [.builtins names, .token "x" .identifier {} {}, .builtins []]

def first : BuiltinTypes := .made names {}

def second : BuiltinTypes := .made [] ⟨⟨10⟩⟩

def word (text : String) : Token := ((Token.reserved text {}).run {}).1

end TwoSets

open TwoSets in
theorem builtins_agree_and_differ_twoSets :
    (makings.map Making.count).sum ≤ 2 ^ 32 ∧
    (Making.performAll makings {})[0]? = some (.builtins first) ∧
    (Making.performAll makings {})[2]? = some (.builtins second) ∧
    first.bool.ident.id ≠ second.bool.ident.id ∧ first.string.ident.text = "string" ∧
    first.number? "int" = some (.builtin ⟨3⟩ .number "int") ∧
    first.ofToken (word "double") = .error ⟨"double"⟩ ∧
    (∃ symbol, first.get? "int" = some symbol ∧
      StaticType.ofSymbol (.builtin ⟨3⟩ .number "int") = .ofSymbol symbol) ∧
    (BuiltinTypes.made numberTypeNames {}).ofToken (word "double") ≠ .error ⟨"double"⟩ := by
  have hfirst : (Making.performAll makings {})[0]? = some (.builtins first) := by
    with_unfolding_all rfl
  have hsecond : (Making.performAll makings {})[2]? = some (.builtins second) := by
    with_unfolding_all rfl
  have hcount : (makings.map Making.count).sum ≤ 2 ^ 32 := by decide
  obtain ⟨hsets, hprocess⟩ := builtins_agree_and_differ
  obtain ⟨-, htext, hnumber, -, herror, hagree, -⟩ := hsets names {}
  obtain ⟨-, -, -, -, -, -, hall⟩ := hsets numberTypeNames {}
  refine ⟨hcount, hfirst, hsecond, fun hsame => ?_, htext "string" _ rfl, ?_, ?_,
    hagree (word "int") _ (by with_unfolding_all rfl) (by decide),
    (hall (fun _ h => h) "double" {} {} ⟨"double"⟩).2.1⟩
  · have hone := hprocess makings {} hcount 0 2 first second "bool" "bool" _ _ hfirst hsecond rfl rfl
      hsame
    cases hone.1
  · refine (hnumber "int" _).2 ⟨2, rfl, by with_unfolding_all rfl, fun l hl => ?_⟩
    rw [List.getElem?_eq_none hl]
    nofun
  · exact (herror (word "double") _).2 ⟨rfl, by decide, by decide, by decide⟩

end ScriptSemantics
