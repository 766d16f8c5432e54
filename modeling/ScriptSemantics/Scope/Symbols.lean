import ScriptSemantics.Types.Basic

/-! The symbol table of one scope. A name stands for one type, one variable, or any number of
functions that overload it. -/

namespace ScriptSemantics

structure VariableSymbol where
  ident : Token
  type : Option StaticType

inductive Declaration where
  | type (symbol : TypeSymbol)
  | function (symbol : FunctionSymbol)
  | variable (symbol : VariableSymbol)

def Declaration.ident : Declaration → Token
  | .type symbol => symbol.ident
  | .function symbol => symbol.ident
  | .variable symbol => symbol.ident

def Declaration.name (d : Declaration) : String := d.ident.text

structure Overloads where
  first : FunctionSymbol
  rest : List FunctionSymbol := []

namespace Overloads

def toList (o : Overloads) : List FunctionSymbol := o.first :: o.rest

def push (o : Overloads) (f : FunctionSymbol) : Overloads := { o with rest := o.rest ++ [f] }

@[simp] theorem toList_push (o : Overloads) (f : FunctionSymbol) :
    (o.push f).toList = o.toList ++ [f] := rfl

end Overloads

inductive Entry where
  | type (symbol : TypeSymbol)
  | functions (overloads : Overloads)
  | variable (symbol : VariableSymbol)

namespace Entry

def ofDeclaration : Declaration → Entry
  | .type symbol => .type symbol
  | .function symbol => .functions ⟨symbol, []⟩
  | .variable symbol => .variable symbol

def first : Entry → Declaration
  | .type symbol => .type symbol
  | .functions overloads => .function overloads.first
  | .variable symbol => .variable symbol

def ident (e : Entry) : Token := e.first.ident

def name (e : Entry) : String := e.ident.text

def overloads : Entry → List FunctionSymbol
  | .functions overloads => overloads.toList
  | .type _ | .variable _ => []

/-- A further declaration of the same name: only a function can join, and only functions. -/
def extend? : Entry → Declaration → Option Entry
  | .functions overloads, .function f => some (.functions (overloads.push f))
  | _, _ => none

@[simp] theorem first_ofDeclaration (d : Declaration) : (ofDeclaration d).first = d := by
  cases d <;> rfl

@[simp] theorem name_ofDeclaration (d : Declaration) : (ofDeclaration d).name = d.name := by
  rw [name, ident, first_ofDeclaration, Declaration.name]

theorem first_extend? {e e' : Entry} {d : Declaration} (h : e.extend? d = some e') :
    e'.first = e.first := by
  rcases e with _ | o | _ <;> rcases d with _ | f | _ <;> simp only [extend?, reduceCtorEq,
    Option.some.injEq] at h
  subst h
  rfl

theorem name_extend? {e e' : Entry} {d : Declaration} (h : e.extend? d = some e') :
    e'.name = e.name := by
  rw [name, ident, first_extend? h, name, ident]

end Entry

structure SymbolTable where
  entries : List Entry := []

namespace SymbolTable

def find? (table : SymbolTable) (name : String) : Option Entry :=
  table.entries.find? (·.name == name)

def insertEntry (d : Declaration) : List Entry → Option (List Entry)
  | [] => some [.ofDeclaration d]
  | e :: rest =>
    if e.name == d.name then (e.extend? d).map (· :: rest)
    else (insertEntry d rest).map (e :: ·)

def insert? (table : SymbolTable) (d : Declaration) : Option SymbolTable :=
  (insertEntry d table.entries).map SymbolTable.mk

theorem find?_insert? {table table' : SymbolTable} {d : Declaration}
    (h : table.insert? d = some table') (name : String) :
    table'.find? name =
      if d.name = name then
        match table.find? name with
        | none => some (.ofDeclaration d)
        | some e => e.extend? d
      else table.find? name := by
  obtain ⟨entries', hins, rfl⟩ := Option.map_eq_some_iff.1 h
  clear h
  rcases table with ⟨entries⟩
  simp only [find?] at hins ⊢
  induction entries generalizing entries' with
  | nil =>
    cases hins
    by_cases hn : d.name = name <;> simp [hn]
  | cons e rest ih =>
    by_cases he : e.name = d.name
    · simp only [insertEntry, he, beq_self_eq_true, if_true] at hins
      obtain ⟨e', hext, rfl⟩ := Option.map_eq_some_iff.1 hins
      have he' : e'.name = d.name := (Entry.name_extend? hext).trans he
      by_cases hn : d.name = name
      · simp [hn, he.trans hn, he'.trans hn, hext]
      · simp [hn, he, he']
    · have hne : (e.name == d.name) = false := by simp [he]
      simp only [insertEntry, hne, Bool.false_eq_true, if_false] at hins
      obtain ⟨rest', hrest, rfl⟩ := Option.map_eq_some_iff.1 hins
      by_cases hen : e.name = name
      · have hn : d.name ≠ name := fun hn => he (hen.trans hn.symm)
        simp [hen, hn]
      · simpa [hen] using ih rest' hrest

theorem insert?_eq_none_iff {table : SymbolTable} {d : Declaration} :
    table.insert? d = none ↔ ∃ e, table.find? d.name = some e ∧ e.extend? d = none := by
  rcases table with ⟨entries⟩
  simp only [insert?, Option.map_eq_none_iff, find?]
  induction entries with
  | nil => simp [insertEntry]
  | cons e rest ih => by_cases he : e.name = d.name <;> simp [insertEntry, he, ih]

def sorted (table : SymbolTable) : List Entry :=
  table.entries.mergeSort fun a b => !decide (b.name < a.name)

end SymbolTable

end ScriptSemantics
