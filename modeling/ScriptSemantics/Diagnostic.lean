import ScriptSemantics.Source.Span

/-! Diagnostics: the four faults analysis reports, and their wording. -/

namespace ScriptSemantics

inductive DiagnosticKind where
  | duplicateSymbol
  | arityMismatch
  | missingArgument
  | typeConversion
deriving DecidableEq

def DiagnosticKind.name : DiagnosticKind → String
  | duplicateSymbol => "duplicate symbol"
  | arityMismatch => "arity mismatch"
  | missingArgument => "missing argument"
  | typeConversion => "type conversion"

inductive Diagnostic where
  | duplicateSymbol (name : String) (span : Span)
  | arityMismatch (expected got : Nat) (span : Span)
  | missingArgument (param : String) (span : Span)
  | typeConversion (src dest : String) (span : Span)
deriving DecidableEq

namespace Diagnostic

def kind : Diagnostic → DiagnosticKind
  | duplicateSymbol .. => .duplicateSymbol
  | arityMismatch .. => .arityMismatch
  | missingArgument .. => .missingArgument
  | typeConversion .. => .typeConversion

def span : Diagnostic → Span
  | duplicateSymbol _ span => span
  | arityMismatch _ _ span => span
  | missingArgument _ span => span
  | typeConversion _ _ span => span

def detail : Diagnostic → String
  | duplicateSymbol name _ => "'" ++ name ++ "' is already defined"
  | arityMismatch expected got _ =>
    "function has " ++ toString expected ++ " parameter(s), but " ++ toString got ++
      " argument(s) were provided"
  | missingArgument param _ => "missing argument for parameter '" ++ param ++ "'"
  | typeConversion src dest _ => "'" ++ src ++ "' cannot be converted to '" ++ dest ++ "'"

def message (d : Diagnostic) : String := "at " ++ d.span.render ++ ": " ++ d.detail

def report (ds : List Diagnostic) : String := String.join (ds.map (·.message ++ "\n"))

def ofKind (k : DiagnosticKind) (ds : List Diagnostic) : List Diagnostic := ds.filter (·.kind == k)

end Diagnostic

end ScriptSemantics
