/-! Positions in source text. Lines, columns and lengths are 32-bit words, and line 0 marks text
that stands in no file. -/

namespace ScriptSemantics

structure Span where
  line : UInt32 := 0
  col : UInt32 := 0
  len : UInt32 := 0
deriving DecidableEq

namespace Span

def isEmpty (s : Span) : Bool := s.len == 0

def isVirtual (s : Span) : Bool := s.line == 0

def endCol (s : Span) : UInt32 := .ofNatClamp (s.col.toNat + s.len.toNat)

/-- Both ends count, so a cursor right behind a word is still on it. -/
def contains (s : Span) (line col : UInt32) : Bool :=
  !s.isVirtual && s.line == line && decide (s.col ≤ col) && decide (col ≤ s.endCol)

def Covers (s : Span) (line col : UInt32) : Prop :=
  s.line ≠ 0 ∧ s.line = line ∧ s.col.toNat ≤ col.toNat ∧ col.toNat ≤ s.col.toNat + s.len.toNat

instance (s : Span) (line col : UInt32) : Decidable (s.Covers line col) :=
  inferInstanceAs (Decidable (_ ∧ _))

def render (s : Span) : String := toString s.line.toNat ++ ":" ++ toString s.col.toNat

theorem toNat_endCol (s : Span) :
    s.endCol.toNat = min (s.col.toNat + s.len.toNat) (UInt32.size - 1) := by
  unfold endCol UInt32.ofNatClamp
  split <;> simp only [UInt32.toNat_ofNatLT] <;> omega

/-- Clamping the end column is harmless: no column lies past the greatest word. -/
theorem contains_iff (s : Span) (line col : UInt32) :
    s.contains line col = true ↔ s.Covers line col := by
  have hc := col.toNat_lt_size
  simp only [contains, Covers, isVirtual, Bool.and_eq_true, Bool.not_eq_true', beq_eq_false_iff_ne,
    beq_iff_eq, decide_eq_true_eq, UInt32.le_iff_toNat_le, toNat_endCol, and_assoc, ne_eq]
  constructor
  · rintro ⟨h0, hl, h1, h2⟩
    exact ⟨h0, hl, h1, by omega⟩
  · rintro ⟨h0, hl, h1, h2⟩
    exact ⟨h0, hl, h1, by omega⟩

end Span

end ScriptSemantics
