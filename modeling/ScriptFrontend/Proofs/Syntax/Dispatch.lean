import ScriptFrontend.Proofs.Syntax.Opening
import ScriptFrontend.Proofs.Syntax.Statements

/-!
# Which way a routine goes

What a routine does from a fresh start, by the lexemes it looks at.
-/
namespace ScriptFrontend.Parse
variable {ls rest : List Lexeme} {word : String}

theorem Cursor.start_sees (ls : List Lexeme) (b : Symbol) :
    (start ls).sees b = true ↔ ls.head? = some (.symbol b) := by
  rcases ls with _ | ⟨l, ls⟩
  · simp [sees]
  · cases l <;> simp [sees]

theorem Cursor.not_sees_of_opensExpression {b : Symbol} (opens : OpensExpression ls)
    (closing : (Lexeme.symbol b).opensOperand = false) (more : List Lexeme) :
    ¬(start (ls ++ more)).sees b := by
  obtain ⟨l, front, rfl, opens, -⟩ := opens
  rw [start_sees]
  intro same
  obtain rfl : l = .symbol b := Option.some.inj same
  rw [closing] at opens
  cases opens

theorem Cursor.expect_found {s : Cursor} {slot : SymbolSlot}
    (hs : s.pending = .symbol slot.symbol :: rest) :
    s.expect slot = .move true rest (leads_of_cons hs) := by
  obtain ⟨pending, _, _, _⟩ := s
  obtain rfl : pending = .symbol slot.symbol :: rest := hs
  simp [expect]

theorem Cursor.expect_symbol (slot : SymbolSlot) :
    (start (.symbol slot.symbol :: rest)).expect slot = .move true rest (leads_of_cons rfl) :=
  expect_found rfl

theorem Cursor.expect_missing {s : Cursor} {slot : SymbolSlot}
    (h : s.pending.head? ≠ some (.symbol slot.symbol)) :
    s.expect slot = .fault s (.missingSymbol slot) false := by
  unfold expect
  split
  · rename_i b rest hs
    have other : b ≠ slot.symbol := by
      intro same
      rw [hs, same] at h
      exact h rfl
    rw [if_neg other]
  · rfl

theorem Cursor.expect_other {slot : SymbolSlot} (h : ls.head? ≠ some (.symbol slot.symbol)) :
    (start ls).expect slot = .fault (start ls) (.missingSymbol slot) false :=
  expect_missing h

theorem Cursor.expectName_other {slot : NameSlot} (h : ∀ word, ls.head? ≠ some (.name word)) :
    (start ls).expectName slot = .fault (start ls) (.missingName slot) none := by
  rcases ls with _ | ⟨l, ls⟩
  · rfl
  · cases l with
    | name word => exact absurd rfl (h word)
    | _ => rfl

/-! Operands and operators are told apart in the same way in every state. -/

section AnyState
variable {s : Cursor}

theorem operand_of_integer {value : Int} (hs : s.pending = .integer value :: rest) :
    operand s = .move (.literal (.integer value)) rest (Cursor.leads_of_cons hs) := by
  obtain ⟨pending, _, _, _⟩ := s
  obtain rfl : pending = .integer value :: rest := hs
  rw [operand]

theorem operand_of_decimal {value : Float} (hs : s.pending = .decimal value :: rest) :
    operand s = .move (.literal (.decimal value)) rest (Cursor.leads_of_cons hs) := by
  obtain ⟨pending, _, _, _⟩ := s
  obtain rfl : pending = .decimal value :: rest := hs
  rw [operand]

theorem operand_of_text {content : String} (hs : s.pending = .text content :: rest) :
    operand s = .move (.literal (.text content)) rest (Cursor.leads_of_cons hs) := by
  obtain ⟨pending, _, _, _⟩ := s
  obtain rfl : pending = .text content :: rest := hs
  rw [operand]

theorem operand_of_call (hs : s.pending = .name word :: .symbol .openParen :: rest) :
    operand s = .widen (Cursor.leads_of_cons₂ hs)
      ((argumentList (s.moveTo rest)).bind fun es t _ =>
        (t.expect .closeArguments).map fun _ => .call word es) := by
  obtain ⟨pending, _, _, _⟩ := s
  obtain rfl : pending = .name word :: .symbol .openParen :: rest := hs
  rw [operand]

theorem operand_of_name (hs : s.pending = .name word :: rest)
    (next : rest.head? ≠ some (.symbol .openParen)) :
    operand s = .move (.identifier word) rest (Cursor.leads_of_cons hs) := by
  obtain ⟨pending, _, _, _⟩ := s
  obtain rfl : pending = .name word :: rest := hs
  rcases rest with _ | ⟨m, rest⟩
  · rw [operand]
  · cases m with
    | symbol b => cases b <;> simp at next <;> rw [operand]
    | _ => rw [operand]

theorem operand_of_group (hs : s.pending = .symbol .openParen :: rest) :
    operand s = .widen (Cursor.leads_of_cons hs)
      ((expression (s.moveTo rest)).bind fun e t _ =>
        (t.expect .closeGroup).map fun _ => e) := by
  obtain ⟨pending, _, _, _⟩ := s
  obtain rfl : pending = .symbol .openParen :: rest := hs
  rw [operand]

theorem operand_of_sign {op : UnaryOp} (hs : s.pending = .symbol op.symbol :: rest) :
    operand s = .widen (Cursor.leads_of_cons hs) ((operand (s.moveTo rest)).map (.unary op)) := by
  obtain ⟨pending, _, _, _⟩ := s
  obtain rfl : pending = .symbol op.symbol :: rest := hs
  rw [operand]
  cases op <;> rfl

theorem operand_closed (h : ∀ l ∈ s.pending.head?, l.opensOperand = false) :
    operand s = noOperand s := by
  obtain ⟨pending, _, _, _⟩ := s
  rcases pending with _ | ⟨l, rest⟩
  · rw [operand]
  · have closed := h l rfl
    cases l with
    | symbol b => cases b <;> simp [Lexeme.opensOperand] at closed <;> rw [operand]
    | _ => simp [Lexeme.opensOperand] at closed

theorem chain_of_operator {op : BinaryOp} (hs : s.pending = .symbol op.symbol :: rest) :
    chain s = .widen (Cursor.leads_of_cons hs)
      ((operand (s.moveTo rest)).bind fun right t _ =>
        (chain t).map fun others => (op, right) :: others) := by
  obtain ⟨pending, _, _, _⟩ := s
  obtain rfl : pending = .symbol op.symbol :: rest := hs
  rw [chain]
  cases op <;> rfl

theorem chain_stay (h : ∀ op : BinaryOp, s.pending.head? ≠ some (.symbol op.symbol)) :
    chain s = .stay s [] := by
  rw [chain]
  split
  · rename_i b rest hs
    split
    · rename_i op known
      exact absurd (by rw [hs, BinaryOp.symbol_of_ofSymbol? known]; rfl) (h op)
    · rfl
  · rfl

end AnyState

theorem operand_integer (value : Int) :
    operand (.start (.integer value :: rest)) =
      .move (.literal (.integer value)) rest (Cursor.leads_of_cons rfl) :=
  operand_of_integer rfl

theorem operand_decimal (value : Float) :
    operand (.start (.decimal value :: rest)) =
      .move (.literal (.decimal value)) rest (Cursor.leads_of_cons rfl) :=
  operand_of_decimal rfl

theorem operand_text (content : String) :
    operand (.start (.text content :: rest)) =
      .move (.literal (.text content)) rest (Cursor.leads_of_cons rfl) :=
  operand_of_text rfl

theorem operand_call :
    operand (.start (.name word :: .symbol .openParen :: rest)) =
      .widen (Cursor.leads_of_cons₂ rfl)
        ((argumentList (.start rest)).bind fun es t _ =>
          (t.expect .closeArguments).map fun _ => .call word es) :=
  operand_of_call rfl

theorem operand_name (next : rest.head? ≠ some (.symbol .openParen)) :
    operand (.start (.name word :: rest)) =
      .move (.identifier word) rest (Cursor.leads_of_cons rfl) :=
  operand_of_name rfl next

theorem operand_group :
    operand (.start (.symbol .openParen :: rest)) =
      .widen (Cursor.leads_of_cons rfl)
        ((expression (.start rest)).bind fun e t _ => (t.expect .closeGroup).map fun _ => e) :=
  operand_of_group rfl

theorem operand_sign (op : UnaryOp) :
    operand (.start (.symbol op.symbol :: rest)) =
      .widen (Cursor.leads_of_cons rfl) ((operand (.start rest)).map (.unary op)) :=
  operand_of_sign rfl

theorem operand_other (h : ∀ l ∈ ls.head?, l.opensOperand = false) :
    operand (.start ls) = noOperand (.start ls) :=
  operand_closed h

theorem chain_operator (op : BinaryOp) :
    chain (.start (.symbol op.symbol :: rest)) =
      .widen (Cursor.leads_of_cons rfl)
        ((operand (.start rest)).bind fun right t _ =>
          (chain t).map fun others => (op, right) :: others) :=
  chain_of_operator rfl

theorem chain_other (h : ∀ op : BinaryOp, ls.head? ≠ some (.symbol op.symbol)) :
    chain (.start ls) = .stay (.start ls) [] :=
  chain_stay h

theorem statement_other (h : ∀ l ∈ ls.head?, l.isKeyword = false)
    (k : ∀ word rest, ls ≠ .name word :: .symbol .assign :: rest) :
    statement (.start ls) = evaluated (.start ls) := by
  rcases ls with _ | ⟨l, rest⟩
  · rw [statement]
    rfl
  · have plain := h l rfl
    cases l with
    | symbol b => cases b <;> simp [Lexeme.isKeyword, Symbol.keywords] at plain <;> rw [statement] <;> rfl
    | name word =>
      rcases rest with _ | ⟨m, rest⟩
      · rw [statement]
        rfl
      · cases m with
        | symbol b => cases b <;> simp at k <;> rw [statement] <;> rfl
        | _ => rw [statement]; rfl
    | _ => rw [statement]; rfl

theorem statement_plain {l : Lexeme} (h : l.isKeyword = false) (k : ∀ word, l ≠ .name word) :
    statement (.start (l :: rest)) = evaluated (.start (l :: rest)) := by
  refine statement_other ?_ ?_
  · rintro _ ⟨⟩
    exact h
  · rintro word rest ⟨⟩
    exact k word rfl

theorem statement_name (next : rest.head? ≠ some (.symbol .assign)) :
    statement (.start (.name word :: rest)) = evaluated (.start (.name word :: rest)) := by
  refine statement_other ?_ ?_
  · rintro _ ⟨⟩
    rfl
  · rintro _ rest ⟨⟩
    exact next rfl

theorem statement_evaluated (h : OpensExpression ls) :
    statement (.start ls) = evaluated (.start ls) := by
  obtain ⟨l, rest, rfl, opens, next⟩ := h
  refine statement_other ?_ ?_
  · rintro _ ⟨⟩
    exact Lexeme.isKeyword_of_opensOperand opens
  · rintro word rest ⟨⟩
    simp at next

theorem statement_declaration :
    statement (.start (.symbol .kwVar :: rest)) =
      .widen (Cursor.leads_of_cons rfl) (declaration (.start rest)) := by
  rw [statement]
  rfl

theorem statement_conditional :
    statement (.start (.symbol .kwIf :: rest)) =
      .widen (Cursor.leads_of_cons rfl) (conditional (.start rest)) := by
  rw [statement]
  rfl

theorem statement_loop :
    statement (.start (.symbol .kwWhile :: rest)) =
      .widen (Cursor.leads_of_cons rfl) (loop (.start rest)) := by
  rw [statement]
  rfl

theorem statement_function :
    statement (.start (.symbol .kwDef :: rest)) =
      .widen (Cursor.leads_of_cons rfl) (function (.start rest)) := by
  rw [statement]
  rfl

theorem statement_returned :
    statement (.start (.symbol .kwReturn :: rest)) =
      .widen (Cursor.leads_of_cons rfl) (returned (.start rest)) := by
  rw [statement]
  rfl

theorem statement_assignment :
    statement (.start (.name word :: .symbol .assign :: rest)) =
      .widen (Cursor.leads_of_cons₂ rfl) (assignment word (.start rest)) := by
  rw [statement]
  rfl

theorem statement_strayElse :
    statement (.start (.symbol .kwElse :: rest)) =
      .fault (.start (.symbol .kwElse :: rest)) .strayElse (.expression .placeholder) := by
  rw [statement]
  rfl

section Alternative
variable {e : Expr} {consequent : List Stmt}

theorem alternative_elseIf :
    alternative e consequent (.start (.symbol .kwElse :: .symbol .kwIf :: rest)) =
      .widen (Cursor.leads_of_cons₂ rfl)
        ((conditional (.start rest)).map fun inner => .ifThenElse e consequent [inner]) := by
  rw [alternative]
  rfl

theorem alternative_else (h : rest.head? ≠ some (.symbol .kwIf)) :
    alternative e consequent (.start (.symbol .kwElse :: rest)) =
      .widen (Cursor.leads_of_cons rfl)
        ((block (.start rest)).map fun other => .ifThenElse e consequent other) := by
  rcases rest with _ | ⟨l, rest⟩
  · rw [alternative]
    rfl
  · cases l with
    | symbol b => cases b <;> simp at h <;> rw [alternative] <;> rfl
    | _ => rw [alternative]; rfl

theorem alternative_other (h : ls.head? ≠ some (.symbol .kwElse)) :
    alternative e consequent (.start ls) = .stay (.start ls) (.ifThen e consequent) := by
  rcases ls with _ | ⟨l, rest⟩
  · rw [alternative]
    rfl
  · cases l with
    | symbol b => cases b <;> simp at h <;> rw [alternative] <;> rfl
    | _ => rw [alternative]; rfl

end Alternative

theorem block_braced :
    block (.start (.symbol .openBrace :: rest)) =
      .widen (Cursor.leads_of_cons rfl)
        ((blockBody (.start rest)).bind fun body t _ =>
          (t.expect .closeBlock).bind fun closed u _ =>
          ⟨body, if closed then u.calm else u, by
            split
            · exact (Cursor.Leads.refl u).calm
            · exact .refl u⟩) := by
  rw [block]
  rfl

theorem block_other (h : ls.head? ≠ some (.symbol .openBrace)) :
    block (.start ls) = .fault (.start ls) .noBlock [] := by
  rcases ls with _ | ⟨l, rest⟩
  · rw [block]
    rfl
  · cases l with
    | symbol b => cases b <;> simp at h <;> rw [block] <;> rfl
    | _ => rw [block]; rfl

end ScriptFrontend.Parse
