import ScriptFrontend.Proofs.Syntax.Acceptance
import ScriptFrontend.Proofs.Syntax.Places
import ScriptFrontend.Proofs.Syntax.Settling

/-!
# A faulty statement in front of a boundary

Where the end of the input or a boundary follows the semicolon of a statement, nothing that is still
pending behind the first fault can move the reader: it would have to skip past a boundary. So the
statement ends right behind its semicolon, with no fault if it is one and with one fault if not.
-/
namespace ScriptFrontend
namespace Parse
variable {row rest : List Lexeme}

/-- A row without boundaries, possibly behind `var` or `return`. -/
inductive SimpleRow : List Lexeme → Prop where
  | plain {row : List Lexeme} : Plain row → SimpleRow row
  | declaration {row : List Lexeme} : Plain row → SimpleRow (.symbol .kwVar :: row)
  | returned {row : List Lexeme} : Plain row → SimpleRow (.symbol .kwReturn :: row)

/-- The end of the input or a boundary other than a semicolon. -/
def AtBoundary (rest : List Lexeme) : Prop :=
  ∀ l ∈ rest.head?, isBoundary l = true ∧ l ≠ .symbol .semicolon

theorem AtBoundary.resynchronize (boundary : AtBoundary rest) : resynchronize rest = rest := by
  cases rest with
  | nil => rfl
  | cons l rest =>
    obtain ⟨stops, other⟩ := boundary l rfl
    rw [Parse.resynchronize]
    · rw [if_pos stops]
    · exact other

theorem AtBoundary.head?_ne (boundary : AtBoundary rest) {b : Symbol}
    (passed : isBoundary (.symbol b) = false) : rest.head? ≠ some (.symbol b) := by
  intro head
  have stops := (boundary _ head).1
  rw [passed] at stops
  cases stops

theorem isBoundary_operator (op : BinaryOp) : isBoundary (.symbol op.symbol) = false := by
  cases op <;> rfl

theorem AtBoundary.expect_stranded (boundary : AtBoundary rest) {s : Cursor} {f : Fault}
    {slot : SymbolSlot} (missing : rest.head? ≠ some (.symbol slot.symbol))
    (panics : s.Stranded f (· = rest)) : (s.expect slot).next.Stranded f (· = rest) := by
  have place : s.pending = rest := panics.2.2
  apply panics.expect_missing (place ▸ missing)
  rw [place, boundary.resynchronize]

theorem AtBoundary.haven (boundary : AtBoundary rest) : Haven rest (· = rest) (· = rest) where
  start := rfl
  comma := by
    intro p same
    rw [same]
    exact boundary.head?_ne rfl
  chain := by
    intro s f panics
    have place : s.pending = rest := panics.2.2
    have stays (op : BinaryOp) : s.pending.head? ≠ some (.symbol op.symbol) := by
      rw [place]
      exact boundary.head?_ne (isBoundary_operator op)
    rw [chain_stay stays]
    exact panics
  close := by
    intro s f slot closes panics
    apply boundary.expect_stranded _ panics
    rw [closes]
    exact boundary.head?_ne rfl
  finish := by
    intro s f slot last panics
    apply boundary.expect_stranded _ panics
    rw [last]
    intro head
    exact (boundary _ head).2 rfl

theorem SimpleRow.ends (simple : SimpleRow row) {P Q : List Lexeme → Prop} (haven : Haven rest P Q) :
    (statement (.start (row ++ .symbol .semicolon :: rest))).Ends rest Q := by
  cases simple with
  | plain plain => exact statement_ends haven plain
  | declaration plain =>
    rw [List.cons_append, statement_declaration]
    exact (declaration_ends haven plain).widen _
  | returned plain =>
    rw [List.cons_append, statement_returned]
    exact (returned_ends haven plain).widen _

/-- The first statement of a program is read without a fault, whatever follows the program. -/
theorem statement_faults_of_grammatical {front : List Lexeme} (nonempty : front ≠ [])
    (next : rest.head? ≠ some (.symbol .kwElse)) (grammatical : Grammatical front) :
    (statement (.start (front ++ rest))).next.faults = [] := by
  obtain ⟨ss, phrase⟩ := grammatical
  cases phrase with
  | finished => exact absurd rfl nonempty
  | @statement ls more s ss first others =>
    have behind := others.append_head?_ne rfl next
    rw [List.append_assoc, (accepts_of_phrase first _ behind).2]
    rfl

/-- A statement that ends calm right behind its semicolon is one of the grammar. -/
theorem grammatical_of_calm
    (calm : (statement (.start (row ++ .symbol .semicolon :: rest))).next = .start rest) :
    Grammatical (row ++ [.symbol .semicolon]) := by
  have behind := afterStatement_eq (congrArg Cursor.pending calm) (length_lt_row row rest)
  have cut : row ++ .symbol .semicolon :: rest = row ++ [.symbol .semicolon] ++ rest := by simp
  rcases statement_start_follows (row ++ .symbol .semicolon :: rest) with
    ⟨-, front, whole, phrase⟩ | ⟨f, first, -⟩
  · rw [behind, Cursor.start_pending, cut] at whole
    rw [List.append_cancel_right whole]
    exact ⟨_, by simpa using Phrase.statement phrase .finished⟩
  · rw [calm] at first
    cases first

theorem statement_at_boundary (simple : SimpleRow row) (boundary : AtBoundary rest) :
    let t := (statement (.start (row ++ .symbol .semicolon :: rest))).next
    t.pending = rest ∧
      (Grammatical (row ++ [.symbol .semicolon]) → t.faults = []) ∧
      (¬Grammatical (row ++ [.symbol .semicolon]) → t.faults.length = 1) := by
  have quiet (grammatical : Grammatical (row ++ [.symbol .semicolon])) :
      (statement (.start (row ++ .symbol .semicolon :: rest))).next.faults = [] := by
    have cut : row ++ .symbol .semicolon :: rest = row ++ [.symbol .semicolon] ++ rest := by simp
    rw [cut]
    exact statement_faults_of_grammatical (by simp) (boundary.head?_ne rfl) grammatical
  rcases simple.ends boundary.haven with calm | ⟨f, -, -, faults, place⟩
  · exact ⟨by rw [calm]; rfl, quiet, fun faulty => absurd (grammatical_of_calm calm) faulty⟩
  · have same : (statement (.start (row ++ .symbol .semicolon :: rest))).next.pending = rest := by
      simpa using place
    exact ⟨same, quiet, fun _ => by rw [faults]; rfl⟩

theorem program_at_boundary (simple : SimpleRow row) (boundary : AtBoundary rest) :
    let first := statement (.start (row ++ .symbol .semicolon :: rest))
    program (row ++ .symbol .semicolon :: rest) =
      ⟨first.value :: (program rest).statements, first.next.faults ++ (program rest).faults,
        (program rest).rest⟩ := by
  have shorter := length_lt_row row rest
  have behind := afterStatement_eq (statement_at_boundary simple boundary).1 shorter
  rw [program_of_ne_nil (by simp), behind]

theorem SimpleRow.head?_ne_closeBrace (simple : SimpleRow row) (rest : List Lexeme) :
    (row ++ .symbol .semicolon :: rest).head? ≠ some (.symbol .closeBrace) := by
  intro head
  obtain ⟨more, rfl⟩ := exists_row_of_head? head (by simp)
  cases simple with
  | plain plain => cases plain _ List.mem_cons_self

/-- A statement of a block is read as one at the start of an input, in whatever state the block is. -/
theorem blockBody_at_boundary (simple : SimpleRow row) (boundary : AtBoundary rest) {s : Cursor}
    (pending : s.pending = row ++ .symbol .semicolon :: rest) :
    let first := statement (.start (row ++ .symbol .semicolon :: rest))
    ∃ t : Cursor, t.pending = rest ∧ t.faults = s.faults ++ first.next.faults ∧
      (blockBody s).value = first.value :: (blockBody t).value ∧
      (blockBody s).next = (blockBody t).next := by
  have inside : ¬(s.pending = [] ∨ s.sees .closeBrace) := by
    rintro (empty | closed)
    · simp [pending] at empty
    · have head : s.pending.head? = some (.symbol .closeBrace) :=
        (Cursor.start_sees s.pending _).1 closed
      rw [pending] at head
      exact simple.head?_ne_closeBrace rest head
  have place := (statement_at_boundary simple boundary).1
  have shorter := length_lt_row row rest
  rw [blockBody_statement inside]
  refine ⟨s.resume (statement (.start s.pending)).next, ?_, ?_, ?_, rfl⟩
  · rw [Cursor.resume, pending]
    simp only [place]
    exact if_neg (Nat.ne_of_lt shorter)
  · rw [pending]
    rfl
  · rw [← pending]
    rfl

end Parse

/-- The row has no end of the input in it. What the statement is read as, and its faults, are the same
at the start of an input and in a block. -/
theorem recovery_at_boundary {row behind : List Token} {semicolon : Token}
    (running : ∀ t ∈ row, t.kind ≠ none) (simple : Parse.SimpleRow (Token.lexemes row))
    (last : semicolon.kind = some (.symbol .semicolon))
    (boundary : Parse.AtBoundary (Token.lexemes behind)) (source : Option String) :
    ∃ (s : Stmt) (found : List Parse.Fault),
      (Grammatical (Token.lexemes (row ++ [semicolon])) → found = []) ∧
      (¬Grammatical (Token.lexemes (row ++ [semicolon])) → found.length = 1) ∧
      (let tokens := row ++ semicolon :: behind
      parseTokens tokens source =
        ⟨⟨s :: (parseTokens behind source).program.statements⟩,
          found.map (Parse.Fault.diagnostic tokens (Token.lexemes tokens).length
            (source.map Text.lines)) ++ (parseTokens behind source).diagnostics⟩) ∧
      ∀ c : Parse.Cursor, c.pending = Token.lexemes (row ++ semicolon :: behind) →
        ∃ t : Parse.Cursor, t.pending = Token.lexemes behind ∧ t.faults = c.faults ++ found ∧
          (Parse.blockBody c).value = s :: (Parse.blockBody t).value ∧
          (Parse.blockBody c).next = (Parse.blockBody t).next := by
  have ended := Token.running_concat running last
  have cut : row ++ semicolon :: behind = row ++ [semicolon] ++ behind := by simp
  have whole := Token.lexemes_append_cons running last behind
  obtain ⟨-, quiet, faulty⟩ := Parse.statement_at_boundary simple boundary
  rw [Token.lexemes_concat running last]
  let first := Parse.statement
    (.start (Token.lexemes row ++ .symbol .semicolon :: Token.lexemes behind))
  refine ⟨first.value, first.next.faults, quiet, faulty, ?_, fun c pending => ?_⟩
  · have moved := diagnostics_behind ended behind (source.map Text.lines)
    rw [← cut] at moved
    dsimp only
    rw [parseTokens_eq, parseTokens_eq behind, ← moved, whole,
      Parse.program_at_boundary simple boundary, List.map_append]
  · exact Parse.blockBody_at_boundary simple boundary (pending.trans whole)

/-- Up to a semicolon, `return f(1, else {`: the fault is met inside the arguments. -/
def brokenReturn : List Token :=
  [⟨some (.symbol .kwReturn), ⟨1, 1⟩⟩, ⟨some (.name "f"), ⟨1, 8⟩⟩, ⟨some (.symbol .openParen), ⟨1, 9⟩⟩,
    ⟨some (.integer 1), ⟨1, 10⟩⟩, ⟨some (.symbol .comma), ⟨1, 11⟩⟩, ⟨some (.symbol .kwElse), ⟨1, 13⟩⟩,
    ⟨some (.symbol .openBrace), ⟨1, 18⟩⟩]

/-- On the next line, `var = 2;`. -/
def brokenDeclaration : List Token :=
  [⟨some (.symbol .kwVar), ⟨2, 1⟩⟩, ⟨some (.symbol .assign), ⟨2, 5⟩⟩, ⟨some (.integer 2), ⟨2, 7⟩⟩,
    ⟨some (.symbol .semicolon), ⟨2, 8⟩⟩]

theorem recovery_of_brokenReturn :
    let tokens := brokenReturn ++ ⟨some (.symbol .semicolon), ⟨1, 19⟩⟩ :: brokenDeclaration
    let behind := parseTokens brokenDeclaration none
    behind.diagnostics.length = 1 ∧
      ∃ (s : Stmt) (found : List Parse.Fault), found.length = 1 ∧
        parseTokens tokens none = ⟨⟨s :: behind.program.statements⟩,
          found.map (Parse.Fault.diagnostic tokens (Token.lexemes tokens).length none) ++
            behind.diagnostics⟩ := by
  intro tokens behind
  have running : ∀ t ∈ brokenReturn, t.kind ≠ none := by simp [brokenReturn]
  have simple : Parse.SimpleRow (Token.lexemes brokenReturn) :=
    .returned (by simp [Parse.Plain, Token.lexemes, Parse.isBoundary])
  have boundary : Parse.AtBoundary (Token.lexemes brokenDeclaration) := by
    simp [Parse.AtBoundary, brokenDeclaration, Token.lexemes, Parse.isBoundary]
  have refused : ¬Grammatical (Token.lexemes (brokenReturn ++
      [⟨some (.symbol .semicolon), ⟨1, 19⟩⟩])) := Parse.not_grammatical (by decide +kernel)
  have last : (⟨some (.symbol .semicolon), ⟨1, 19⟩⟩ : Token).kind = some (.symbol .semicolon) := rfl
  obtain ⟨s, found, -, faulty, same, -⟩ := recovery_at_boundary running simple last boundary none
  exact ⟨by decide +kernel, s, found, faulty refused, same⟩

end ScriptFrontend
