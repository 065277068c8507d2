import ScriptFrontend.Proofs.Lexical.Ascending
import ScriptFrontend.Proofs.Syntax.FirstFault
import ScriptFrontend.Proofs.Syntax.Places

/-!
# Where diagnostics are recorded

A diagnostic is recorded at a token, and it takes its place and its quoted line from there. At which
tokens diagnostics are recorded, and with which messages, is decided by the kinds of the tokens up to
the first end of the input, as is the program. Places, tokens behind that end and the text to quote
from have no part in it.
-/
namespace ScriptFrontend

/-- The index of the token at which the fault was noted. -/
def Parse.Fault.index (tokens : List Token) (f : Parse.Fault) : Nat :=
  (Token.lexemes tokens).length - f.rest.length

/-- The diagnostics in the order in which they are recorded, each with the index of its token. -/
def recorded (tokens : List Token) (source : Option String) : List (Nat × Diagnostic) :=
  (Parse.program (Token.lexemes tokens)).faults.map fun f =>
    (f.index tokens, f.diagnostic tokens (Token.lexemes tokens).length (source.map Text.lines))

theorem recorded_diagnostics (tokens : List Token) (source : Option String) :
    (recorded tokens source).map Prod.snd = (parseTokens tokens source).diagnostics := by
  rw [parseTokens_diagnostics, recorded, List.map_map]
  rfl

theorem Parse.Fault.exists_token {tokens : List Token} {f : Parse.Fault}
    (within : f.rest <:+ Token.lexemes tokens) :
    ∃ t, (Token.withEnd tokens)[f.index tokens]? = some t ∧ t.kind = f.rest.head? ∧
      Token.locationAt tokens (f.index tokens) = t.location := by
  obtain ⟨before, cut⟩ := within
  obtain ⟨front, back, rfl, -, rest, count, running⟩ := Token.exists_cut cut.symm
  obtain ⟨t, behind, whole, kind, place⟩ := Token.exists_at running back
  have index : f.index (front ++ back) = front.length := by
    rw [index, ← cut, List.length_append, Nat.add_sub_cancel, count]
  rw [index]
  refine ⟨t, ?_, rest ▸ kind, place⟩
  rw [whole, List.getElem?_append_right (Nat.le_refl _), Nat.sub_self]
  rfl

/-- The diagnostic is about the token with the index: it has its place, and quotes the line there. -/
def Diagnostic.IsAt (tokens : List Token) (source : Option String) (i : Nat) (d : Diagnostic) : Prop :=
  ∃ t, (Token.withEnd tokens)[i]? = some t ∧ d.location = t.location ∧
    d.sourceLine = source.bind fun text => Text.nthLine? (Text.lines text) t.location.line

theorem isAt_of_mem_recorded {tokens : List Token} {source : Option String} {p : Nat × Diagnostic}
    (member : p ∈ recorded tokens source) : p.2.IsAt tokens source p.1 := by
  obtain ⟨f, noted, rfl⟩ := List.mem_map.1 member
  obtain ⟨t, found, -, place⟩ := f.exists_token (Parse.rest_suffix_of_mem_faults noted)
  refine ⟨t, found, place, ?_⟩
  rw [← place]
  cases source <;> rfl

theorem withEnd_of_tokenize {text : String} {tokens : List Token} (accepted : tokenize text = .ok tokens) :
    Token.withEnd tokens = tokens := by
  obtain ⟨d, -, -, rfl⟩ := Scanning.exists_covering accepted
  rw [Token.withEnd, List.getLast?_concat]
  rfl

/-- In an accepted text every token that carries a diagnostic was scanned. -/
theorem exists_token_of_recorded {text : String} {tokens : List Token} {p : Nat × Diagnostic}
    (accepted : tokenize text = .ok tokens) (member : p ∈ recorded tokens (some text)) :
    ∃ t, tokens[p.1]? = some t ∧ p.2.location = t.location ∧
      p.2.sourceLine = Text.nthLine? (Text.lines text) t.location.line := by
  obtain ⟨t, found, place, quoted⟩ := isAt_of_mem_recorded member
  rw [withEnd_of_tokenize accepted] at found
  exact ⟨t, found, place, quoted⟩

namespace Token
variable {a b : List Token}

/-- The tokens agree in kinds, with their values, up to the first end of the input in both. -/
inductive Agree : List Token → List Token → Prop where
  | ended {t u : Token} {ts us : List Token} :
      t.kind = none → u.kind = none → Agree (t :: ts) (u :: us)
  | token {t u : Token} {ts us : List Token} {l : Lexeme} :
      t.kind = some l → u.kind = some l → Agree ts us → Agree (t :: ts) (u :: us)

theorem Agree.lexemes_eq (h : Agree a b) : lexemes a = lexemes b := by
  induction h with
  | ended ht hu => simp [lexemes, ht, hu]
  | token ht hu _ ih => simp [lexemes, ht, hu, ih]

theorem lexemes_withEnd (tokens : List Token) : lexemes (withEnd tokens) = lexemes tokens := by
  obtain ⟨front, back, rfl, known, empty, -, running⟩ :=
    exists_cut (List.append_nil (lexemes tokens)).symm
  obtain ⟨last, behind, whole, kind, -⟩ := exists_at running back
  have ended : lexemes (last :: behind) = [] := by
    rw [empty] at kind
    simp [lexemes, kind]
  rw [whole, lexemes_append running, ended, List.append_nil, known]

end Token

theorem recorded_messages (tokens : List Token) (source : Option String) :
    (recorded tokens source).map (fun p => (p.1, p.2.message)) =
      (Parse.program (Token.lexemes tokens)).faults.map fun f =>
        ((Token.lexemes tokens).length - f.rest.length, f.message) := by
  rw [recorded, List.map_map]
  rfl

/-- A diagnostic without the line that it quotes. -/
def Diagnostic.unquoted (d : Diagnostic) : Diagnostic := { d with sourceLine := none }

theorem unquoted_diagnostics (tokens : List Token) (source : Option String) :
    (parseTokens tokens source).diagnostics.map Diagnostic.unquoted =
      (parseTokens tokens none).diagnostics := by
  rw [parseTokens_diagnostics, parseTokens_diagnostics, List.map_map]
  rfl

/-- Both runs record the same messages at the same tokens. Each takes places and lines from its own
tokens and its own text, and the text has a part in nothing but the lines. -/
theorem parse_depends_on_kinds {a b : List Token}
    (same : Token.Agree (Token.withEnd a) (Token.withEnd b)) (textA textB : Option String) :
    (parseTokens a textA).program = (parseTokens b textB).program ∧
      (recorded a textA).map (fun p => (p.1, p.2.message)) =
        (recorded b textB).map (fun p => (p.1, p.2.message)) ∧
      (recorded a textA).map Prod.snd = (parseTokens a textA).diagnostics ∧
      (recorded b textB).map Prod.snd = (parseTokens b textB).diagnostics ∧
      (∀ p ∈ recorded a textA, p.2.IsAt a textA p.1) ∧
      (∀ p ∈ recorded b textB, p.2.IsAt b textB p.1) ∧
      ∀ text, (parseTokens a text).program = (parseTokens a textA).program ∧
        (parseTokens a text).diagnostics.map Diagnostic.unquoted =
          (parseTokens a textA).diagnostics.map Diagnostic.unquoted := by
  have lexemes : Token.lexemes a = Token.lexemes b := by
    have ended := same.lexemes_eq
    rwa [Token.lexemes_withEnd, Token.lexemes_withEnd] at ended
  refine ⟨?_, ?_, recorded_diagnostics a textA, recorded_diagnostics b textB,
    fun p => isAt_of_mem_recorded, fun p => isAt_of_mem_recorded, fun text => ⟨?_, ?_⟩⟩
  · rw [parseTokens_program, parseTokens_program, lexemes]
  · rw [recorded_messages, recorded_messages, lexemes]
  · rw [parseTokens_program, parseTokens_program]
  · rw [unquoted_diagnostics, unquoted_diagnostics]

/-- `x = ;` with its end, and a stray brace behind that. -/
def endedAssignment : List Token :=
  [⟨some (.name "x"), ⟨1, 1⟩⟩, ⟨some (.symbol .assign), ⟨1, 3⟩⟩, ⟨some (.symbol .semicolon), ⟨1, 5⟩⟩,
    ⟨none, ⟨2, 1⟩⟩, ⟨some (.symbol .closeBrace), ⟨2, 1⟩⟩]

/-- The same row at other places, without an end. -/
def openAssignment : List Token :=
  [⟨some (.name "x"), ⟨7, 2⟩⟩, ⟨some (.symbol .assign), ⟨7, 9⟩⟩, ⟨some (.symbol .semicolon), ⟨8, 1⟩⟩]

theorem parse_of_openAssignment :
    Token.Agree (Token.withEnd endedAssignment) (Token.withEnd openAssignment) ∧
      (parseTokens endedAssignment (some "x = ;\n")).diagnostics =
        [⟨"Missing expression in assignment", ⟨1, 5⟩, some "x = ;"⟩] ∧
      (recorded endedAssignment (some "x = ;\n")).map (fun p => (p.1, p.2.message)) =
        (recorded openAssignment none).map (fun p => (p.1, p.2.message)) := by
  have same : Token.Agree (Token.withEnd endedAssignment) (Token.withEnd openAssignment) :=
    .token rfl rfl (.token rfl rfl (.token rfl rfl (.ended rfl rfl)))
  obtain ⟨-, messages, -⟩ := parse_depends_on_kinds same (some "x = ;\n") none
  exact ⟨same, by decide +kernel, messages⟩

end ScriptFrontend
