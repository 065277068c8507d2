import ScriptFrontend.Parse.Outcome
import ScriptFrontend.Proofs.Syntax.Statements

/-!
# Faults behind other tokens

A fault is placed by the number of lexemes from it to the end, so tokens in front of an input move
none of its diagnostics.
-/
namespace ScriptFrontend
namespace Parse

theorem afterStatement_suffix (ls : List Lexeme) : afterStatement ls <:+ ls :=
  (Cursor.leads_resume (s := .start ls) (statement (.start ls)).leads).suffix

theorem rest_suffix_of_mem_faults {ls : List Lexeme} {f : Fault} (h : f ∈ (program ls).faults) :
    f.rest <:+ ls := by
  induction ls using statements_induction with
  | nil => simp at h
  | statement ls nonempty ih =>
    rw [program_of_ne_nil nonempty, List.mem_append] at h
    rcases h with here | later
    · obtain ⟨fs, faults, trail⟩ := (statement (.start ls)).leads
      rw [Cursor.start_faults, List.nil_append] at faults
      exact trail.rest_suffix f (faults ▸ here)
    · exact (ih later).trans (afterStatement_suffix ls)

end Parse

namespace Token
variable {front back : List Token}

theorem lexemes_append (running : ∀ t ∈ front, t.kind ≠ none) (back : List Token) :
    lexemes (front ++ back) = lexemes front ++ lexemes back := by
  induction front with
  | nil => rfl
  | cons t front ih =>
    obtain ⟨here, later⟩ := List.forall_mem_cons.1 running
    cases kind : t.kind with
    | none => exact absurd kind here
    | some l => simp [lexemes, kind, ih later]

theorem length_lexemes (running : ∀ t ∈ front, t.kind ≠ none) :
    (lexemes front).length = front.length := by
  induction front with
  | nil => rfl
  | cons t front ih =>
    obtain ⟨here, later⟩ := List.forall_mem_cons.1 running
    cases kind : t.kind with
    | none => exact absurd kind here
    | some l => simp [lexemes, kind, ih later]

theorem locationAt_append (nonempty : back ≠ []) (i : Nat) :
    locationAt (front ++ back) (front.length + i) = locationAt back i := by
  have le : front.length ≤ front.length + i := Nat.le_add_right _ _
  have last : back.getLast? = some (back.getLast nonempty) := List.getLast?_eq_some_getLast nonempty
  rw [locationAt, locationAt, List.getElem?_append_right le, Nat.add_sub_cancel_left,
    List.getLast?_append, last, Option.some_or]

theorem exists_mem_locationAt {i : Nat} (within : i < front.length) (back : List Token) :
    ∃ t ∈ front, locationAt (front ++ back) i = t.location := by
  refine ⟨front[i], List.getElem_mem within, ?_⟩
  rw [locationAt, List.getElem?_append_left within, List.getElem?_eq_getElem within]

theorem locationAt_mem (nonempty : back ≠ []) (i : Nat) :
    ∃ t ∈ back, locationAt back i = t.location := by
  unfold locationAt
  cases found : back[i]? with
  | some t => exact ⟨t, List.mem_of_getElem? found, rfl⟩
  | none =>
    refine ⟨back.getLast nonempty, List.getLast_mem nonempty, ?_⟩
    simp [List.getLast?_eq_some_getLast nonempty]

/-! Tokens up to a symbol, and others behind them -/

section UpToSymbol
variable {row : List Token} {last : Token} {b : Symbol}

theorem running_concat (running : ∀ t ∈ row, t.kind ≠ none) (kind : last.kind = some (.symbol b)) :
    ∀ t ∈ row ++ [last], t.kind ≠ none := by
  intro t member
  rcases List.mem_append.1 member with member | member
  · exact running t member
  · rw [List.mem_singleton.1 member, kind]
    exact Option.some_ne_none _

theorem lexemes_concat (running : ∀ t ∈ row, t.kind ≠ none) (kind : last.kind = some (.symbol b)) :
    lexemes (row ++ [last]) = lexemes row ++ [.symbol b] := by
  rw [lexemes_append running]
  simp [lexemes, kind]

theorem lexemes_append_cons (running : ∀ t ∈ row, t.kind ≠ none) (kind : last.kind = some (.symbol b))
    (behind : List Token) : lexemes (row ++ last :: behind) = lexemes row ++ .symbol b :: lexemes behind := by
  rw [lexemes_append running]
  simp [lexemes, kind]

end UpToSymbol
end Token

theorem parseTokens_eq (tokens : List Token) (source : Option String) :
    parseTokens tokens source = ⟨⟨(Parse.program (Token.lexemes tokens)).statements⟩,
      (Parse.program (Token.lexemes tokens)).faults.map
        (Parse.Fault.diagnostic tokens (Token.lexemes tokens).length (source.map Text.lines))⟩ := by
  cases source <;> rfl

variable {front back : List Token}

theorem Parse.Fault.diagnostic_behind (running : ∀ t ∈ front, t.kind ≠ none) {f : Parse.Fault}
    (noted : f ∈ (Parse.program (Token.lexemes back)).faults) (quoted : Option (List String)) :
    f.diagnostic (front ++ back) (Token.lexemes (front ++ back)).length quoted =
      f.diagnostic back (Token.lexemes back).length quoted := by
  have within := (Parse.rest_suffix_of_mem_faults noted).length_le
  have nonempty : back ≠ [] := by
    intro empty
    simp [empty, Token.lexemes] at noted
  have index : (Token.lexemes (front ++ back)).length - f.rest.length =
      front.length + ((Token.lexemes back).length - f.rest.length) := by
    rw [Token.lexemes_append running, List.length_append, Token.length_lexemes running]
    omega
  rw [diagnostic, index, Token.locationAt_append nonempty]
  rfl

theorem diagnostics_behind (running : ∀ t ∈ front, t.kind ≠ none) (back : List Token)
    (quoted : Option (List String)) :
    (Parse.program (Token.lexemes back)).faults.map
        (Parse.Fault.diagnostic (front ++ back) (Token.lexemes (front ++ back)).length quoted) =
      (Parse.program (Token.lexemes back)).faults.map
        (Parse.Fault.diagnostic back (Token.lexemes back).length quoted) :=
  List.map_congr_left fun _ noted => Parse.Fault.diagnostic_behind running noted quoted

end ScriptFrontend
