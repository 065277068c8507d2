import ScriptFrontend.Proofs.Lexical.Division
import ScriptFrontend.Proofs.Writing.Writer

/-!
# Layouts

A row of lexemes is laid out as a text with each lexeme in some spelling and blanks between them.
Such a text is divided at the blanks, so its tokens are the lexemes again.
-/
namespace ScriptFrontend
open Scanning
variable {ls ks : List Lexeme}

/-- The texts that hold the lexemes, in this order, with blanks between them and possibly around them. -/
inductive Layout : List Lexeme → List Char → Prop where
  | finished {blanks : List Char} : (∀ c ∈ blanks, c ∈ [' ', '\t', '\r', '\n']) → Layout [] blanks
  | lexeme {blanks word rest : List Char} {l : Lexeme} {ls : List Lexeme} :
      (∀ c ∈ blanks, c ∈ [' ', '\t', '\r', '\n']) → Spells word l → Spaced rest → Layout ls rest →
      Layout (l :: ls) (blanks ++ (word ++ rest))

theorem Scanning.gapBefore_blanks {blanks : List Char}
    (h : ∀ c ∈ blanks, c ∈ [' ', '\t', '\r', '\n']) (rest : List Char) : GapBefore rest blanks := by
  induction blanks with
  | nil => exact .nil
  | cons c blanks ih =>
    obtain ⟨here, later⟩ := List.forall_mem_cons.1 h
    exact .blank here (ih later)

theorem Scanning.symbolAt_none {c : Char} (unpaired : ∀ d, Symbol.ofPair? c d = none)
    (alone : Symbol.ofChar? c = none) (cs : List Char) : symbolAt c cs = .error (.unexpected c) := by
  cases cs with
  | nil => simp [symbolAt, alone]
  | cons d cs => simp [symbolAt, unpaired d, alone]

theorem Scanning.lexemeAt_gap {c : Char} (h : c ∈ [' ', '\t', '\r', '\n'] ∨ c = '#') (cs : List Char) :
    lexemeAt c cs = .error (.unexpected c) := by
  rcases h with blank | rfl
  · refine blank_cases (motive := fun c => lexemeAt c cs = .error (.unexpected c)) ?_ ?_ ?_ ?_ c blank
    all_goals
      rw [lexemeAt_symbol ⟨by decide, rfl, rfl⟩]
      exact symbolAt_none (by simp [Symbol.ofPair?]) rfl cs
  · rw [lexemeAt_symbol ⟨by decide, rfl, rfl⟩]
    exact symbolAt_none (by simp [Symbol.ofPair?]) rfl cs

namespace Scanning
variable {blanks word rest : List Char} {l : Lexeme}

theorem longestGap_of_spaced (h : ∀ c ∈ blanks, c ∈ [' ', '\t', '\r', '\n'])
    (spelled : Spells word l) (rest : List Char) : LongestGap (blanks ++ (word ++ rest)) blanks := by
  obtain ⟨c, w, rfl, taken⟩ := taken_of_spells spelled
  obtain ⟨k, n, found, -⟩ := taken rest
  have start : ¬(c ∈ [' ', '\t', '\r', '\n'] ∨ c = '#') := by
    intro gap
    rw [lexemeAt_gap gap] at found
    cases found
  obtain ⟨unblank, uncommented⟩ := not_or.1 start
  rw [longestGap_iff, splitGap_of_gapBefore (gapBefore_blanks h _), List.cons_append,
    splitGap_other unblank uncommented, List.append_nil]

theorem longestLexeme_of_spaced (spelled : Spells word l) (spaced : Spaced rest) :
    LongestLexeme (word ++ rest) word l := by
  obtain ⟨c, w, rfl, taken⟩ := taken_of_spells spelled
  obtain ⟨k, n, found, -, exactly⟩ := taken rest
  obtain ⟨rfl, rfl⟩ := exactly spaced
  exact longestLexeme_iff.2 ⟨w.length, found, by simp⟩

end Scanning

theorem Layout.divides {text : List Char} (h : Layout ls text) :
    ∃ d, Divides text d ∧ d.left = [] ∧ d.cuts.map (·.lexeme) = ls := by
  induction h with
  | @finished blanks all =>
    refine ⟨⟨[], blanks, []⟩, .stop (List.append_nil _).symm ?_ ?_, rfl, rfl⟩
    · refine ⟨⟨[], (List.append_nil _).symm, gapBefore_blanks all []⟩, ?_⟩
      rintro other rest cut -
      rw [cut, List.length_append]
      exact Nat.le_add_right _ _
    · intro word l front spelled
      rw [List.prefix_nil.1 front] at spelled
      exact not_spells_nil l spelled
  | lexeme all spelled spaced _ ih =>
    obtain ⟨d, divides, covers, read⟩ := ih
    exact ⟨_, .cut rfl (longestGap_of_spaced all spelled _)
      (longestLexeme_of_spaced spelled spaced) divides, covers, by simp [read]⟩

theorem Token.lexemes_tokensOf (front : List Char) (cuts : List Cut) (place : Location) :
    lexemes (tokensOf front cuts ++ [⟨none, place⟩]) = cuts.map (·.lexeme) := by
  induction cuts generalizing front with
  | nil => rfl
  | cons c cuts ih => simp [tokensOf, lexemes, ih]

theorem Layout.tokenize {text : String} (h : Layout ls text.toList) :
    ∃ tokens, tokenize text = .ok tokens ∧ Token.lexemes tokens = ls := by
  obtain ⟨d, divides, covers, read⟩ := h.divides
  exact ⟨_, scan_of_covered divides covers [], by rw [Token.lexemes_tokensOf, read]⟩

/-! What has a layout -/

def Spellable (l : Lexeme) : Prop := ∃ word, Spells word l

theorem exists_layout (h : ∀ l ∈ ls, Spellable l) : ∃ text : String, Layout ls text.toList := by
  suffices ∃ text, Layout ls text ∧ Spaced text by
    obtain ⟨text, layout, -⟩ := this
    exact ⟨String.ofList text, String.toList_ofList ▸ layout⟩
  induction ls with
  | nil => exact ⟨[], .finished (by simp), by simp [Spaced]⟩
  | cons l ls ih =>
    obtain ⟨⟨word, spelled⟩, later⟩ := List.forall_mem_cons.1 h
    obtain ⟨text, layout, spaced⟩ := ih later
    have blank : ∀ c ∈ [' '], c ∈ [' ', '\t', '\r', '\n'] := by simp
    exact ⟨_, .lexeme blank spelled spaced layout, by simp [Spaced]⟩

theorem spellable_symbol (s : Symbol) : Spellable (.symbol s) := ⟨_, .symbol s⟩

theorem spellable_name {word : String} (h : IsName word) : Spellable (.name word) := by
  obtain ⟨c, tail, spelled, start, part, fresh⟩ := h
  have name := Spells.name start part fun k hk same =>
    fresh k hk (String.toList_inj.1 (same.trans spelled.symm))
  rw [← spelled, String.ofList_toList] at name
  exact ⟨_, name⟩

theorem exists_digits (n : Nat) : ∃ digits, digits ≠ [] ∧
    (∀ c ∈ digits, Decimal.isDigit c = true) ∧ Decimal.natOfDigits digits = n := by
  have single : ∀ d < 10, Decimal.isDigit (Char.ofNat (48 + d)) = true ∧
      Decimal.digitValue (Char.ofNat (48 + d)) = d := by decide
  induction n using Nat.strongRecOn with
  | ind n ih =>
    by_cases small : n < 10
    · obtain ⟨digit, value⟩ := single n small
      exact ⟨[Char.ofNat (48 + n)], by simp, by simpa using digit, by
        simpa [Decimal.natOfDigits] using value⟩
    · obtain ⟨digits, -, all, front⟩ := ih (n / 10) (by omega)
      obtain ⟨digit, value⟩ := single (n % 10) (Nat.mod_lt n (by decide))
      refine ⟨digits ++ [Char.ofNat (48 + n % 10)], by simp, ?_, ?_⟩
      · exact List.forall_mem_append.2 ⟨all, by simpa using digit⟩
      · rw [Decimal.natOfDigits] at front ⊢
        rw [List.foldl_append, front]
        simp only [List.foldl_cons, List.foldl_nil]
        omega

theorem spellable_literal {value : Literal} (h : value.Writable) : Spellable value.lexeme := by
  cases value with
  | integer n =>
    obtain ⟨digits, nonempty, all, read⟩ := exists_digits n.toNat
    have spelled := Spells.integer nonempty all
    rw [read, Int.toNat_of_nonneg h] at spelled
    exact ⟨_, spelled⟩
  | decimal value =>
    obtain ⟨whole, fraction, nonempty, digits, places, rfl⟩ := h
    exact ⟨_, .decimal nonempty digits places⟩
  | text content =>
    have spelled := Spells.text h
    rw [String.ofList_toList] at spelled
    exact ⟨_, spelled⟩

end ScriptFrontend
