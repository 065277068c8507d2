import ScriptFrontend.Proofs.Lexical.Grammar

/-!
# Spellings

A spelling in front of a text is never overlooked: the scanner takes it or something longer, and in
front of a blank or of the end of the text it takes exactly the spelling.
-/
namespace ScriptFrontend
namespace Scanning
variable {c : Char} {w cs rest word : List Char} {l : Lexeme}

/-! Classes of characters -/

theorem isDigit_lt (h : Decimal.isDigit c = true) : c.toNat < 58 := by
  simp only [Decimal.isDigit, Bool.and_eq_true, decide_eq_true_eq, Char.le_def,
    UInt32.le_iff_toNat_le] at h
  exact Nat.lt_succ_of_le h.2

theorem isNameStart_of_isDigit (h : Decimal.isDigit c = true) : isNameStart c = false := by
  have low : c.toNat < 0x41 := Nat.lt_trans (isDigit_lt h) (by decide)
  have letter : Unicode.isAlphabetic c = false := if_pos low
  have underscore : c ≠ '_' := by
    rintro rfl
    exact absurd h (by decide)
  simp [isNameStart, letter, underscore]

def Spaced (rest : List Char) : Prop :=
  ∀ c ∈ rest.head?, c ∈ [' ', '\t', '\r', '\n']

theorem blank_cases {motive : Char → Prop} (space : motive ' ') (tab : motive '\t')
    (carriageReturn : motive '\r') (lineFeed : motive '\n') :
    ∀ c ∈ [' ', '\t', '\r', '\n'], motive c := by
  simp only [List.forall_mem_cons]
  exact ⟨space, tab, carriageReturn, lineFeed, by simp⟩

theorem isDigit_of_blank : ∀ c ∈ [' ', '\t', '\r', '\n'], Decimal.isDigit c = false :=
  blank_cases rfl rfl rfl rfl

theorem isNamePart_of_blank : ∀ c ∈ [' ', '\t', '\r', '\n'], isNamePart c = false :=
  blank_cases rfl rfl rfl rfl

theorem ofPair?_of_blank (c : Char) : ∀ d ∈ [' ', '\t', '\r', '\n'], Symbol.ofPair? c d = none :=
  blank_cases (by simp [Symbol.ofPair?]) (by simp [Symbol.ofPair?]) (by simp [Symbol.ofPair?])
    (by simp [Symbol.ofPair?])

theorem Spaced.takeWhile_eq_nil (h : Spaced rest) {p : Char → Bool}
    (hp : ∀ c ∈ [' ', '\t', '\r', '\n'], p c = false) : rest.takeWhile p = [] := by
  cases rest with
  | nil => rfl
  | cons c rest => exact List.takeWhile_cons_of_neg (Bool.eq_false_iff.1 (hp c (h c rfl)))

/-! What the routines of the scanner do -/

theorem drop_takeWhile (p : Char → Bool) (cs : List Char) :
    cs.drop (cs.takeWhile p).length = cs.dropWhile p := by
  have whole : cs.takeWhile p ++ cs.dropWhile p = cs := List.takeWhile_append_dropWhile
  calc cs.drop (cs.takeWhile p).length
      = (cs.takeWhile p ++ cs.dropWhile p).drop (cs.takeWhile p).length := by rw [whole]
    _ = cs.dropWhile p := List.drop_left

theorem take_takeWhile (p : Char → Bool) (cs : List Char) :
    cs.take (cs.takeWhile p).length = cs.takeWhile p :=
  (List.prefix_iff_eq_take.1 (List.takeWhile_prefix p)).symm

theorem lexemeAt_number (h : Decimal.isDigit c = true) (cs : List Char) :
    lexemeAt c cs = .ok (numberAt c cs) := by
  have unquoted : c ≠ '"' := by
    rintro rfl
    exact absurd h (by decide)
  rw [lexemeAt, if_neg unquoted, if_pos h]

theorem lexemeAt_word (h : isNameStart c = true) (cs : List Char) :
    lexemeAt c cs = .ok (wordAt c cs) := by
  have unquoted : c ≠ '"' := by
    rintro rfl
    exact absurd h (by decide)
  have undigit : Decimal.isDigit c ≠ true := by
    intro digit
    simp [isNameStart_of_isDigit digit] at h
  rw [lexemeAt, if_neg unquoted, if_neg undigit, if_pos h]

def OpensSymbol (c : Char) : Prop :=
  c ≠ '"' ∧ Decimal.isDigit c = false ∧ isNameStart c = false

theorem lexemeAt_symbol (h : OpensSymbol c) (cs : List Char) : lexemeAt c cs = symbolAt c cs := by
  obtain ⟨unquoted, undigit, unword⟩ := h
  rw [lexemeAt, if_neg unquoted, if_neg (Bool.eq_false_iff.1 undigit), if_neg (Bool.eq_false_iff.1 unword)]

theorem numberAt_integer (h : (cs.dropWhile Decimal.isDigit).head? ≠ some '.') :
    numberAt c cs = (.integer (Decimal.natOfDigits (c :: cs.takeWhile Decimal.isDigit)),
      (cs.takeWhile Decimal.isDigit).length) := by
  simp only [numberAt, drop_takeWhile]
  split
  · rename_i more behind
    exact absurd (by rw [behind]; rfl) h
  · rfl

theorem numberAt_decimal {more : List Char} (h : cs.dropWhile Decimal.isDigit = '.' :: more) :
    numberAt c cs =
      (.decimal (Decimal.floatOfDigits (c :: cs.takeWhile Decimal.isDigit)
          (more.takeWhile Decimal.isDigit)),
        (cs.takeWhile Decimal.isDigit).length + 1 + (more.takeWhile Decimal.isDigit).length) := by
  simp only [numberAt, drop_takeWhile, h]

theorem symbolAt_pair {d : Char} {s : Symbol} (h : Symbol.ofPair? c d = some s) (cs : List Char) :
    symbolAt c (d :: cs) = .ok (.symbol s, 1) := by
  simp [symbolAt, h]

theorem symbolAt_char {s : Symbol} (h : Symbol.ofChar? c = some s)
    (unpaired : cs.head?.bind (Symbol.ofPair? c) = none) : symbolAt c cs = .ok (.symbol s, 0) := by
  simp [symbolAt, h, unpaired]

theorem takeWhile_unquoted {content : List Char} (h : '"' ∉ content) (rest : List Char) :
    (content ++ rest).takeWhile (· ≠ '"') = content ++ rest.takeWhile (· ≠ '"') := by
  refine List.takeWhile_append_of_pos fun c hc => ?_
  have other : c ≠ '"' := fun quote => h (quote ▸ hc)
  simpa using other

theorem textAt_closed {content : List Char} (h : '"' ∉ content) (rest : List Char) :
    textAt (content ++ '"' :: rest) = .ok (.text (String.ofList content), content.length + 1) := by
  have inside : (content ++ '"' :: rest).takeWhile (· ≠ '"') = content := by
    rw [takeWhile_unquoted h, List.takeWhile_cons_of_neg (by simp), List.append_nil]
  simp only [textAt, inside]
  exact if_pos (by simp)

theorem textAt_open (h : '"' ∉ cs) : textAt cs = .error .unterminatedText := by
  have whole := takeWhile_unquoted h []
  rw [List.append_nil, List.takeWhile_nil, List.append_nil] at whole
  simp only [textAt, whole]
  exact if_neg (Nat.lt_irrefl _)

/-! Symbols and words -/

theorem spelling_of_ofPair? {d : Char} {s : Symbol} (h : Symbol.ofPair? c d = some s) :
    s.spelling.toList = [c, d] := by
  unfold Symbol.ofPair? at h
  split at h <;> cases h <;> rfl

theorem spelling_of_ofChar? {s : Symbol} (h : Symbol.ofChar? c = some s) :
    s.spelling.toList = [c] := by
  unfold Symbol.ofChar? at h
  split at h <;> cases h <;> rfl

theorem symbol_forms (s : Symbol) :
    (∃ c w, s.spelling.toList = c :: w ∧ isNameStart c = true ∧ (∀ d ∈ w, isNamePart d = true) ∧
        Lexeme.ofWord (String.ofList (c :: w)) = .symbol s) ∨
      (∃ c d, s.spelling.toList = [c, d] ∧ OpensSymbol c ∧ Symbol.ofPair? c d = some s) ∨
      ∃ c, s.spelling.toList = [c] ∧ OpensSymbol c ∧ Symbol.ofChar? c = some s := by
  cases s with
  | kwVar | kwDef | kwIf | kwElse | kwWhile | kwReturn =>
    exact .inl ⟨_, _, rfl, rfl, List.all_eq_true.1 rfl, rfl⟩
  | equal | notEqual | lessEqual | greaterEqual | both | either =>
    exact .inr (.inl ⟨_, _, rfl, ⟨by decide, rfl, rfl⟩, rfl⟩)
  | _ => exact .inr (.inr ⟨_, rfl, ⟨by decide, rfl, rfl⟩, rfl⟩)

theorem ofWord?_eq_none (h : ∀ k ∈ Symbol.keywords, k.spelling.toList ≠ word) :
    Symbol.ofWord? (String.ofList word) = none := by
  refine List.find?_eq_none.2 fun k hk same => h k hk ?_
  rw [of_decide_eq_true same, String.toList_ofList]

theorem ofWord_name (h : ∀ k ∈ Symbol.keywords, k.spelling.toList ≠ word) :
    Lexeme.ofWord (String.ofList word) = .name (String.ofList word) := by
  rw [Lexeme.ofWord, ofWord?_eq_none h]

theorem spells_ofWord (start : isNameStart c = true) (part : ∀ d ∈ w, isNamePart d = true) :
    Spells (c :: w) (.ofWord (String.ofList (c :: w))) := by
  unfold Lexeme.ofWord
  cases found : Symbol.ofWord? (String.ofList (c :: w)) with
  | some k =>
    have same : k.spelling = String.ofList (c :: w) := by simpa using List.find?_some found
    have spelled := Spells.symbol k
    rwa [same, String.toList_ofList] at spelled
  | none =>
    refine .name start part fun k hk same => ?_
    have missing := List.find?_eq_none.1 found k hk
    rw [← same, String.ofList_toList] at missing
    simp at missing

/-! Spellings in front of a text -/

/-- The scanner takes at least the given piece, and exactly it in front of a blank. -/
def Taken (c : Char) (w : List Char) (l : Lexeme) : Prop :=
  ∀ rest, ∃ k n, lexemeAt c (w ++ rest) = .ok (k, n) ∧ w.length ≤ n ∧
    (Spaced rest → k = l ∧ n = w.length)

theorem taken_text {content : List Char} (h : '"' ∉ content) :
    Taken '"' (content ++ ['"']) (.text (String.ofList content)) := by
  intro rest
  refine ⟨_, _, ?_, ?_, fun _ => ⟨rfl, rfl⟩⟩
  · rw [List.append_assoc, List.singleton_append, lexemeAt, if_pos rfl, textAt_closed h, List.length_append]
    rfl
  · exact Nat.le_refl _

theorem taken_integer (first : Decimal.isDigit c = true) (digits : ∀ d ∈ w, Decimal.isDigit d = true) :
    Taken c w (.integer (Decimal.natOfDigits (c :: w))) := by
  intro rest
  have front : (w ++ rest).takeWhile Decimal.isDigit = w ++ rest.takeWhile Decimal.isDigit :=
    List.takeWhile_append_of_pos digits
  rw [lexemeAt_number first]
  by_cases point : ((w ++ rest).dropWhile Decimal.isDigit).head? = some '.'
  · obtain ⟨more, behind⟩ := List.head?_eq_some_iff.1 point
    rw [numberAt_decimal behind]
    refine ⟨_, _, rfl, by simp [front]; omega, fun spaced => ?_⟩
    have blank : rest.head? = some '.' := by
      rw [List.dropWhile_append_of_pos digits] at point
      cases rest with
      | nil => simp at point
      | cons d rest =>
        have undigit := isDigit_of_blank d (spaced d rfl)
        simpa [undigit] using point
    exact absurd (spaced '.' blank) (by decide)
  · rw [numberAt_integer point]
    refine ⟨_, _, rfl, by simp [front], fun spaced => ?_⟩
    rw [front, spaced.takeWhile_eq_nil isDigit_of_blank, List.append_nil]
    exact ⟨rfl, rfl⟩

theorem taken_decimal {fraction : List Char} (first : Decimal.isDigit c = true)
    (whole : ∀ d ∈ w, Decimal.isDigit d = true) (digits : ∀ d ∈ fraction, Decimal.isDigit d = true) :
    Taken c (w ++ '.' :: fraction) (.decimal (Decimal.floatOfDigits (c :: w) fraction)) := by
  intro rest
  have point : Decimal.isDigit '.' ≠ true := by decide
  have front : (w ++ '.' :: fraction ++ rest).takeWhile Decimal.isDigit = w := by
    rw [List.append_assoc, List.takeWhile_append_of_pos whole, List.cons_append,
      List.takeWhile_cons_of_neg point, List.append_nil]
  have behind : (w ++ '.' :: fraction ++ rest).dropWhile Decimal.isDigit = '.' :: (fraction ++ rest) := by
    rw [List.append_assoc, List.dropWhile_append_of_pos whole, List.cons_append,
      List.dropWhile_cons_of_neg point]
  have places : (fraction ++ rest).takeWhile Decimal.isDigit =
      fraction ++ rest.takeWhile Decimal.isDigit := List.takeWhile_append_of_pos digits
  rw [lexemeAt_number first, numberAt_decimal behind, front, places]
  refine ⟨_, _, rfl, by simp; omega, fun spaced => ?_⟩
  rw [spaced.takeWhile_eq_nil isDigit_of_blank, List.append_nil]
  exact ⟨rfl, by simp; omega⟩

theorem taken_word (start : isNameStart c = true) (part : ∀ d ∈ w, isNamePart d = true)
    (known : Lexeme.ofWord (String.ofList (c :: w)) = l) : Taken c w l := by
  intro rest
  have front : (w ++ rest).takeWhile isNamePart = w ++ rest.takeWhile isNamePart :=
    List.takeWhile_append_of_pos part
  rw [lexemeAt_word start, wordAt, front]
  refine ⟨_, _, rfl, by simp, fun spaced => ?_⟩
  rw [spaced.takeWhile_eq_nil isNamePart_of_blank, List.append_nil]
  exact ⟨known, rfl⟩

theorem taken_char {s : Symbol} (opens : OpensSymbol c) (h : Symbol.ofChar? c = some s) :
    Taken c [] (.symbol s) := by
  intro rest
  rw [lexemeAt_symbol opens, List.nil_append]
  cases paired : rest.head?.bind (Symbol.ofPair? c) with
  | none => exact ⟨_, _, symbolAt_char h paired, Nat.zero_le _, fun _ => ⟨rfl, rfl⟩⟩
  | some k =>
    obtain ⟨d, head, pair⟩ := Option.bind_eq_some_iff.1 paired
    obtain ⟨rest, rfl⟩ := List.head?_eq_some_iff.1 head
    refine ⟨_, _, symbolAt_pair pair rest, Nat.zero_le _, fun spaced => ?_⟩
    rw [ofPair?_of_blank c d (spaced d rfl)] at pair
    cases pair

theorem taken_of_spells (h : Spells word l) : ∃ c w, word = c :: w ∧ Taken c w l := by
  cases h with
  | text plain => exact ⟨_, _, rfl, taken_text plain⟩
  | integer nonempty digits =>
    obtain ⟨c, w, rfl⟩ := List.exists_cons_of_ne_nil nonempty
    obtain ⟨first, others⟩ := List.forall_mem_cons.1 digits
    exact ⟨c, w, rfl, taken_integer first others⟩
  | decimal nonempty whole digits =>
    obtain ⟨c, w, rfl⟩ := List.exists_cons_of_ne_nil nonempty
    obtain ⟨first, others⟩ := List.forall_mem_cons.1 whole
    exact ⟨c, _, rfl, taken_decimal first others digits⟩
  | name start part fresh => exact ⟨_, _, rfl, taken_word start part (ofWord_name fresh)⟩
  | symbol s =>
    rcases symbol_forms s with
      ⟨c, w, spelled, start, part, known⟩ | ⟨c, d, spelled, opens, pair⟩ | ⟨c, spelled, opens, single⟩
    · exact ⟨c, w, spelled, taken_word start part known⟩
    · refine ⟨c, [d], spelled, fun rest => ?_⟩
      rw [lexemeAt_symbol opens]
      exact ⟨_, _, symbolAt_pair pair rest, Nat.le_refl _, fun _ => ⟨rfl, rfl⟩⟩
    · exact ⟨c, [], spelled, taken_char opens single⟩

theorem spells_functional {k : Lexeme} (h : Spells word l) (h' : Spells word k) : l = k := by
  obtain ⟨c, w, rfl, taken⟩ := taken_of_spells h
  obtain ⟨_, _, same, taken'⟩ := taken_of_spells h'
  cases same
  obtain ⟨_, _, found, -, whole⟩ := taken []
  obtain ⟨_, _, found', -, whole'⟩ := taken' []
  obtain ⟨rfl, -⟩ := whole (by simp [Spaced])
  obtain ⟨rfl, -⟩ := whole' (by simp [Spaced])
  rw [found] at found'
  cases found'
  rfl

end Scanning
end ScriptFrontend
