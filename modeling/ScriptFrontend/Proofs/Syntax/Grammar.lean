import ScriptFrontend.Token.Lexeme
import ScriptFrontend.Tree.Basic

/-!
# The grammar of programs

Rows of lexemes that form a phrase, with the tree of the phrase.

```text
program        ::= statement*
statement      ::= "var" NAME "=" expression ";" | NAME "=" expression ";" | conditional
                 | "while" "(" expression ")" block | "def" NAME "(" nameList ")" block
                 | "return" expression ";" | expression ";"
conditional    ::= "if" "(" expression ")" block ( "else" ( conditional | block ) )?
block          ::= "{" program "}"
nameList       ::= ( NAME ( "," NAME )* )?
disjunction    ::= conjunction ( "||" conjunction )*
conjunction    ::= comparison ( "&&" comparison )*
comparison     ::= term ( ( ">" | "<" | ">=" | "<=" | "==" | "!=" ) term )*
term           ::= factor ( ( "+" | "-" ) factor )*
factor         ::= primary ( ( "*" | "/" ) primary )*
primary        ::= INTEGER | DECIMAL | TEXT | NAME | NAME "(" argumentList ")"
                 | "(" disjunction ")" | ( "+" | "-" ) primary
argumentList   ::= ( disjunction ( "," disjunction )* )?
```

The row of operands of a level groups to the left: everything before the last operator of the level
is the left operand of that operator.
-/
namespace ScriptFrontend

namespace Level

def tighter : Level → Option Level
  | factor => none
  | term => some factor
  | comparison => some term
  | conjunction => some comparison
  | disjunction => some conjunction

/-- From primaries to disjunctions, level by level. -/
theorem ascend {motive : Option Level → Prop} (primary : motive none)
    (level : ∀ l : Level, motive l.tighter → motive (some l)) (r : Option Level) : motive r := by
  have factor : motive (some .factor) := level .factor primary
  have term : motive (some .term) := level .term factor
  have comparison : motive (some .comparison) := level .comparison term
  have conjunction : motive (some .conjunction) := level .conjunction comparison
  have disjunction : motive (some .disjunction) := level .disjunction conjunction
  match r with
  | none => exact primary
  | some .factor => exact factor
  | some .term => exact term
  | some .comparison => exact comparison
  | some .conjunction => exact conjunction
  | some .disjunction => exact disjunction

end Level

/-- What the rules define. An expression is ranked by the loosest level of its bare operators. -/
inductive Nonterminal where
  | ranked (loosest : Option Level)
  | arguments | argumentList
  | names | nameList
  | statement | conditional | block | program

namespace Nonterminal

abbrev primary : Nonterminal := ranked none

abbrev level (l : Level) : Nonterminal := ranked (some l)

abbrev expression : Nonterminal := level .disjunction

abbrev Tree : Nonterminal → Type
  | ranked _ => Expr
  | arguments | argumentList => List Expr
  | names | nameList => List String
  | statement | conditional => Stmt
  | block | program => List Stmt

end Nonterminal

inductive Phrase : (n : Nonterminal) → List Lexeme → n.Tree → Prop where
  | integer (value : Int) : Phrase .primary [.integer value] (.literal (.integer value))
  | decimal (value : Float) : Phrase .primary [.decimal value] (.literal (.decimal value))
  | text (content : String) : Phrase .primary [.text content] (.literal (.text content))
  | identifier (word : String) : Phrase .primary [.name word] (.identifier word)
  | call {ls : List Lexeme} {es : List Expr} (callee : String) :
      Phrase .argumentList ls es →
      Phrase .primary (.name callee :: .symbol .openParen :: (ls ++ [.symbol .closeParen]))
        (.call callee es)
  | group {ls : List Lexeme} {e : Expr} :
      Phrase .expression ls e →
      Phrase .primary (.symbol .openParen :: (ls ++ [.symbol .closeParen])) e
  | sign {ls : List Lexeme} {e : Expr} (op : UnaryOp) :
      Phrase .primary ls e → Phrase .primary (.symbol op.symbol :: ls) (.unary op e)
  | operand {ls : List Lexeme} {e : Expr} (l : Level) :
      Phrase (.ranked l.tighter) ls e → Phrase (.level l) ls e
  | operation {left right : List Lexeme} {a b : Expr} (op : BinaryOp) :
      Phrase (.level op.level) left a → Phrase (.ranked op.level.tighter) right b →
      Phrase (.level op.level) (left ++ .symbol op.symbol :: right) (.binary op a b)
  | lastArgument {ls : List Lexeme} {e : Expr} :
      Phrase .expression ls e → Phrase .arguments ls [e]
  | moreArguments {ls more : List Lexeme} {e : Expr} {es : List Expr} :
      Phrase .expression ls e → Phrase .arguments more es →
      Phrase .arguments (ls ++ .symbol .comma :: more) (e :: es)
  | noArguments : Phrase .argumentList [] []
  | someArguments {ls : List Lexeme} {es : List Expr} :
      Phrase .arguments ls es → Phrase .argumentList ls es
  | lastName (word : String) : Phrase .names [.name word] [word]
  | moreNames {more : List Lexeme} {words : List String} (word : String) :
      Phrase .names more words → Phrase .names (.name word :: .symbol .comma :: more) (word :: words)
  | noNames : Phrase .nameList [] []
  | someNames {ls : List Lexeme} {words : List String} :
      Phrase .names ls words → Phrase .nameList ls words
  | declaration {ls : List Lexeme} {e : Expr} (word : String) :
      Phrase .expression ls e →
      Phrase .statement
        (.symbol .kwVar :: .name word :: .symbol .assign :: (ls ++ [.symbol .semicolon]))
        (.declaration word e)
  | assignment {ls : List Lexeme} {e : Expr} (word : String) :
      Phrase .expression ls e →
      Phrase .statement (.name word :: .symbol .assign :: (ls ++ [.symbol .semicolon]))
        (.assignment word e)
  | choice {ls : List Lexeme} {s : Stmt} : Phrase .conditional ls s → Phrase .statement ls s
  | whileLoop {ls body : List Lexeme} {e : Expr} {ss : List Stmt} :
      Phrase .expression ls e → Phrase .block body ss →
      Phrase .statement
        (.symbol .kwWhile :: .symbol .openParen :: (ls ++ .symbol .closeParen :: body))
        (.whileLoop e ss)
  | function {ls body : List Lexeme} {words : List String} {ss : List Stmt} (word : String) :
      Phrase .nameList ls words → Phrase .block body ss →
      Phrase .statement
        (.symbol .kwDef :: .name word :: .symbol .openParen :: (ls ++ .symbol .closeParen :: body))
        (.function word words ss)
  | returnValue {ls : List Lexeme} {e : Expr} :
      Phrase .expression ls e →
      Phrase .statement (.symbol .kwReturn :: (ls ++ [.symbol .semicolon])) (.returnValue e)
  | evaluation {ls : List Lexeme} {e : Expr} :
      Phrase .expression ls e → Phrase .statement (ls ++ [.symbol .semicolon]) (.expression e)
  | ifThen {ls consequent : List Lexeme} {e : Expr} {as : List Stmt} :
      Phrase .expression ls e → Phrase .block consequent as →
      Phrase .conditional
        (.symbol .kwIf :: .symbol .openParen :: (ls ++ .symbol .closeParen :: consequent))
        (.ifThen e as)
  | ifThenElse {ls consequent alternative : List Lexeme} {e : Expr} {as bs : List Stmt} :
      Phrase .expression ls e → Phrase .block consequent as → Phrase .block alternative bs →
      Phrase .conditional
        (.symbol .kwIf :: .symbol .openParen :: (ls ++ .symbol .closeParen ::
          (consequent ++ .symbol .kwElse :: alternative)))
        (.ifThenElse e as bs)
  | elseIf {ls consequent alternative : List Lexeme} {e : Expr} {as : List Stmt} {inner : Stmt} :
      Phrase .expression ls e → Phrase .block consequent as →
      Phrase .conditional alternative inner →
      Phrase .conditional
        (.symbol .kwIf :: .symbol .openParen :: (ls ++ .symbol .closeParen ::
          (consequent ++ .symbol .kwElse :: alternative)))
        (.ifThenElse e as [inner])
  | block {ls : List Lexeme} {ss : List Stmt} :
      Phrase .program ls ss →
      Phrase .block (.symbol .openBrace :: (ls ++ [.symbol .closeBrace])) ss
  | finished : Phrase .program [] []
  | statement {ls more : List Lexeme} {s : Stmt} {ss : List Stmt} :
      Phrase .statement ls s → Phrase .program more ss → Phrase .program (ls ++ more) (s :: ss)

theorem Phrase.ranked {ls : List Lexeme} {e : Expr} (h : Phrase .primary ls e) (r : Option Level) :
    Phrase (.ranked r) ls e := by
  induction r using Level.ascend with
  | primary => exact h
  | level l ih => exact .operand l ih

def Grammatical (ls : List Lexeme) : Prop :=
  ∃ ss, Phrase .program ls ss

/-- The rows of lexemes with which some program starts. -/
def Viable (ls : List Lexeme) : Prop :=
  ∃ more, Grammatical (ls ++ more)

end ScriptFrontend
