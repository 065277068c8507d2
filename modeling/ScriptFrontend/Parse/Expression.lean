import ScriptFrontend.Parse.Cursor
import ScriptFrontend.Tree.Basic

/-!
Reading expressions. An expression is read flat, as operands with binary operators between them; the
tree is built afterwards, level by level from the tightest operators to the loosest, each level
grouping to the left. A sign binds to the operand behind it, and a name with a parenthesis right
behind it is a call.
-/
namespace ScriptFrontend.Parse

/-- Joins operands along the operators of one level, grouping to the left. Operators of looser levels stay. -/
def fuse (level : Level) (first : Expr) : List (BinaryOp × Expr) → Expr × List (BinaryOp × Expr)
  | [] => (first, [])
  | (op, e) :: rest =>
    if op.level = level then fuse level (.binary op first e) rest
    else (first, (op, (fuse level e rest).1) :: (fuse level e rest).2)

/-- The tree of a flat expression. After the loosest level no operator is left. -/
def assemble (first : Expr) (rest : List (BinaryOp × Expr)) : Expr :=
  (Level.all.foldl (fun acc level => fuse level acc.1 acc.2) (first, rest)).1

/-- No operand starts here. The lexeme that was met is given up even if it is a boundary. -/
def noOperand (s : Cursor) : Reading s Expr :=
  if (s.report .noOperand).pending.length = s.pending.length then
    ⟨.placeholder, (s.report .noOperand).moveTo s.pending.tail,
      s.leads_report_moveTo .noOperand (List.tail_suffix _)⟩
  else .fault s .noOperand .placeholder

mutual

def operand (s : Cursor) : Reading s Expr :=
  match h : s.pending with
  | .integer value :: rest => .move (.literal (.integer value)) rest (Cursor.leads_of_cons h)
  | .decimal value :: rest => .move (.literal (.decimal value)) rest (Cursor.leads_of_cons h)
  | .text content :: rest => .move (.literal (.text content)) rest (Cursor.leads_of_cons h)
  | .name callee :: .symbol .openParen :: rest =>
    have := Cursor.length_of_cons₂ h
    .widen (Cursor.leads_of_cons₂ h) <|
      (argumentList (s.moveTo rest)).bind fun es t _ =>
      (t.expect .closeArguments).map fun _ => .call callee es
  | .name word :: rest => .move (.identifier word) rest (Cursor.leads_of_cons h)
  | .symbol .openParen :: rest =>
    have := Cursor.length_of_cons h
    .widen (Cursor.leads_of_cons h) <|
      (expression (s.moveTo rest)).bind fun e t _ =>
      (t.expect .closeGroup).map fun _ => e
  | .symbol .plus :: rest =>
    have := Cursor.length_of_cons h
    .widen (Cursor.leads_of_cons h) <| (operand (s.moveTo rest)).map (.unary .plus)
  | .symbol .minus :: rest =>
    have := Cursor.length_of_cons h
    .widen (Cursor.leads_of_cons h) <| (operand (s.moveTo rest)).map (.unary .negate)
  | _ => noOperand s
termination_by 4 * s.pending.length

def chain (s : Cursor) : Reading s (List (BinaryOp × Expr)) :=
  match h : s.pending with
  | .symbol b :: rest =>
    match BinaryOp.ofSymbol? b with
    | some op =>
      have := Cursor.length_of_cons h
      .widen (Cursor.leads_of_cons h) <|
        (operand (s.moveTo rest)).bind fun right t ht =>
        have : t.pending.length ≤ rest.length := ht.length_le
        (chain t).map fun others => (op, right) :: others
    | none => .stay s []
  | _ => .stay s []
termination_by 4 * s.pending.length

def expression (s : Cursor) : Reading s Expr :=
  (operand s).bind fun first t h =>
  have := h.length_le
  (chain t).map fun others => assemble first others
termination_by 4 * s.pending.length + 1

def arguments (s : Cursor) : Reading s (List Expr) :=
  (expression s).bind fun first t h =>
  have := h.length_le
  match ht : t.pending with
  | .symbol .comma :: rest =>
    have := Cursor.length_of_cons ht
    .widen (Cursor.leads_of_cons ht) <|
      (arguments (t.moveTo rest)).map fun others => first :: others
  | _ => .stay t [first]
termination_by 4 * s.pending.length + 2

def argumentList (s : Cursor) : Reading s (List Expr) :=
  if s.sees .closeParen then .stay s [] else arguments s
termination_by 4 * s.pending.length + 3

end

end ScriptFrontend.Parse
