import RecordFilter.Number.Text
import RecordFilter.Operator

/-!
# Tokens

The words of an expression, and the text by which messages name them.
-/

namespace RecordFilter

/-- A word of an expression, or its end. -/
inductive Token
  | field (name : String)
  | var (raw : String)
  | string (s : String)
  | float (x : Binary64)
  | integer (n : Int64)
  | boolean (b : Bool)
  | null
  | comparison (op : CompareOp)
  | isIn
  | not
  | join (op : JoinOp)
  | leftParen
  | rightParen
  | comma
  | eof
  deriving DecidableEq

/-- Classes of tokens. -/
inductive TokenKind
  | field
  | var
  | stringConstant
  | numberConstant
  | booleanConstant
  | namedConstant
  | comparison
  | function
  | unary
  | join
  | punctuation
  | eof
  deriving DecidableEq

/-- A text between single quotes, its own quotes written twice. -/
def quoteSingle (s : String) : String :=
  String.ofList ('\x27' :: s.toList.flatMap (fun c => if c = '\x27' then ['\x27', '\x27'] else [c])
    ++ ['\x27'])

namespace Token

def kind : Token → TokenKind
  | field _ => .field
  | var _ => .var
  | string _ => .stringConstant
  | float _ => .numberConstant
  | integer _ => .numberConstant
  | boolean _ => .booleanConstant
  | null => .namedConstant
  | comparison _ => .comparison
  | isIn => .function
  | not => .unary
  | join _ => .join
  | leftParen => .punctuation
  | rightParen => .punctuation
  | comma => .punctuation
  | eof => .eof

/-- The text that names a token in a message. -/
def text : Token → String
  | field name => "[" ++ name ++ "]"
  | var raw => "\x7b" ++ raw ++ "\x7d"
  | string s => quoteSingle s
  | float x => x.plain
  | integer n => int64Text n
  | boolean b => if b then "true" else "false"
  | null => "null"
  | comparison op => op.symbol
  | isIn => "in"
  | not => "not"
  | join op => op.symbol
  | leftParen => "("
  | rightParen => ")"
  | comma => ","
  | eof => "end of input"

end Token

end RecordFilter
