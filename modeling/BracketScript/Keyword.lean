/-!
# Keywords

The names that the language reserves for its built-in procedures, in their fixed order. The reader
turns each of them into a keyword, so no program can bind one of these names.
-/

namespace BracketScript

inductive Keyword where
  | front | back | push | pop | list | assign | lambda | block | length | put | putLine
  | ifElse | equal | notEqual | atMost | atLeast | below | above | sameText | otherText
  | assertAll | loop | typeOf | importModule | usePackage | iterate | not | or | and | xor
  | breakOut | elementAt | clear | compose | decompose | box | truth | falsity | isNil | nil
  | add | subtract | divide | multiply | modulo | define | exitProcess | yieldUp | tryOr
  | asInteger | asString | asReal | raise | bitAnd | bitOr | shiftLeft | shiftRight
  | bitXor | bitNot | reverse | setAt | spawnAsync | spawnThread | channel | reference
  deriving DecidableEq, Repr

namespace Keyword

def all : List Keyword :=
  [.front, .back, .push, .pop, .list, .assign, .lambda, .block, .length, .put, .putLine, .ifElse,
    .equal, .notEqual, .atMost, .atLeast, .below, .above, .sameText, .otherText, .assertAll,
    .loop, .typeOf, .importModule, .usePackage, .iterate, .not, .or, .and, .xor, .breakOut,
    .elementAt, .clear, .compose, .decompose, .box, .truth, .falsity, .isNil, .nil, .add,
    .subtract, .divide, .multiply, .modulo, .define, .exitProcess, .yieldUp, .tryOr, .asInteger,
    .asString, .asReal, .raise, .bitAnd, .bitOr, .shiftLeft, .shiftRight, .bitXor, .bitNot,
    .reverse, .setAt, .spawnAsync, .spawnThread, .channel, .reference]

def name : Keyword → String
  | .front => "front"
  | .back => "back"
  | .push => "push"
  | .pop => "pop"
  | .list => "list"
  | .assign => "set"
  | .lambda => "lambda"
  | .block => "block"
  | .length => "len"
  | .put => "put"
  | .putLine => "putln"
  | .ifElse => "if"
  | .equal => "=="
  | .notEqual => "!="
  | .atMost => "<="
  | .atLeast => ">="
  | .below => "<"
  | .above => ">"
  | .sameText => "seq"
  | .otherText => "sneq"
  | .assertAll => "assert"
  | .loop => "loop"
  | .typeOf => "type"
  | .importModule => "import"
  | .usePackage => "use"
  | .iterate => "iter"
  | .not => "not"
  | .or => "or"
  | .and => "and"
  | .xor => "xor"
  | .breakOut => "break"
  | .elementAt => "at"
  | .clear => "clear"
  | .compose => "compose"
  | .decompose => "decompose"
  | .box => "box"
  | .truth => "true"
  | .falsity => "false"
  | .isNil => "is_nil"
  | .nil => "nil"
  | .add => "+"
  | .subtract => "-"
  | .divide => "/"
  | .multiply => "*"
  | .modulo => "%"
  | .define => "var"
  | .exitProcess => "exit"
  | .yieldUp => "yield"
  | .tryOr => "try"
  | .asInteger => "as_int"
  | .asString => "as_str"
  | .asReal => "as_real"
  | .raise => "throw"
  | .bitAnd => "bw_and"
  | .bitOr => "bw_or"
  | .shiftLeft => "bw_lsh"
  | .shiftRight => "bw_rsh"
  | .bitXor => "bw_xor"
  | .bitNot => "bw_not"
  | .reverse => "rev"
  | .setAt => "set_at"
  | .spawnAsync => "async"
  | .spawnThread => "thread"
  | .channel => "chan"
  | .reference => "ref"

def index (k : Keyword) : Nat :=
  all.idxOf k

def ofName? (name : String) : Option Keyword :=
  all.find? fun k => k.name == name

end Keyword

end BracketScript
