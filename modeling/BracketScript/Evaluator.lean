import BracketScript.Form.Arithmetic
import BracketScript.Form.Binding
import BracketScript.Form.Control
import BracketScript.Form.Conversion
import BracketScript.Form.Sequence
import BracketScript.Form.Source
import BracketScript.Form.Task

/-!
# The evaluator

A symbol evaluates to what it means, a keyword to its procedure and a list to a call of its first
item; every other cell evaluates to itself. `eval` is bounded by the depth of nested evaluations,
which also bounds the rounds of each loop; when the bound is met, the evaluation is exhausted.
-/

namespace BracketScript

def Keyword.form : Keyword → Form
  | .front => Form.front
  | .back => Form.back
  | .push => Form.push
  | .pop => Form.pop
  | .list => Form.list
  | .assign => Form.assign
  | .lambda => Form.lambda
  | .block => Form.block
  | .length => Form.length
  | .put => Form.output ""
  | .putLine => Form.output "\n"
  | .ifElse => Form.ifElse
  | .equal => Form.comparison .equal
  | .notEqual => Form.comparison .notEqual
  | .atMost => Form.comparison .atMost
  | .atLeast => Form.comparison .atLeast
  | .below => Form.comparison .below
  | .above => Form.comparison .above
  | .sameText => Form.textComparison true
  | .otherText => Form.textComparison false
  | .assertAll => Form.assertAll
  | .loop => Form.loop
  | .typeOf => Form.typeOf
  | .importModule => Form.importModules
  | .usePackage => Form.usePackages
  | .iterate => Form.iterate
  | .not => Form.negation
  | .or => Form.logic .or
  | .and => Form.logic .and
  | .xor => Form.logic .xor
  | .breakOut => Form.breakOut
  | .elementAt => Form.elementAt
  | .clear => Form.clear
  | .compose => Form.compose
  | .decompose => Form.decompose
  | .box => Form.box
  | .truth => Form.constant (.ofBool true)
  | .falsity => Form.constant (.ofBool false)
  | .isNil => Form.isNil
  | .nil => Form.constant .nil
  | .add => Form.arithmetic .add
  | .subtract => Form.arithmetic .subtract
  | .divide => Form.arithmetic .divide
  | .multiply => Form.arithmetic .multiply
  | .modulo => Form.arithmetic .modulo
  | .define => Form.define
  | .exitProcess => Form.exitProcess
  | .yieldUp => Form.yieldUp
  | .tryOr => Form.tryOr
  | .asInteger => Form.asInteger
  | .asString => Form.asString
  | .asReal => Form.asReal
  | .raise => Form.raise
  | .bitAnd => Form.bitwise .and
  | .bitOr => Form.bitwise .or
  | .shiftLeft => Form.shift .left
  | .shiftRight => Form.shift .right
  | .bitXor => Form.bitwise .xor
  | .bitNot => Form.bitNot
  | .reverse => Form.reverse
  | .setAt => Form.setAt
  | .spawnAsync => Form.spawnAsync
  | .spawnThread => Form.spawnThread
  | .channel => Form.channel
  | .reference => Form.reference

namespace Evaluator

def bindParameters (frame : ScopeId) : (parameters : List String) → (values : List Cell) → Eval Unit
  | parameter :: parameters, value :: values => do
    let bound ← .copy value
    .define frame parameter bound
    bindParameters frame parameters values
  | _, _ => pure ()

/-- Call a lambda. Its body is evaluated in a new scope inside the one that the lambda remembers.
A call counts as work, so that a lambda can wait for other tasks by calling itself. -/
def applyLambda (ev : Evaluator) (site : Cell) (parameters : List String) (body : Cell)
    (captured : ScopeId) (operands : List Cell) (scope : ScopeId) : Eval Cell := do
  let values ← ev.evalAll scope operands
  if values.length = parameters.length then
    let frame ← .childScope captured
    bindParameters frame parameters values
    .work 1
    ev.evaluate body frame
  else .fail (.failure (.lambdaArity parameters.length values.length) site.location)

/-- Call the value of the first item of a list with the other items. What is neither a lambda nor a
procedure is its own value. -/
def apply (ev : Evaluator) (site callee : Cell) (operands : List Cell) (scope : ScopeId) :
    Eval Cell :=
  match callee.value with
  | .lambda parameters body captured =>
    ev.applyLambda site parameters body captured operands scope
  | .procedure p =>
    let call : Call := ⟨p.name, site, operands⟩
    match p with
    | .builtIn k => k.form ev call scope
    | .method m => Form.method m ev call scope
    | .native package member _ =>
      match ev.host.native? package member with
      | some native => native.run ev.eval call scope
      | none => pure callee
  | _ => pure callee

def step (ev : Evaluator) (c : Cell) (scope : ScopeId) : Eval Cell :=
  match c.value with
  | .symbol name => .readOr fun s => s.resolve scope name c.location
  | .keyword k => pure (.builtIn k)
  | .list => do
    match ← .read fun s => s.items c.id with
    | [] => .newNil
    | head :: operands =>
      let callee ← ev.eval head scope
      ev.apply c callee operands scope
  | _ => pure c

end Evaluator

/-- Evaluate a cell in a scope, at most `fuel` evaluations deep. -/
def eval (host : Host) : (fuel : Nat) → Cell → ScopeId → Eval Cell
  | 0, _, _ => .stop .exhausted
  | fuel + 1, c, scope => Evaluator.step ⟨host, eval host fuel, fuel⟩ c scope

/-- The evaluator of a host, for evaluations at most `fuel` deep. -/
def evaluator (host : Host) (fuel : Nat) : Evaluator :=
  ⟨host, eval host fuel, fuel⟩

end BracketScript
