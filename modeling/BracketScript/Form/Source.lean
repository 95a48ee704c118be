import BracketScript.Form
import BracketScript.Reader
import BracketScript.Search

/-!
# Forms on source text

A tree is loaded into the store before it is evaluated, since code is made of cells too. A text is
parsed as a whole before any of it is evaluated.
-/

namespace BracketScript

def Atom.value : Atom → Value
  | .symbol name => .symbol name
  | .keyword k => .keyword k
  | .string text => .string text
  | .integer value => .integer value
  | .real value => .real value

namespace Store

mutual

def load (s : Store) : Tree → Cell × Store
  | .atom a location => s.newCell a.value (some location) #[]
  | .list items location =>
    let (cells, s') := s.loadAll items
    s'.newCell .list (some location) cells.toArray

def loadAll (s : Store) : List Tree → List Cell × Store
  | [] => ([], s)
  | tree :: trees =>
    let (cell, s') := s.load tree
    let (cells, s'') := s'.loadAll trees
    (cell :: cells, s'')

end

end Store

namespace Evaluator

def runTree (ev : Evaluator) (scope : ScopeId) (tree : Tree) : Eval Cell := do
  let code ← .make fun s => s.load tree
  ev.evaluate code scope

/-- Evaluate trees one after the other for the value of the last, if there is one. -/
def runTrees (ev : Evaluator) (scope : ScopeId) : List Tree → Eval (Option Cell)
  | [] => pure none
  | [tree] => some <$> ev.runTree scope tree
  | tree :: trees => do
    let _ ← ev.runTree scope tree
    ev.runTrees scope trees

/-- Parse a text and evaluate its expressions for the value of the last. Each text that is read
counts as work, so that one can wait for other tasks by having itself read again. -/
def runText (ev : Evaluator) (origin : Option String) (text : String) (scope : ScopeId) :
    Eval Cell := do
  .work 1
  .workThrough text
  match parse origin text with
  | .error error => .fail (.parse error)
  | .ok trees =>
    match ← ev.runTrees scope trees with
    | some value => pure value
    | none => .newNil

end Evaluator

namespace Form

def importModule (ev : Evaluator) (call : Call) (scope : ScopeId) (operand : Cell) :
    Eval Unit := do
  match operand.value.string? with
  | none => call.failAt operand .moduleNotString
  | some name =>
    match ← Search.find ev.host.look ev.host.roots name with
    | .error error => call.failAt operand (.moduleNotLoaded error)
    | .ok source =>
      .await (.source (some source.origin) source.text)
      let _ ← ev.runText (some source.origin) source.text scope

def importEach (ev : Evaluator) (call : Call) (scope : ScopeId) : List Cell → Eval Unit
  | [] => pure ()
  | operand :: operands => do
    importModule ev call scope operand
    importEach ev call scope operands

def importModules : Form := fun ev call scope => do
  match call.operands with
  | [] => call.failArity (.atLeast 1)
  | operands =>
    importEach ev call scope operands
    .newBool true

def bindMembers (package : String) (members : ScopeId) : List (String × Native) → Eval Unit
  | [] => pure ()
  | (member, native) :: others => do
    let cell ← .newCell (.procedure (.native package member native.name))
    .define members member cell
    bindMembers package members others

/-- Bind a box of the procedures of a package under its name, unless this has been done. -/
def usePackage (ev : Evaluator) (call : Call) (scope : ScopeId) (operand : Cell) :
    Eval Unit := do
  match operand.value.string? with
  | none => call.failAt operand .packageNotString
  | some name =>
    if ← .read fun s => s.isLoaded scope name then pure ()
    else
      match ev.host.package name with
      | .error error => call.failAt operand (.packageNotLoaded error)
      | .ok package =>
        let members ← .childScope scope
        bindMembers package.name members package.procedures
        let cell ← .newCell (.box members)
        .define scope package.name cell
        .modify fun s => s.markLoaded scope name

def useEach (ev : Evaluator) (call : Call) (scope : ScopeId) : List Cell → Eval Unit
  | [] => pure ()
  | operand :: operands => do
    usePackage ev call scope operand
    useEach ev call scope operands

def usePackages : Form := fun ev call scope => do
  match call.operands with
  | [] => call.failArity (.atLeast 1)
  | operands =>
    useEach ev call scope operands
    .newBool true

/-- The source text of the operand, which is not evaluated. -/
def compose : Form := fun _ call _ => do
  match call.operands with
  | [operand] =>
    let text ← .read fun s => s.quote operand
    .newCell (.string text)
  | _ => call.failArity (.exactly 1)

def decompose : Form := fun ev call scope => do
  match call.operands with
  | [operand] =>
    let value ← ev.eval operand scope
    match value.value.string? with
    | some text =>
      .await (.source none text)
      ev.runText none text scope
    | none => call.fail .sourceNotString
  | _ => call.failArity (.exactly 1)

end Form

end BracketScript
