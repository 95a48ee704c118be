/-!
# Quoted text

A string is written between double quotes on one line. Quotes, backslashes and six control
characters are written with a backslash in front of a letter; every other character stands for
itself. Reading is more liberal than writing: a backslash before any other character stands for
that character.
-/

namespace BracketScript.Text

inductive Unclosed where
  /-- The line ended inside the string. -/
  | text
  /-- The line ended directly after a backslash. -/
  | escape
  deriving DecidableEq, Repr

def escape (c : Char) : List Char :=
  match c with
  | '"' => ['\\', '"']
  | '\\' => ['\\', '\\']
  | '\n' => ['\\', 'n']
  | '\t' => ['\\', 't']
  | '\r' => ['\\', 'r']
  | '\x07' => ['\\', 'a']
  | '\x08' => ['\\', 'b']
  | '\x0b' => ['\\', 'v']
  | c => [c]

/-- The character that a backslash and `c` stand for. -/
def unescape (c : Char) : Char :=
  match c with
  | 'n' => '\n'
  | 't' => '\t'
  | 'r' => '\r'
  | 'a' => '\x07'
  | 'b' => '\x08'
  | 'v' => '\x0b'
  | c => c

def quoted (text : String) : String :=
  "\"" ++ String.ofList (text.toList.flatMap escape) ++ "\""

/-- Read up to the closing quote: the text and what follows the quote. -/
def readQuoted : List Char → Except Unclosed (List Char × List Char)
  | [] => .error .text
  | '"' :: rest => .ok ([], rest)
  | '\\' :: [] => .error .escape
  | '\\' :: c :: rest =>
    match readQuoted rest with
    | .ok (text, after) => .ok (unescape c :: text, after)
    | .error e => .error e
  | c :: rest =>
    match readQuoted rest with
    | .ok (text, after) => .ok (c :: text, after)
    | .error e => .error e

/-- What follows a quoted text is shorter than what was read. -/
theorem length_lt_of_readQuoted {cs text after : List Char}
    (h : readQuoted cs = .ok (text, after)) : after.length < cs.length := by
  fun_induction readQuoted cs generalizing text with
  | case1 => cases h
  | case2 rest => cases h; simp
  | case3 => cases h
  | case4 c rest text' after' hr ih =>
    cases h
    have := ih hr
    simp only [List.length_cons]
    omega
  | case5 c rest e hr ih => cases h
  | case6 c rest _ _ _ text' after' hr ih =>
    cases h
    have := ih hr
    simp only [List.length_cons]
    omega
  | case7 c rest _ _ _ e hr ih => cases h

/-- Reading what was written gives the text back and leaves what follows. -/
theorem readQuoted_flatMap_escape (cs rest : List Char) :
    readQuoted (cs.flatMap escape ++ '"' :: rest) = .ok (cs, rest) := by
  induction cs with
  | nil => rfl
  | cons c cs ih =>
    rw [List.flatMap_cons, List.append_assoc]
    generalize cs.flatMap escape ++ '"' :: rest = written at ih
    unfold escape
    split <;> simp_all [readQuoted, unescape]

end BracketScript.Text
