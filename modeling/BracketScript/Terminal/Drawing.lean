import BracketScript.Diagnostic
import BracketScript.Terminal.Width
import BracketScript.Text.Bytes

/-!
# Drawing reports

A window shows the line of a fault and a mark below it. The mark is one byte long, and so a fault at
a character of several bytes cannot be shown.
-/

namespace BracketScript.Diagnostic

/-- The line of a text that holds a byte offset, and the number of characters in front of the
offset in it. -/
def lineAround (offset : Nat) (cs : List Char) : String × Nat :=
  go 0 [] cs
where
  /-- Walk on from a byte, with the line so far in reverse. -/
  go (byte : Nat) (before : List Char) : List Char → String × Nat
    | [] => (String.ofList before.reverse, before.length)
    | c :: rest =>
      if offset ≤ byte then
        (String.ofList (before.reverse ++ (c :: rest).takeWhile (· != '\n')), before.length)
      else go (byte + c.utf8Size) (if c = '\n' then [] else c :: before) rest

def columnLimit : Nat := 65535

/-- The mark can be put below the line that is marked: it must not end inside of a character, nor
stand too far to the right. There is no line to mark behind the end of the text. -/
def canMark (text : String) (diagnostic : Diagnostic) : Bool :=
  let cs := text.toList
  match Text.takeBytes? diagnostic.offset cs, Text.dropBytes? diagnostic.offset cs with
  | some before, some (c :: rest) =>
    let inLine := (before.reverse.takeWhile (· != '\n')).reverse
    (Text.takeBytes? diagnostic.length (c :: rest)).isSome && Text.columns inLine ≤ columnLimit
  | _, _ => true

def Report.draw? : Report → Option String
  | .plain line => some (line ++ "\n")
  | .window name text diagnostic =>
    if canMark text diagnostic then
      let (line, before) := lineAround diagnostic.offset text.toList
      let mark := String.ofList (List.replicate before ' ') ++ "^ " ++ diagnostic.label
      let help := (diagnostic.help.map fun help => "  help: " ++ help ++ "\n").getD ""
      some (diagnostic.message ++ "\n  in " ++ name ++ "\n  | " ++ line ++ "\n  | " ++ mark ++
        "\n" ++ help)
    else none

end BracketScript.Diagnostic
