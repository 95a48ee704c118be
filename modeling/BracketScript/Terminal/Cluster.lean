import BracketScript.Terminal.Cluster.Kind

/-!
# Clusters

A text falls into clusters, which a reader takes for one character each. Whether a character goes on
with the cluster in front of it depends on its kind, on the kind of the character right in front of
it, and for flags, joined pictographs and conjoined consonants on what came before that.
-/

namespace BracketScript.Text

namespace Cluster

inductive Picture where
  | none
  /-- A pictograph and marks. -/
  | pictograph
  /-- A pictograph, marks and a joiner. -/
  | joined
  deriving DecidableEq, Repr

inductive Conjunct where
  | none
  /-- A consonant and marks. -/
  | consonant
  /-- A consonant and marks, one of which is a linker. -/
  | linked
  deriving DecidableEq, Repr

structure Front where
  /-- The kind of the last character. -/
  last : Kind
  /-- A regional character that has no partner yet is the last. -/
  isHalfFlag : Bool
  picture : Picture
  conjunct : Conjunct
  deriving DecidableEq, Repr

def Picture.next (picture : Picture) : Kind → Picture
  | .pictograph => .pictograph
  | .mark => if picture = .pictograph then .pictograph else .none
  | .joiner => if picture = .pictograph then .joined else .none
  | _ => .none

/-- How a character takes a cluster on to conjoined consonants. The mark that keeps characters
apart ends the way. -/
def Conjunct.next (conjunct : Conjunct) (c : Char) : Kind → Conjunct
  | .consonant => .consonant
  | .mark =>
    if c.toNat = 0x200C || conjunct = .none then .none
    else if isLinker c then .linked
    else conjunct
  | .joiner => conjunct
  | _ => .none

def Front.single (c : Char) : Front :=
  let kind := Kind.ofChar c
  ⟨kind, kind = .regional, Picture.none.next kind, Conjunct.none.next c kind⟩

def Front.push (front : Front) (c : Char) : Front :=
  let kind := Kind.ofChar c
  ⟨kind, kind = .regional && !front.isHalfFlag, front.picture.next kind,
    front.conjunct.next c kind⟩

def Front.joins (front : Front) (kind : Kind) : Bool :=
  match front.last, kind with
  | .carriageReturn, .lineFeed => true
  | .carriageReturn, _ | .lineFeed, _ | .control, _ => false
  | _, .carriageReturn | _, .lineFeed | _, .control => false
  | .leading, .leading | .leading, .vowel => true
  | .leading, .openSyllable | .leading, .closedSyllable => true
  | .openSyllable, .vowel | .openSyllable, .trailing => true
  | .vowel, .vowel | .vowel, .trailing => true
  | .closedSyllable, .trailing | .trailing, .trailing => true
  | _, .mark | _, .joiner | _, .spacingMark => true
  | .preposed, _ => true
  | _, .consonant => front.conjunct = .linked
  | .joiner, .pictograph => front.picture = .joined
  | .regional, .regional => front.isHalfFlag
  | _, _ => false

/-- The rest of a cluster whose start has been read, and the clusters behind it. -/
def continueWith (front : Front) : List Char → List Char × List (List Char)
  | [] => ([], [])
  | c :: cs =>
    if front.joins (.ofChar c) then
      let (rest, others) := continueWith (front.push c) cs
      (c :: rest, others)
    else
      let (rest, others) := continueWith (.single c) cs
      ([], (c :: rest) :: others)

end Cluster

def clusters : List Char → List (List Char)
  | [] => []
  | c :: cs =>
    let (rest, others) := Cluster.continueWith (.single c) cs
    (c :: rest) :: others

end BracketScript.Text
