import BracketScript.Proofs.Grammar
import Mathlib.Data.List.Infix

/-!
# Unmatched brackets

An opening bracket is unmatched if no front of the tokens behind it has more closing than opening
brackets. A reader keeps the places of the unmatched brackets of the tokens that it holds back, and
this is so after every row of commands: lines, the end of the text and resets in any order.

`closes` counts the brackets in front of a row of tokens which this row closes. Following the tokens
takes that many places from the stack and puts the unmatched brackets in their stead.
-/

namespace BracketScript

namespace Token

def isOpening (token : Token) : Bool :=
  match token.kind with
  | .opening => true
  | _ => false

def isClosing (token : Token) : Bool :=
  match token.kind with
  | .closing => true
  | _ => false

/-- The tokens close no bracket that stands in front of them. -/
def closesNone (tokens : List Token) : Bool :=
  tokens.inits.all fun front => front.countP isClosing ≤ front.countP isOpening

/-- The places of the opening brackets that no later token closes, in their order. -/
def unmatched : List Token → List Location
  | [] => []
  | token :: tokens =>
    if token.isOpening && closesNone tokens then token.location :: unmatched tokens
    else unmatched tokens

/-- The number of brackets in front of the tokens which they close. -/
def closes : List Token → Nat
  | [] => 0
  | token :: tokens =>
    match token.kind with
    | .opening => closes tokens - 1
    | .closing => closes tokens + 1
    | .leaf _ => closes tokens

theorem closes_le_iff (tokens : List Token) (n : Nat) :
    closes tokens ≤ n ↔
      ∀ front ∈ tokens.inits, front.countP isClosing ≤ front.countP isOpening + n := by
  induction tokens generalizing n with
  | nil => simp [closes]
  | cons token tokens ih =>
    obtain ⟨kind, location⟩ := token
    simp only [List.inits_cons, List.mem_cons, forall_eq_or_imp, List.mem_map,
      forall_exists_index, and_imp, forall_apply_eq_imp_iff₂, List.countP_nil, Nat.zero_le,
      true_and, List.countP_cons]
    cases kind with
    | opening =>
      have hfronts := ih (n + 1)
      simp only [closes, Nat.sub_le_iff_le_add, hfronts, isClosing, isOpening]
      simp only [Bool.false_eq_true, if_false, if_true, Nat.add_zero, Nat.add_assoc,
        Nat.add_comm 1]
    | closing =>
      simp only [closes, isClosing, isOpening, Bool.false_eq_true, if_false, if_true, Nat.add_zero]
      cases n with
      | zero =>
        -- The front with nothing but this closing bracket is the one that fails.
        simp only [Nat.le_zero, Nat.add_eq_zero_iff, Nat.one_ne_zero, and_false, false_iff]
        intro h
        simpa using h [] ((List.mem_inits _ _).2 List.nil_prefix)
      | succ n => simp only [Nat.add_le_add_iff_right, ← Nat.add_assoc, ih n]
    | leaf leaf =>
      simp only [closes, isClosing, isOpening, Bool.false_eq_true, if_false, Nat.add_zero, ih n]

theorem closesNone_iff (tokens : List Token) : closesNone tokens = true ↔ closes tokens = 0 := by
  rw [← Nat.le_zero, closes_le_iff]
  simp [closesNone]

end Token

/-- Following tokens takes the places of the brackets that they close from the stack and puts those
of their unmatched brackets on it. -/
theorem Brackets.opened_of_follow {b after : Brackets} {tokens : List Token}
    (h : b.follow tokens = (after, .none)) :
    after.opened = (Token.unmatched tokens).reverse ++ b.opened.drop (Token.closes tokens) := by
  fun_induction follow b tokens with
  | case1 b =>
    cases h
    simp [Token.unmatched, Token.closes]
  | case2 b token tokens hkind ih =>
    rw [ih h]
    have hopening : token.isOpening = true := by simp [Token.isOpening, hkind]
    by_cases hnone : Token.closesNone tokens = true
    · have hcloses := (Token.closesNone_iff tokens).1 hnone
      simp [Token.unmatched, Token.closes, hkind, hopening, hnone, hcloses]
    · obtain ⟨n, hn⟩ := Nat.exists_eq_succ_of_ne_zero (mt (Token.closesNone_iff tokens).2 hnone)
      simp [Token.unmatched, Token.closes, hkind, hnone, hn]
  | case3 b token tokens hkind place outer hopened ih =>
    rw [ih h, hopened]
    simp [Token.unmatched, Token.closes, Token.isOpening, hkind]
  | case4 b token tokens hkind hopened => cases h
  | case5 b token tokens leaf hkind ih =>
    rw [ih h]
    simp [Token.unmatched, Token.closes, Token.isOpening, hkind]

/-- Where the brackets are matched, the builder fails at nothing but a token outside of all
lists. -/
theorem Tree.cause_of_buildFrom {frames : List Frame} {trees : List Tree} {tokens : List Token}
    {fault : ParseError} (hfollow : (Brackets.ofFrames frames).follow tokens = (.none, .none))
    (h : buildFrom frames trees tokens = .error fault) : fault.cause = .outsideList := by
  fun_induction buildFrom frames trees tokens with
  | case1 trees => cases h
  | case2 trees frame => simp [Brackets.follow, Brackets.ofFrames, Brackets.none] at hfollow
  | case3 trees token tokens frames hkind ih =>
    exact ih (by simpa [Brackets.follow, hkind, Brackets.ofFrames] using hfollow) h
  | case4 trees token tokens hkind =>
    simp [Brackets.follow, hkind, Brackets.ofFrames] at hfollow
  | case5 trees token tokens frame hkind ih =>
    exact ih (by simpa [Brackets.follow, hkind, Brackets.ofFrames] using hfollow) h
  | case6 trees token tokens frame outer others hkind ih =>
    exact ih (by simpa [Brackets.follow, hkind, Brackets.ofFrames, Frame.push] using hfollow) h
  | case7 trees token tokens leaf hkind =>
    cases h
    rfl
  | case8 trees token tokens leaf frame others hkind ih =>
    exact ih (by simpa [Brackets.follow, hkind, Brackets.ofFrames, Frame.push] using hfollow) h

namespace Reader

/-! ### Commands -/

inductive Command where
  | submit (number : Nat) (line : String)
  | complete
  | reset

/-- Carry out a command: the reader after it and what it answers. -/
def perform (r : Reader) : Command → Reader × Except ParseError (List Tree)
  | .submit number line => r.submit number line
  | .complete => (r.complete.1, r.complete.2.map fun _ => [])
  | .reset => (r.reset, .ok [])

def performAll (r : Reader) : List Command → Reader × List (Except ParseError (List Tree))
  | [] => (r, [])
  | command :: commands =>
    let (next, answer) := r.perform command
    let (last, answers) := next.performAll commands
    (last, answer :: answers)

theorem complete_eq (r : Reader) :
    r.complete = r.brackets.opened.head?.elim (r, .ok ()) fun location =>
      (r.reset, .error ⟨.openingUnmatched, location⟩) := by
  rw [complete, Brackets.innermost?]
  cases r.brackets.opened.head? <;> rfl

/-- One command keeps a reader coherent, and where it fails the reader starts afresh. -/
theorem IsCoherent.perform {r : Reader} (hr : r.IsCoherent) (command : Command) :
    (r.perform command).1.IsCoherent ∧ (r.perform command).1.origin = r.origin ∧
      ∀ fault, (r.perform command).2 = .error fault → (r.perform command).1 = new r.origin := by
  cases command with
  | submit number line =>
    rw [Reader.perform]
    rcases hr.submit_cases number line with ⟨fault, hsubmit, -⟩ |
      ⟨next, hsubmit, horigin, hnext, -⟩ | ⟨next, trees, hsubmit, horigin, hnext, -⟩
    · rw [hsubmit]
      exact ⟨isCoherent_new r.origin, rfl, fun _ _ => rfl⟩
    · rw [hsubmit]
      exact ⟨hnext, horigin, fun _ h => by cases h⟩
    · rw [hsubmit]
      exact ⟨hnext, horigin, fun _ h => by cases h⟩
  | complete =>
    rw [Reader.perform, complete_eq]
    cases r.brackets.opened.head? with
    | none => exact ⟨hr, rfl, fun _ h => by cases h⟩
    | some location => exact ⟨isCoherent_new r.origin, rfl, fun _ _ => rfl⟩
  | reset => exact ⟨isCoherent_new r.origin, rfl, fun _ _ => rfl⟩

theorem IsCoherent.performAll {r : Reader} (hr : r.IsCoherent) (commands : List Command) :
    (r.performAll commands).1.IsCoherent ∧ (r.performAll commands).1.origin = r.origin := by
  induction commands generalizing r with
  | nil => exact ⟨hr, rfl⟩
  | cons command commands ih =>
    obtain ⟨hnext, horigin, -⟩ := hr.perform command
    obtain ⟨hlast, hlastOrigin⟩ := ih hnext
    exact ⟨hlast, hlastOrigin.trans horigin⟩

def Command.ofLine (line : Nat × String) : Command :=
  .submit line.1 line.2

def tokensOf (origin : Option String) (lines : List (Nat × String)) : List Token :=
  lines.flatMap fun line => (Token.scan ⟨line.1, origin⟩ line.2).tokens

theorem performAll_append (r : Reader) (front back : List Command) :
    (r.performAll (front ++ back)).1 = ((r.performAll front).1.performAll back).1 := by
  induction front generalizing r with
  | nil => rfl
  | cons command front ih => exact ih (r.perform command).1

theorem IsCoherent.opened_eq {r : Reader} (hr : r.IsCoherent) :
    r.brackets.opened = (Token.unmatched r.held).reverse := by
  simpa [Brackets.none] using Brackets.opened_of_follow hr.follow_held

theorem IsCoherent.held_eq_nil_iff {r : Reader} (hr : r.IsCoherent) :
    r.held = [] ↔ r.isPending = false := by
  rw [isPending, Bool.not_eq_false']
  constructor
  · intro hheld
    rw [Brackets.isBalanced, hr.opened_eq, hheld]
    rfl
  · exact hr.held_eq_nil

/-- Only a line leaves a reader pending, and its tokens are added to those held back. -/
theorem IsCoherent.exists_line_of_isPending {r : Reader} (hr : r.IsCoherent) {command : Command}
    (h : (r.perform command).1.isPending = true) :
    ∃ line, command = .ofLine line ∧
      (r.perform command).1.held = r.held ++ tokensOf r.origin [line] := by
  cases command with
  | submit number line =>
    refine ⟨(number, line), rfl, ?_⟩
    rw [Reader.perform] at h ⊢
    rcases hr.submit_cases number line with ⟨fault, hsubmit, -⟩ |
      ⟨next, hsubmit, -, -, -, hheld⟩ | ⟨next, trees, hsubmit, -, hnext, -, hheld, -⟩
    · rw [hsubmit] at h
      cases h
    · rw [hsubmit, hheld]
      simp [tokensOf]
    · rw [hsubmit, hnext.held_eq_nil_iff.1 hheld] at h
      cases h
  | complete =>
    rw [Reader.perform, complete_eq] at h
    cases hopened : r.brackets.opened with
    | nil => simp [isPending, Brackets.isBalanced, hopened] at h
    | cons place outer =>
      rw [hopened] at h
      cases h
  | reset => cases h

/-- What a reader holds back after commands are the tokens of the lines that were submitted since
no bracket was open. -/
theorem held_of_performAll (origin : Option String) (commands : List Command) :
    ∃ front lines, commands = front ++ lines.map .ofLine ∧
      ((new origin).performAll front).1.isPending = false ∧
      (∀ begun, begun ≠ [] → begun <+: lines →
        ((new origin).performAll (front ++ begun.map .ofLine)).1.isPending = true) ∧
      ((new origin).performAll commands).1.held = tokensOf origin lines := by
  induction commands using List.reverseRecOn with
  | nil => exact ⟨[], [], rfl, rfl, fun _ hbegun h => absurd (List.prefix_nil.1 h) hbegun, rfl⟩
  | append_singleton commands command ih =>
    have hlast : ((new origin).performAll (commands ++ [command])).1 =
        (((new origin).performAll commands).1.perform command).1 :=
      performAll_append _ _ _
    obtain ⟨hr, horigin⟩ := (isCoherent_new origin).performAll commands
    cases hpending : ((new origin).performAll (commands ++ [command])).1.isPending with
    | false =>
      refine ⟨commands ++ [command], [], (List.append_nil _).symm, hpending,
        fun _ hbegun h => absurd (List.prefix_nil.1 h) hbegun, ?_⟩
      exact ((isCoherent_new origin).performAll _).1.held_eq_nil_iff.2 hpending
    | true =>
      obtain ⟨line, rfl, hheld⟩ := hr.exists_line_of_isPending (hlast ▸ hpending)
      obtain ⟨front, lines, rfl, hfront, hbegun, hlines⟩ := ih
      have hcommands : (front ++ lines.map Command.ofLine) ++ [.ofLine line] =
          front ++ (lines ++ [line]).map Command.ofLine := by
        simp
      refine ⟨front, lines ++ [line], hcommands, hfront, fun begun hne h => ?_, ?_⟩
      · rcases List.prefix_concat_iff.1 h with rfl | h
        · rw [← hcommands]
          exact hpending
        · exact hbegun begun hne h
      · rw [hlast, hheld, hlines, show Reader.origin _ = origin from horigin, tokensOf, tokensOf,
          tokensOf, List.flatMap_append]

theorem IsCoherent.complete_eq_error_iff {r : Reader} (hr : r.IsCoherent) (fault : ParseError) :
    r.complete.2 = .error fault ↔
      fault.cause = .openingUnmatched ∧
        (Token.unmatched r.held).getLast? = some fault.location := by
  rw [complete_eq, hr.opened_eq, List.head?_reverse]
  obtain ⟨cause, location⟩ := fault
  cases (Token.unmatched r.held).getLast? with
  | none => simp
  | some place => simp [eq_comm]

theorem isPending_iff (r : Reader) :
    r.isPending = true ↔ ∃ fault, r.complete.2 = .error fault := by
  rw [complete_eq, isPending, Brackets.isBalanced]
  cases r.brackets.opened <;> simp

/-- Where a line closes all brackets, the tokens held back and those of the line are built or have
one that stands outside of all lists. -/
theorem IsCoherent.cause_of_build {r : Reader} (hr : r.IsCoherent) {number : Nat} {line : String}
    {brackets : Brackets} {tokens : List Token} {fault : ParseError}
    (hread : r.brackets.readLine ⟨number, r.origin⟩ line = (brackets, .ok tokens))
    (hbalanced : brackets.isBalanced = true)
    (hbuild : Tree.build (r.held ++ tokens) = .error fault) : fault.cause = .outsideList := by
  rcases hfollow : r.brackets.follow (Token.scan ⟨number, r.origin⟩ line).tokens with
    ⟨after, unmatched⟩
  rw [Brackets.readLine_of_follow hfollow] at hread
  cases unmatched with
  | some fault => cases hread
  | none =>
    cases hscan : (Token.scan ⟨number, r.origin⟩ line).fault with
    | some fault => simp [hscan] at hread
    | none =>
      simp only [hscan, Option.orElse_eq_orElse, Option.orElse_none, Option.elim_none,
        Prod.mk.injEq, Except.ok.injEq] at hread
      obtain ⟨rfl, rfl⟩ := hread
      have hall : (Brackets.ofFrames []).follow
          (r.held ++ (Token.scan ⟨number, r.origin⟩ line).tokens) = (.none, .none) := by
        rw [show Brackets.ofFrames [] = .none from rfl, Brackets.follow_append, hr.follow_held,
          ← eq_none_of_isBalanced hbalanced]
        exact hfollow
      exact Tree.cause_of_buildFrom hall hbuild

end Reader

/-- After any commands, a reader keeps the places of the unmatched brackets of what it holds back,
and it holds something back exactly when it is pending: the tokens of the lines that were submitted
since no bracket was open. The builder can then fail at nothing but a
token outside of all lists, and the end of the text at nothing but an unmatched bracket, of which
the innermost is named. A command that fails leaves a new reader. -/
theorem reader_after_commands (origin : Option String) (commands : List Reader.Command) :
    let r := ((Reader.new origin).performAll commands).1
    r.brackets.opened.reverse = Token.unmatched r.held ∧
    (r.held = [] ↔ r.isPending = false) ∧
    (∃ front lines, commands = front ++ lines.map .ofLine ∧
      ((Reader.new origin).performAll front).1.isPending = false ∧
      (∀ begun, begun ≠ [] → begun <+: lines →
        ((Reader.new origin).performAll (front ++ begun.map .ofLine)).1.isPending = true) ∧
      r.held = Reader.tokensOf origin lines) ∧
    (∀ number line brackets tokens fault,
      r.brackets.readLine ⟨number, origin⟩ line = (brackets, .ok tokens) →
      brackets.isBalanced = true → Tree.build (r.held ++ tokens) = .error fault →
        fault.cause = .outsideList) ∧
    (r.isPending = true ↔ ∃ fault, r.complete.2 = .error fault) ∧
    (∀ fault, r.complete.2 = .error fault ↔
      fault.cause = .openingUnmatched ∧
        (Token.unmatched r.held).getLast? = some fault.location) ∧
    ∀ command fault, (r.perform command).2 = .error fault →
      (r.perform command).1 = .new origin ∧
        ∀ later, (r.perform command).1.performAll later = (Reader.new origin).performAll later := by
  intro r
  obtain ⟨hr, horigin⟩ := (Reader.isCoherent_new origin).performAll commands
  refine ⟨?_, hr.held_eq_nil_iff, Reader.held_of_performAll origin commands, ?_, r.isPending_iff,
    hr.complete_eq_error_iff, ?_⟩
  · rw [hr.opened_eq, List.reverse_reverse]
  · intro number line brackets tokens fault hread
    rw [show origin = r.origin from horigin.symm] at hread
    exact hr.cause_of_build hread
  · intro command fault hfault
    have hnew : (r.perform command).1 = .new origin :=
      ((hr.perform command).2.2 fault hfault).trans (congrArg Reader.new horigin)
    exact ⟨hnew, fun later => by rw [hnew]⟩

-- The first line is complete, and the others are held back.
example :
    let r := ((Reader.new none).performAll [.submit 1 "[a]", .submit 2 "[b [", .submit 3 "c]"]).1
    r.held.map Token.location =
        [⟨2, 1, none⟩, ⟨2, 2, none⟩, ⟨2, 4, none⟩, ⟨3, 1, none⟩, ⟨3, 2, none⟩] ∧
      r.brackets.opened = [⟨2, 1, none⟩] ∧ r.isPending = true := by
  decide +kernel

end BracketScript
