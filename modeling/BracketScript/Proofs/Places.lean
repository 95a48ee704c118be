import BracketScript.Proofs.Unmatched
import BracketScript.Session
import BracketScript.Text.Bytes
import BracketScript.Text.Offset
import Mathlib.Data.List.TakeWhile

/-!
# Places

A location gives a line and a column; `Text.offset?` turns them into a number of bytes. Both count
in their own way: the scanner counts the characters of a line from which the line end was taken
away, and offsets are counted in the whole text. They meet at every token, and at every fault, of
every text that is read at once or typed in a session.

`Token.Divides` describes where a line can be cut so that no token is cut in two. A place points at
a token if the bytes in front of it are those in front of such a cut, and the token stands behind
it.
-/

namespace BracketScript

/-! ### Lines and offsets -/

namespace Text

@[simp] theorem byteSize_append (front back : List Char) :
    byteSize (front ++ back) = byteSize front + byteSize back := by
  induction front with
  | nil => simp [byteSize]
  | cons c front ih => simp [byteSize, ih, Nat.add_assoc]

/-- Nothing stands in front of a line but whole lines. -/
def EndsLine (before : List Char) : Prop :=
  ∀ c ∈ before.getLast?, c = '\n'

/-- A line ends at a newline, with or without a carriage return, or at the end of the text. -/
def BeginsLineEnd : List Char → Prop
  | [] => True
  | c :: rest => c = '\n' ∨ c = '\r' ∧ rest.head? = some '\n'

/-- The characters `line` are a line of a text, between `before` and `behind`. -/
structure IsLine (before line behind : List Char) : Prop where
  starts : EndsLine before
  noBreak : '\n' ∉ line
  ends : BeginsLineEnd behind

def HasLine (text : String) (number : Nat) (line : List Char) : Prop :=
  ∃ before behind, text.toList = before ++ line ++ behind ∧ IsLine before line behind ∧
    number = before.count '\n' + 1

theorem EndsLine.of_cons {c : Char} {before : List Char} (h : EndsLine (c :: before)) :
    EndsLine before := by
  cases before with
  | nil => simp [EndsLine]
  | cons d before => simpa [EndsLine, List.getLast?_cons_cons] using h

theorem endsLine_nil : EndsLine [] := by
  simp [EndsLine]

theorem endsLine_newline (before : List Char) : EndsLine (before ++ ['\n']) := by
  simp [EndsLine]

/-- Skipping the lines in front of a line leaves this line. -/
theorem skipLines_append {before : List Char} (h : EndsLine before) (rest : List Char) :
    skipLines (before.count '\n') (before ++ rest) = some (byteSize before, rest) := by
  induction before with
  | nil => simp [skipLines, byteSize]
  | cons c before ih =>
    have ih := ih h.of_cons
    by_cases hc : c = '\n'
    · subst hc
      simp [skipLines, ih, byteSize, Nat.add_comm]
    · -- The last character is a newline, so that a line is left to be skipped.
      have hcount : (c :: before).count '\n' = before.count '\n' := by
        simp [hc]
      obtain ⟨n, hn⟩ : ∃ n, before.count '\n' = n + 1 := by
        refine Nat.exists_eq_succ_of_ne_zero fun hzero => ?_
        cases hlast : (c :: before).getLast? with
        | none => simp at hlast
        | some d =>
          have hd := h d hlast
          rw [hd] at hlast
          have hmem := List.mem_of_getLast? hlast
          rcases List.mem_cons.1 hmem with hmem | hmem
          · exact hc hmem.symm
          · exact List.count_eq_zero.1 hzero hmem
      rw [hn] at ih
      simp [hcount, hn, skipLines, hc, ih, byteSize, Nat.add_comm]

theorem bytesInLine_append {front : List Char} (h : '\n' ∉ front) (rest : List Char) :
    bytesInLine front.length (front ++ rest) = some (byteSize front) := by
  induction front with
  | nil => simp [bytesInLine, byteSize]
  | cons c front ih =>
    rw [List.mem_cons, not_or] at h
    have hc : c ≠ '\n' := fun hc => h.1 hc.symm
    simp [bytesInLine, hc, ih h.2, byteSize, Nat.add_comm]

/-- The offset of a place in a line. -/
theorem offset?_eq {text : String} {before front rest : List Char}
    (htext : text.toList = before ++ (front ++ rest)) (hbefore : EndsLine before)
    (hfront : '\n' ∉ front) :
    offset? text (before.count '\n' + 1) (front.length + 1) =
      some (byteSize (before ++ front)) := by
  simp [offset?, htext, skipLines_append hbefore, bytesInLine_append hfront]

theorem bytesInLine_append_of_eq_some {count bytes : Nat} {cs : List Char}
    (h : bytesInLine count cs = some bytes) (more : List Char) :
    bytesInLine count (cs ++ more) = some bytes := by
  fun_induction bytesInLine count cs generalizing bytes with
  | case1 cs => simpa [bytesInLine] using h
  | case2 count => cases h
  | case3 count cs => cases h
  | case4 count c cs hc ih =>
    obtain ⟨n, hn, rfl⟩ := Option.map_eq_some_iff.1 h
    simp [bytesInLine, hc, ih hn]

theorem skipLines_append_of_eq_some {count bytes : Nat} {cs after : List Char}
    (h : skipLines count cs = some (bytes, after)) (more : List Char) :
    skipLines count (cs ++ more) = some (bytes, after ++ more) := by
  induction cs generalizing count bytes with
  | nil =>
    cases count with
    | zero =>
      cases h
      rw [skipLines]
    | succ count => cases h
  | cons c cs ih =>
    cases count with
    | zero =>
      cases h
      rw [skipLines]
    | succ count =>
      obtain ⟨⟨n, rest⟩, hn, heq⟩ := Option.map_eq_some_iff.1 h
      cases heq
      rw [List.cons_append, skipLines]
      split at hn <;> simp [*]

/-- What a text has already is not moved by what is added to it. -/
theorem offset?_append {text : String} {line column bytes : Nat}
    (h : offset? text line column = some bytes) (more : String) :
    offset? (text ++ more) line column = some bytes := by
  cases line with
  | zero => cases h
  | succ count =>
    simp only [offset?, Option.bind_eq_bind, Option.bind_eq_some_iff] at h ⊢
    obtain ⟨⟨n, rest⟩, hskip, m, hm, hbytes⟩ := h
    refine ⟨(n, rest ++ more.toList), ?_, m, bytesInLine_append_of_eq_some hm _, hbytes⟩
    rw [String.toList_append]
    exact skipLines_append_of_eq_some hskip _

theorem beginsLineEnd_newline (rest : List Char) : BeginsLineEnd ('\n' :: rest) :=
  .inl rfl

/-- The characters of a line that was ended by a newline, and what is left of them in the text. -/
theorem exists_lineEnd (collected rest : List Char) :
    ∃ lineEnd, collected.reverse ++ '\n' :: rest = endLine collected ++ lineEnd ∧
      BeginsLineEnd lineEnd := by
  rw [endLine.eq_def]
  split
  · next collected =>
    exact ⟨'\r' :: '\n' :: rest, by simp, .inr ⟨rfl, rfl⟩⟩
  · exact ⟨'\n' :: rest, rfl, beginsLineEnd_newline rest⟩

theorem mem_of_mem_endLine {collected : List Char} {c : Char} (h : c ∈ endLine collected) :
    c ∈ collected := by
  rw [endLine.eq_def] at h
  split at h <;> simp_all

/-- The lines that are still to come, where the first one has begun, are lines of the text. -/
theorem hasLine_of_linesFrom {text : String} {before collected cs : List Char}
    (htext : text.toList = before ++ (collected.reverse ++ cs)) (hbefore : EndsLine before)
    (hcollected : '\n' ∉ collected) {i : Nat} {line : List Char}
    (hline : (linesFrom collected cs)[i]? = some line) :
    HasLine text (before.count '\n' + 1 + i) line := by
  induction cs generalizing before collected i with
  | nil =>
    rw [linesFrom] at hline
    split at hline
    · simp at hline
    · obtain ⟨rfl, rfl⟩ : i = 0 ∧ collected.reverse = line := by
        cases i <;> simp_all
      exact ⟨before, [], by simpa using htext, ⟨hbefore, by simpa using hcollected, trivial⟩, rfl⟩
  | cons c cs ih =>
    rw [linesFrom] at hline
    split at hline
    · next hc =>
      subst hc
      cases i with
      | zero =>
        rw [List.getElem?_cons_zero, Option.some.injEq] at hline
        subst hline
        obtain ⟨lineEnd, heq, hend⟩ := exists_lineEnd collected cs
        refine ⟨before, lineEnd, by rw [htext, heq, List.append_assoc],
          ⟨hbefore, fun hmem => hcollected (mem_of_mem_endLine hmem), hend⟩, rfl⟩
      | succ i =>
        rw [List.getElem?_cons_succ] at hline
        have hwhole :
            text.toList = (before ++ collected.reverse ++ ['\n']) ++ ([].reverse ++ cs) := by
          simp [htext]
        have hnone : collected.reverse.count '\n' = 0 := by
          simpa [List.count_eq_zero] using hcollected
        have hrest := ih hwhole (endsLine_newline _) (List.not_mem_nil) hline
        have hnumber : (before ++ collected.reverse ++ ['\n']).count '\n' + 1 + i =
            before.count '\n' + 1 + (i + 1) := by
          simp only [List.count_append, hnone, List.count_singleton_self]
          omega
        rwa [hnumber] at hrest
    · next hc =>
      refine ih (by simp [htext]) hbefore ?_ hline
      rw [List.mem_cons, not_or]
      exact ⟨fun h => hc h.symm, hcollected⟩

/-- The lines into which a text is divided are lines of it. -/
theorem hasLine_of_lines (text : String) (i : Nat) (line : String)
    (h : (lines text)[i]? = some line) : HasLine text (1 + i) line.toList := by
  rw [lines, List.getElem?_map, Option.map_eq_some_iff] at h
  obtain ⟨cs, hcs, rfl⟩ := h
  have hwhole : text.toList = [] ++ ([].reverse ++ text.toList) := rfl
  simpa using hasLine_of_linesFrom hwhole endsLine_nil List.not_mem_nil hcs

end Text

/-! ### Tokens in a line -/

namespace Token

/-- The characters `lexeme` are a token of the given kind in front of `rest`. -/
inductive Lexeme : (lexeme rest : List Char) → Kind → Prop
  | opening (rest : List Char) : Lexeme ['['] rest .opening
  | closing (rest : List Char) : Lexeme [']'] rest .closing
  | string {quoted text rest : List Char} : Text.readQuoted (quoted ++ rest) = .ok (text, rest) →
      Lexeme ('"' :: quoted) rest (.leaf (.string (String.ofList text)))
  | word {word rest : List Char} {leaf : Leaf} : word ≠ [] → (∀ c ∈ word, isWordChar c = true) →
      (∀ c ∈ rest.head?, isDelimiter c = true) → leafOfWord word = .ok leaf →
        Lexeme word rest (.leaf leaf)

/-- Between the two parts of a line, no token is cut in two. -/
inductive Divides : (front back : List Char) → Prop
  | start (line : List Char) : Divides [] line
  | blank {front back : List Char} {c : Char} : Divides front (c :: back) →
      Text.isBlank c = true → Divides (front ++ [c]) back
  | lexeme {front lexeme back : List Char} {kind : Kind} : Divides front (lexeme ++ back) →
      Lexeme lexeme back kind → Divides (front ++ lexeme) back

def Kind.Begins (kind : Kind) (back : List Char) : Prop :=
  ∃ lexeme rest, back = lexeme ++ rest ∧ Lexeme lexeme rest kind

end Token

/-- What is at fault for this cause stands in front: a word that is no numeral, a string that the
line does not close, or a token that the rest of the text does not allow. -/
def ParseError.Cause.Begins (cause : Cause) (back : List Char) : Prop :=
  match cause with
  | .closingUnmatched => Token.Kind.closing.Begins back
  | .openingUnmatched => Token.Kind.opening.Begins back
  | .outsideList => ∃ leaf, (Token.Kind.leaf leaf).Begins back
  | .malformedNumeral _ | .integerTooLarge =>
    Token.leafOfWord (back.takeWhile Token.isWordChar) = .error cause
  | .stringUnclosed | .escapeUnclosed =>
    ∃ rest e, back = '"' :: rest ∧ Text.readQuoted rest = .error e ∧ Token.unclosedCause e = cause

/-- In the line, what has this property begins at this place. -/
def Line.Meets (number : Line) (line : List Char) (what : List Char → Prop) (place : Location) :
    Prop :=
  ∃ front back, line = front ++ back ∧ Token.Divides front back ∧ what back ∧
    place = number.locate (front.length + 1)

structure Scan.StandsIn (scan : Scan) (number : Line) (line : List Char) : Prop where
  tokens : ∀ token ∈ scan.tokens, number.Meets line token.kind.Begins token.location
  fault : ∀ fault ∈ scan.fault, number.Meets line fault.cause.Begins fault.location

namespace Token

theorem begins_of_leafOfWord_eq_error {back : List Char} {cause : ParseError.Cause}
    (h : leafOfWord (back.takeWhile isWordChar) = .error cause) : cause.Begins back := by
  have hcause : (∃ word, cause = .malformedNumeral word) ∨ cause = .integerTooLarge := by
    have h := h
    rw [leafOfWord] at h
    split at h
    · split at h
      · rw [leafOfNumeral] at h
        split at h
        · cases h
        · split at h <;> cases h
          exact .inr rfl
      · cases h
        exact .inl ⟨_, rfl⟩
    · cases h
  rcases hcause with ⟨word, rfl⟩ | rfl <;> exact h

theorem begins_of_readQuoted_eq_error {rest : List Char} {e : Text.Unclosed}
    (h : Text.readQuoted rest = .error e) : (unclosedCause e).Begins ('"' :: rest) := by
  cases e <;> exact ⟨rest, _, rfl, h, rfl⟩

/-- What follows a quoted text is the end of what was read. -/
theorem exists_quoted {cs text after : List Char}
    (h : Text.readQuoted cs = .ok (text, after)) : ∃ quoted, cs = quoted ++ after := by
  fun_induction Text.readQuoted cs generalizing text with
  | case1 => cases h
  | case2 rest =>
    cases h
    exact ⟨['"'], rfl⟩
  | case3 => cases h
  | case4 c rest text' after' hr ih =>
    cases h
    obtain ⟨quoted, rfl⟩ := ih hr
    exact ⟨'\\' :: c :: quoted, rfl⟩
  | case5 c rest e hr ih => cases h
  | case6 c rest _ _ _ text' after' hr ih =>
    cases h
    obtain ⟨quoted, rfl⟩ := ih hr
    exact ⟨c :: quoted, rfl⟩
  | case7 c rest _ _ _ e hr ih => cases h

/-- A word reaches up to the next delimiter. -/
theorem lexeme_word {c : Char} {rest : List Char} {leaf : Leaf} (hc : isWordChar c = true)
    (h : leafOfWord (c :: rest.takeWhile isWordChar) = .ok leaf) :
    Lexeme (c :: rest.takeWhile isWordChar) (rest.dropWhile isWordChar) (.leaf leaf) := by
  refine .word (by simp) ?_ (fun d hd => ?_) h
  · rintro d (_ | ⟨_, hd⟩)
    · exact hc
    · exact List.mem_takeWhile_imp hd
  · have hnot := List.head?_dropWhile_not isWordChar rest
    rw [Option.mem_def] at hd
    rw [hd] at hnot
    simpa [isWordChar] using hnot

/-- A character that is none of the marks of the scanner stands in a word. -/
theorem isWordChar_of_ne {c : Char} (hcomment : c ≠ ';') (hblank : ¬Text.isBlank c = true)
    (hopening : c ≠ '[') (hclosing : c ≠ ']') (hquote : c ≠ '"') : isWordChar c = true := by
  simp [isWordChar, isDelimiter, *]

variable {number : Line} {line : List Char}

theorem standsIn_empty : Scan.empty.StandsIn number line :=
  ⟨by simp [Scan.empty], by simp [Scan.empty]⟩

theorem standsIn_faulty {cause : ParseError.Cause} {place : Location}
    (h : number.Meets line cause.Begins place) :
    (Scan.faulty cause place).StandsIn number line := by
  refine ⟨by simp [Scan.faulty], fun fault hfault => ?_⟩
  cases hfault
  exact h

theorem standsIn_cons {token : Token} {scan : Scan}
    (htoken : number.Meets line token.kind.Begins token.location)
    (h : scan.StandsIn number line) : (scan.cons token).StandsIn number line := by
  refine ⟨fun other hother => ?_, h.fault⟩
  rcases List.mem_cons.1 hother with rfl | hother
  · exact htoken
  · exact h.tokens other hother

/-- A token in front of what is left of the line, and then whatever the scanner finds. -/
theorem standsIn_token {column : Nat} {front lexeme rest : List Char} {kind : Kind} {scan : Scan}
    (hline : line = front ++ (lexeme ++ rest)) (hdivides : Divides front (lexeme ++ rest))
    (hcolumn : column = front.length + 1) (hlexeme : Lexeme lexeme rest kind)
    (h : scan.StandsIn number line) :
    (scan.cons ⟨kind, number.locate column⟩).StandsIn number line :=
  standsIn_cons ⟨front, _, hline, hdivides, ⟨lexeme, rest, rfl, hlexeme⟩, by rw [hcolumn]⟩ h

/-- The scanner is right about where the tokens of a line begin, and its fault. -/
theorem standsIn_scanFrom {column : Nat} {front cs : List Char} (hline : line = front ++ cs)
    (hdivides : Divides front cs) (hcolumn : column = front.length + 1) :
    (scanFrom number column cs).StandsIn number line := by
  fun_induction scanFrom number column cs generalizing front with
  | case1 => exact standsIn_empty
  | case2 => exact standsIn_empty
  | case3 column c rest _ hblank ih =>
    exact ih (by simp [hline]) (hdivides.blank hblank) (by simp [hcolumn])
  | case4 column rest _ _ ih =>
    have hlexeme := Lexeme.opening rest
    refine standsIn_token hline hdivides hcolumn hlexeme ?_
    exact ih (by simp [hline]) (hdivides.lexeme hlexeme) (by simp [hcolumn])
  | case5 column rest _ _ _ ih =>
    have hlexeme := Lexeme.closing rest
    refine standsIn_token hline hdivides hcolumn hlexeme ?_
    exact ih (by simp [hline]) (hdivides.lexeme hlexeme) (by simp [hcolumn])
  | case6 column rest text after hquoted _ _ _ _ _ ih =>
    obtain ⟨quoted, rfl⟩ := exists_quoted hquoted
    have hlexeme := Lexeme.string hquoted
    refine standsIn_token hline hdivides hcolumn hlexeme ?_
    refine ih (by simp [hline]) (hdivides.lexeme hlexeme) ?_
    simp only [hcolumn, List.length_append, List.length_cons]
    omega
  | case7 column rest e hquoted =>
    exact standsIn_faulty
      ⟨front, _, hline, hdivides, begins_of_readQuoted_eq_error hquoted, by rw [hcolumn]⟩
  | case8 column c rest hcomment hblank hopening hclosing hquote word leaf hleaf _ =>
    rename_i ih
    have hc := isWordChar_of_ne hcomment hblank hopening hclosing hquote
    have hrest : c :: rest = word ++ rest.dropWhile isWordChar := by
      rw [List.cons_append, List.takeWhile_append_dropWhile]
    have hlexeme := lexeme_word hc hleaf
    rw [hrest] at hline hdivides
    refine standsIn_token hline hdivides hcolumn hlexeme ?_
    refine ih (by rw [hline, List.append_assoc]) (hdivides.lexeme hlexeme) ?_
    rw [hcolumn, List.length_append]
    omega
  | case9 column c rest hcomment hblank hopening hclosing hquote word cause =>
    rename_i hcause
    have hc := isWordChar_of_ne hcomment hblank hopening hclosing hquote
    have hword : (c :: rest).takeWhile isWordChar = word := List.takeWhile_cons_of_pos hc
    exact standsIn_faulty ⟨front, _, hline, hdivides,
      begins_of_leafOfWord_eq_error (by rw [hword, hcause]), by rw [hcolumn]⟩

theorem standsIn_scan (number : Line) (line : String) :
    (scan number line).StandsIn number line.toList :=
  standsIn_scanFrom rfl (.start _) rfl

/-- The tokens stand one behind the other, and none in front of the column. -/
structure AscendFrom (column : Nat) (tokens : List Token) : Prop where
  le_column : ∀ token ∈ tokens, column ≤ token.location.column
  sorted : tokens.Pairwise (·.location.column < ·.location.column)

theorem AscendFrom.nil (column : Nat) : AscendFrom column [] :=
  ⟨by simp, .nil⟩

theorem AscendFrom.cons {column next : Nat} {kind : Kind} {scan : Scan}
    (h : AscendFrom next scan.tokens) (hnext : column < next) :
    AscendFrom column (scan.cons ⟨kind, number.locate column⟩).tokens where
  le_column := by
    rintro other (_ | ⟨_, hother⟩)
    · exact Nat.le_refl _
    · exact Nat.le_of_lt (Nat.lt_of_lt_of_le hnext (h.le_column other hother))
  sorted := List.pairwise_cons.2
    ⟨fun other hother => Nat.lt_of_lt_of_le hnext (h.le_column other hother), h.sorted⟩

theorem ascendFrom_scanFrom (number : Line) (column : Nat) (cs : List Char) :
    AscendFrom column (scanFrom number column cs).tokens := by
  fun_induction scanFrom number column cs with
  | case1 => exact .nil _
  | case2 => exact .nil _
  | case3 column c rest _ _ ih =>
    exact ⟨fun token htoken => Nat.le_of_succ_le (ih.le_column token htoken), ih.sorted⟩
  | case4 column rest _ _ ih => exact ih.cons (Nat.lt_succ_self column)
  | case5 column rest _ _ _ ih => exact ih.cons (Nat.lt_succ_self column)
  | case6 column rest text after _ _ _ _ _ _ ih =>
    exact ih.cons (Nat.lt_add_right _ (Nat.lt_succ_self column))
  | case7 => exact .nil _
  | case8 =>
    rename_i ih
    exact ih.cons (Nat.lt_add_of_pos_right (Nat.succ_pos _))
  | case9 => exact .nil _

end Token

/-! ### Places in a text -/

/-- The place belongs to the text named `origin`, it lies between two tokens of a line, and what
stands behind it there has the property. The offset of the place counts the bytes in front of it. -/
def Location.PointsAt (place : Location) (origin : Option String) (text : String)
    (what : List Char → Prop) : Prop :=
  place.origin = origin ∧ ∃ before front back behind,
    text.toList = before ++ (front ++ back) ++ behind ∧ Text.IsLine before (front ++ back) behind ∧
      Token.Divides front back ∧ what back ∧
        Text.offset? text place.line place.column = some (Text.byteSize (before ++ front))

/-- The one place comes before the other in a text. -/
def Location.Precedes (place other : Location) : Prop :=
  place.line < other.line ∨ place.line = other.line ∧ place.column < other.column

def Token.PointsIn (token : Token) (origin : Option String) (text : String) : Prop :=
  token.location.PointsAt origin text token.kind.Begins

def ParseError.PointsIn (fault : ParseError) (origin : Option String) (text : String) : Prop :=
  fault.location.PointsAt origin text fault.cause.Begins

/-- The brackets and atoms of the trees are tokens of the text, in their order. -/
def Tree.PointIn (trees : List Tree) (origin : Option String) (text : String) : Prop :=
  ∃ tokens : List Token, marksAll trees = tokens.map Token.mark ∧
    (∀ token ∈ tokens, token.PointsIn origin text) ∧
      tokens.Pairwise (·.location.Precedes ·.location)

theorem Tree.pointIn_nil (origin : Option String) (text : String) : PointIn [] origin text :=
  ⟨[], rfl, by simp, .nil⟩

theorem Line.Meets.pointsAt {number : Line} {text : String} {line : List Char}
    {what : List Char → Prop} {place : Location} (h : number.Meets line what place)
    (hline : Text.HasLine text number.number line) : place.PointsAt number.origin text what := by
  obtain ⟨before, behind, htext, hisLine, hnumber⟩ := hline
  obtain ⟨front, back, rfl, hdivides, hwhat, rfl⟩ := h
  refine ⟨rfl, before, front, back, behind, htext, hisLine, hdivides, hwhat, ?_⟩
  have hfront : '\n' ∉ front := fun h => hisLine.noBreak (List.mem_append_left back h)
  rw [Line.locate, hnumber]
  exact Text.offset?_eq (by simpa using htext) hisLine.starts hfront

theorem Token.line_of_scan {number : Line} {line : String} {token : Token}
    (h : token ∈ (scan number line).tokens) : token.location.line = number.number := by
  obtain ⟨front, back, -, -, -, hplace⟩ := (standsIn_scan number line).tokens token h
  rw [hplace]
  rfl

theorem Token.precedes_scan (number : Line) (line : String) :
    (scan number line).tokens.Pairwise (·.location.Precedes ·.location) := by
  refine (ascendFrom_scanFrom number 1 line.toList).sorted.imp_of_mem fun htoken hother hlt => ?_
  exact .inr ⟨(line_of_scan htoken).trans (line_of_scan hother).symm, hlt⟩

theorem Location.PointsAt.imp {place : Location} {origin : Option String} {text : String}
    {what what' : List Char → Prop} (himp : ∀ back, what back → what' back)
    (h : place.PointsAt origin text what) : place.PointsAt origin text what' := by
  obtain ⟨horigin, before, front, back, behind, htext, hline, hdivides, hback, hoffset⟩ := h
  exact ⟨horigin, before, front, back, behind, htext, hline, hdivides, himp back hback, hoffset⟩

/-! ### Tokens that are at fault -/

/-- The token is what the reader complains about. -/
inductive Token.Explains (token : Token) : ParseError → Prop
  | opening : token.kind = .opening → Explains token ⟨.openingUnmatched, token.location⟩
  | closing : token.kind = .closing → Explains token ⟨.closingUnmatched, token.location⟩
  | leaf {leaf : Leaf} : token.kind = .leaf leaf → Explains token ⟨.outsideList, token.location⟩

theorem Token.Explains.pointsIn {token : Token} {fault : ParseError} {origin : Option String}
    {text : String} (h : token.Explains fault) (htoken : token.PointsIn origin text) :
    fault.PointsIn origin text := by
  rw [Token.PointsIn] at htoken
  cases h with
  | opening hkind =>
    rw [hkind] at htoken
    exact htoken
  | closing hkind =>
    rw [hkind] at htoken
    exact htoken
  | leaf hkind =>
    rw [hkind] at htoken
    exact htoken.imp fun _ hback => ⟨_, hback⟩

theorem Brackets.exists_explains_of_follow {b after : Brackets} {tokens : List Token}
    {fault : ParseError} (h : b.follow tokens = (after, some fault)) :
    ∃ token ∈ tokens, token.Explains fault := by
  fun_induction follow b tokens with
  | case1 b => cases h
  | case2 b token tokens hkind ih => exact List.exists_mem_cons_of_exists (ih h)
  | case3 b token tokens hkind place outer hopened ih =>
    exact List.exists_mem_cons_of_exists (ih h)
  | case4 b token tokens hkind hopened =>
    cases h
    exact ⟨token, List.mem_cons_self, .closing hkind⟩
  | case5 b token tokens leaf hkind ih => exact List.exists_mem_cons_of_exists (ih h)

/-- The builder complains about one of its tokens, or about an open list. -/
theorem Tree.exists_explains_of_buildFrom {frames : List Frame} {trees : List Tree}
    {tokens row : List Token} {fault : ParseError} (hrow : ∀ token ∈ tokens, token ∈ row)
    (hframes : ∀ place ∈ frames.map Frame.location,
      ∃ token ∈ row, token.Explains ⟨.openingUnmatched, place⟩)
    (h : buildFrom frames trees tokens = .error fault) : ∃ token ∈ row, token.Explains fault := by
  fun_induction buildFrom frames trees tokens with
  | case1 trees => cases h
  | case2 trees frame others =>
    cases h
    exact hframes frame.location List.mem_cons_self
  | case3 trees token tokens frames hkind ih =>
    obtain ⟨htoken, hrow⟩ := List.forall_mem_cons.1 hrow
    exact ih hrow (List.forall_mem_cons.2 ⟨⟨token, htoken, .opening hkind⟩, hframes⟩) h
  | case4 trees token tokens hkind =>
    cases h
    exact ⟨token, hrow token List.mem_cons_self, .closing hkind⟩
  | case5 trees token tokens frame hkind ih =>
    exact ih (List.forall_mem_cons.1 hrow).2 (by simp) h
  | case6 trees token tokens frame outer others hkind ih =>
    exact ih (List.forall_mem_cons.1 hrow).2 (List.forall_mem_cons.1 hframes).2 h
  | case7 trees token tokens leaf hkind =>
    cases h
    exact ⟨token, hrow token List.mem_cons_self, .leaf hkind⟩
  | case8 trees token tokens leaf frame others hkind ih =>
    exact ih (List.forall_mem_cons.1 hrow).2 hframes h

theorem Token.exists_explains_of_mem_unmatched {tokens : List Token} {place : Location}
    (h : place ∈ unmatched tokens) :
    ∃ token ∈ tokens, token.Explains ⟨.openingUnmatched, place⟩ := by
  induction tokens with
  | nil => simp [unmatched] at h
  | cons token tokens ih =>
    rw [unmatched] at h
    split at h
    · next hopening =>
      rcases List.mem_cons.1 h with rfl | h
      · refine ⟨token, List.mem_cons_self, .opening ?_⟩
        obtain ⟨kind, place⟩ := token
        cases kind <;> simp_all [isOpening]
      · exact List.exists_mem_cons_of_exists (ih h)
    · exact List.exists_mem_cons_of_exists (ih h)

namespace Reader

variable {r : Reader} {text : String} {number : Nat} {line : String} {fault : ParseError}

/-- A line is at fault by itself, or for one of the tokens that it has or that were held back. -/
theorem exists_explains_of_submit (h : (r.submit number line).2 = .error fault) :
    (Token.scan ⟨number, r.origin⟩ line).fault = some fault ∨
      ∃ token ∈ r.held ++ (Token.scan ⟨number, r.origin⟩ line).tokens, token.Explains fault := by
  rcases hfollow : r.brackets.follow (Token.scan ⟨number, r.origin⟩ line).tokens with
    ⟨after, unmatched⟩
  have hread := Brackets.readLine_of_follow hfollow
  cases unmatched with
  | some other =>
    right
    obtain rfl : other = fault := by simpa [submit, hread] using h
    obtain ⟨token, htoken, hexplains⟩ := Brackets.exists_explains_of_follow hfollow
    exact ⟨token, List.mem_append_right _ htoken, hexplains⟩
  | none =>
    cases hscan : (Token.scan ⟨number, r.origin⟩ line).fault with
    | some other =>
      left
      simpa [submit, hread, hscan] using h
    | none =>
      right
      simp only [submit, hread, hscan, Option.orElse_eq_orElse, Option.orElse_none,
        Option.elim_none] at h
      split at h
      · cases h
      · split at h
        · cases h
        · next hbuild =>
          cases h
          refine Tree.exists_explains_of_buildFrom (fun token htoken => ?_) (by simp) hbuild
          simpa [held] using htoken

theorem IsCoherent.exists_explains_of_complete (hr : r.IsCoherent)
    (h : r.complete.2 = .error fault) : ∃ token ∈ r.held, token.Explains fault := by
  obtain ⟨hcause, hlast⟩ := (hr.complete_eq_error_iff fault).1 h
  obtain ⟨cause, place⟩ := fault
  cases hcause
  exact Token.exists_explains_of_mem_unmatched (List.mem_of_getLast? hlast)

/-! ### Readers -/

/-- What the reader holds back stands in the text above the line with the given number. -/
structure StandsIn (r : Reader) (text : String) (number : Nat) : Prop where
  coherent : r.IsCoherent
  points : ∀ token ∈ r.held, token.PointsIn r.origin text
  above : ∀ token ∈ r.held, token.location.line < number
  sorted : r.held.Pairwise (·.location.Precedes ·.location)

theorem standsIn_new (origin : Option String) (text : String) (number : Nat) :
    (new origin).StandsIn text number :=
  ⟨isCoherent_new origin, by simp [held, new], by simp [held, new], .nil⟩

/-- The tokens that are held back and those of a line of the text. -/
theorem StandsIn.row (hr : r.StandsIn text number) (hline : Text.HasLine text number line.toList) :
    let row := r.held ++ (Token.scan ⟨number, r.origin⟩ line).tokens
    (∀ token ∈ row, token.PointsIn r.origin text) ∧
      (∀ token ∈ row, token.location.line < number + 1) ∧
        row.Pairwise (·.location.Precedes ·.location) := by
  have hscan := Token.standsIn_scan ⟨number, r.origin⟩ line
  refine ⟨fun token htoken => ?_, fun token htoken => ?_, ?_⟩
  · rcases List.mem_append.1 htoken with htoken | htoken
    · exact hr.points token htoken
    · exact (hscan.tokens token htoken).pointsAt hline
  · rcases List.mem_append.1 htoken with htoken | htoken
    · exact Nat.lt_succ_of_lt (hr.above token htoken)
    · rw [Token.line_of_scan htoken]
      exact Nat.lt_succ_self number
  · refine List.pairwise_append.2 ⟨hr.sorted, Token.precedes_scan _ _, fun token htoken => ?_⟩
    intro other hother
    left
    rw [Token.line_of_scan hother]
    exact hr.above token htoken

/-- One line keeps what is held back in the text, and hands out trees and faults of the text. -/
theorem StandsIn.submit (hr : r.StandsIn text number)
    (hline : Text.HasLine text number line.toList) :
    (r.submit number line).1.StandsIn text (number + 1) ∧
      (r.submit number line).1.origin = r.origin ∧
      (∀ trees, (r.submit number line).2 = .ok trees → Tree.PointIn trees r.origin text) ∧
      ∀ fault, (r.submit number line).2 = .error fault → fault.PointsIn r.origin text := by
  obtain ⟨hpoints, habove, hsorted⟩ := hr.row hline
  have hfault : ∀ fault, (r.submit number line).2 = .error fault →
      fault.PointsIn r.origin text := by
    intro fault herror
    rcases exists_explains_of_submit herror with hscan | ⟨token, htoken, hexplains⟩
    · exact ((Token.standsIn_scan ⟨number, r.origin⟩ line).fault fault hscan).pointsAt hline
    · exact hexplains.pointsIn (hpoints token htoken)
  rcases hr.coherent.submit_cases number line with ⟨fault, hsubmit, -⟩ |
    ⟨next, hsubmit, horigin, hnext, -, hheld⟩ |
    ⟨next, trees, hsubmit, horigin, hnext, -, hheld, hbuild, -⟩
  · rw [hsubmit]
    refine ⟨standsIn_new _ _ _, rfl, fun _ h => (by cases h), ?_⟩
    rwa [hsubmit] at hfault
  · rw [hsubmit] at hfault ⊢
    refine ⟨⟨hnext, ?_, ?_, ?_⟩, horigin, fun trees htrees => ?_, hfault⟩
    · rwa [hheld, horigin]
    · rwa [hheld]
    · rwa [hheld]
    · cases htrees
      exact Tree.pointIn_nil _ text
  · rw [hsubmit] at hfault ⊢
    refine ⟨⟨hnext, ?_, ?_, ?_⟩, horigin, fun others htrees => ?_, hfault⟩
    · simp [hheld]
    · simp [hheld]
    · simp [hheld]
    · cases htrees
      exact ⟨_, (Tree.build_eq_ok_iff.1 hbuild).2, hpoints, hsorted⟩

theorem StandsIn.complete (hr : r.StandsIn text number) (h : r.complete.2 = .error fault) :
    fault.PointsIn r.origin text := by
  obtain ⟨token, htoken, hexplains⟩ := hr.coherent.exists_explains_of_complete h
  exact hexplains.pointsIn (hr.points token htoken)

/-- A reader that fails on the remaining lines of a text fails at a place of this text. -/
theorem StandsIn.finish {lines : List String} (hr : r.StandsIn text number)
    (hlines : ∀ i line, lines[i]? = some line → Text.HasLine text (number + i) line.toList)
    (h : r.finish number lines = .error fault) : fault.PointsIn r.origin text := by
  induction lines generalizing r number with
  | nil =>
    rw [finish] at h
    split at h
    · cases h
    · next hcomplete =>
      cases h
      exact hr.complete (congrArg Prod.snd hcomplete)
  | cons line lines ih =>
    obtain ⟨hnext, horigin, -, hfault⟩ := hr.submit (hlines 0 line rfl)
    rw [finish] at h
    split at h
    · next hsubmit =>
      cases h
      exact hfault _ (congrArg Prod.snd hsubmit)
    · next next trees hsubmit =>
      rw [hsubmit] at hnext horigin
      split at h
      · cases h
      · next hfinish =>
        cases h
        rw [← horigin]
        refine ih hnext (fun i other hother => ?_) hfinish
        rw [Nat.add_right_comm]
        exact hlines (i + 1) other hother

end Reader

theorem Token.pointsIn_scans {origin : Option String} {text : String} {number : Nat}
    {lines : List String}
    (hlines : ∀ i line, lines[i]? = some line → Text.HasLine text (number + i) line.toList) :
    let tokens := (scans origin number lines).flatMap Scan.tokens
    (∀ token ∈ tokens, token.PointsIn origin text) ∧
      (∀ token ∈ tokens, number ≤ token.location.line) ∧
        tokens.Pairwise (·.location.Precedes ·.location) := by
  induction lines generalizing number with
  | nil => exact ⟨by simp [scans], by simp [scans], .nil⟩
  | cons line lines ih =>
    have hrest : ∀ i other, lines[i]? = some other →
        Text.HasLine text (number + 1 + i) other.toList := by
      intro i other hother
      rw [Nat.add_right_comm]
      exact hlines (i + 1) other hother
    obtain ⟨hpoints, hbelow, hsorted⟩ := ih hrest
    have hscan := standsIn_scan ⟨number, origin⟩ line
    simp only [scans, List.flatMap_cons, List.forall_mem_append]
    refine ⟨⟨fun token htoken => ?_, hpoints⟩, ⟨fun token htoken => ?_, fun token htoken => ?_⟩, ?_⟩
    · exact (hscan.tokens token htoken).pointsAt (hlines 0 line rfl)
    · exact Nat.le_of_eq (line_of_scan htoken).symm
    · exact Nat.le_of_succ_le (hbelow token htoken)
    · refine List.pairwise_append.2 ⟨precedes_scan _ _, hsorted, fun token htoken => ?_⟩
      intro other hother
      left
      rw [line_of_scan htoken]
      exact hbelow other hother

/-- The trees of a text and its fault point into the text. -/
theorem pointsIn_of_parse (origin : Option String) (text : String) :
    (∀ trees, parse origin text = .ok trees → Tree.PointIn trees origin text) ∧
      ∀ fault, parse origin text = .error fault → fault.PointsIn origin text := by
  have hlines := Text.hasLine_of_lines text
  refine ⟨fun trees h => ?_, fun fault h => ?_⟩
  · obtain ⟨hpoints, -, hsorted⟩ := Token.pointsIn_scans hlines
    exact ⟨_, (Tree.build_eq_ok_iff.1 (parse_eq_ok_iff.1 h).2).2, hpoints, hsorted⟩
  · exact (Reader.standsIn_new origin text 1).finish hlines h

/-! ### Sessions -/

namespace Session

def Request.trees : Request → List Tree
  | .evaluate trees => trees
  | _ => []

def Request.fault? : Request → Option ParseError
  | .fault error => some error
  | _ => none

def after (session : Session) (lines : List String) : Session :=
  lines.foldl (fun session line => (session.read line).1) session

/-- A line ends the session, or it is read and kept in the transcript. -/
theorem read_cases (session : Session) (line : String) :
    session.read line = (session, .quit) ∨
      ((session.read line).1 =
          ⟨(session.reader.submit (session.count + 1) line).1, session.count + 1,
            session.transcript ++ line ++ "\n"⟩ ∧
        ((session.read line).2.trees = [] ∨
          (session.reader.submit (session.count + 1) line).2 = .ok (session.read line).2.trees) ∧
        ∀ fault ∈ (session.read line).2.fault?,
          (session.reader.submit (session.count + 1) line).2 = .error fault) := by
  by_cases hquit : (!session.reader.isPending && isQuit line) = true
  · exact .inl (by rw [read, if_pos hquit])
  · right
    simp only [read, if_neg hquit]
    rcases session.reader.submit (session.count + 1) line with ⟨next, error | trees⟩
    · refine ⟨rfl, .inl rfl, fun fault h => ?_⟩
      cases h
      rfl
    · dsimp only
      split
      · exact ⟨rfl, .inl rfl, fun fault h => by cases h⟩
      · exact ⟨rfl, .inr rfl, fun fault h => by cases h⟩

/-- The transcript only grows. -/
theorem exists_transcript_read (session : Session) (line : String) :
    ∃ more, (session.read line).1.transcript = session.transcript ++ more := by
  rcases session.read_cases line with hquit | ⟨hnext, -⟩
  · exact ⟨"", by rw [hquit, String.append_empty]⟩
  · exact ⟨line ++ "\n", by rw [hnext, String.append_assoc]⟩

theorem exists_transcript_after (session : Session) (lines : List String) :
    ∃ more, (session.after lines).transcript = session.transcript ++ more := by
  induction lines generalizing session with
  | nil => exact ⟨"", String.append_empty.symm⟩
  | cons line lines ih =>
    obtain ⟨more, hmore⟩ := session.exists_transcript_read line
    obtain ⟨later, hlater⟩ := ih (session.read line).1
    refine ⟨more ++ later, ?_⟩
    rw [after, List.foldl_cons, ← after, hlater, hmore, String.append_assoc]

/-- The session stands somewhere in the text: the transcript is the start of it, with as many lines
as were counted, and the reader holds back what stands in it. -/
structure StandsIn (session : Session) (text : String) : Prop where
  reader : session.reader.StandsIn text (session.count + 1)
  origin : session.reader.origin = some Session.origin
  text_eq : ∃ more, text = session.transcript ++ more
  count_eq : session.transcript.toList.count '\n' = session.count
  ends : Text.EndsLine session.transcript.toList

theorem standsIn_new (text : String) : new.StandsIn text where
  reader := Reader.standsIn_new _ text _
  origin := rfl
  text_eq := ⟨text, String.empty_append.symm⟩
  count_eq := rfl
  ends := Text.endsLine_nil

variable {session : Session} {text line : String}

/-- A line that is added to the transcript is a line of the text. -/
theorem StandsIn.hasLine (h : session.StandsIn text) (hline : '\n' ∉ line.toList)
    (htext : ∃ more, text = session.transcript ++ line ++ "\n" ++ more) :
    Text.HasLine text (session.count + 1) line.toList := by
  obtain ⟨more, rfl⟩ := htext
  refine ⟨session.transcript.toList, '\n' :: more.toList, ?_,
    ⟨h.ends, hline, Text.beginsLineEnd_newline _⟩, by rw [h.count_eq]⟩
  simp [String.toList_append]

/-- Reading a line keeps a session in the text, and its trees and faults are those of the text. -/
theorem StandsIn.read (h : session.StandsIn text) (hline : '\n' ∉ line.toList)
    (htext : ∃ more, text = (session.read line).1.transcript ++ more) :
    (session.read line).1.StandsIn text ∧
      Tree.PointIn (session.read line).2.trees (some Session.origin) text ∧
      ∀ fault ∈ (session.read line).2.fault?, fault.PointsIn (some Session.origin) text := by
  rcases session.read_cases line with hquit | ⟨hnext, htrees, hfault⟩
  · rw [hquit]
    exact ⟨h, Tree.pointIn_nil _ text, fun _ h => by cases h⟩
  · rw [hnext] at htext ⊢
    obtain ⟨hreader, horigin, hok, herror⟩ := h.reader.submit (h.hasLine hline htext)
    rw [h.origin] at hok herror horigin
    refine ⟨⟨hreader, horigin, htext, ?_, ?_⟩, ?_, fun fault hrequest => ?_⟩
    · simp [String.toList_append, h.count_eq, List.count_eq_zero.2 hline]
    · simpa [String.toList_append] using
        Text.endsLine_newline (session.transcript.toList ++ line.toList)
    · rcases htrees with hnone | htrees
      · rw [hnone]
        exact Tree.pointIn_nil _ text
      · exact hok _ htrees
    · exact herror fault (hfault fault hrequest)

theorem StandsIn.after (h : session.StandsIn text) {lines : List String}
    (hlines : ∀ line ∈ lines, '\n' ∉ line.toList)
    (htext : ∃ more, text = (session.after lines).transcript ++ more) :
    (session.after lines).StandsIn text := by
  induction lines generalizing session with
  | nil => exact h
  | cons line lines ih =>
    obtain ⟨hline, hlines⟩ := List.forall_mem_cons.1 hlines
    obtain ⟨more, hmore⟩ := (session.read line).1.exists_transcript_after lines
    obtain ⟨rest, hrest⟩ := htext
    have hnext : ∃ more, text = (session.read line).1.transcript ++ more := by
      refine ⟨more ++ rest, ?_⟩
      rw [hrest, ← String.append_assoc, ← hmore]
      rfl
    exact ih (h.read hline hnext).1 hlines ⟨rest, hrest⟩

end Session

/-- Every place of the trees and of the fault of a text is resolved to the first byte of what it
names, and so is every place of what a session reads, in the transcript at that moment and after
any further lines. -/
theorem places_resolve :
    (∀ origin text,
      (∀ trees, parse origin text = .ok trees → Tree.PointIn trees origin text) ∧
        ∀ fault, parse origin text = .error fault → fault.PointsIn origin text) ∧
    ∀ lines line later, (∀ other ∈ lines ++ line :: later, '\n' ∉ other.toList) →
      let session := Session.new.after lines
      let next := (session.read line).1
      let transcript := (next.after later).transcript
      Tree.PointIn (session.read line).2.trees (some Session.origin) transcript ∧
      (∀ fault ∈ (session.read line).2.fault?,
        fault.PointsIn (some Session.origin) transcript) ∧
      ∀ number column bytes, Text.offset? next.transcript number column = some bytes →
        Text.offset? transcript number column = some bytes := by
  refine ⟨pointsIn_of_parse, fun lines line later hlines => ?_⟩
  intro session next transcript
  obtain ⟨hlines, hlater⟩ := List.forall_mem_append.1 hlines
  obtain ⟨more, hmore⟩ := next.exists_transcript_after later
  obtain ⟨typed, htyped⟩ := session.exists_transcript_read line
  have hsession : session.StandsIn transcript := by
    refine (Session.standsIn_new transcript).after hlines ⟨typed ++ more, ?_⟩
    rw [← String.append_assoc, ← htyped]
    exact hmore
  obtain ⟨-, htrees, hfault⟩ := hsession.read (List.forall_mem_cons.1 hlater).1 ⟨more, hmore⟩
  refine ⟨htrees, hfault, fun number column bytes hoffset => ?_⟩
  rw [show transcript = next.transcript ++ more from hmore]
  exact Text.offset?_append hoffset more

/-- An expression is completed by its second line, and a string is left open behind it. -/
theorem places_resolve_typed :
    let session := Session.new.after ["[list \"é\""]
    let next := (session.read "é [b]]").1
    (session.read "é [b]]").2.trees.length = 1 ∧
    Tree.PointIn (session.read "é [b]]").2.trees (some Session.origin)
      (next.after ["é \"x"]).transcript ∧
    (next.read "é \"x").2.fault? = some ⟨.stringUnclosed, ⟨3, 3, some Session.origin⟩⟩ ∧
    ParseError.PointsIn ⟨.stringUnclosed, ⟨3, 3, some Session.origin⟩⟩ (some Session.origin)
      (next.after ["é \"x"]).transcript := by
  intro session next
  have hfault : (next.read "é \"x").2.fault? =
      some ⟨.stringUnclosed, ⟨3, 3, some Session.origin⟩⟩ := by decide +kernel
  have htyped := (places_resolve.2 ["[list \"é\""] "é [b]]" ["é \"x"] (by decide)).1
  have hopen := (places_resolve.2 ["[list \"é\"", "é [b]]"] "é \"x" [] (by decide)).2.1 _ hfault
  exact ⟨by decide +kernel, htyped, hfault, hopen⟩

end BracketScript
