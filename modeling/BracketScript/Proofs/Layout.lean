import BracketScript.Proofs.Spelling
import Mathlib.Data.Option.NAry

/-!
# Layout

How a text is divided into lines does not matter to what it is read as, places apart. Trees without
places depend on the kinds of the tokens only, and these are compositional: behind a blank, a line
without comment is scanned as if it began there. Joining lines by blanks therefore gives the kinds
of all lines one after the other, and lines without tokens can come and go.

A string must close on its line, so a line that can be scanned never ends inside a string.
-/

namespace BracketScript

/-! ### Comments and quoted texts -/

namespace Text

/-- A semicolon stands outside of all quoted texts, where `inside` says whether the characters begin
inside one. -/
def hasComment : (inside : Bool) → List Char → Bool
  | _, [] => false
  | false, ';' :: _ => true
  | false, '"' :: rest => hasComment true rest
  | false, _ :: rest => hasComment false rest
  | true, '"' :: rest => hasComment false rest
  | true, '\\' :: _ :: rest => hasComment true rest
  | true, _ :: rest => hasComment true rest

/-- The line holds nothing but blanks and perhaps a comment. -/
def isIdle (line : String) : Bool :=
  match line.toList.dropWhile isBlank with
  | [] => true
  | c :: _ => c == ';'

variable {cs rest text after : List Char} {c : Char} {e : Unclosed}

theorem hasComment_cons (h : c ≠ ';') (h' : c ≠ '"') (rest : List Char) :
    hasComment false (c :: rest) = hasComment false rest := by
  rw [hasComment] <;> assumption

theorem hasComment_word (h : ∀ c ∈ cs, Token.isWordChar c = true) :
    hasComment false (cs ++ rest) = hasComment false rest := by
  induction cs with
  | nil => rfl
  | cons c cs ih =>
    obtain ⟨hc, hcs⟩ := List.forall_mem_cons.1 h
    rw [Token.isWordChar, Bool.not_eq_true', Token.isDelimiter_eq_false_iff] at hc
    obtain ⟨-, -, -, hquote, hsemicolon⟩ := hc
    rw [List.cons_append, hasComment_cons hsemicolon hquote, ih hcs]

/-- Behind a quoted text, the line goes on outside. -/
theorem hasComment_of_readQuoted (h : readQuoted cs = .ok (text, after)) :
    hasComment true cs = hasComment false after := by
  fun_induction readQuoted cs generalizing text with
  | case1 => cases h
  | case2 rest =>
    cases h
    rfl
  | case3 => cases h
  | case4 c rest text' after' hr ih =>
    cases h
    exact ih hr
  | case5 c rest e hr ih => cases h
  | case6 c rest hquote hlone hescape text' after' hr ih =>
    cases h
    rw [hasComment, ih hr] <;> assumption
  | case7 c rest _ _ _ e hr ih => cases h

theorem readQuoted_escape (c : Char) (rest : List Char) :
    readQuoted ('\\' :: c :: rest) =
      (readQuoted rest).map fun read => (unescape c :: read.1, read.2) := by
  rw [readQuoted]
  cases readQuoted rest <;> rfl

theorem readQuoted_plain (hquote : c ≠ '"') (hslash : c ≠ '\\') (rest : List Char) :
    readQuoted (c :: rest) = (readQuoted rest).map fun read => (c :: read.1, read.2) := by
  have hlone : c = '\\' → rest = [] → False := fun h _ => hslash h
  have hescape : ∀ d behind, c = '\\' → rest = d :: behind → False := fun _ _ h _ => hslash h
  rw [readQuoted]
  · cases readQuoted rest <;> rfl
  · exact hquote
  · exact hlone
  · exact hescape

theorem ne_slash (hlone : c = '\\' → rest = [] → False)
    (hescape : ∀ d behind, c = '\\' → rest = d :: behind → False) : c ≠ '\\' := by
  cases rest with
  | nil => exact fun hc => hlone hc rfl
  | cons d behind => exact fun hc => hescape d behind hc rfl

/-- A quoted text is read alike in front of anything. -/
theorem readQuoted_append (h : readQuoted cs = .ok (text, after)) (rest : List Char) :
    readQuoted (cs ++ rest) = .ok (text, after ++ rest) := by
  fun_induction readQuoted cs generalizing text with
  | case1 => cases h
  | case2 rest =>
    cases h
    rfl
  | case3 => cases h
  | case4 c behind text' after' hr ih =>
    cases h
    rw [List.cons_append, List.cons_append, readQuoted_escape, ih hr]
    rfl
  | case5 c rest e hr ih => cases h
  | case6 c behind hquote hlone hescape text' after' hr ih =>
    cases h
    rw [List.cons_append, readQuoted_plain hquote (ne_slash hlone hescape), ih hr]
    rfl
  | case7 c rest _ _ _ e hr ih => cases h

theorem exists_error_of_not_mem (h : '"' ∉ cs) : ∃ e, readQuoted cs = .error e := by
  fun_induction readQuoted cs with
  | case1 => exact ⟨_, rfl⟩
  | case2 rest => exact absurd List.mem_cons_self h
  | case3 => exact ⟨_, rfl⟩
  | case4 c rest text after hr ih => simp_all
  | case5 c rest e hr ih => exact ⟨_, rfl⟩
  | case6 c rest _ _ _ text after hr ih => simp_all
  | case7 c rest _ _ _ e hr ih => exact ⟨_, rfl⟩

/-- A quoted text that is not closed is not closed in front of anything without quotes. -/
theorem exists_error_append (h : readQuoted cs = .error e) (hrest : '"' ∉ rest) :
    ∃ e', readQuoted (cs ++ rest) = .error e' := by
  fun_induction readQuoted cs generalizing e with
  | case1 => exact exists_error_of_not_mem hrest
  | case2 behind => cases h
  | case3 =>
    cases rest with
    | nil => exact ⟨_, rfl⟩
    | cons d behind =>
      obtain ⟨e', he'⟩ := exists_error_of_not_mem fun hmem => hrest (List.mem_cons_of_mem d hmem)
      exact ⟨e', by rw [List.cons_append, List.nil_append, readQuoted_escape, he']; rfl⟩
  | case4 c behind text after hr ih => cases h
  | case5 c behind e' hr ih =>
    obtain ⟨e'', he''⟩ := ih hr
    exact ⟨e'', by rw [List.cons_append, List.cons_append, readQuoted_escape, he'']; rfl⟩
  | case6 c behind _ _ _ text after hr ih => cases h
  | case7 c behind hquote hlone hescape e' hr ih =>
    obtain ⟨e'', he''⟩ := ih hr
    refine ⟨e'', ?_⟩
    rw [List.cons_append, readQuoted_plain hquote (ne_slash hlone hescape), he'']
    rfl

theorem linesFrom_append_newline (h : '\n' ∉ cs) (collected rest : List Char) :
    linesFrom collected (cs ++ '\n' :: rest) =
      endLine (cs.reverse ++ collected) :: linesFrom [] rest := by
  induction cs generalizing collected with
  | nil => rw [List.nil_append, linesFrom, if_pos rfl]; rfl
  | cons c cs ih =>
    have hc : c ≠ '\n' := fun hc => h (hc ▸ List.mem_cons_self)
    rw [List.cons_append, linesFrom, if_neg hc, ih fun hcs => h (List.mem_cons_of_mem c hcs),
      List.reverse_cons, List.append_assoc]
    rfl

end Text

/-! ### Kinds -/

def Scan.kinds? (scan : Scan) : Option (List Token.Kind) :=
  scan.fault.elim (some (scan.tokens.map Token.kind)) fun _ => none

namespace Scan

@[simp] theorem kinds?_empty : empty.kinds? = some [] := rfl

@[simp] theorem kinds?_faulty (cause : ParseError.Cause) (location : Location) :
    (faulty cause location).kinds? = none := rfl

@[simp] theorem kinds?_cons (token : Token) (scan : Scan) :
    (scan.cons token).kinds? = scan.kinds?.map (token.kind :: ·) := by
  simp only [kinds?, cons]
  cases scan.fault <;> rfl

end Scan

namespace Token

variable {line : Line} {column : Nat} {c : Char} {rest text after : List Char} {leaf : Leaf}

theorem scanFrom_comment (line : Line) (column : Nat) (rest : List Char) :
    scanFrom line column (';' :: rest) = .empty := by
  rw [scanFrom, if_pos rfl]

theorem scanFrom_quoted (h : Text.readQuoted rest = .ok (text, after)) (line : Line)
    (column : Nat) :
    scanFrom line column ('"' :: rest) =
      (scanFrom line (column + 1 + (rest.length - after.length)) after).cons
        ⟨.leaf (.string (String.ofList text)), line.locate column⟩ := by
  have hblank : Text.isBlank '"' = false := rfl
  rw [scanFrom]
  simp only [hblank, Char.reduceEq, Bool.false_eq_true, if_false, if_true]
  split
  · next hread =>
    rw [h] at hread
    cases hread
    rfl
  · next hread =>
    rw [h] at hread
    cases hread

theorem scanFrom_unclosed {e : Text.Unclosed} (h : Text.readQuoted rest = .error e) (line : Line)
    (column : Nat) :
    scanFrom line column ('"' :: rest) = .faulty (unclosedCause e) (line.locate column) := by
  have hblank : Text.isBlank '"' = false := rfl
  rw [scanFrom]
  simp only [hblank, Char.reduceEq, Bool.false_eq_true, if_false, if_true]
  split
  · next hread =>
    rw [h] at hread
    cases hread
  · next hread =>
    rw [h] at hread
    cases hread
    rfl

/-- Induction over the tokens of a line. -/
theorem scan_induction {P : List Char → Prop} (nil : P []) (comment : ∀ rest, P (';' :: rest))
    (blank : ∀ c rest, Text.isBlank c = true → P rest → P (c :: rest))
    (opening : ∀ rest, P rest → P ('[' :: rest)) (closing : ∀ rest, P rest → P (']' :: rest))
    (quoted : ∀ rest text after, Text.readQuoted rest = .ok (text, after) → P after →
      P ('"' :: rest))
    (unclosed : ∀ rest e, Text.readQuoted rest = .error e → P ('"' :: rest))
    (leaf : ∀ c rest leaf, isWordChar c = true →
      leafOfWord (c :: rest.takeWhile isWordChar) = .ok leaf → P (rest.dropWhile isWordChar) →
        P (c :: rest))
    (malformed : ∀ c rest cause, isWordChar c = true →
      leafOfWord (c :: rest.takeWhile isWordChar) = .error cause → P (c :: rest))
    (cs : List Char) : P cs := by
  have hword {c : Char} (hsemicolon : c ≠ ';') (hblank : ¬Text.isBlank c = true) (hopen : c ≠ '[')
      (hclose : c ≠ ']') (hquote : c ≠ '"') : isWordChar c = true := by
    rw [isWordChar, Bool.not_eq_true', isDelimiter_eq_false_iff]
    exact ⟨Bool.eq_false_of_not_eq_true hblank, hopen, hclose, hquote, hsemicolon⟩
  fun_induction scanFrom ⟨0, none⟩ 0 cs with
  | case1 column => exact nil
  | case2 column rest => exact comment rest
  | case3 column c rest hsemicolon hblank ih => exact blank c rest hblank ih
  | case4 column rest hsemicolon hblank ih => exact opening rest ih
  | case5 column rest hsemicolon hblank hopen ih => exact closing rest ih
  | case6 column rest text after hread hlt _ _ _ _ ih => exact quoted rest text after hread ih
  | case7 column rest e hread => exact unclosed rest e hread
  | case8 column c rest hsemicolon hblank hopen hclose hquote word l hleaf hle ih =>
    exact leaf c rest l (hword hsemicolon hblank hopen hclose hquote) hleaf ih
  | case9 column c rest hsemicolon hblank hopen hclose hquote word cause hleaf =>
    exact malformed c rest cause (hword hsemicolon hblank hopen hclose hquote) hleaf

def kindsOf (cs : List Char) : Option (List Kind) :=
  (scanFrom ⟨0, none⟩ 0 cs).kinds?

/-- The kinds do not depend on where the characters stand. -/
theorem kinds?_scanFrom (line : Line) (column : Nat) (cs : List Char) :
    (scanFrom line column cs).kinds? = kindsOf cs := by
  have hplaces (line' : Line) (column' : Nat) :
      (scanFrom line column cs).kinds? = (scanFrom line' column' cs).kinds? := by
    induction cs using scan_induction generalizing column column' with
    | nil => rw [scanFrom, scanFrom]
    | comment rest => rw [scanFrom_comment, scanFrom_comment]
    | blank c rest hc ih =>
      rw [scanFrom_of_isBlank hc, scanFrom_of_isBlank hc, ih]
    | opening rest ih =>
      rw [Tree.scanFrom_opening, Tree.scanFrom_opening, Scan.kinds?_cons, Scan.kinds?_cons, ih]
    | closing rest ih =>
      rw [Tree.scanFrom_closing, Tree.scanFrom_closing, Scan.kinds?_cons, Scan.kinds?_cons, ih]
    | quoted rest text after hread ih =>
      rw [scanFrom_quoted hread, scanFrom_quoted hread, Scan.kinds?_cons, Scan.kinds?_cons, ih]
    | unclosed rest e hread => rw [scanFrom_unclosed hread, scanFrom_unclosed hread]; rfl
    | leaf c rest leaf hc hleaf ih =>
      rw [scanFrom_leaf hc hleaf, scanFrom_leaf hc hleaf, Scan.kinds?_cons, Scan.kinds?_cons, ih]
    | malformed c rest cause hc hleaf =>
      rw [scanFrom_malformed hc hleaf, scanFrom_malformed hc hleaf]
      rfl
  exact hplaces _ _

/-! ### One line -/

@[simp] theorem kindsOf_nil : kindsOf [] = some [] := by
  rw [kindsOf, scanFrom, Scan.kinds?_empty]

@[simp] theorem kindsOf_comment (rest : List Char) : kindsOf (';' :: rest) = some [] := by
  rw [kindsOf, scanFrom_comment, Scan.kinds?_empty]

theorem kindsOf_blank (hc : Text.isBlank c = true) (rest : List Char) :
    kindsOf (c :: rest) = kindsOf rest := by
  rw [kindsOf, scanFrom_of_isBlank hc, kinds?_scanFrom]

@[simp] theorem kindsOf_opening (rest : List Char) :
    kindsOf ('[' :: rest) = (kindsOf rest).map (.opening :: ·) := by
  rw [kindsOf, Tree.scanFrom_opening, Scan.kinds?_cons, kinds?_scanFrom]

@[simp] theorem kindsOf_closing (rest : List Char) :
    kindsOf (']' :: rest) = (kindsOf rest).map (.closing :: ·) := by
  rw [kindsOf, Tree.scanFrom_closing, Scan.kinds?_cons, kinds?_scanFrom]

theorem kindsOf_quoted (h : Text.readQuoted rest = .ok (text, after)) :
    kindsOf ('"' :: rest) =
      (kindsOf after).map (.leaf (.string (String.ofList text)) :: ·) := by
  rw [kindsOf, scanFrom_quoted h, Scan.kinds?_cons, kinds?_scanFrom]

theorem kindsOf_unclosed {e : Text.Unclosed} (h : Text.readQuoted rest = .error e) :
    kindsOf ('"' :: rest) = none := by
  rw [kindsOf, scanFrom_unclosed h, Scan.kinds?_faulty]

theorem kindsOf_leaf (hc : isWordChar c = true)
    (h : leafOfWord (c :: rest.takeWhile isWordChar) = .ok leaf) :
    kindsOf (c :: rest) = (kindsOf (rest.dropWhile isWordChar)).map (.leaf leaf :: ·) := by
  rw [kindsOf, scanFrom_leaf hc h, Scan.kinds?_cons, kinds?_scanFrom]

theorem kindsOf_malformed {cause : ParseError.Cause} (hc : isWordChar c = true)
    (h : leafOfWord (c :: rest.takeWhile isWordChar) = .error cause) :
    kindsOf (c :: rest) = none := by
  rw [kindsOf, scanFrom_malformed hc h, Scan.kinds?_faulty]

theorem ne_of_isBlank {b d : Char} (hb : Text.isBlank b = true) (hd : Text.isBlank d = false) :
    b ≠ d := by
  rintro rfl
  rw [hd] at hb
  cases hb

/-- A blank ends a word. -/
theorem word_append_blank {b : Char} (hb : Text.isBlank b = true) (cs rest : List Char) :
    (cs ++ b :: rest).takeWhile isWordChar = cs.takeWhile isWordChar ∧
      (cs ++ b :: rest).dropWhile isWordChar = cs.dropWhile isWordChar ++ b :: rest := by
  have hword : isWordChar b = false := by
    simp [isWordChar, isDelimiter, hb]
  induction cs with
  | nil => simp [hword]
  | cons c cs ih =>
    by_cases hc : isWordChar c = true
    · simp [hc, ih]
    · simp [hc]

theorem map₂_append_cons (kind : Kind) (x y : Option (List Kind)) :
    Option.map₂ (· ++ ·) (x.map (kind :: ·)) y =
      (Option.map₂ (· ++ ·) x y).map (kind :: ·) := by
  rw [Option.map₂_map_left, Option.map_map₂]
  rfl

/-- Behind a blank, a line is scanned as if it began there, unless there is a comment or an open
string in front. -/
theorem kindsOf_append_blank {b : Char} (hb : Text.isBlank b = true) {cs rest : List Char}
    (h : (kindsOf cs).isSome = true ∨ '"' ∉ rest) :
    kindsOf (cs ++ b :: rest) =
      if Text.hasComment false cs then kindsOf cs
      else Option.map₂ (· ++ ·) (kindsOf cs) (kindsOf rest) := by
  induction cs using scan_induction with
  | nil =>
    rw [List.nil_append, kindsOf_blank hb]
    cases kindsOf rest <;> simp [Text.hasComment]
  | comment cs => simp [Text.hasComment]
  | blank c cs hc ih =>
    have hcomment := Text.hasComment_cons (ne_of_isBlank hc (d := ';') rfl)
      (ne_of_isBlank hc (d := '"') rfl) cs
    rw [List.cons_append, kindsOf_blank hc, kindsOf_blank hc, hcomment]
    exact ih (by rwa [kindsOf_blank hc] at h)
  | opening cs ih =>
    have hcomment : Text.hasComment false ('[' :: cs) = Text.hasComment false cs := rfl
    rw [List.cons_append, kindsOf_opening, kindsOf_opening, hcomment, map₂_append_cons,
      ih (by simpa using h)]
    split <;> rfl
  | closing cs ih =>
    have hcomment : Text.hasComment false (']' :: cs) = Text.hasComment false cs := rfl
    rw [List.cons_append, kindsOf_closing, kindsOf_closing, hcomment, map₂_append_cons,
      ih (by simpa using h)]
    split <;> rfl
  | quoted cs text after hread ih =>
    have hcomment : Text.hasComment false ('"' :: cs) = Text.hasComment false after :=
      Text.hasComment_of_readQuoted hread
    rw [List.cons_append, kindsOf_quoted (Text.readQuoted_append hread _), kindsOf_quoted hread,
      hcomment, map₂_append_cons, ih (by simpa [kindsOf_quoted hread] using h)]
    split <;> rfl
  | unclosed cs e hread =>
    have hrest : '"' ∉ b :: rest := by
      have hrest := h.resolve_left (by simp [kindsOf_unclosed hread])
      simp [hrest, (ne_of_isBlank hb (d := '"') rfl).symm]
    obtain ⟨e', he'⟩ := Text.exists_error_append hread hrest
    rw [List.cons_append, kindsOf_unclosed he', kindsOf_unclosed hread]
    simp
  | leaf c cs leaf hc hleaf ih =>
    obtain ⟨htake, hdrop⟩ := word_append_blank hb cs rest
    have hcomment : Text.hasComment false (c :: cs) =
        Text.hasComment false (cs.dropWhile isWordChar) := by
      have hword : ∀ d ∈ c :: cs.takeWhile isWordChar, isWordChar d = true := by
        rintro d (_ | ⟨_, hd⟩)
        · exact hc
        · exact List.mem_takeWhile_imp hd
      have hsplit : c :: cs = (c :: cs.takeWhile isWordChar) ++ cs.dropWhile isWordChar := by
        rw [List.cons_append, List.takeWhile_append_dropWhile]
      rw [hsplit, Text.hasComment_word hword]
    rw [List.cons_append, kindsOf_leaf hc (by rw [htake, hleaf]), hdrop, kindsOf_leaf hc hleaf,
      hcomment, map₂_append_cons, ih (by simpa [kindsOf_leaf hc hleaf] using h)]
    split <;> rfl
  | malformed c cs cause hc hleaf =>
    obtain ⟨htake, -⟩ := word_append_blank hb cs rest
    rw [List.cons_append, kindsOf_malformed hc (by rw [htake, hleaf]), kindsOf_malformed hc hleaf]
    simp

/-- A carriage return at the end of a line is a blank like any other. -/
theorem kindsOf_endLine (collected : List Char) :
    kindsOf (Text.endLine collected) = kindsOf collected.reverse := by
  unfold Text.endLine
  split
  · next collected =>
    rw [List.reverse_cons, kindsOf_append_blank (b := '\r') rfl (.inr List.not_mem_nil)]
    cases kindsOf collected.reverse <;> simp
  · rfl

theorem kindsOf_dropWhile_isBlank (cs : List Char) :
    kindsOf (cs.dropWhile Text.isBlank) = kindsOf cs := by
  induction cs with
  | nil => rfl
  | cons c cs ih =>
    by_cases hc : Text.isBlank c = true
    · rw [List.dropWhile_cons_of_pos hc, ih, kindsOf_blank hc]
    · rw [List.dropWhile_cons_of_neg hc]

theorem kindsOf_of_isIdle {line : String} (h : Text.isIdle line = true) :
    kindsOf line.toList = some [] := by
  rw [← kindsOf_dropWhile_isBlank]
  rw [Text.isIdle] at h
  split at h
  · next hnil => rw [hnil, kindsOf_nil]
  · next c rest hcons =>
    rw [beq_iff_eq] at h
    rw [hcons, h, kindsOf_comment]

/-! ### Lines -/

/-- The kinds of the tokens of lines, one line after the other, if all of them can be scanned. -/
def kindsOfLines : List String → Option (List Kind)
  | [] => some []
  | line :: lines => Option.map₂ (· ++ ·) (kindsOf line.toList) (kindsOfLines lines)

/-- Lines without tokens add nothing. -/
theorem kindsOfLines_filter (lines : List String) :
    kindsOfLines (lines.filter fun line => !Text.isIdle line) = kindsOfLines lines := by
  induction lines with
  | nil => rfl
  | cons line lines ih =>
    by_cases hidle : Text.isIdle line = true
    · rw [List.filter_cons_of_neg (by simp [hidle]), ih, kindsOfLines, kindsOf_of_isIdle hidle]
      cases kindsOfLines lines <;> simp
    · rw [List.filter_cons_of_pos (by simp [hidle]), kindsOfLines, ih, kindsOfLines]

theorem kindsOfLines_singleton (line : String) :
    kindsOfLines [line] = kindsOf line.toList := by
  rw [kindsOfLines, kindsOfLines]
  cases kindsOf line.toList <;> simp

/-- A text without newlines is one line, or none if it is empty. -/
theorem kindsOfLines_lines {line : String} (h : '\n' ∉ line.toList) :
    kindsOfLines (Text.lines line) = kindsOf line.toList := by
  by_cases hnil : line.toList = []
  · rw [Text.lines, hnil, kindsOf_nil]
    rfl
  · rw [Text.lines_of_newline_not_mem h hnil, kindsOfLines_singleton]

theorem toList_intercalate_cons_cons {separator : String} {c : Char}
    (h : separator.toList = [c]) (line next : String) (lines : List String) :
    (separator.intercalate (line :: next :: lines)).toList =
      line.toList ++ c :: (separator.intercalate (next :: lines)).toList := by
  rw [String.toList_intercalate, String.toList_intercalate, List.map_cons, List.map_cons,
    List.intercalate_cons_cons, h, List.append_assoc]
  rfl

theorem newline_not_mem_intercalate {lines : List String}
    (h : ∀ line ∈ lines, '\n' ∉ line.toList) : '\n' ∉ (" ".intercalate lines).toList := by
  induction lines with
  | nil => exact List.not_mem_nil
  | cons line lines ih =>
    obtain ⟨hline, hlines⟩ := List.forall_mem_cons.1 h
    cases lines with
    | nil => simpa using hline
    | cons next lines =>
      rw [toList_intercalate_cons_cons (c := ' ') rfl, List.mem_append, List.mem_cons, not_or,
        not_or]
      exact ⟨hline, by decide, ih hlines⟩

/-- Lines that can be scanned and have no comments can be joined by blanks. -/
theorem kindsOf_intercalate_blank {lines : List String}
    (hcomment : ∀ line ∈ lines, Text.hasComment false line.toList = false) {kinds : List Kind}
    (h : kindsOfLines lines = some kinds) :
    kindsOf (" ".intercalate lines).toList = some kinds := by
  induction lines generalizing kinds with
  | nil =>
    cases h
    exact kindsOf_nil
  | cons line lines ih =>
    cases lines with
    | nil =>
      rw [kindsOfLines_singleton] at h
      simpa using h
    | cons next lines =>
      obtain ⟨hline, hlines⟩ := List.forall_mem_cons.1 hcomment
      obtain ⟨front, behind, hfront, hbehind, rfl⟩ := Option.map₂_eq_some_iff.1 h
      rw [Option.mem_def] at hfront hbehind
      have hblank : Text.isBlank ' ' = true := rfl
      have hfirst : (kindsOf line.toList).isSome = true := Option.isSome_of_eq_some hfront
      rw [toList_intercalate_cons_cons (c := ' ') rfl,
        kindsOf_append_blank hblank (.inl hfirst), hline, hfront, ih hlines hbehind]
      rfl

/-- The lines of a text that is joined by newlines are those it is joined of, up to carriage returns
and an empty last line. -/
theorem kindsOfLines_intercalate_newline {lines : List String}
    (h : ∀ line ∈ lines, '\n' ∉ line.toList) :
    kindsOfLines (Text.lines ("\n".intercalate lines)) = kindsOfLines lines := by
  induction lines with
  | nil => rfl
  | cons line lines ih =>
    obtain ⟨hline, hlines⟩ := List.forall_mem_cons.1 h
    cases lines with
    | nil =>
      rw [kindsOfLines_singleton, ← kindsOfLines_lines hline]
      simp
    | cons next lines =>
      have hfirst : Text.lines ("\n".intercalate (line :: next :: lines)) =
          String.ofList (Text.endLine line.toList.reverse) ::
            Text.lines ("\n".intercalate (next :: lines)) := by
        rw [Text.lines, toList_intercalate_cons_cons (c := '\n') rfl,
          Text.linesFrom_append_newline hline, List.append_nil]
        rfl
      rw [hfirst, kindsOfLines, ih hlines, String.toList_ofList, kindsOf_endLine,
        List.reverse_reverse, ← kindsOfLines]

end Token

/-! ### Trees without places -/

def Token.ofKind (kind : Token.Kind) : Token := ⟨kind, ⟨0, 0, none⟩⟩

namespace Tree

theorem unplacedAll_eq (trees : List Tree) : unplacedAll trees = trees.map unplaced := by
  induction trees with
  | nil => rfl
  | cons tree trees ih => rw [unplacedAll, ih, List.map_cons]

def Frame.unplaced (frame : Frame) : Frame :=
  ⟨⟨0, 0, none⟩, frame.items.map Tree.unplaced⟩

theorem Frame.unplaced_push (frame : Frame) (tree : Tree) :
    (frame.push tree).unplaced = frame.unplaced.push tree.unplaced := rfl

theorem Frame.unplaced_close (frame : Frame) :
    frame.close.unplaced = frame.unplaced.close := by
  rw [close, Tree.unplaced, unplacedAll_eq, List.map_reverse]
  rfl

/-- The builder does not look at places. -/
theorem buildFrom_ofKind (frames : List Frame) (trees : List Tree) (tokens : List Token) :
    (buildFrom (frames.map Frame.unplaced) (trees.map unplaced)
      (tokens.map fun token => .ofKind token.kind)).toOption =
      (buildFrom frames trees tokens).toOption.map (List.map unplaced) := by
  fun_induction buildFrom frames trees tokens with
  | case1 trees => simp [buildFrom, Except.toOption]
  | case2 trees frame => simp [buildFrom, Except.toOption]
  | case3 trees token tokens frames hkind ih =>
    simpa [buildFrom, Token.ofKind, hkind, Frame.unplaced] using ih
  | case4 trees token tokens hkind => simp [buildFrom, Token.ofKind, hkind, Except.toOption]
  | case5 trees token tokens frame hkind ih =>
    simpa [buildFrom, Token.ofKind, hkind, Frame.unplaced_close] using ih
  | case6 trees token tokens frame outer others hkind ih =>
    simpa [buildFrom, Token.ofKind, hkind, Frame.unplaced_close, Frame.unplaced_push] using ih
  | case7 trees token tokens leaf hkind => simp [buildFrom, Token.ofKind, hkind, Except.toOption]
  | case8 trees token tokens leaf frame others hkind ih =>
    simpa [buildFrom, Token.ofKind, hkind, Frame.unplaced_push, unplaced] using ih

def ofKinds? (kinds : List Token.Kind) : Option (List Tree) :=
  (build (kinds.map .ofKind)).toOption

/-- Trees without places depend on the kinds of the tokens only. -/
theorem ofKinds?_eq (tokens : List Token) :
    ofKinds? (tokens.map Token.kind) = (build tokens).toOption.map unplacedAll := by
  have hbuild := buildFrom_ofKind [] [] tokens
  rw [ofKinds?, List.map_map, funext unplacedAll_eq]
  exact hbuild

end Tree

/-- The kinds of lines are those of all tokens, if no line is at fault. -/
theorem Token.kindsOfLines_eq_some_iff (origin : Option String) (number : Nat)
    (lines : List String) (kinds : List Kind) :
    kindsOfLines lines = some kinds ↔
      (∀ scan ∈ scans origin number lines, scan.fault = none) ∧
        ((scans origin number lines).flatMap Scan.tokens).map Token.kind = kinds := by
  induction lines generalizing number kinds with
  | nil => simp [kindsOfLines, scans]
  | cons line lines ih =>
    have hline : kindsOf line.toList = (scan ⟨number, origin⟩ line).kinds? :=
      (kinds?_scanFrom _ _ _).symm
    rw [kindsOfLines, Option.map₂_eq_some_iff, hline]
    simp only [Option.mem_def, ih (number + 1), scans, List.forall_mem_cons, List.flatMap_cons,
      List.map_append, Scan.kinds?]
    cases hfault : (scan ⟨number, origin⟩ line).fault with
    | some fault => simp
    | none => simp

/-- What a text is read as, places apart, depends on the kinds of the tokens of its lines only. -/
theorem parse_unplaced_iff (origin : Option String) (text : String) (bare : List Tree) :
    (∃ trees, parse origin text = .ok trees ∧ Tree.unplacedAll trees = bare) ↔
      (Token.kindsOfLines (Text.lines text)).bind Tree.ofKinds? = some bare := by
  simp only [Option.bind_eq_some_iff, Token.kindsOfLines_eq_some_iff origin 1, parse_eq_ok_iff]
  constructor
  · rintro ⟨trees, ⟨hfaults, hbuild⟩, rfl⟩
    exact ⟨_, ⟨hfaults, rfl⟩, by rw [Tree.ofKinds?_eq, hbuild]; rfl⟩
  · rintro ⟨_, ⟨hfaults, rfl⟩, hkinds⟩
    rw [Tree.ofKinds?_eq, Option.map_eq_some_iff] at hkinds
    obtain ⟨trees, hbuild, rfl⟩ := hkinds
    refine ⟨trees, ⟨hfaults, ?_⟩, rfl⟩
    cases hresult : Tree.build ((Token.scans origin 1 (Text.lines text)).flatMap Scan.tokens) with
    | error fault =>
      rw [hresult] at hbuild
      cases hbuild
    | ok trees' =>
      rw [hresult] at hbuild
      cases hbuild
      rfl

/-- Layout does not matter. Lines without comments that can be read one after the other can also be
read as a single line with blanks in place of the line ends, and lines that hold nothing but blanks
or a comment can be put in and left out anywhere. The trees differ in places only. -/
theorem layout_does_not_matter (origin : Option String) :
    (∀ lines : List String,
      (∀ line ∈ lines, '\n' ∉ line.toList ∧ Text.hasComment false line.toList = false) →
      ∀ trees, parse origin ("\n".intercalate lines) = .ok trees →
        ∃ trees', parse origin (" ".intercalate lines) = .ok trees' ∧
          Tree.unplacedAll trees' = Tree.unplacedAll trees) ∧
    ∀ lines lines' : List String, (∀ line ∈ lines ++ lines', '\n' ∉ line.toList) →
      (lines.filter fun line => !Text.isIdle line) =
        (lines'.filter fun line => !Text.isIdle line) →
      ∀ trees, parse origin ("\n".intercalate lines) = .ok trees →
        ∃ trees', parse origin ("\n".intercalate lines') = .ok trees' ∧
          Tree.unplacedAll trees' = Tree.unplacedAll trees := by
  constructor
  · intro lines hlines trees hparse
    have hnewline : ∀ line ∈ lines, '\n' ∉ line.toList := fun line hline => (hlines line hline).1
    have hkinds := (parse_unplaced_iff origin _ _).1 ⟨trees, hparse, rfl⟩
    rw [Token.kindsOfLines_intercalate_newline hnewline] at hkinds
    obtain ⟨kinds, hscan, hread⟩ := Option.bind_eq_some_iff.1 hkinds
    have hjoined := Token.kindsOf_intercalate_blank (fun line hline => (hlines line hline).2) hscan
    rw [parse_unplaced_iff, Token.kindsOfLines_lines
      (Token.newline_not_mem_intercalate hnewline), hjoined]
    exact hread
  · intro lines lines' hnewline hfilter trees hparse
    have hkinds := (parse_unplaced_iff origin _ _).1 ⟨trees, hparse, rfl⟩
    rw [List.forall_mem_append] at hnewline
    rw [Token.kindsOfLines_intercalate_newline hnewline.1, ← Token.kindsOfLines_filter, hfilter,
      Token.kindsOfLines_filter] at hkinds
    rw [parse_unplaced_iff, Token.kindsOfLines_intercalate_newline hnewline.2]
    exact hkinds

/-- Two lists over three lines: a minus stands at the end of a line and a digit at the start of the
next, and there is a semicolon in a string and a carriage return behind a bracket. -/
def scatteredLines : List String := ["[list -", "5 \"a;b\"]\r", "[x]"]

/-- The lines with an empty one and comments in between. -/
def commentedLines : List String := ["; head", "[list -", "", "5 \"a;b\"]\r", "[x]", "  ; ]"]

/-- The minus and the digit stay apart when the lines are joined, and a bracket in a comment closes
nothing. -/
theorem layout_does_not_matter_scattered :
    ∃ trees, parse none ("\n".intercalate scatteredLines) = .ok trees ∧ trees.length = 2 ∧
      (∃ trees', parse none (" ".intercalate scatteredLines) = .ok trees' ∧
        Tree.unplacedAll trees' = Tree.unplacedAll trees) ∧
      ∃ trees', parse none ("\n".intercalate commentedLines) = .ok trees' ∧
        Tree.unplacedAll trees' = Tree.unplacedAll trees := by
  have hread : (parse none ("\n".intercalate scatteredLines)).toOption.map List.length =
      some 2 := by
    decide +kernel
  have hplain : scatteredLines.all (fun line => !Text.hasComment false line.toList) = true := by
    decide +kernel
  have hnewline : (scatteredLines ++ commentedLines).all (fun line => !line.toList.contains '\n') =
      true := by
    decide +kernel
  have hfilter : (scatteredLines.filter fun line => !Text.isIdle line) =
      commentedLines.filter fun line => !Text.isIdle line := by
    decide +kernel
  simp only [List.all_eq_true, Bool.not_eq_true', List.contains_eq_mem, decide_eq_false_iff_not]
    at hplain hnewline
  cases hparse : parse none ("\n".intercalate scatteredLines) with
  | error fault =>
    rw [hparse] at hread
    cases hread
  | ok trees =>
    rw [hparse] at hread
    have hlayout := layout_does_not_matter none
    refine ⟨trees, rfl, Option.some.inj hread, ?_, ?_⟩
    · refine hlayout.1 scatteredLines (fun line hline => ⟨?_, hplain line hline⟩) trees hparse
      exact hnewline line (List.mem_append_left _ hline)
    · exact hlayout.2 scatteredLines commentedLines hnewline hfilter trees hparse

end BracketScript
