import BracketScript.Proofs.Places
import Mathlib.Data.List.DropRight
import Mathlib.Data.Prod.Lex

/-!
# Offsets count lines and columns

`Text.offset?` adds up bytes line by line. Read backward it counts: an offset is the size of a piece
in front of the text, the line is one more than the newlines in this piece, and the column one more
than the characters behind the last of them. Each place is thus the offset of one such piece, and of
two pieces of a text the longer one ends at the later place.
-/

namespace BracketScript

namespace Text

/-! ### Pieces in front of a text -/

def lastLine (cs : List Char) : List Char :=
  cs.rtakeWhile (· != '\n')

/-- The characters end at the place: so many lines and columns are counted up to there. -/
structure EndsAt (cs : List Char) (line column : Nat) : Prop where
  line_eq : line = cs.count '\n' + 1
  column_eq : column = (lastLine cs).length + 1

theorem newline_not_mem_lastLine (cs : List Char) : '\n' ∉ lastLine cs := by
  intro hmem
  have hne := List.mem_rtakeWhile_imp hmem
  simp at hne

/-- A piece in front of a text is made of whole lines and the start of another. -/
theorem exists_endsLine_append_lastLine (cs : List Char) :
    ∃ before, EndsLine before ∧ cs = before ++ lastLine cs := by
  refine ⟨cs.rdropWhile (· != '\n'), ?_, List.rdropWhile_append_rtakeWhile.symm⟩
  intro c hc
  obtain ⟨hne, rfl⟩ := List.mem_getLast?_eq_getLast hc
  simpa using List.rdropWhile_last_not (· != '\n') cs hne

theorem lastLine_append_of_newline_not_mem {more : List Char} (hmore : '\n' ∉ more)
    (cs : List Char) : lastLine (cs ++ more) = lastLine cs ++ more := by
  have hall : ∀ c ∈ more.reverse, (c != '\n') = true := by
    intro c hc
    have hne : c ≠ '\n' := fun h => hmore (h ▸ List.mem_reverse.1 hc)
    simpa using hne
  simp only [lastLine, List.rtakeWhile, List.reverse_append]
  rw [List.takeWhile_append_of_pos hall, List.reverse_append, List.reverse_reverse]

theorem lastLine_eq_nil {before : List Char} (h : EndsLine before) : lastLine before = [] := by
  rw [lastLine, List.rtakeWhile_eq_nil_iff]
  intro hne
  simpa using h _ (List.getLast?_eq_some_getLast hne)

theorem lastLine_append {before front : List Char} (hbefore : EndsLine before)
    (hfront : '\n' ∉ front) : lastLine (before ++ front) = front := by
  rw [lastLine_append_of_newline_not_mem hfront, lastLine_eq_nil hbefore, List.nil_append]

/-! ### Offsets -/

theorem exists_of_bytesInLine {count bytes : Nat} {cs : List Char}
    (h : bytesInLine count cs = some bytes) :
    ∃ front rest, cs = front ++ rest ∧ '\n' ∉ front ∧ front.length = count ∧
      byteSize front = bytes := by
  fun_induction bytesInLine count cs generalizing bytes with
  | case1 cs =>
    cases h
    exact ⟨[], cs, rfl, List.not_mem_nil, rfl, rfl⟩
  | case2 count => cases h
  | case3 count cs => cases h
  | case4 count c cs hc ih =>
    obtain ⟨n, hn, rfl⟩ := Option.map_eq_some_iff.1 h
    obtain ⟨front, rest, rfl, hfront, rfl, rfl⟩ := ih hn
    refine ⟨c :: front, rest, rfl, ?_, rfl, Nat.add_comm _ _⟩
    simp [hfront, Ne.symm hc]

theorem EndsLine.cons {before : List Char} (h : EndsLine before) {c : Char}
    (hc : c = '\n' ∨ before ≠ []) : EndsLine (c :: before) := by
  cases before with
  | nil => simpa [EndsLine] using hc
  | cons d before => simpa [EndsLine, List.getLast?_cons_cons] using h

theorem exists_of_skipLines {count bytes : Nat} {cs after : List Char}
    (h : skipLines count cs = some (bytes, after)) :
    ∃ before, cs = before ++ after ∧ EndsLine before ∧ before.count '\n' = count ∧
      byteSize before = bytes := by
  induction cs generalizing count bytes with
  | nil =>
    cases count with
    | zero =>
      cases h
      exact ⟨[], rfl, endsLine_nil, rfl, rfl⟩
    | succ count => cases h
  | cons c cs ih =>
    cases count with
    | zero =>
      cases h
      exact ⟨[], rfl, endsLine_nil, rfl, rfl⟩
    | succ count =>
      obtain ⟨⟨n, rest⟩, hn, heq⟩ := Option.map_eq_some_iff.1 h
      cases heq
      split at hn
      · next hc =>
        obtain ⟨before, rfl, hends, rfl, rfl⟩ := ih hn
        exact ⟨c :: before, rfl, hends.cons (.inl hc), by simp [hc], Nat.add_comm _ _⟩
      · next hc =>
        -- a newline is still to come, so that something stands behind `c`
        obtain ⟨before, rfl, hends, hcount, rfl⟩ := ih hn
        have hne : before ≠ [] := by
          rintro rfl
          cases hcount
        exact ⟨c :: before, rfl, hends.cons (.inr hne), by simp [hc, hcount], Nat.add_comm _ _⟩

/-- The offset of a place is the size of the piece of the text that ends there. -/
theorem offset?_eq_some_iff {text : String} {line column bytes : Nat} (hline : 1 ≤ line)
    (hcolumn : 1 ≤ column) :
    offset? text line column = some bytes ↔
      ∃ front rest, text.toList = front ++ rest ∧ EndsAt front line column ∧
        byteSize front = bytes := by
  obtain ⟨count, rfl⟩ := Nat.exists_eq_add_of_le' hline
  obtain ⟨width, rfl⟩ := Nat.exists_eq_add_of_le' hcolumn
  constructor
  · intro h
    obtain ⟨⟨n, after⟩, hskip, h⟩ := Option.bind_eq_some_iff.1 h
    obtain ⟨m, hcount, h⟩ := Option.bind_eq_some_iff.1 h
    cases h
    obtain ⟨before, htext, hbefore, rfl, rfl⟩ := exists_of_skipLines hskip
    obtain ⟨front, rest, rfl, hfront, hwidth, rfl⟩ := exists_of_bytesInLine hcount
    refine ⟨before ++ front, rest, by rw [htext, List.append_assoc], ⟨?_, ?_⟩,
      byteSize_append before front⟩
    · rw [List.count_append, List.count_eq_zero.2 hfront, Nat.add_zero]
    · rw [lastLine_append hbefore hfront, hwidth, Nat.add_sub_cancel]
  · rintro ⟨front, rest, htext, hat, rfl⟩
    obtain ⟨before, hbefore, hfront⟩ := exists_endsLine_append_lastLine front
    have hlast := newline_not_mem_lastLine front
    have hcount : front.count '\n' = before.count '\n' := by
      rw [hfront, List.count_append, List.count_eq_zero.2 hlast, Nat.add_zero]
    rw [hat.line_eq, hat.column_eq, hcount]
    conv_rhs => rw [hfront]
    have hparts : text.toList = before ++ (lastLine front ++ rest) := by
      rw [htext, ← List.append_assoc, ← hfront]
    exact offset?_eq hparts hbefore hlast

/-! ### Which places there are -/

/-- Skipping lines leads to a line of the text. -/
theorem skipLines_map_takeWhile (count : Nat) (cs : List Char) :
    (skipLines count cs).map (fun rest => rest.2.takeWhile (· != '\n')) =
      (cs.splitOn '\n')[count]? := by
  induction cs generalizing count with
  | nil => cases count <;> simp [skipLines]
  | cons c cs ih =>
    rw [List.splitOn_cons_eq_if_modifyHead]
    obtain ⟨first, others, hlines⟩ := List.exists_cons_of_ne_nil (List.splitOn_ne_nil '\n' cs)
    by_cases hc : c = '\n'
    · cases count with
      | zero => simp [skipLines, hc]
      | succ count => simp [skipLines, hc, ← ih, Option.map_map, Function.comp_def]
    · cases count with
      | zero =>
        have hfirst : cs.takeWhile (· != '\n') = first := by
          simpa [skipLines, hlines] using ih 0
        simp [skipLines, hc, hlines, hfirst]
      | succ count =>
        have hothers := ih (count + 1)
        rw [hlines, List.getElem?_cons_succ] at hothers
        simp [skipLines, hc, hlines, ← hothers, Option.map_map, Function.comp_def]

theorem bytesInLine_isSome_iff (count : Nat) (cs : List Char) :
    (bytesInLine count cs).isSome ↔ count ≤ (cs.takeWhile (· != '\n')).length := by
  fun_induction bytesInLine count cs with
  | case1 cs => simp
  | case2 count => simp
  | case3 count cs => simp
  | case4 count c cs hc ih => simp [hc, ih]

/-- A place exists if its line does and is not too short. -/
theorem offset?_isSome_iff {text : String} {line column : Nat} (hline : 1 ≤ line) :
    (offset? text line column).isSome ↔
      ∃ chars, (text.toList.splitOn '\n')[line - 1]? = some chars ∧ column - 1 ≤ chars.length := by
  obtain ⟨count, rfl⟩ := Nat.exists_eq_add_of_le' hline
  rw [Nat.add_sub_cancel, ← skipLines_map_takeWhile]
  cases hskip : skipLines count text.toList with
  | none => simp [offset?, hskip]
  | some rest =>
    have hsome := bytesInLine_isSome_iff (column - 1) rest.2
    simpa [offset?, hskip, Option.isSome_bind] using hsome

/-! ### The order of places -/

theorem byteSize_pos {cs : List Char} (h : cs ≠ []) : 0 < byteSize cs := by
  obtain ⟨c, rest, rfl⟩ := List.exists_cons_of_ne_nil h
  exact Nat.add_pos_left c.utf8Size_pos _

/-- A longer piece ends at a later place. -/
theorem EndsAt.lt_of_append {front more : List Char} {line column line' column' : Nat}
    (h : EndsAt front line column) (h' : EndsAt (front ++ more) line' column')
    (hmore : more ≠ []) : toLex (line, column) < toLex (line', column') := by
  rw [Prod.Lex.toLex_lt_toLex, h.line_eq, h.column_eq, h'.line_eq, h'.column_eq, List.count_append]
  by_cases hnewline : '\n' ∈ more
  · have hcount := List.count_pos_iff.2 hnewline
    left
    dsimp only
    omega
  · have hlength := List.length_pos_iff.2 hmore
    right
    rw [List.count_eq_zero.2 hnewline, lastLine_append_of_newline_not_mem hnewline,
      List.length_append]
    dsimp only
    omega

/-- Places are ordered as their offsets are. -/
theorem offset?_lt_iff {text : String} {line column line' column' bytes bytes' : Nat}
    (hline : 1 ≤ line) (hcolumn : 1 ≤ column) (hline' : 1 ≤ line') (hcolumn' : 1 ≤ column')
    (h : offset? text line column = some bytes) (h' : offset? text line' column' = some bytes') :
    bytes < bytes' ↔ toLex (line, column) < toLex (line', column') := by
  obtain ⟨front, rest, htext, hat, rfl⟩ := (offset?_eq_some_iff hline hcolumn).1 h
  obtain ⟨front', rest', htext', hat', rfl⟩ := (offset?_eq_some_iff hline' hcolumn').1 h'
  rw [htext] at htext'
  -- of two pieces in front of one text, one is a piece in front of the other
  rcases List.append_eq_append_iff.1 htext' with ⟨more, rfl, -⟩ | ⟨more, rfl, -⟩
  · rw [byteSize_append]
    by_cases hmore : more = []
    · subst hmore
      rw [List.append_nil] at hat'
      simp [byteSize, hat.line_eq, hat.column_eq, hat'.line_eq, hat'.column_eq]
    · exact iff_of_true (Nat.lt_add_of_pos_right (byteSize_pos hmore)) (hat.lt_of_append hat' hmore)
  · rw [byteSize_append]
    refine iff_of_false (Nat.not_lt.2 (Nat.le_add_right _ _)) ?_
    by_cases hmore : more = []
    · subst hmore
      rw [List.append_nil] at hat
      simp [hat.line_eq, hat.column_eq, hat'.line_eq, hat'.column_eq]
    · exact (hat'.lt_of_append hat hmore).asymm

/-! ### Boundaries -/

theorem byteSize_ofList (cs : List Char) : byteSize cs = (String.ofList cs).utf8ByteSize := by
  induction cs with
  | nil => rfl
  | cons c cs ih => rw [byteSize, ih, String.ofList_cons, String.utf8ByteSize_append,
      String.utf8ByteSize_singleton]

/-- An offset is a boundary between characters, and up to there the lines and columns of the place
are counted. -/
theorem offset?_eq_some_iff_exists_pos {text : String} {line column bytes : Nat} (hline : 1 ≤ line)
    (hcolumn : 1 ≤ column) :
    offset? text line column = some bytes ↔
      ∃ place : text.Pos, place.offset.byteIdx = bytes ∧
        EndsAt (text.sliceTo place).copy.toList line column := by
  rw [offset?_eq_some_iff hline hcolumn]
  constructor
  · rintro ⟨front, rest, htext, hat, rfl⟩
    have hparts : text = String.ofList front ++ String.ofList rest := by
      rw [← String.toList_inj, htext, String.toList_append, String.toList_ofList,
        String.toList_ofList]
    have hvalid : (String.ofList front).rawEndPos.IsValid text :=
      String.Pos.Raw.isValid_iff_exists_append.2 ⟨_, _, hparts, rfl⟩
    have hsplits : (text.pos _ hvalid).Splits (String.ofList front) (String.ofList rest) :=
      ⟨hparts, rfl⟩
    refine ⟨text.pos _ hvalid, ?_, ?_⟩
    · exact (byteSize_ofList front).symm
    · rw [(text.pos _ hvalid).splits.eq_left hsplits, String.toList_ofList]
      exact hat
  · rintro ⟨place, rfl, hat⟩
    have hsplits := place.splits
    refine ⟨_, (text.sliceFrom place).copy.toList, ?_, hat, ?_⟩
    · rw [← String.toList_append, ← hsplits.eq_append]
    · rw [byteSize_ofList, String.ofList_toList, hsplits.offset_eq_rawEndPos]
      rfl

end Text

/-- Turning a place into an offset is the inverse of counting. A place has an offset if the text has
its line and the line has its column, or ends right in front of it. The offset is then the one
boundary between characters up to which the newlines and the characters behind the last of them give
the line and the column, and places that differ have different offsets in the same order. -/
theorem offsets_invert_counting (text : String) (line column : Nat) (hline : 1 ≤ line)
    (hcolumn : 1 ≤ column) :
    ((∃ bytes, Text.offset? text line column = some bytes) ↔
      ∃ chars, (text.toList.splitOn '\n')[line - 1]? = some chars ∧ column - 1 ≤ chars.length) ∧
    (∀ bytes, Text.offset? text line column = some bytes ↔
      ∃ place : text.Pos, place.offset.byteIdx = bytes ∧
        (text.sliceTo place).copy.toList.count '\n' = line - 1 ∧
        (Text.lastLine (text.sliceTo place).copy.toList).length = column - 1) ∧
    ∀ line' column' bytes bytes', 1 ≤ line' → 1 ≤ column' →
      Text.offset? text line column = some bytes → Text.offset? text line' column' = some bytes' →
      (bytes < bytes' ↔ toLex (line, column) < toLex (line', column')) ∧
      (bytes = bytes' ↔ (line, column) = (line', column')) := by
  refine ⟨?_, fun bytes => ?_, fun line' column' bytes bytes' hline' hcolumn' h h' => ?_⟩
  · rw [← Option.isSome_iff_exists]
    exact Text.offset?_isSome_iff hline
  · rw [Text.offset?_eq_some_iff_exists_pos hline hcolumn]
    refine exists_congr fun place => and_congr_right fun _ => ?_
    constructor
    · rintro ⟨hcount, hlength⟩
      omega
    · rintro ⟨hcount, hlength⟩
      exact ⟨by omega, by omega⟩
  · have hlt := Text.offset?_lt_iff hline hcolumn hline' hcolumn' h h'
    have hgt := Text.offset?_lt_iff hline' hcolumn' hline hcolumn h' h
    refine ⟨hlt, fun heq => ?_, fun heq => ?_⟩
    · subst heq
      have hnotLt := mt hlt.2 (lt_irrefl bytes)
      have hnotGt := mt hgt.2 (lt_irrefl bytes)
      exact toLex_inj.1 (le_antisymm (not_lt.1 hnotGt) (not_lt.1 hnotLt))
    · cases heq
      exact Option.some.inj (h.symm.trans h')

/-- The second `é` of two lines, each with one, and the end of the text behind it. -/
theorem offsets_invert_counting_accent :
    Text.offset? "é\né" 2 1 = some 3 ∧ Text.offset? "é\né" 2 2 = some 5 ∧
    ((3 < 5 ↔ toLex (2, 1) < toLex (2, 2)) ∧ (3 = 5 ↔ (2, 1) = (2, 2))) ∧
    ∃ place : "é\né".Pos, place.offset.byteIdx = 5 ∧
      ("é\né".sliceTo place).copy.toList.count '\n' = 1 ∧
      (Text.lastLine ("é\né".sliceTo place).copy.toList).length = 1 := by
  have hsecond : Text.offset? "é\né" 2 1 = some 3 := by decide +kernel
  have hend : Text.offset? "é\né" 2 2 = some 5 := by decide +kernel
  have hcounts := offsets_invert_counting "é\né" 2 2 (by decide) (by decide)
  have horder := offsets_invert_counting "é\né" 2 1 (by decide) (by decide)
  exact ⟨hsecond, hend, horder.2.2 2 2 3 5 (by decide) (by decide) hsecond hend,
    (hcounts.2.1 5).1 hend⟩

end BracketScript
