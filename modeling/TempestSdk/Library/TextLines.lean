import Mathlib.Data.List.Basic

/-!
# Lines of a text

A text is cut into lines at the characters that end one.  A carriage return and
the line feed behind it are one end.  Python ends a line at more characters
than most formats of lines do, and it does not tell a text from the same text
with one more end behind it.
-/

namespace TextLines

/-- A carriage return before a line feed is left out. -/
@[grind =] def crlf : List Char → List Char
  | [] => []
  | char :: rest =>
    if char = '\r' ∧ rest.head? = some '\n' then crlf rest
    else char :: crlf rest

def pieces (ends : Char → Bool) (text : List Char) : List (List Char) :=
  (crlf text).splitOnP ends

def closed (ends : Char → Bool) (text : List Char) : List (List Char) :=
  (pieces ends text).dropLast

def lines (ends : Char → Bool) (text : List Char) : List (List Char) :=
  if (pieces ends text).getLast? = some [] then closed ends text
  else pieces ends text

@[grind =] def isBreak (char : Char) : Bool :=
  char == '\n' || char == '\r'

/-- What ends a line of `str.splitlines`. -/
def isBoundary (char : Char) : Bool :=
  char ∈ ['\n', '\r', '\x0b', '\x0c', '\x1c', '\x1d', '\x1e', '\x85', '\u2028', '\u2029']

def splitlines (text : List Char) : List (List Char) :=
  lines isBoundary text

def lineFeeds (text : List Char) : List Char :=
  (crlf text).map fun char => if char = '\r' then '\n' else char

def join (parts : List (List Char)) : List Char :=
  ['\n'].intercalate parts

variable {ends : Char → Bool} {text line rest : List Char}

theorem join_concat (first : List Char) (parts : List (List Char)) (last : List Char) :
    join (first :: parts ++ [last]) = join (first :: parts) ++ '\n' :: last := by
  induction parts generalizing first with
  | nil => simp [join]
  | cons second parts induction =>
    have later := induction second
    simp only [join, List.cons_append, List.intercalate_cons_cons] at later ⊢
    rw [later]
    simp

theorem join_append_lineFeed {parts : List (List Char)} (nonempty : parts ≠ []) :
    join parts ++ ['\n'] = parts.flatMap (· ++ ['\n']) := by
  induction parts with
  | nil => exact (nonempty rfl).elim
  | cons first parts induction =>
    cases parts with
    | nil => simp [join]
    | cons second parts =>
      have later := induction (List.cons_ne_nil _ _)
      simp only [join] at later
      rw [join, List.intercalate_cons_cons, List.append_assoc, later]
      simp

theorem crlf_append_lineFeed (text rest : List Char) :
    crlf (text ++ '\n' :: rest) = crlf (text ++ ['\n']) ++ crlf rest := by
  induction text with
  | nil => simp [crlf]
  | cons char text induction =>
    have same : (text ++ '\n' :: rest).head? = (text ++ ['\n']).head? := by
      cases text <;> rfl
    simp only [List.cons_append, crlf, same, induction]
    split <;> rfl

theorem crlf_eq_self (clean : '\r' ∉ text) : crlf text = text := by
  induction text with
  | nil => rfl
  | cons char text induction =>
    simp only [List.mem_cons, not_or] at clean
    simp [crlf, Ne.symm clean.1, induction clean.2]

theorem getLast?_crlf (text : List Char) : (crlf text).getLast? = text.getLast? := by
  induction text with
  | nil => rfl
  | cons char text induction =>
    unfold crlf
    split
    · next skipped =>
        rw [induction]
        cases text with
        | nil => simp at skipped
        | cons => simp [List.getLast?_cons_cons]
    · simp only [List.getLast?_cons, induction]

variable {char : Char}

theorem crlf_subset (member : char ∈ crlf text) : char ∈ text := by
  induction text with
  | nil => exact member
  | cons first text induction =>
    unfold crlf at member
    split at member
    · exact List.mem_cons_of_mem _ (induction member)
    · rcases List.mem_cons.mp member with same | later
      · exact same ▸ List.mem_cons_self
      · exact List.mem_cons_of_mem _ (induction later)

theorem mem_crlf (member : char ∈ text) (other : char ≠ '\r') : char ∈ crlf text := by
  induction text with
  | nil => exact member
  | cons first text induction =>
    unfold crlf
    split
    · next skipped =>
        rcases List.mem_cons.mp member with same | later
        · exact (other (same.trans skipped.1)).elim
        · exact induction later
    · rcases List.mem_cons.mp member with same | later
      · exact same ▸ List.mem_cons_self
      · exact List.mem_cons_of_mem _ (induction later)

theorem not_ends_of_mem {piece : List Char}
    (member : piece ∈ text.splitOnP ends) (inside : char ∈ piece) :
    ends char = false := by
  induction text generalizing piece with
  | nil =>
    have empty : piece = [] := by simpa using member
    simp [empty] at inside
  | cons first text induction =>
    rw [List.splitOnP_cons_eq_if_modifyHead] at member
    split at member
    · rcases List.mem_cons.mp member with empty | later
      · simp [empty] at inside
      · exact induction later inside
    · next kept =>
        obtain ⟨head, tail, parts⟩ :=
          List.exists_cons_of_ne_nil (List.splitOnP_ne_nil ends text)
        rw [parts] at member induction
        rcases List.mem_cons.mp member with same | later
        · rw [same] at inside
          rcases List.mem_cons.mp inside with this | inner
          · simpa [this] using kept
          · exact induction List.mem_cons_self inner
        · exact induction (List.mem_cons_of_mem _ later) inside

theorem splitOnP_congr {others : Char → Bool} (same : ∀ char ∈ text, ends char = others char) :
    text.splitOnP ends = text.splitOnP others := by
  induction text with
  | nil => rfl
  | cons first text induction =>
    have later := induction fun char member =>
      same char (List.mem_cons_of_mem _ member)
    simp only [List.splitOnP_cons_eq_if_modifyHead, same first List.mem_cons_self, later]

theorem splitOnP_map {others : Char → Bool} (change : Char → Char)
    (same : ∀ char, others (change char) = ends char)
    (kept : ∀ char, ends char = false → change char = char)
    (text : List Char) :
    (text.map change).splitOnP others = text.splitOnP ends := by
  induction text with
  | nil => rfl
  | cons first text induction =>
    simp only [List.map_cons, List.splitOnP_cons_eq_if_modifyHead, same, induction]
    cases ended : ends first with
    | true => rfl
    | false => simp [kept first ended]

theorem pieces_isBreak (text : List Char) :
    pieces isBreak text = (lineFeeds text).splitOn '\n' := by
  have same : ((crlf text).map fun char =>
      if char = '\r' then '\n' else char).splitOnP (· == '\n') =
        (crlf text).splitOnP isBreak := by
    apply splitOnP_map
    · intro char
      by_cases carriage : char = '\r'
      · simp [carriage, isBreak]
      · simp [carriage, isBreak]
    · intro char kept
      have other : char ≠ '\r' := by
        intro same
        simp [same, isBreak] at kept
      simp [other]
  rw [List.splitOn_eq_splitOnP, lineFeeds, same]
  rfl

theorem join_pieces (text : List Char) : join (pieces isBreak text) = lineFeeds text := by
  rw [pieces_isBreak]
  exact List.intercalate_splitOn '\n'

theorem lineFeed_mem_ends (text : List Char) :
    ∃ start, crlf (text ++ ['\n']) = start ++ ['\n'] := by
  have last : (crlf (text ++ ['\n'])).getLast? = some '\n' := by
    rw [getLast?_crlf]
    simp
  exact List.getLast?_eq_some_iff.mp last

theorem closed_append (feed : ends '\n' = true) (text rest : List Char) :
    closed ends (text ++ '\n' :: rest) = closed ends (text ++ ['\n']) ++ closed ends rest := by
  obtain ⟨start, started⟩ := lineFeed_mem_ends text
  have whole : crlf (text ++ '\n' :: rest) = start ++ '\n' :: crlf rest := by
    rw [crlf_append_lineFeed, started, List.append_assoc]
    rfl
  unfold closed pieces
  rw [whole, started, List.splitOnP_append_cons _ _ feed, List.splitOnP_append_cons _ _ feed,
    List.dropLast_append_of_ne_nil (List.splitOnP_ne_nil _ _)]
  simp

theorem closed_cons (feed : ends '\n' = true) (plain : char ≠ '\r')
    (inside : ends char = false) (text : List Char) :
    closed ends (char :: text ++ ['\n']) =
      (closed ends (text ++ ['\n'])).modifyHead (char :: ·) := by
  obtain ⟨start, started⟩ := lineFeed_mem_ends text
  have whole : crlf (char :: text ++ ['\n']) = char :: start ++ ['\n'] := by
    simp [crlf, plain, started]
  unfold closed pieces
  rw [whole, started, List.splitOnP_append_cons _ _ feed,
    List.splitOnP_append_cons _ _ feed, List.splitOnP_nil,
    List.dropLast_concat, List.dropLast_concat,
    List.splitOnP_cons_eq_if_modifyHead]
  simp [inside]

theorem closed_line (feed : ends '\n' = true) (carriage : '\r' ∉ line)
    (clean : ∀ char ∈ line, ends char = false) :
    closed ends (line ++ ['\n']) = [line] := by
  have kept : crlf (line ++ ['\n']) = line ++ ['\n'] := by
    apply crlf_eq_self
    simpa using carriage
  unfold closed pieces
  rw [kept, List.splitOnP_append_cons _ _ feed, List.splitOnP_eq_singleton clean]
  simp

theorem closed_flatMap {parts : List (List Char)}
    (clean : ∀ part ∈ parts, ∀ char ∈ part, isBreak char = false)
    (rest : List Char) :
    closed isBreak (parts.flatMap (· ++ ['\n']) ++ rest) =
      parts ++ closed isBreak rest := by
  induction parts with
  | nil => rfl
  | cons first parts induction =>
    have later := induction fun part member =>
      clean part (List.mem_cons_of_mem _ member)
    have firstClean := clean first List.mem_cons_self
    have noCarriage : '\r' ∉ first := by
      intro inside
      have := firstClean _ inside
      simp [isBreak] at this
    have shape : (first :: parts).flatMap (· ++ ['\n']) ++ rest =
        first ++ '\n' :: (parts.flatMap (· ++ ['\n']) ++ rest) := by
      simp
    rw [shape, closed_append rfl, closed_line rfl noCarriage firstClean, later]
    rfl

theorem getLast?_pieces (text : List Char) : (pieces isBreak text).getLast? = some [] ↔
      text = [] ∨ ∃ char, text.getLast? = some char ∧ isBreak char = true := by
  constructor
  · intro last
    obtain ⟨before, parts⟩ := List.getLast?_eq_some_iff.mp last
    have whole := join_pieces text
    rw [parts] at whole
    cases before with
    | nil =>
      left
      have empty : crlf text = [] := by
        simpa [join, lineFeeds] using whole.symm
      rw [← List.getLast?_eq_none_iff, ← getLast?_crlf, empty]
      rfl
    | cons first before =>
      right
      have ended : (lineFeeds text).getLast? = some '\n' := by
        rw [← whole]
        have split : join ((first :: before) ++ [[]]) = join (first :: before) ++ ['\n'] := by
          exact join_concat first before []
        rw [split]
        simp
      rw [lineFeeds, List.getLast?_map, getLast?_crlf] at ended
      obtain ⟨char, atEnd, isFeed⟩ := Option.map_eq_some_iff.mp ended
      refine ⟨char, atEnd, ?_⟩
      by_cases carriage : char = '\r'
      · simp [carriage, isBreak]
      · simpa [carriage, isBreak] using isFeed
  · intro ended
    rcases ended with empty | ⟨char, atEnd, isEnd⟩
    · subst empty
      rfl
    · have last : (crlf text).getLast? = some char := by
        rw [getLast?_crlf, atEnd]
      obtain ⟨start, started⟩ := List.getLast?_eq_some_iff.mp last
      unfold pieces
      rw [started, List.splitOnP_append_cons _ _ isEnd]
      simp

theorem mem_join {parts : List (List Char)} (member : char ∈ join parts) :
    char = '\n' ∨ ∃ part ∈ parts, char ∈ part := by
  induction parts with
  | nil => simp [join] at member
  | cons first parts induction =>
    cases parts with
    | nil =>
      right
      exact ⟨first, List.mem_cons_self, by simpa [join] using member⟩
    | cons second parts =>
      simp only [join, List.intercalate_cons_cons, List.mem_append,
        List.mem_singleton] at member induction
      rcases member with (inside | feed) | later
      · exact Or.inr ⟨first, List.mem_cons_self, inside⟩
      · exact Or.inl feed
      · rcases induction later with feed | ⟨part, found, inside⟩
        · exact Or.inl feed
        · exact Or.inr ⟨part, List.mem_cons_of_mem _ found, inside⟩

theorem mem_pieces_of_mem_lines {piece : List Char}
    (member : piece ∈ lines ends text) : piece ∈ pieces ends text := by
  unfold lines closed at member
  split at member
  · exact (List.dropLast_sublist _).subset member
  · exact member

theorem not_boundary_of_mem_splitlines {piece : List Char}
    (member : piece ∈ splitlines text) (inside : char ∈ piece) :
    isBoundary char = false :=
  not_ends_of_mem (mem_pieces_of_mem_lines member) inside

def BreaksOnly (text : List Char) : Prop :=
  ∀ char ∈ text, isBoundary char = true → isBreak char = true

def EndsInside (text : List Char) : Prop :=
  ∀ char ∈ text.getLast?, isBreak char = false

theorem isBoundary_of_isBreak (isEnd : isBreak char = true) : isBoundary char = true := by
  simp only [isBreak, Bool.or_eq_true, beq_iff_eq] at isEnd
  rcases isEnd with rfl | rfl <;> rfl

theorem pieces_of_breaksOnly (only : BreaksOnly text) :
    pieces isBoundary text = pieces isBreak text := by
  unfold pieces
  apply splitOnP_congr
  intro char member
  have inside : char ∈ text := crlf_subset member
  cases boundary : isBoundary char with
  | true => exact (only char inside boundary).symm
  | false =>
    cases isEnd : isBreak char with
    | true => simp [isBoundary_of_isBreak isEnd] at boundary
    | false => rfl

theorem splitlines_of_endsInside (only : BreaksOnly text)
    (inside : EndsInside text) (nonempty : text ≠ []) :
    splitlines text = pieces isBreak text := by
  unfold splitlines lines
  rw [if_neg, pieces_of_breaksOnly only]
  rw [pieces_of_breaksOnly only, getLast?_pieces]
  intro ended
  rcases ended with empty | ⟨char, atEnd, isEnd⟩
  · exact nonempty empty
  · simp [inside char atEnd] at isEnd

theorem breaksOnly_of_join
    (same : join (splitlines text) = lineFeeds text) : BreaksOnly text := by
  intro char member boundary
  by_contra other
  have notBreak : char ≠ '\r' := by
    intro carriage
    simp [carriage, isBreak] at other
  have changed : char ∈ lineFeeds text := by
    refine List.mem_map.mpr ⟨char, mem_crlf member notBreak, ?_⟩
    simp [notBreak]
  rw [← same] at changed
  rcases mem_join changed with feed | ⟨piece, found, inside⟩
  · simp [feed, isBreak] at other
  · simp [not_boundary_of_mem_splitlines found inside] at boundary

theorem endsInside_of_join
    (same : join (splitlines text) = lineFeeds text) : EndsInside text := by
  intro char atEnd
  by_contra isEnd
  have only := breaksOnly_of_join same
  have last : (pieces isBreak text).getLast? = some [] :=
    (getLast?_pieces text).mpr (Or.inr ⟨char, atEnd, by simpa using isEnd⟩)
  have cut : splitlines text = (pieces isBreak text).dropLast := by
    unfold splitlines lines closed
    rw [pieces_of_breaksOnly only, if_pos last]
  obtain ⟨before, parts⟩ := List.getLast?_eq_some_iff.mp last
  have whole := join_pieces text
  rw [cut, parts, List.dropLast_concat] at same
  rw [← same, parts] at whole
  cases before with
  | nil =>
    have empty : crlf text = [] := by
      simpa [join, lineFeeds] using same.symm
    have ended := getLast?_crlf text
    rw [empty, atEnd] at ended
    cases ended
  | cons first before =>
    rw [join_concat] at whole
    have lengths := congrArg List.length whole
    simp at lengths

theorem join_splitlines (text : List Char) : join (splitlines text) = lineFeeds text ↔
      BreaksOnly text ∧ EndsInside text := by
  constructor
  · intro same
    exact ⟨breaksOnly_of_join same, endsInside_of_join same⟩
  · intro ⟨only, inside⟩
    by_cases empty : text = []
    · subst empty
      rfl
    · rw [splitlines_of_endsInside only inside empty, join_pieces]

theorem length_join_splitOnP (ends : Char → Bool) (text : List Char) :
    (join (text.splitOnP ends)).length = text.length := by
  induction text with
  | nil => rfl
  | cons char text induction =>
    obtain ⟨first, parts, shape⟩ :=
      List.exists_cons_of_ne_nil (List.splitOnP_ne_nil ends text)
    rw [List.splitOnP_cons_eq_if_modifyHead, List.length_cons, ← induction, shape]
    split
    · rw [join, List.intercalate_cons_cons]
      simp only [List.nil_append, List.singleton_append, List.length_cons]
      rfl
    · cases parts with
      | nil => simp [join]
      | cons second parts => simp [join, List.intercalate_cons_cons]

theorem length_crlf (text : List Char) : (crlf text).length ≤ text.length := by
  induction text with
  | nil => exact Nat.le_refl _
  | cons char text induction =>
    unfold crlf
    split
    · exact Nat.le_succ_of_le induction
    · exact Nat.succ_le_succ induction

theorem length_join_splitlines (text : List Char) :
    (join (splitlines text)).length ≤ text.length := by
  have whole : (join (pieces isBoundary text)).length ≤ text.length := by
    rw [pieces, length_join_splitOnP]
    exact length_crlf text
  unfold splitlines lines
  split
  · next last =>
      obtain ⟨before, parts⟩ := List.getLast?_eq_some_iff.mp last
      rw [closed, parts, List.dropLast_concat]
      rw [parts] at whole
      cases before with
      | nil => simp [join]
      | cons first before =>
        rw [join_concat, List.length_append] at whole
        omega
  · exact whole

theorem splitlines_plain (nonempty : text ≠ [])
    (plain : ∀ char ∈ text, isBoundary char = false) :
    splitlines text = [text] := by
  have noCarriage : '\r' ∉ text := by
    intro member
    have := plain _ member
    simp [isBoundary] at this
  have one : pieces isBoundary text = [text] := by
    rw [pieces, crlf_eq_self noCarriage, List.splitOnP_eq_singleton plain]
  unfold splitlines lines
  rw [one, if_neg]
  simpa using nonempty

end TextLines
