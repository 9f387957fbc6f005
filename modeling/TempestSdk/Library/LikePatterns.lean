import Mathlib.Data.List.Infix

/-!
# Patterns of LIKE

The patterns of SQL with an escape character: a pattern is read as a list of
tokens, and tokens are matched with a text from left to right.  A text of which
every special character is escaped stands for itself.
-/

namespace LikePatterns

abbrev Text := List Char

inductive Token where
  | anyText
  | anyChar
  | literal (char : Char)
deriving DecidableEq

def tokenOf (char : Char) : Token :=
  if char = '%' then .anyText
  else if char = '_' then .anyChar
  else .literal char

/-- No tokens when nothing follows the escape character. -/
@[grind =] def tokens (escape : Char) : Text → Option (List Token)
  | [] => some []
  | char :: rest =>
    if char = escape then
      match rest with
      | [] => none
      | escaped :: after => (tokens escape after).map (.literal escaped :: ·)
    else (tokens escape rest).map (tokenOf char :: ·)

@[grind =] def accepts : List Token → Text → Bool
  | [], text => text.isEmpty
  | .anyText :: rest, text => text.tails.any (accepts rest)
  | .anyChar :: _, [] => false
  | .anyChar :: rest, _ :: text => accepts rest text
  | .literal _ :: _, [] => false
  | .literal char :: rest, first :: text => char == first && accepts rest text

/-- `text LIKE pattern ESCAPE escape`. -/
def like (escape : Char) (pattern text : Text) : Bool :=
  (tokens escape pattern).elim false (accepts · text)

def special (escape char : Char) : Bool :=
  char == escape || char == '%' || char == '_'

def escaped (escape char : Char) : Text :=
  if special escape char then [escape, char] else [char]

section

variable {escape char : Char} {value text : Text} {rest : List Token}

theorem accepts_nil : accepts [] text = true ↔ text = [] :=
  List.isEmpty_iff

theorem accepts_anyText : accepts (.anyText :: rest) text = true ↔
      ∃ suffix, suffix <:+ text ∧ accepts rest suffix = true := by
  simp [accepts]

theorem accepts_any_text : accepts [.anyText] text = true := by
  apply (accepts_anyText).mpr
  exact ⟨[], List.nil_suffix, rfl⟩

theorem accepts_literals : accepts (value.map .literal ++ rest) text = true ↔
      ∃ suffix, text = value ++ suffix ∧ accepts rest suffix = true := by
  induction value generalizing text with
  | nil => simp
  | cons first value induction =>
    cases text with
    | nil => simp [accepts]
    | cons head text =>
      simp only [List.map_cons, List.cons_append, accepts,
        Bool.and_eq_true, beq_iff_eq, induction]
      constructor
      · rintro ⟨rfl, suffix, rfl, accepted⟩
        exact ⟨suffix, rfl, accepted⟩
      · rintro ⟨suffix, same, accepted⟩
        obtain ⟨rfl, rfl⟩ := List.cons.inj same
        exact ⟨rfl, suffix, rfl, accepted⟩

theorem tokens_other (other : char ≠ escape) (pattern : Text) :
    tokens escape (char :: pattern) = (tokens escape pattern).map (tokenOf char :: ·) := by
  rw [tokens.eq_def]
  exact if_neg other

theorem tokens_escape (char : Char) (pattern : Text) :
    tokens escape (escape :: char :: pattern) =
      (tokens escape pattern).map (.literal char :: ·) := by
  rw [tokens.eq_def]
  exact if_pos rfl

theorem tokens_percent (plain : escape ≠ '%') (pattern : Text) :
    tokens escape ('%' :: pattern) = (tokens escape pattern).map (.anyText :: ·) :=
  tokens_other plain.symm pattern

theorem tokens_plain (plain : special escape char = false) (pattern : Text) :
    tokens escape (char :: pattern) = (tokens escape pattern).map (.literal char :: ·) := by
  simp only [special, Bool.or_eq_false_iff, beq_eq_false_iff_ne] at plain
  obtain ⟨⟨other, percent⟩, underscore⟩ := plain
  rw [tokens_other other, tokenOf, if_neg percent, if_neg underscore]

theorem tokens_escaped (value pattern : Text) :
    tokens escape (value.flatMap (escaped escape) ++ pattern) =
      (tokens escape pattern).map (value.map .literal ++ ·) := by
  induction value with
  | nil => simp
  | cons char value induction =>
    rw [List.flatMap_cons, List.append_assoc]
    cases kind : special escape char with
    | true =>
      simp only [escaped, kind, if_true, List.cons_append, List.nil_append]
      rw [tokens_escape, induction, Option.map_map]
      rfl
    | false =>
      simp only [escaped, kind, Bool.false_eq_true, if_false, List.cons_append, List.nil_append]
      rw [tokens_plain kind, induction, Option.map_map]
      rfl

theorem like_contains (plain : escape ≠ '%') :
    like escape ('%' :: (value.flatMap (escaped escape) ++ ['%'])) text =
      true ↔ value <:+: text := by
  have read : tokens escape ('%' :: (value.flatMap (escaped escape) ++ ['%'])) =
      some (.anyText :: (value.map .literal ++ [.anyText])) := by
    rw [tokens_percent plain, tokens_escaped, tokens_percent plain]
    rfl
  rw [like, read, Option.elim_some, accepts_anyText]
  constructor
  · rintro ⟨suffix, ⟨front, rfl⟩, accepted⟩
    obtain ⟨back, rfl, _⟩ := (accepts_literals).mp accepted
    exact ⟨front, back, List.append_assoc _ _ _⟩
  · rintro ⟨front, back, rfl⟩
    refine ⟨value ++ back, ⟨front, (List.append_assoc _ _ _).symm⟩, ?_⟩
    exact (accepts_literals).mpr ⟨back, rfl, accepts_any_text⟩

theorem like_startswith (plain : escape ≠ '%') :
    like escape (value.flatMap (escaped escape) ++ ['%']) text = true ↔ value <+: text := by
  have read : tokens escape (value.flatMap (escaped escape) ++ ['%']) =
      some (value.map .literal ++ [.anyText]) := by
    rw [tokens_escaped, tokens_percent plain]
    rfl
  rw [like, read, Option.elim_some, accepts_literals]
  constructor
  · rintro ⟨back, rfl, _⟩
    exact ⟨back, rfl⟩
  · rintro ⟨back, rfl⟩
    exact ⟨back, rfl, accepts_any_text⟩

theorem like_endswith (plain : escape ≠ '%') :
    like escape ('%' :: value.flatMap (escaped escape)) text = true ↔ value <:+ text := by
  have read : tokens escape ('%' :: value.flatMap (escaped escape)) =
      some (.anyText :: (value.map .literal ++ [])) := by
    have whole := @tokens_escaped escape value []
    rw [List.append_nil] at whole
    rw [tokens_percent plain, whole]
    rfl
  rw [like, read, Option.elim_some, accepts_anyText]
  constructor
  · rintro ⟨suffix, ends, accepted⟩
    obtain ⟨back, rfl, nothing⟩ := (accepts_literals).mp accepted
    rw [(accepts_nil).mp nothing, List.append_nil] at ends
    exact ends
  · intro ends
    refine ⟨value, ends, (accepts_literals).mpr ⟨[], ?_, rfl⟩⟩
    exact (List.append_nil value).symm

end

end LikePatterns
