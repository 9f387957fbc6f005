import Mathlib.Data.List.Basic

/-!
# Regular patterns over classes of characters

The words of a pattern, and the match of a whole text by derivatives.
-/

namespace Patterns

variable {α : Type}

/-- A regular expression whose letters are tests. -/
inductive Pattern (α : Type) where
  | nothing
  | empty
  | one (test : α → Bool)
  | seq (first second : Pattern α)
  | either (left right : Pattern α)
  | star (body : Pattern α)

namespace Pattern

def optional (pattern : Pattern α) : Pattern α := .either .empty pattern

def plus (pattern : Pattern α) : Pattern α := .seq pattern (.star pattern)

def times (pattern : Pattern α) : Nat → Pattern α
  | 0 => .empty
  | count + 1 => .seq pattern (pattern.times count)

def inTurn (patterns : List (Pattern α)) : Pattern α :=
  patterns.foldr .seq .empty

inductive Matches : Pattern α → List α → Prop where
  | empty : Matches .empty []
  | one {test : α → Bool} {letter : α} (passes : test letter = true) :
      Matches (.one test) [letter]
  | seq {first second : Pattern α} {front back : List α} :
      Matches first front → Matches second back →
      Matches (.seq first second) (front ++ back)
  | left {left right : Pattern α} {word : List α} :
      Matches left word → Matches (.either left right) word
  | right {left right : Pattern α} {word : List α} :
      Matches right word → Matches (.either left right) word
  | done {body : Pattern α} : Matches (.star body) []
  | more {body : Pattern α} {front back : List α} :
      Matches body front → Matches (.star body) back →
      Matches (.star body) (front ++ back)

/-- The empty word is among those of the pattern. -/
def nullable : Pattern α → Bool
  | .nothing => false
  | .empty => true
  | .one _ => false
  | .seq first second => first.nullable && second.nullable
  | .either left right => left.nullable || right.nullable
  | .star _ => true

def after (letter : α) : Pattern α → Pattern α
  | .nothing => .nothing
  | .empty => .nothing
  | .one test => if test letter then .empty else .nothing
  | .seq first second =>
    if first.nullable then
      .either (.seq (first.after letter) second) (second.after letter)
    else .seq (first.after letter) second
  | .either left right => .either (left.after letter) (right.after letter)
  | .star body => .seq (body.after letter) (.star body)

def fullmatch (pattern : Pattern α) (word : List α) : Bool :=
  (word.foldl (fun pattern letter => pattern.after letter) pattern).nullable

variable {word : List α}

theorem matches_seq_iff {first second : Pattern α} :
    Matches (.seq first second) word ↔ ∃ front back,
      word = front ++ back ∧ Matches first front ∧ Matches second back := by
  constructor
  · intro found
    cases found with
    | seq front back => exact ⟨_, _, rfl, front, back⟩
  · rintro ⟨front, back, rfl, first, second⟩
    exact .seq first second

theorem matches_either_iff {left right : Pattern α} : Matches (.either left right) word ↔
      Matches left word ∨ Matches right word := by
  constructor
  · intro found
    cases found with
    | left found => exact .inl found
    | right found => exact .inr found
  · rintro (found | found)
    · exact .left found
    · exact .right found

theorem matches_empty_iff : Matches .empty word ↔ word = [] := by
  constructor
  · intro found
    cases found
    rfl
  · rintro rfl
    exact .empty

variable {test : α → Bool}

theorem matches_one_iff : Matches (.one test) word ↔
      ∃ letter, word = [letter] ∧ test letter = true := by
  constructor
  · intro found
    cases found with
    | one passes => exact ⟨_, rfl, passes⟩
  · rintro ⟨letter, rfl, passes⟩
    exact .one passes

theorem not_matches_nothing : ¬Matches .nothing word := by
  intro found
  cases found

theorem matches_optional_iff {pattern : Pattern α} :
    Matches pattern.optional word ↔ word = [] ∨ Matches pattern word := by
  rw [optional, matches_either_iff, matches_empty_iff]

namespace Matches

variable {pattern : Pattern α} {patterns : List (Pattern α)}
  {front word : List α}

theorem next (found : Matches pattern front) (rest : Matches (inTurn patterns) word) :
    Matches (inTurn (pattern :: patterns)) (front ++ word) :=
  .seq found rest

theorem skip (rest : Matches (inTurn patterns) word) :
    Matches (inTurn (pattern.optional :: patterns)) word :=
  next (.left .empty) rest

theorem last (found : Matches pattern word) : Matches (inTurn [pattern]) word := by
  have whole : Matches (inTurn [pattern]) (word ++ []) := found.next .empty
  rwa [List.append_nil] at whole

end Matches

theorem nullable_iff (pattern : Pattern α) : pattern.nullable = true ↔ Matches pattern [] := by
  induction pattern with
  | nothing => simp [nullable, not_matches_nothing]
  | empty => simp [nullable, matches_empty_iff]
  | one test => simp [nullable, matches_one_iff]
  | seq first second onFirst onSecond => simp [nullable, onFirst, onSecond, matches_seq_iff]
  | either left right onLeft onRight => simp [nullable, onLeft, onRight, matches_either_iff]
  | star body _ => simp [nullable, Matches.done]

theorem matches_star_cons {body : Pattern α} {letter : α}
    (found : Matches (.star body) (letter :: word)) :
    ∃ front back, word = front ++ back ∧ Matches body (letter :: front) ∧
      Matches (.star body) back := by
  generalize whole : letter :: word = text at found
  generalize starred : Pattern.star body = pattern at found
  induction found with
  | done => cases whole
  | @more inner front back head tail _ rest =>
    cases starred
    cases front with
    | nil => exact rest whole rfl
    | cons first front =>
      obtain ⟨rfl, rfl⟩ := List.cons_eq_cons.mp whole
      exact ⟨front, back, rfl, head, tail⟩
  | _ => cases starred

theorem matches_after_iff (letter : α) (pattern : Pattern α) :
    ∀ word, Matches (pattern.after letter) word ↔ Matches pattern (letter :: word) := by
  induction pattern with
  | nothing => simp [after, not_matches_nothing]
  | empty => simp [after, not_matches_nothing, matches_empty_iff]
  | one test =>
    intro word
    by_cases passes : test letter = true
    · simp [after, passes, matches_empty_iff, matches_one_iff]
    · simp [after, passes, not_matches_nothing, matches_one_iff]
  | seq first second onFirst onSecond =>
    intro word
    have split : Matches (.seq first second) (letter :: word) ↔
        Matches (.seq (first.after letter) second) word ∨
          first.nullable = true ∧ Matches (second.after letter) word := by
      rw [matches_seq_iff, matches_seq_iff]
      constructor
      · rintro ⟨front, back, whole, head, tail⟩
        rcases List.cons_eq_append_iff.mp whole with
          ⟨rfl, rfl⟩ | ⟨front, rfl, rfl⟩
        · exact .inr ⟨(nullable_iff first).mpr head, (onSecond word).mpr tail⟩
        · exact .inl ⟨front, back, rfl, (onFirst front).mpr head, tail⟩
      · rintro (⟨front, back, rfl, head, tail⟩ | ⟨skipped, tail⟩)
        · exact ⟨letter :: front, back, rfl, (onFirst front).mp head, tail⟩
        · exact ⟨[], letter :: word, rfl, (nullable_iff first).mp skipped,
            (onSecond word).mp tail⟩
    rw [split, after]
    by_cases skips : first.nullable = true
    · simp [skips, matches_either_iff]
    · simp [skips]
  | either left right onLeft onRight =>
    intro word
    rw [after, matches_either_iff, matches_either_iff, onLeft, onRight]
  | star body onBody =>
    intro word
    rw [after, matches_seq_iff]
    constructor
    · rintro ⟨front, back, rfl, head, tail⟩
      exact .more ((onBody front).mp head) tail
    · intro found
      obtain ⟨front, back, rfl, head, tail⟩ := matches_star_cons found
      exact ⟨front, back, rfl, (onBody front).mpr head, tail⟩

theorem fullmatch_iff (pattern : Pattern α) (word : List α) :
    pattern.fullmatch word = true ↔ Matches pattern word := by
  induction word generalizing pattern with
  | nil => exact nullable_iff pattern
  | cons letter word rest =>
    exact (rest (pattern.after letter)).trans (matches_after_iff letter pattern word)

theorem matches_times_one_iff {count : Nat} :
    ∀ {word : List α}, Matches ((Pattern.one test).times count) word ↔
      word.length = count ∧ ∀ letter ∈ word, test letter = true := by
  induction count with
  | zero =>
    intro word
    rw [times, matches_empty_iff, List.length_eq_zero_iff]
    constructor
    · rintro rfl
      simp
    · exact And.left
  | succ count shorter =>
    intro word
    rw [times, matches_seq_iff]
    constructor
    · rintro ⟨front, back, rfl, head, tail⟩
      obtain ⟨letter, rfl, passes⟩ := matches_one_iff.mp head
      obtain ⟨length, all⟩ := shorter.mp tail
      exact ⟨by simp [length], by simpa [passes] using all⟩
    · rintro ⟨length, all⟩
      cases word with
      | nil => cases length
      | cons letter word =>
        exact ⟨[letter], word, rfl, .one (all letter (.head _)),
          shorter.mpr ⟨Nat.succ.inj length, fun other member => all other (.tail _ member)⟩⟩

theorem matches_star_one_iff : ∀ {word : List α}, Matches (.star (.one test)) word ↔
      ∀ letter ∈ word, test letter = true
  | [] => by simp [Matches.done]
  | letter :: word => by
      rw [List.forall_mem_cons]
      constructor
      · intro found
        obtain ⟨front, back, rfl, head, tail⟩ := matches_star_cons found
        obtain ⟨other, single, passes⟩ := matches_one_iff.mp head
        obtain ⟨rfl, rfl⟩ := List.cons_eq_cons.mp single
        exact ⟨passes, matches_star_one_iff.mp tail⟩
      · rintro ⟨passes, all⟩
        exact .more (.one passes) (matches_star_one_iff.mpr all)

theorem matches_plus_one_iff : Matches (Pattern.one test).plus word ↔
      word ≠ [] ∧ ∀ letter ∈ word, test letter = true := by
  rw [plus, matches_seq_iff]
  constructor
  · rintro ⟨front, back, rfl, head, tail⟩
    obtain ⟨letter, rfl, passes⟩ := matches_one_iff.mp head
    exact ⟨by simp, List.forall_mem_cons.mpr
      ⟨passes, matches_star_one_iff.mp tail⟩⟩
  · rintro ⟨present, all⟩
    obtain ⟨letter, word, rfl⟩ := List.exists_cons_of_ne_nil present
    rw [List.forall_mem_cons] at all
    exact ⟨[letter], word, rfl, .one all.1, matches_star_one_iff.mpr all.2⟩

def classes : Pattern α → List (α → Bool)
  | .nothing => []
  | .empty => []
  | .one test => [test]
  | .seq first second => first.classes ++ second.classes
  | .either left right => left.classes ++ right.classes
  | .star body => body.classes

theorem exists_class {pattern : Pattern α} (found : Matches pattern word) :
    ∀ letter ∈ word, ∃ test ∈ pattern.classes, test letter = true := by
  induction found with
  | empty => simp
  | one passes => simp [classes, passes]
  | seq _ _ front back =>
    rw [List.forall_mem_append]
    exact ⟨fun letter member => (front letter member).imp fun _ known =>
        ⟨List.mem_append_left _ known.1, known.2⟩,
      fun letter member => (back letter member).imp fun _ known =>
        ⟨List.mem_append_right _ known.1, known.2⟩⟩
  | left _ known =>
    exact fun letter member => (known letter member).imp fun _ known =>
      ⟨List.mem_append_left _ known.1, known.2⟩
  | right _ known =>
    exact fun letter member => (known letter member).imp fun _ known =>
      ⟨List.mem_append_right _ known.1, known.2⟩
  | done => simp
  | more _ _ front back =>
    rw [List.forall_mem_append]
    exact ⟨front, back⟩

/-- A relation between words that goes letter by letter, as a filter or a
substitution does. -/
structure Piecewise (relates : List α → List α → Prop) : Prop where
  nil : ∀ word, relates [] word → word = []
  append : ∀ front back word, relates (front ++ back) word →
    ∃ left right, word = left ++ right ∧ relates front left ∧ relates back right

def Carries (relates : List α → List α → Prop) (pattern : Pattern α) : Prop :=
  ∀ word other, Matches pattern word → relates word other → Matches pattern other

namespace Carries

variable {relates : List α → List α → Prop} {first second : Pattern α}

section

variable (piecewise : Piecewise relates)

include piecewise

theorem empty : Carries relates .empty := by
  intro word other found related
  cases found
  rw [piecewise.nil other related]
  exact .empty

theorem seq (front : Carries relates first) (back : Carries relates second) :
    Carries relates (.seq first second) := by
  intro word other found related
  cases found with
  | seq head tail =>
    obtain ⟨left, right, rfl, onLeft, onRight⟩ :=
      piecewise.append _ _ other related
    exact .seq (front _ left head onLeft) (back _ right tail onRight)

theorem star (body : Carries relates first) : Carries relates (.star first) := by
  intro word other found
  generalize starred : Pattern.star first = pattern at found
  induction found generalizing other with
  | done =>
    intro related
    rw [piecewise.nil other related]
    exact .done
  | more head _ _ rest =>
    cases starred
    intro related
    obtain ⟨left, right, rfl, onLeft, onRight⟩ :=
      piecewise.append _ _ other related
    exact .more (body _ left head onLeft) (rest right rfl onRight)
  | _ => cases starred

theorem plus (body : Carries relates first) : Carries relates first.plus :=
  .seq piecewise body (.star piecewise body)

theorem times (body : Carries relates first)
    (count : Nat) : Carries relates (first.times count) := by
  induction count with
  | zero => exact .empty piecewise
  | succ count fewer => exact .seq piecewise body fewer

theorem inTurn {patterns : List (Pattern α)}
    (bodies : ∀ pattern ∈ patterns, Carries relates pattern) :
    Carries relates (inTurn patterns) := by
  induction patterns with
  | nil => exact .empty piecewise
  | cons pattern patterns rest =>
    rw [List.forall_mem_cons] at bodies
    exact .seq piecewise bodies.1 (rest bodies.2)

end

end Carries

end Pattern

end Patterns
