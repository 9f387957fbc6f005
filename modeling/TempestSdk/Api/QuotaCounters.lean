import TempestSdk.Api.QuotaAgreement
import TempestSdk.Library.PyFormat
import TempestSdk.Library.PyStrings

/-!
# The counters of quotas

A rule without a scope derives one from its numbers, and the counter of a key
under it is named by the key and the scope.  The name tells the key, the limit
and the burst.  Of the window it tells six significant digits, so two windows
that agree in these share a counter.
-/

namespace TempestSdk.Quota

open PyFormat (general rounded)

section

variable {rule other : RateLimitRule}

def digits (number : Nat) : List Char := Nat.toDigits 10 number

def burstText (rule : RateLimitRule) : List Char :=
  match rule.burst with
  | some burst => '+' :: 'b' :: digits burst
  | none => []

theorem scope_toList (derived : rule.scope = "") :
    (rule.effectiveScope general).toList = digits rule.maxRequests ++ '/' ::
        (PyFormat.generalText rule.windowSeconds ++ 's' :: burstText rule) := by
  unfold RateLimitRule.effectiveScope burstText digits
  rw [if_neg (by simp [derived])]
  dsimp only
  cases rule.burst with
  | none => simp [general, toString, Nat.repr]
  | some burst => simp [general, toString, Nat.repr]

theorem digits_inj {number other : Nat} (same : digits number = digits other) :
    number = other := by
  have read := congrArg (fun chars => Nat.ofDigitChars 10 chars 0) same
  simpa [digits] using read

theorem not_mem_digits {number : Nat} {char : Char}
    (other : char.isDigit = false) : char ∉ digits number := by
  intro member
  have digit := Nat.isDigit_of_mem_toDigits (by decide) (by decide) member
  rw [other] at digit
  cases digit

theorem not_mem_general {char : Char} (sign : char ∉ ['.', 'e', '+', '-'])
    (other : PyText.Decimal.isDigit char = false) :
    char ∉ PyFormat.generalText rule.windowSeconds := by
  intro member
  rcases PyFormat.generalText_char rule.window_positive member with
    found | digit
  · exact sign found
  · rw [other] at digit
    cases digit

theorem not_mem_scope (derived : rule.scope = "") :
    '|' ∉ (rule.effectiveScope general).toList := by
  rw [scope_toList derived]
  intro member
  rcases List.mem_append.mp member with digit | behind
  · exact not_mem_digits (by decide) digit
  · rcases List.mem_cons.mp behind with slash | window
    · cases slash
    · rcases List.mem_append.mp window with number | tail
      · exact not_mem_general (by decide) (by decide) number
      · rcases List.mem_cons.mp tail with unit | burst
        · cases unit
        · unfold burstText at burst
          split at burst
          · rcases List.mem_cons.mp burst with plus | rest
            · cases plus
            · rcases List.mem_cons.mp rest with mark | digit
              · cases mark
              · exact not_mem_digits (by decide) digit
          · cases burst

theorem burstText_inj (same : burstText rule = burstText other) : rule.burst = other.burst := by
  unfold burstText at same
  cases set : rule.burst with
  | none =>
    cases other_set : other.burst with
    | none => rfl
    | some burst =>
      rw [set, other_set] at same
      cases same
  | some burst =>
    cases other_set : other.burst with
    | none =>
      rw [set, other_set] at same
      cases same
    | some other_burst =>
      rw [set, other_set] at same
      simp only [List.cons.injEq, true_and] at same
      rw [digits_inj same]

theorem rule_eq (limits : rule.maxRequests = other.maxRequests)
    (windows : rule.windowSeconds = other.windowSeconds)
    (bursts : rule.burst = other.burst) (scopes : rule.scope = other.scope) :
    rule = other := by
  cases rule
  cases other
  dsimp only at limits windows bursts scopes
  subst limits windows bursts scopes
  rfl

theorem derived_scope_eq_iff (derived : rule.scope = "") (other_derived : other.scope = "") :
    rule.effectiveScope general = other.effectiveScope general ↔
      rule.maxRequests = other.maxRequests ∧ rule.burst = other.burst ∧
        rounded rule.windowSeconds = rounded other.windowSeconds := by
  have windows := PyFormat.general_eq_iff rule.window_positive other.window_positive
  constructor
  · intro same
    have texts := congrArg String.toList same
    rw [scope_toList derived, scope_toList other_derived] at texts
    obtain ⟨limits, behind⟩ := PyStrings.cut_unique
      (not_mem_digits (by decide)) (not_mem_digits (by decide)) texts
    obtain ⟨numbers, bursts⟩ := PyStrings.cut_unique (not_mem_general (by decide) (by decide))
      (not_mem_general (by decide) (by decide)) behind
    refine ⟨digits_inj limits, burstText_inj bursts, windows.mp ?_⟩
    exact congrArg String.ofList numbers
  · rintro ⟨limits, bursts, numbers⟩
    unfold RateLimitRule.effectiveScope
    rw [derived, other_derived, limits, bursts, windows.mpr numbers]

theorem ruleKey_eq_iff {key another : String} (derived : rule.scope = "")
    (other_derived : other.scope = "") :
    ruleKey general key rule = ruleKey general another other ↔ key = another ∧
        rule.effectiveScope general = other.effectiveScope general := by
  constructor
  · intro same
    have texts := congrArg String.toList same
    unfold ruleKey at texts
    simp only [String.toList_append] at texts
    rw [List.append_assoc, List.append_assoc] at texts
    obtain ⟨keys, scopes⟩ := PyStrings.last_cut_unique
      (not_mem_scope derived) (not_mem_scope other_derived) texts
    exact ⟨String.toList_inj.mp keys, String.toList_inj.mp scopes⟩
  · rintro ⟨rfl, scopes⟩
    unfold ruleKey
    rw [scopes]

def SameDigits (rule other : RateLimitRule) : Prop :=
  rule.maxRequests = other.maxRequests ∧ rule.burst = other.burst ∧
    rule.windowSeconds ≠ other.windowSeconds ∧
    rounded rule.windowSeconds = rounded other.windowSeconds

/-- A key under a rule has a counter of its own in both stores, unless the
other rule of the same key differs in nothing that six digits of the window
show. -/
theorem counters_apart_iff (key another : String) (rule other : RateLimitRule)
    (derived : rule.scope = "") (other_derived : other.scope = "") :
    ((key, rule) ≠ (another, other) → ruleKey general key rule ≠ ruleKey general another other ∧
        ∀ store : RedisQuotaStore,
          store.keyOf general key rule ≠ store.keyOf general another other) ↔
      ¬ (key = another ∧ SameDigits rule other) := by
  have counters : ruleKey general key rule = ruleKey general another other ↔
      key = another ∧ rule.maxRequests = other.maxRequests ∧ rule.burst = other.burst ∧
        rounded rule.windowSeconds = rounded other.windowSeconds := by
    rw [ruleKey_eq_iff derived other_derived, derived_scope_eq_iff derived other_derived]
  constructor
  · rintro apart ⟨keys, limits, bursts, windows, numbers⟩
    have different : (key, rule) ≠ (another, other) := by
      intro same
      exact windows (congrArg (fun pair => pair.2.windowSeconds) same)
    exact (apart different).1 (counters.mpr ⟨keys, limits, bursts, numbers⟩)
  · intro separate different
    have apart : ruleKey general key rule ≠ ruleKey general another other := by
      intro same
      obtain ⟨keys, limits, bursts, numbers⟩ := counters.mp same
      have windows : rule.windowSeconds = other.windowSeconds := by
        by_contra unequal
        exact separate ⟨keys, limits, bursts, unequal, numbers⟩
      apply different
      rw [keys, rule_eq limits windows bursts (derived.trans other_derived.symm)]
    refine ⟨apart, ?_⟩
    intro store same
    exact apart (RedisQuotaStore.keyOf_inj.mp same)

end

theorem seconds_positive {seconds : Nat} (some_seconds : 0 < seconds) : (0 : ℚ) < seconds := by
  exact_mod_cast some_seconds

def onceIn (seconds : Nat) (some_seconds : 0 < seconds) : RateLimitRule where
  maxRequests := 1
  windowSeconds := seconds
  burst := none
  scope := ""
  requests_positive := one_request
  window_positive := seconds_positive some_seconds
  burst_positive := fun _ => no_burst

theorem rounded_minute : rounded 60 ≠ rounded 61 := by with_unfolding_all decide

theorem minutes_apart : ruleKey general "key" (onceIn 60 (by decide)) ≠
        ruleKey general "key" (onceIn 61 (by decide)) ∧
      ∀ store : RedisQuotaStore, store.keyOf general "key" (onceIn 60 (by decide)) ≠
          store.keyOf general "key" (onceIn 61 (by decide)) := by
  apply (counters_apart_iff "key" "key" (onceIn 60 (by decide))
    (onceIn 61 (by decide)) rfl rfl).mpr
  · rintro ⟨_, _, _, _, numbers⟩
    exact rounded_minute numbers
  · intro same
    have windows := congrArg (fun pair => pair.2.windowSeconds) same
    revert windows
    decide

theorem rounded_million : rounded 1000000 = rounded 1000001 := by
  with_unfolding_all decide

theorem millions_share_a_counter :
    ("key", onceIn 1000000 (by decide)) ≠ ("key", onceIn 1000001 (by decide)) ∧
      ruleKey general "key" (onceIn 1000000 (by decide)) =
        ruleKey general "key" (onceIn 1000001 (by decide)) ∧
      ∀ store : RedisQuotaStore, store.keyOf general "key" (onceIn 1000000 (by decide)) =
          store.keyOf general "key" (onceIn 1000001 (by decide)) := by
  have shared : ruleKey general "key" (onceIn 1000000 (by decide)) =
      ruleKey general "key" (onceIn 1000001 (by decide)) := by
    apply (ruleKey_eq_iff rfl rfl).mpr
    exact ⟨rfl, (derived_scope_eq_iff rfl rfl).mpr ⟨rfl, rfl, rounded_million⟩⟩
  refine ⟨?_, shared, fun store => RedisQuotaStore.keyOf_inj.mpr shared⟩
  intro same
  have windows := congrArg (fun pair => pair.2.windowSeconds) same
  revert windows
  decide

end TempestSdk.Quota
