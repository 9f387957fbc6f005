import Mathlib.Algebra.BigOperators.Group.List.Basic
import Mathlib.Data.List.SplitBy
import Mathlib.Algebra.Ring.Int.Defs

/-!
# Truncated transcripts

`truncate_messages` and the groups of a tool call with its results, over a
tokenizer that is known by the number of tokens it finds in a content.
-/

namespace TempestSdk.Tokens

variable {Id Content : Type}

/-- A chat turn; missing `tool_calls` are empty ones. -/
structure Message (Id Content : Type) where
  role : Option String
  content : Content
  tool_calls : List Id
  tool_call_id : Option Id

def Message.isTool (message : Message Id Content) : Bool :=
  message.role == some "tool"

/-- `message.get("tool_calls")` is true. -/
def Message.calls (message : Message Id Content) : Bool :=
  !message.tool_calls.isEmpty

structure Settings (Content : Type) where
  max_tokens : ℤ
  /-- The length of what `tokenizer.encode` makes of a content. -/
  tokens : Content → ℕ
  keep_system : Bool
  per_message_overhead : ℤ

def countMessageTokens (settings : Settings Content)
    (messages : List (Message Id Content)) : ℤ :=
  (messages.map fun message =>
    (settings.tokens message.content : ℤ) + settings.per_message_overhead).sum

def addMessage (groups : List (List (Message Id Content)))
    (message : Message Id Content) : List (List (Message Id Content)) :=
  match groups.getLast? with
  | some (head :: tail) =>
    if message.isTool && (head.calls || head.isTool) then
      groups.dropLast ++ [head :: tail ++ [message]]
    else groups ++ [[message]]
  | _ => groups ++ [[message]]

def toolCallGroups (messages : List (Message Id Content)) : List (List (Message Id Content)) :=
  messages.foldl addMessage []

def Settings.isSystem (settings : Settings Content) (message : Message Id Content) : Bool :=
  settings.keep_system && message.role == some "system"

def Settings.exceeded (settings : Settings Content)
    (messages : List (Message Id Content)) : Bool :=
  decide (settings.max_tokens < countMessageTokens settings messages)

def dropOldest (settings : Settings Content) (system : List (Message Id Content)) :
    List (List (Message Id Content)) → List (List (Message Id Content))
  | [] => []
  | [group] => [group]
  | group :: next :: groups =>
    if settings.exceeded (system ++ (group :: next :: groups).flatten) then
      dropOldest settings system (next :: groups)
    else group :: next :: groups

def truncateMessages (settings : Settings Content)
    (messages : List (Message Id Content)) : List (Message Id Content) :=
  let system := messages.filter settings.isSystem
  let rest := messages.filter fun message => !settings.isSystem message
  system ++ (dropOldest settings system (toolCallGroups rest)).flatten

def joins (before message : Message Id Content) : Bool :=
  message.isTool && (before.calls || before.isTool)

theorem isTool_of_chain {tail : List (Message Id Content)} : ∀ {head : Message Id Content},
    ((head :: tail).IsChain fun before message => joins before message) →
    ∀ message ∈ tail, message.isTool = true := by
  induction tail with
  | nil =>
    intro head _ message member
    cases member
  | cons next tail later =>
    intro head chain message member
    have ⟨joined, rest⟩ := List.isChain_cons_cons.mp chain
    rcases List.mem_cons.mp member with rfl | member
    · exact (Bool.and_eq_true_iff.mp joined).1
    · exact later rest message member

theorem joins_getLast {head : Message Id Content} {tail : List (Message Id Content)}
    (chain : (head :: tail).IsChain fun before message => joins before message)
    (message : Message Id Content) :
    joins ((head :: tail).getLast (List.cons_ne_nil _ _)) message = joins head message := by
  cases tail with
  | nil => rfl
  | cons next tail =>
    have first := (List.isChain_cons_cons.mp chain).1
    have last := isTool_of_chain chain _ (List.getLast_mem (List.cons_ne_nil next tail))
    simp only [joins, Bool.and_eq_true] at first
    simp [joins, last, first.2]

theorem addMessage_splitBy (messages : List (Message Id Content))
    (message : Message Id Content) :
    addMessage (messages.splitBy joins) message = (messages ++ [message]).splitBy joins := by
  have ⟨parts, full, chains, cuts⟩ :=
    List.splitBy_eq_iff.mp (Eq.refl (messages.splitBy joins))
  rcases List.eq_nil_or_concat (messages.splitBy joins) with
    none | ⟨groups, group, split⟩
  · rw [none] at parts
    simp [parts, addMessage, List.splitBy, List.splitBy.loop]
  · rw [List.concat_eq_append] at split
    rw [split] at parts full chains cuts
    have chain := chains group (by simp)
    cases group with
    | nil => simp at full
    | cons head tail =>
      have last := joins_getLast chain message
      have ⟨before, _, cut⟩ := List.isChain_append.mp cuts
      by_cases joined : joins head message = true
      · have added : addMessage (messages.splitBy joins) message =
            groups ++ [head :: tail ++ [message]] := by
          simp only [addMessage, split, List.getLast?_concat, List.dropLast_concat]
          exact if_pos joined
        rw [added]
        refine (List.splitBy_eq_iff.mpr ⟨?_, ?_, ?_, ?_⟩).symm
        · simp [parts]
        · simpa using full
        · intro group member
          rcases List.mem_append.mp member with old | new
          · exact chains group (List.mem_append_left _ old)
          · obtain rfl := List.mem_singleton.mp new
            refine List.isChain_append.mpr ⟨chain, List.isChain_singleton _, ?_⟩
            simpa [List.getLast?_eq_getLast_of_ne_nil] using last.trans joined
        · refine List.isChain_append.mpr ⟨before, List.isChain_singleton _, ?_⟩
          simpa using cut
      · have added : addMessage (messages.splitBy joins) message =
            messages.splitBy joins ++ [[message]] := by
          simp only [addMessage, split, List.getLast?_concat]
          exact if_neg joined
        rw [added, List.splitBy_append]
        · rfl
        · have apart := last.trans (Bool.eq_false_iff.mpr joined)
          rw [parts, List.flatten_concat, List.getLast?_append_cons]
          simpa [List.getLast?_eq_getLast_of_ne_nil] using apart

theorem toolCallGroups_eq (messages : List (Message Id Content)) :
    toolCallGroups messages = messages.splitBy joins := by
  induction messages using List.reverseRecOn with
  | nil => rfl
  | append_singleton messages message before =>
    rw [← addMessage_splitBy, ← before, toolCallGroups, List.foldl_concat]
    rfl

def Cut (dropped kept : List (Message Id Content)) : Prop :=
  ∀ before ∈ dropped.getLast?, ∀ message ∈ kept.head?, joins before message = false

theorem dropOldest_spec (settings : Settings Content) (system : List (Message Id Content))
    (groups : List (List (Message Id Content))) :
    ∃ dropped, groups = dropped ++ dropOldest settings system groups ∧
      (∀ older newer, dropped = older ++ newer → newer ≠ [] → settings.exceeded (system ++
          (newer ++ dropOldest settings system groups).flatten) = true) ∧
      (settings.exceeded (system ++ (dropOldest settings system groups).flatten) = false ∨
        (dropOldest settings system groups).length ≤ 1) ∧
      (groups ≠ [] → dropOldest settings system groups ≠ []) := by
  induction groups with
  | nil => exact ⟨[], rfl, by simp, .inr (by simp [dropOldest]), id⟩
  | cons group groups later =>
    cases groups with
    | nil =>
      exact ⟨[], rfl, by simp, .inr (by simp [dropOldest]),
        by simp [dropOldest]⟩
    | cons next groups =>
      rw [dropOldest]
      split
      · rename_i exceeds
        obtain ⟨dropped, split, longer, fits, some⟩ := later
        refine ⟨group :: dropped, by rw [List.cons_append, ← split], ?_,
          fits, fun _ => some (List.cons_ne_nil _ _)⟩
        intro older newer parts nonempty
        rcases List.cons_eq_append_iff.mp parts with
          ⟨rfl, rfl⟩ | ⟨older, rfl, rest⟩
        · rwa [List.cons_append, ← split]
        · exact longer older newer rest nonempty
      · rename_i fits
        exact ⟨[], rfl, by simp, .inl (by simpa using fits), by simp⟩

theorem cut_of_splitBy {messages : List (Message Id Content)}
    {older newer : List (List (Message Id Content))}
    (split : messages.splitBy joins = older ++ newer) :
    Cut older.flatten newer.flatten := by
  have ⟨_, full, _, cuts⟩ := List.splitBy_eq_iff.mp split
  have ⟨_, _, cut⟩ := List.isChain_append.mp cuts
  rcases List.eq_nil_or_concat older with none | ⟨groups, group, some⟩
  · subst none
    simp [Cut]
  · cases newer with
    | nil => simp [Cut]
    | cons next newer =>
      rw [List.concat_eq_append] at some
      subst some
      obtain ⟨last, first, apart⟩ := cut group (by simp) next (by simp)
      intro before before_mem message message_mem
      have before_eq : group.getLast last = before := by
        simpa [List.getLast?_append, List.getLast?_eq_getLast_of_ne_nil last] using before_mem
      have message_eq : next.head first = message := by
        simpa [List.head?_append, List.head?_eq_some_head first] using message_mem
      rwa [before_eq, message_eq] at apart

theorem splitBy_of_cut {dropped kept : List (Message Id Content)} (cut : Cut dropped kept) :
    (dropped ++ kept).splitBy joins = dropped.splitBy joins ++ kept.splitBy joins :=
  List.splitBy_append cut

/-- The turns that truncation keeps of the conversation, as a suffix of it. -/
structure Kept (settings : Settings Content)
    (system rest dropped kept : List (Message Id Content)) : Prop where
  split : rest = dropped ++ kept
  cut : Cut dropped kept
  nonempty : kept = [] → rest = []
  longest : ∀ older newer, rest = older ++ newer → Cut older newer →
    kept.length < newer.length → settings.exceeded (system ++ newer) = true
  /-- It fits, or nothing does and it is the last group. -/
  fits : settings.exceeded (system ++ kept) = false ∨
    ∀ older newer, rest = older ++ newer → Cut older newer → newer ≠ [] →
      settings.exceeded (system ++ newer) = true ∧ kept.length ≤ newer.length

theorem cut_cases {rest older newer : List (Message Id Content)}
    {dropped kept : List (List (Message Id Content))}
    (groups : rest.splitBy joins = dropped ++ kept)
    (split : rest = older ++ newer) (cut : Cut older newer) :
    (∃ first more, dropped = first ++ more ∧ more ≠ [] ∧ newer = (more ++ kept).flatten) ∨
    ∃ fewer last, kept = fewer ++ last ∧ newer = last.flatten := by
  rw [split, splitBy_of_cut cut] at groups
  have whole := (List.flatten_splitBy joins newer).symm
  rcases List.append_eq_append_iff.mp groups with
    ⟨more, grown, same⟩ | ⟨fewer, shrunk, same⟩
  · cases more with
    | nil => exact .inr ⟨[], kept, rfl, by rw [whole, same]; rfl⟩
    | cons group more => exact .inl ⟨_, _, grown, List.cons_ne_nil _ _, by rw [whole, same]⟩
  · exact .inr ⟨_, _, same, whole⟩

theorem truncateMessages_kept (settings : Settings Content)
    (messages : List (Message Id Content)) :
    ∃ dropped kept, Kept settings (messages.filter settings.isSystem)
        (messages.filter fun message => !settings.isSystem message)
        dropped kept ∧
      truncateMessages settings messages = messages.filter settings.isSystem ++ kept := by
  let system := messages.filter settings.isSystem
  let rest := messages.filter fun message => !settings.isSystem message
  obtain ⟨dropped, groups, longer, fits, some⟩ :=
    dropOldest_spec settings system (toolCallGroups rest)
  generalize chosen : dropOldest settings system (toolCallGroups rest) = kept
    at groups longer fits some
  rw [toolCallGroups_eq] at groups some
  have parts : rest = dropped.flatten ++ kept.flatten := by
    rw [← List.flatten_append, ← groups, List.flatten_splitBy]
  refine ⟨dropped.flatten, kept.flatten, ⟨parts, cut_of_splitBy groups, ?_, ?_, ?_⟩, ?_⟩
  · intro nothing
    by_contra present
    have full : [] ∉ dropped ++ kept := groups ▸ List.nil_notMem_splitBy _ _
    obtain ⟨group, last, rfl⟩ := List.exists_cons_of_ne_nil
      (some (List.splitBy_ne_nil.mpr present))
    have empty := List.flatten_eq_nil_iff.mp nothing group (.head _)
    exact full (by simp [empty])
  · intro older newer split cut shorter
    rcases cut_cases groups split cut with
      ⟨first, more, grown, nonempty, rfl⟩ | ⟨fewer, last, shrunk, rfl⟩
    · exact longer first more grown nonempty
    · rw [shrunk, List.flatten_append, List.length_append] at shorter
      omega
  · rcases fits with fits | alone
    · exact .inl fits
    · by_cases exceeds : settings.exceeded (system ++ kept.flatten) = true
      · refine .inr fun older newer split cut nonempty => ?_
        rcases cut_cases groups split cut with
          ⟨first, more, grown, some, rfl⟩ | ⟨fewer, last, shrunk, rfl⟩
        · refine ⟨longer first more grown some, ?_⟩
          rw [List.flatten_append, List.length_append]
          omega
        · have whole : fewer = [] := by
            cases last with
            | nil => exact absurd rfl nonempty
            | cons group last =>
              rw [shrunk, List.length_append, List.length_cons] at alone
              exact List.length_eq_zero_iff.mp (by omega)
          rw [shrunk, whole]
          exact ⟨by simpa [shrunk, whole] using exceeds, le_rfl⟩
      · exact .inl (Bool.eq_false_iff.mpr exceeds)
  · rw [← chosen]
    rfl

theorem Cut.together {before results after : List (Message Id Content)}
    {call message : Message Id Content}
    (cut : Cut (before ++ call :: results) (message :: after))
    (calls : call.calls = true) (answers : ∀ result ∈ results, result.isTool) :
    message.isTool = false := by
  have apart := cut ((call :: results).getLast (List.cons_ne_nil _ _))
    (by simp [List.getLast?_eq_getLast_of_ne_nil]) message (by simp)
  rcases List.eq_nil_or_concat results with rfl | ⟨rest, last, rfl⟩
  · simpa [joins, calls] using apart
  · have answer : last.isTool = true := answers last (by simp)
    simpa [joins, answer] using apart

def Answered (messages : List (Message Id Content)) : Prop :=
  ∀ before call after, messages = before ++ call :: after →
    call.role = some "assistant" → ∀ id ∈ call.tool_calls,
      ∃ result ∈ after.takeWhile Message.isTool, result.tool_call_id = some id

theorem mem_takeWhile_filter {keeps : Message Id Content → Bool}
    (results : ∀ message, message.isTool = true → keeps message = true)
    {result : Message Id Content} {messages : List (Message Id Content)}
    (member : result ∈ messages.takeWhile Message.isTool) :
    result ∈ (messages.filter keeps).takeWhile Message.isTool := by
  induction messages with
  | nil => cases member
  | cons message messages later =>
    by_cases tool : message.isTool = true
    · rw [List.takeWhile_cons_of_pos tool] at member
      rw [List.filter_cons_of_pos (results message tool), List.takeWhile_cons_of_pos tool]
      exact List.mem_cons.mpr ((List.mem_cons.mp member).imp_right later)
    · rw [List.takeWhile_cons_of_neg tool] at member
      cases member

theorem Answered.filter {messages : List (Message Id Content)}
    (answered : Answered messages) {keeps : Message Id Content → Bool}
    (results : ∀ message, message.isTool = true → keeps message = true) :
    Answered (messages.filter keeps) := by
  intro before call after split role id called
  obtain ⟨first, rest, rfl, _, tail⟩ := List.filter_eq_append_iff.mp split
  obtain ⟨skipped, last, rfl, _, _, rfl⟩ := List.filter_eq_cons_iff.mp tail
  obtain ⟨result, member, answer⟩ := answered (first ++ skipped) call last
    (by simp) role id called
  exact ⟨result, mem_takeWhile_filter results member, answer⟩

theorem Answered.suffix {dropped kept : List (Message Id Content)}
    (answered : Answered (dropped ++ kept)) : Answered kept := by
  intro before call after split
  exact answered (dropped ++ before) call after (by simp [split])

theorem Answered.behind {system kept : List (Message Id Content)} (answered : Answered kept)
    (silent : ∀ message ∈ system, message.role ≠ some "assistant") :
    Answered (system ++ kept) := by
  intro before call after split role
  rcases List.append_eq_append_iff.mp split with
    ⟨rest, _, behind⟩ | ⟨rest, inSystem, behind⟩
  · exact answered rest call after behind role
  · cases rest with
    | nil => exact answered [] call after behind.symm role
    | cons message rest =>
      obtain ⟨rfl, _⟩ := List.cons_eq_cons.mp behind
      exact absurd role (silent call (by simp [inSystem]))

/-- Truncation keeps the system turns and the longest run of last groups that
fits, or the last group; no call is cut off from its results. -/
theorem truncate_sound (settings : Settings Content) (messages : List (Message Id Content)) :
    (∃ dropped kept, Kept settings (messages.filter settings.isSystem)
        (messages.filter fun message => !settings.isSystem message)
        dropped kept ∧
      truncateMessages settings messages = messages.filter settings.isSystem ++ kept ∧
      ∀ before call results message after,
        dropped = before ++ call :: results → kept = message :: after →
        call.calls = true → (∀ result ∈ results, result.isTool) → message.isTool = false) ∧
    (Answered messages → Answered (truncateMessages settings messages)) := by
  obtain ⟨dropped, kept, sound, truncated⟩ :=
    truncateMessages_kept settings messages
  constructor
  · refine ⟨dropped, kept, sound, truncated, ?_⟩
    rintro before call results message after rfl rfl calls answers
    exact sound.cut.together calls answers
  · intro answered
    rw [truncated]
    have rest : Answered (messages.filter fun message => !settings.isSystem message) := by
      refine answered.filter ?_
      intro message tool
      have role : message.role = some "tool" := by
        simpa [Message.isTool] using tool
      simp [Settings.isSystem, role]
    rw [sound.split] at rest
    refine rest.suffix.behind ?_
    intro message member
    have role : message.role = some "system" := by
      simpa using (Bool.and_eq_true_iff.mp (List.mem_filter.mp member).2).2
    simp [role]

def sampleTurns : List (Message ℕ ℕ) :=
  [⟨some "assistant", 3, [7], none⟩, ⟨some "tool", 3, [], some 7⟩]

def sampleSettings : Settings ℕ where
  max_tokens := 8
  tokens := id
  keep_system := true
  per_message_overhead := 4

theorem sample_answered : Answered (truncateMessages sampleSettings sampleTurns) := by
  refine (truncate_sound sampleSettings sampleTurns).2 ?_
  intro before call after split role id called
  match before, split with
  | [], split =>
    obtain ⟨rfl, rfl⟩ := List.cons_eq_cons.mp split
    obtain rfl := List.mem_singleton.mp called
    exact ⟨_, List.mem_singleton.mpr rfl, rfl⟩
  | [_], split =>
    obtain ⟨_, rest⟩ := List.cons_eq_cons.mp split
    obtain ⟨rfl, _⟩ := List.cons_eq_cons.mp rest
    cases called
  | _ :: _ :: rest, split => simpa [sampleTurns] using congrArg List.length split

def Settings.within (settings : Settings Content) (max_tokens : ℤ) : Settings Content :=
  { settings with max_tokens := min max_tokens settings.max_tokens }

theorem splitBy_flatten {messages : List (Message Id Content)}
    {older newer : List (List (Message Id Content))}
    (split : messages.splitBy joins = older ++ newer) :
    newer.flatten.splitBy joins = newer := by
  have ⟨_, full, chains, cuts⟩ := List.splitBy_eq_iff.mp split
  refine List.splitBy_eq_iff.mpr ⟨rfl, ?_, ?_, ?_⟩
  · exact fun empty => full (List.mem_append_right _ empty)
  · exact fun group member => chains group (List.mem_append_right _ member)
  · exact (List.isChain_append.mp cuts).2.1

theorem dropOldest_within (settings : Settings Content) (max_tokens : ℤ)
    (system : List (Message Id Content)) (groups : List (List (Message Id Content))) :
    dropOldest (settings.within max_tokens) system (dropOldest settings system groups) =
      dropOldest (settings.within max_tokens) system groups := by
  induction groups with
  | nil => rfl
  | cons group groups induction =>
    cases groups with
    | nil => rfl
    | cons next groups =>
      by_cases exceeded :
          settings.exceeded (system ++ (group :: next :: groups).flatten) = true
      · have sooner : (settings.within max_tokens).exceeded
            (system ++ (group :: next :: groups).flatten) = true := by
          unfold Settings.exceeded at exceeded ⊢
          rw [decide_eq_true_eq] at exceeded ⊢
          exact Int.lt_of_le_of_lt (Int.min_le_right ..) exceeded
        rw [dropOldest, if_pos exceeded, induction]
        conv => rhs; rw [dropOldest, if_pos sooner]
      · rw [dropOldest, if_neg exceeded]

/-- To truncate once more, within the same budget or a smaller one, is to
truncate to that budget in the first place. -/
theorem truncate_in_steps (settings : Settings Content) (max_tokens : ℤ)
    (messages : List (Message Id Content)) :
    truncateMessages (settings.within max_tokens) (truncateMessages settings messages) =
      truncateMessages (settings.within max_tokens) messages := by
  let system := messages.filter settings.isSystem
  let rest := messages.filter fun message => !settings.isSystem message
  let kept := dropOldest settings system (toolCallGroups rest)
  obtain ⟨dropped, split, _⟩ := dropOldest_spec settings system (toolCallGroups rest)
  have groups : toolCallGroups kept.flatten = kept := by
    rw [toolCallGroups_eq]
    exact splitBy_flatten ((toolCallGroups_eq rest).symm.trans split)
  have inside : ∀ message ∈ kept.flatten, settings.isSystem message = false := by
    intro message member
    have present : message ∈ rest := by
      rw [← List.flatten_splitBy joins rest, ← toolCallGroups_eq, split, List.flatten_append]
      exact List.mem_append_right _ member
    simpa using (List.mem_filter.mp present).2
  have chosen : ∀ message ∈ system, settings.isSystem message = true :=
    fun message member => (List.mem_filter.mp member).2
  have systems : (system ++ kept.flatten).filter settings.isSystem = system := by
    rw [List.filter_append, List.filter_eq_self.mpr chosen, List.filter_eq_nil_iff.mpr,
      List.append_nil]
    exact fun message member => Bool.eq_false_iff.mp (inside message member)
  have others : (system ++ kept.flatten).filter (fun message => !settings.isSystem message) =
      kept.flatten := by
    rw [List.filter_append, List.filter_eq_nil_iff.mpr, List.nil_append, List.filter_eq_self]
    · exact fun message member => by rw [inside message member]; rfl
    · exact fun message member => by simp [chosen message member]
  have again : truncateMessages (settings.within max_tokens) (system ++ kept.flatten) =
      system ++ (dropOldest (settings.within max_tokens) system kept).flatten := by
    show (system ++ kept.flatten).filter settings.isSystem ++ (dropOldest _
      ((system ++ kept.flatten).filter settings.isSystem) (toolCallGroups
        ((system ++ kept.flatten).filter fun message => !settings.isSystem message))).flatten = _
    rw [systems, others, groups]
  exact again.trans (congrArg (system ++ List.flatten ·)
    (dropOldest_within settings max_tokens system (toolCallGroups rest)))
end TempestSdk.Tokens
