import Mathlib.Data.List.Induction
import Mathlib.Data.List.InsertIdx
import WireAgent.Proofs.Exchanges
import WireAgent.Proofs.Lines
import WireAgent.Proofs.Numerals

/-!
# The rules of the chain

The operations of the firewall only run commands; what these do to the rules of a chain is said by
`Netfilter.Answers`. Over any calls of the operations the rules are kept in order
(`Firewall.bookkeeping`): no rule of the agent is ever in the chain twice, the other rules stay as
they are, and no rule is put at a position that the chain does not have. A call of `ensure` answers
whether the rule is there at its end, and puts it there at most once.
-/

namespace WireAgent

/-! ## Chains -/

namespace Netfilter

/-- A rule, as the words that state it. -/
abbrev Rule := List String

/-- The rules of a chain, in order. -/
abbrev Chain := List Rule

/-- Is it the command on the table with these words, with or without the rights of the superuser? -/
def IsCommand (command words : List String) : Prop :=
  command = Firewall.tableCommand words ∨ command = "sudo" :: Firewall.tableCommand words

/-- Does a text state a chain, with one line for its policy and one for each rule? -/
def States (output : String) (c : Chain) : Prop :=
  ∃ (policy : String) (texts : List String), texts.length = c.length ∧
    (∀ text ∈ policy :: texts, Text.IsLine text.toList) ∧
    output =
      Text.join "\n" (("-P " ++ policy) :: texts.map fun text => "-A OUTPUT " ++ text) ++ "\n"

/-- What may come of a command, and what becomes of the chain. -/
structure Answers (command : List String) (outcome : CommandOutcome) (c d : Chain) : Prop where
  /-- A rule is found just if it is there. -/
  check (rule : Rule) : IsCommand command ("-C" :: Firewall.chain :: rule) →
    d = c ∧ (outcome.succeeds = true ↔ rule ∈ c)
  /-- The rules are stated, or the command fails. -/
  state : IsCommand command ["-S", Firewall.chain] →
    d = c ∧ ∀ output errors, outcome = .ended 0 output errors → States output c
  /-- A rule is put at a position that the chain has, or the command fails. -/
  insert (position : Nat) (rule : Rule) :
    IsCommand command ("-I" :: Firewall.chain :: Number.ofInt position :: rule) →
    if outcome.succeeds then
      1 ≤ position ∧ position ≤ c.length + 1 ∧ d = c.insertIdx (position - 1) rule
    else d = c
  /-- The first of a rule is deleted, or the command fails. -/
  delete (rule : Rule) : IsCommand command ("-D" :: Firewall.chain :: rule) →
    if outcome.succeeds then rule ∈ c ∧ d = c.erase rule else d = c
  /-- Listing a chain leaves it as it is. -/
  list : IsCommand command ["-L", Firewall.chain, "-n", "--line-numbers"] → d = c

/-- Turns may lead from one chain to another. -/
inductive Leads : Chain → List Turn → Chain → Prop
  | nil (c : Chain) : Leads c [] c
  | cons {turn : Turn} {turns : List Turn} {c d e : Chain}
      (hfirst : Answers turn.command turn.outcome c d) (hrest : Leads d turns e) :
      Leads c (turn :: turns) e

theorem leads_nil {c d : Chain} : Leads c [] d ↔ d = c := by
  constructor
  · rintro ⟨⟩
    rfl
  · rintro rfl
    exact .nil d

theorem leads_cons {turn : Turn} {turns : List Turn} {c e : Chain} :
    Leads c (turn :: turns) e ↔ ∃ d, Answers turn.command turn.outcome c d ∧ Leads d turns e := by
  constructor
  · rintro (_ | ⟨hfirst, hrest⟩)
    exact ⟨_, hfirst, hrest⟩
  · rintro ⟨d, hfirst, hrest⟩
    exact .cons hfirst hrest

theorem leads_append {turns more : List Turn} {c e : Chain} :
    Leads c (turns ++ more) e ↔ ∃ d, Leads c turns d ∧ Leads d more e := by
  induction turns generalizing c with
  | nil => simp [leads_nil]
  | cons turn turns ih =>
    simp only [List.cons_append, leads_cons, ih]
    constructor
    · rintro ⟨d, hfirst, d', hturns, hmore⟩
      exact ⟨d', ⟨d, hfirst, hturns⟩, hmore⟩
    · rintro ⟨d', ⟨d, hfirst, hturns⟩, hmore⟩
      exact ⟨d, hfirst, d', hturns, hmore⟩

/-! ### Changes -/

/-- What an operation on a rule may change in a chain at once: nothing, or the rule is put where it
was not, or the first of it is taken away. -/
inductive Change (rule : Rule) (c : Chain) : Chain → Prop
  | none : Change rule c c
  | put {i : Nat} (hnot : rule ∉ c) (hi : i ≤ c.length) : Change rule c (c.insertIdx i rule)
  | taken : Change rule c (c.erase rule)

namespace Change

variable {rule other : Rule} {c d : Chain}

/-- What is there at most once remains so. -/
theorem count_le (h : Change rule c d) (hc : c.count other ≤ 1) : d.count other ≤ 1 := by
  cases h with
  | none => exact hc
  | @put i hnot hi =>
    rw [(List.perm_insertIdx rule c hi).count_eq, List.count_cons]
    split_ifs with heq
    · rw [← beq_iff_eq.mp heq, List.count_eq_zero_of_not_mem hnot]
    · exact hc
  | taken => exact (List.erase_sublist.count_le other).trans hc

theorem filter_insertIdx {keeps : Rule → Bool} (hrule : keeps rule = false) (c : Chain) (i : Nat) :
    (c.insertIdx i rule).filter keeps = c.filter keeps := by
  induction c generalizing i with
  | nil => cases i <;> simp [hrule]
  | cons first c ih =>
    cases i with
    | zero => rw [List.insertIdx_zero, List.filter_cons_of_neg (by simp [hrule])]
    | succ i => rw [List.insertIdx_succ_cons, List.filter_cons, List.filter_cons, ih]

/-- All other rules stay as they are. -/
theorem filter_eq (h : Change rule c d) {keeps : Rule → Bool} (hrule : keeps rule = false) :
    d.filter keeps = c.filter keeps := by
  cases h with
  | none => rfl
  | @put i => exact filter_insertIdx hrule c i
  | taken =>
    rw [← List.erase_filter, List.erase_of_not_mem]
    simp [hrule]

end Change

end Netfilter

open Netfilter

namespace Firewall

section

variable (f : Firewall) (owner : Int)

/-- The rule of a user. -/
def rule : Rule :=
  ["-d", f.destination, "-p", "tcp", "-m", "owner", "--uid-owner", Number.ofInt owner, "-j",
    "ACCEPT"]

theorem ruleCommand_some (operation : String) (position : Nat) :
    f.ruleCommand operation owner (some position) =
      tableCommand (operation :: chain :: Number.ofInt position :: f.rule owner) :=
  rfl

variable {f} in
theorem isCommand_elevated_iff {words words' : List String} :
    IsCommand (f.elevated (tableCommand words)) words' ↔ words = words' := by
  unfold elevated IsCommand
  split_ifs <;> simp [tableCommand]

theorem isCommand_elevated (words : List String) :
    IsCommand (f.elevated (tableCommand words)) words :=
  isCommand_elevated_iff.mpr rfl

/-! ## Positions -/

theorem isRuleLine_iff {line : String} :
    isRuleLine line = true ↔ "-A OUTPUT ".toList <+: line.toList :=
  String.startsWith_string_iff

/-- In a text that states a chain, all rules are counted. -/
theorem countRules_of_states {output : String} {c : Chain} (h : States output c) :
    countRules output = c.length := by
  obtain ⟨policy, texts, hlength, hlines, rfl⟩ := h
  obtain ⟨hpolicy, htexts⟩ := List.forall_mem_cons.mp hlines
  have hsplit : Text.lines (Text.join "\n" (("-P " ++ policy) ::
      texts.map fun text => "-A OUTPUT " ++ text) ++ "\n") =
      ("-P " ++ policy) :: texts.map fun text => "-A OUTPUT " ++ text := by
    refine Text.lines_ended (List.cons_ne_nil _ _) (List.forall_mem_cons.mpr ⟨?_, ?_⟩)
    · rw [String.toList_append, Text.isLine_append]
      exact ⟨by decide, hpolicy⟩
    · intro line hline
      obtain ⟨text, htext, rfl⟩ := List.mem_map.mp hline
      rw [String.toList_append, Text.isLine_append]
      exact ⟨by decide, htexts text htext⟩
  have hfirst : ¬isRuleLine ("-P " ++ policy) = true := by
    rw [isRuleLine_iff, String.toList_append]
    simp [List.cons_prefix_cons]
  have hrest : ∀ line ∈ texts.map fun text => "-A OUTPUT " ++ text, isRuleLine line = true := by
    intro line hline
    obtain ⟨text, -, rfl⟩ := List.mem_map.mp hline
    rw [isRuleLine_iff, String.toList_append]
    exact List.prefix_append _ _
  rw [countRules, hsplit, List.countP_cons_of_neg hfirst, List.countP_eq_length.mpr hrest,
    List.length_map, hlength]

variable {f owner} {check state insert listing : CommandOutcome} {c d : Chain}

theorem of_checked (h : Answers (f.checked owner check).command check c d) :
    d = c ∧ (check.succeeds = true ↔ f.rule owner ∈ c) :=
  h.check (f.rule owner) (f.isCommand_elevated _)

/-- A rule is put at the second position if the chain is known to have a first one. -/
theorem of_stated (h : Answers (f.stated state).command state c d) :
    d = c ∧ positionAfter state = if state.succeeds = true ∧ c ≠ [] then 2 else 1 := by
  obtain ⟨hsame, hstates⟩ := h.state (f.isCommand_elevated _)
  refine ⟨hsame, ?_⟩
  rcases state with ⟨code, output, errors⟩ | failure
  · by_cases hcode : code = 0
    · subst hcode
      have hcount : statedCount (.ended 0 output errors) = c.length :=
        countRules_of_states (hstates output errors rfl)
      rw [positionAfter, hcount, insertPosition]
      cases c with
      | nil => simp
      | cons rule c => simp [CommandOutcome.succeeds]
    · simp [positionAfter, statedCount, CommandOutcome.succeeds, hcode, insertPosition]
  · simp [positionAfter, statedCount, CommandOutcome.succeeds, insertPosition]

/-- A rule that is put into the chain has a position there. -/
theorem of_inserted {position : Nat}
    (h : Answers (f.inserted owner position insert).command insert c d) :
    if insert.succeeds then
      1 ≤ position ∧ position ≤ c.length + 1 ∧ d = c.insertIdx (position - 1) (f.rule owner)
    else d = c :=
  h.insert position (f.rule owner) (f.isCommand_elevated _)

theorem of_shown (h : Answers (f.shown listing).command listing c d) : d = c :=
  h.list (f.isCommand_elevated _)

theorem of_deleted {delete : CommandOutcome}
    (h : Answers (f.deleted owner delete).command delete c d) :
    if delete.succeeds then f.rule owner ∈ c ∧ d = c.erase (f.rule owner) else d = c :=
  h.delete (f.rule owner) (f.isCommand_elevated _)

/-! ### Chains that answer -/

/-- Nothing is asked of a command with other words. -/
theorem isCommand_elevated_ne {word word' : String} {words words' : List String}
    (hne : word ≠ word') :
    ¬IsCommand (f.elevated (tableCommand (word :: words))) (word' :: words') :=
  fun hcommand => hne (List.cons.inj (isCommand_elevated_iff.mp hcommand)).1

theorem answers_checked (h : check.succeeds = true ↔ f.rule owner ∈ c) :
    Answers (f.checked owner check).command check c c where
  check rule hcommand := by
    have hwords := isCommand_elevated_iff.mp hcommand
    obtain rfl : f.rule owner = rule := (List.cons.inj (List.cons.inj hwords).2).2
    exact ⟨rfl, h⟩
  state hcommand := absurd hcommand (isCommand_elevated_ne (by decide))
  insert _ _ hcommand := absurd hcommand (isCommand_elevated_ne (by decide))
  delete _ hcommand := absurd hcommand (isCommand_elevated_ne (by decide))
  list hcommand := absurd hcommand (isCommand_elevated_ne (by decide))

theorem answers_stated (h : ∀ output errors, state = .ended 0 output errors → States output c) :
    Answers (f.stated state).command state c c where
  check _ hcommand := absurd hcommand (isCommand_elevated_ne (by decide))
  state _ := ⟨rfl, h⟩
  insert _ _ hcommand := absurd hcommand (isCommand_elevated_ne (by decide))
  delete _ hcommand := absurd hcommand (isCommand_elevated_ne (by decide))
  list hcommand := absurd hcommand (isCommand_elevated_ne (by decide))

theorem answers_inserted {position : Nat} (hinsert : insert.succeeds = true) (hlow : 1 ≤ position)
    (hhigh : position ≤ c.length + 1) :
    Answers (f.inserted owner position insert).command insert c
      (c.insertIdx (position - 1) (f.rule owner)) where
  check _ hcommand := absurd hcommand (isCommand_elevated_ne (by decide))
  state hcommand := absurd hcommand (isCommand_elevated_ne (by decide))
  insert other rule hcommand := by
    have hwords := isCommand_elevated_iff.mp hcommand
    obtain ⟨hposition, rfl⟩ := List.cons.inj (List.cons.inj (List.cons.inj hwords).2).2
    obtain rfl : position = other := Number.ofInt_natCast_inj.mp hposition
    rw [if_pos hinsert]
    exact ⟨hlow, hhigh, rfl⟩
  delete _ hcommand := absurd hcommand (isCommand_elevated_ne (by decide))
  list hcommand := absurd hcommand (isCommand_elevated_ne (by decide))

theorem answers_shown : Answers (f.shown listing).command listing c c where
  check _ hcommand := absurd hcommand (isCommand_elevated_ne (by decide))
  state hcommand := absurd hcommand (isCommand_elevated_ne (by decide))
  insert _ _ hcommand := absurd hcommand (isCommand_elevated_ne (by decide))
  delete _ hcommand := absurd hcommand (isCommand_elevated_ne (by decide))
  list _ := rfl

theorem answers_deleted {delete : CommandOutcome} (hdelete : delete.succeeds = true)
    (hmem : f.rule owner ∈ c) :
    Answers (f.deleted owner delete).command delete c (c.erase (f.rule owner)) where
  check _ hcommand := absurd hcommand (isCommand_elevated_ne (by decide))
  state hcommand := absurd hcommand (isCommand_elevated_ne (by decide))
  insert _ _ hcommand := absurd hcommand (isCommand_elevated_ne (by decide))
  delete rule hcommand := by
    have hwords := isCommand_elevated_iff.mp hcommand
    obtain rfl : f.rule owner = rule := (List.cons.inj (List.cons.inj hwords).2).2
    rw [if_pos hdelete]
    exact ⟨hmem, rfl⟩
  list hcommand := absurd hcommand (isCommand_elevated_ne (by decide))

/-- Once a rule has been looked for in vain and the rules have been stated, the chain is as it was,
and it has the position where the rule is to be put. -/
theorem of_sought {more : List Turn} (hcheck : check.succeeds = false)
    (h : Leads c (f.checked owner check :: f.stated state :: more) d) :
    f.rule owner ∉ c ∧ positionAfter state = (if state.succeeds = true ∧ c ≠ [] then 2 else 1) ∧
      1 ≤ positionAfter state ∧ positionAfter state ≤ c.length + 1 ∧ Leads c more d := by
  simp only [leads_cons] at h
  obtain ⟨_, hchecked, _, hstated, hmore⟩ := h
  obtain ⟨hsame, hfound⟩ := of_checked hchecked
  have hnot : f.rule owner ∉ c := fun hmem => by simp [hfound.mpr hmem] at hcheck
  subst hsame
  obtain ⟨rfl, hposition⟩ := of_stated hstated
  refine ⟨hnot, hposition, ?_, ?_, hmore⟩ <;> rw [hposition] <;> split_ifs with hfirst
  · decide
  · exact le_rfl
  · exact Nat.succ_le_succ (List.length_pos_iff.mpr hfirst.2)
  · omega

/-! ## Turns of an operation -/

theorem elevated_injective : Function.Injective f.elevated := by
  intro command command' h
  unfold elevated at h
  split_ifs at h
  · exact (List.cons.inj h).2
  · exact h

theorem inserted_position {other : Int} {position position' : Nat} {outcome : CommandOutcome}
    (h : f.inserted owner position insert = f.inserted other position' outcome) :
    position = position' := by
  have hcommand := elevated_injective (congrArg Turn.command h)
  simp only [ruleCommand_some, tableCommand, List.cons.injEq, true_and] at hcommand
  exact Number.ofInt_natCast_inj.mp hcommand.1

/-- No turn is an insertion but one that is made with an insertion's command. -/
theorem ne_inserted {turn : Turn} {words : List String} {other : Int} {position : Nat}
    {outcome : CommandOutcome} (hturn : turn.command = f.elevated (tableCommand words))
    (hwords : words.head? ≠ some "-I") : turn ≠ f.inserted other position outcome := by
  rintro rfl
  have hcommand := elevated_injective hturn
  simp only [ruleCommand_some, tableCommand, List.cons.injEq, true_and] at hcommand
  rw [← hcommand] at hwords
  exact hwords rfl

/-- Is a turn orderly: does it change no more than the rule of a user, and put a rule, if at all, at
a position that the chain has? -/
def IsOrderly (f : Firewall) (owner : Int) (turn : Turn) (c d : Chain) : Prop :=
  Change (f.rule owner) c d ∧ ∀ other position outcome,
    turn = f.inserted other position outcome → 1 ≤ position ∧ position ≤ c.length + 1

/-- A turn that changes nothing and puts nothing into the chain is orderly. -/
theorem isOrderly_of_eq {turn : Turn} {words : List String} (hsame : d = c)
    (hturn : turn.command = f.elevated (tableCommand words)) (hwords : words.head? ≠ some "-I") :
    f.IsOrderly owner turn c d := by
  subst hsame
  exact ⟨.none, fun _ _ _ heq => absurd heq (ne_inserted hturn hwords)⟩

/-- Where the rule of a user was not found, each of the turns after that is orderly. -/
theorem isOrderly_of_added {past rest : List Turn} {turn : Turn} {e : Chain}
    (hcheck : check.succeeds = false)
    (hturns : [f.checked owner check, f.stated state, f.inserted owner (positionAfter state) insert,
      f.shown listing] = past ++ turn :: rest)
    (hpast : Leads c past d) (hturn : Answers turn.command turn.outcome d e) :
    f.IsOrderly owner turn d e := by
  rcases past with _ | ⟨first, _ | ⟨second, _ | ⟨third, _ | ⟨fourth, past⟩⟩⟩⟩ <;>
    simp only [List.nil_append, List.cons_append, List.cons.injEq] at hturns
  · obtain ⟨rfl, -⟩ := hturns
    exact isOrderly_of_eq (of_checked hturn).1 rfl (by simp)
  · obtain ⟨rfl, rfl, -⟩ := hturns
    exact isOrderly_of_eq (of_stated hturn).1 rfl (by simp)
  · obtain ⟨rfl, rfl, rfl, -⟩ := hturns
    obtain ⟨hnot, -, hlow, hhigh, hsame⟩ := of_sought hcheck hpast
    obtain rfl := leads_nil.mp hsame
    refine ⟨?_, fun other position outcome heq => ?_⟩
    · have hinserted := of_inserted hturn
      split_ifs at hinserted with hinsert
      · obtain ⟨-, -, rfl⟩ := hinserted
        exact .put hnot (by omega)
      · rw [hinserted]
        exact .none
    · rw [← inserted_position heq]
      exact ⟨hlow, hhigh⟩
  · obtain ⟨rfl, rfl, rfl, rfl, -⟩ := hturns
    exact isOrderly_of_eq (of_shown hturn) rfl (by simp)
  · simp at hturns

/-- An operation with one turn has no other. -/
theorem eq_of_singleton_eq {first turn : Turn} {past rest : List Turn}
    (h : [first] = past ++ turn :: rest) : turn = first := by
  have hmem : turn ∈ [first] := by
    rw [h]
    exact List.mem_append_right _ List.mem_cons_self
  exact List.mem_singleton.mp hmem

theorem isOrderly_of_ensured {result : Bool} {turns past rest : List Turn} {turn : Turn} {e : Chain}
    (h : f.Ensured owner result turns) (hturns : turns = past ++ turn :: rest)
    (hpast : Leads c past d) (hturn : Answers turn.command turn.outcome d e) :
    f.IsOrderly owner turn d e := by
  cases h with
  | found =>
    obtain rfl := eq_of_singleton_eq hturns
    exact isOrderly_of_eq (of_checked hturn).1 rfl (by simp)
  | @refused check state insert hcheck =>
    -- The listing that would have come last is not needed.
    have hlonger := congrArg (· ++ [f.shown (.ended 0 "" "")]) hturns
    simp only [List.append_assoc, List.cons_append] at hlonger
    exact isOrderly_of_added hcheck hlonger hpast hturn
  | added hcheck => exact isOrderly_of_added hcheck hturns hpast hturn

end

/-! ## Calls -/

/-- A call of an operation. -/
inductive Call where
  | ensure (owner : Int)
  | remove (owner : Int)

/-- The user whose rule a call is about. -/
def Call.owner : Call → Int
  | .ensure owner | .remove owner => owner

/-- Makes a call. -/
def perform (f : Firewall) : Call → Action Bool
  | .ensure owner => f.ensure owner
  | .remove owner => f.remove owner

/-- A call that was made, what it came to, and its turns. -/
structure Episode where
  call : Call
  result : Bool
  turns : List Turn

/-- Did the turns of a call lead to its result? -/
def Performed (f : Firewall) (episode : Episode) : Prop :=
  match episode.call with
  | .ensure owner => f.Ensured owner episode.result episode.turns
  | .remove owner => ∃ delete, episode.turns = [f.deleted owner delete] ∧
      episode.result = delete.succeeds

open Action

theorem perform_issues (f : Firewall) (call : Call) :
    Issues (fun result turns => f.Performed ⟨call, result, turns⟩) (f.perform call) := by
  cases call with
  | ensure owner => exact f.ensure_issues owner
  | remove owner => exact f.remove_issues owner

/-- Calls are made one after the other. -/
theorem mapM_perform_issues (f : Firewall) (calls : List Call) :
    Issues (fun results turns => ∃ episodes : List Episode,
        episodes.map Episode.call = calls ∧ episodes.map Episode.result = results ∧
        episodes.flatMap Episode.turns = turns ∧ ∀ episode ∈ episodes, f.Performed episode)
      (calls.mapM f.perform) := by
  induction calls with
  | nil => exact .pure ⟨[], rfl, rfl, rfl, by simp⟩
  | cons call calls ih =>
    rw [List.mapM_cons]
    refine (f.perform_issues call).bind fun result turns hfirst =>
      ih.bind fun results more hrest => ?_
    obtain ⟨episodes, rfl, rfl, rfl, hperformed⟩ := hrest
    exact .pure ⟨⟨call, result, turns⟩ :: episodes, rfl, rfl, by simp,
      List.forall_mem_cons.mpr ⟨hfirst, hperformed⟩⟩

theorem isOrderly_of_performed {f : Firewall} {episode : Episode} {past rest : List Turn}
    {turn : Turn} {c d e : Chain} (h : f.Performed episode)
    (hturns : episode.turns = past ++ turn :: rest) (hpast : Leads c past d)
    (hturn : Answers turn.command turn.outcome d e) : f.IsOrderly episode.call.owner turn d e := by
  obtain ⟨call, result, turns⟩ := episode
  cases call with
  | ensure owner => exact isOrderly_of_ensured h hturns hpast hturn
  | remove owner =>
    obtain ⟨delete, hdelete, -⟩ := h
    obtain rfl := eq_of_singleton_eq (hdelete.symm.trans hturns)
    refine ⟨?_, fun _ _ _ heq => absurd heq (ne_inserted rfl (by simp))⟩
    have hdeleted := of_deleted hturn
    split_ifs at hdeleted
    · rw [hdeleted.2]
      exact .taken
    · rw [hdeleted]
      exact .none

/-- What a call makes of a chain. A call of `ensure` answers whether the rule is in the chain at its
end. If it was there before, the call does no more than look for it. Otherwise the rule is put at
the second position if a first rule has been stated, and at the first position if not; where that
fails, the chain is as it was. A call of `remove` deletes the first of the rule, or fails. -/
def Accounts (f : Firewall) (episode : Episode) (c d : Chain) : Prop :=
  match episode.call with
  | .ensure owner =>
    (episode.result = true ↔ f.rule owner ∈ d) ∧
      if f.rule owner ∈ c then d = c ∧ ∃ check, episode.turns = [f.checked owner check]
      else ∃ check state insert position,
        position = (if state.succeeds = true ∧ c ≠ [] then 2 else 1) ∧
        let tried := [f.checked owner check, f.stated state, f.inserted owner position insert]
        if episode.result then
          d = c.insertIdx (position - 1) (f.rule owner) ∧
            ∃ listing, episode.turns = tried ++ [f.shown listing]
        else d = c ∧ episode.turns = tried
  | .remove owner =>
    (∃ delete, episode.turns = [f.deleted owner delete]) ∧
      d = if episode.result then c.erase (f.rule owner) else c

theorem accounts_of_ensured {f : Firewall} {owner : Int} {result : Bool} {turns : List Turn}
    {c d : Chain} (h : f.Ensured owner result turns) (hleads : Leads c turns d) :
    f.Accounts ⟨.ensure owner, result, turns⟩ c d := by
  cases h with
  | @found check hcheck =>
    simp only [leads_cons, leads_nil] at hleads
    obtain ⟨_, hchecked, rfl⟩ := hleads
    obtain ⟨rfl, hfound⟩ := of_checked hchecked
    have hmem := hfound.mp hcheck
    refine ⟨iff_of_true rfl hmem, ?_⟩
    rw [if_pos hmem]
    exact ⟨rfl, check, rfl⟩
  | @refused check state insert hcheck hinsert =>
    obtain ⟨hnot, hposition, -, -, hmore⟩ := of_sought hcheck hleads
    simp only [leads_cons, leads_nil] at hmore
    obtain ⟨_, hinserted, rfl⟩ := hmore
    have hsame := of_inserted hinserted
    rw [hinsert, if_neg Bool.false_ne_true] at hsame
    subst hsame
    refine ⟨iff_of_false Bool.false_ne_true hnot, ?_⟩
    rw [if_neg hnot]
    exact ⟨check, state, insert, _, hposition, rfl, rfl⟩
  | @added check state insert listing hcheck hinsert =>
    obtain ⟨hnot, hposition, hlow, hhigh, hmore⟩ := of_sought hcheck hleads
    simp only [leads_cons, leads_nil] at hmore
    obtain ⟨_, hinserted, _, hshown, rfl⟩ := hmore
    obtain rfl := of_shown hshown
    have hput := of_inserted hinserted
    rw [hinsert, if_pos rfl] at hput
    obtain ⟨-, -, rfl⟩ := hput
    have hmem : f.rule owner ∈ c.insertIdx (positionAfter state - 1) (f.rule owner) :=
      (List.mem_insertIdx (by omega)).mpr (.inl rfl)
    refine ⟨iff_of_true rfl hmem, ?_⟩
    rw [if_neg hnot]
    exact ⟨check, state, insert, _, hposition, rfl, listing, rfl⟩

theorem accounts_of_performed {f : Firewall} {episode : Episode} {c d : Chain}
    (h : f.Performed episode) (hleads : Leads c episode.turns d) : f.Accounts episode c d := by
  obtain ⟨call, result, turns⟩ := episode
  cases call with
  | ensure owner => exact accounts_of_ensured h hleads
  | remove owner =>
    obtain ⟨delete, hturns, hresult⟩ := h
    dsimp only at hturns hresult hleads
    subst hturns hresult
    simp only [leads_cons, leads_nil] at hleads
    obtain ⟨_, hdeleted, rfl⟩ := hleads
    have hdeleted := of_deleted hdeleted
    refine ⟨⟨delete, rfl⟩, ?_⟩
    dsimp only
    split_ifs at hdeleted ⊢
    · exact hdeleted.2
    · exact hdeleted

/-! ## Runs -/

/-- A turn of one of several episodes stands within its own. -/
theorem exists_of_flatMap_eq {episodes : List Episode} {past rest : List Turn} {turn : Turn}
    (h : episodes.flatMap Episode.turns = past ++ turn :: rest) :
    ∃ (earlier : List Episode) (episode : Episode) (within after : List Turn),
      episode ∈ episodes ∧ past = earlier.flatMap Episode.turns ++ within ∧
        episode.turns = within ++ turn :: after := by
  induction episodes generalizing past with
  | nil => simp at h
  | cons first episodes ih =>
    have hlater {gone : List Turn} (hpast : past = first.turns ++ gone)
        (hrest : episodes.flatMap Episode.turns = gone ++ turn :: rest) :
        ∃ (earlier : List Episode) (episode : Episode) (within after : List Turn),
          episode ∈ first :: episodes ∧ past = earlier.flatMap Episode.turns ++ within ∧
            episode.turns = within ++ turn :: after := by
      obtain ⟨earlier, episode, within, after, hmem, rfl, hturns⟩ := ih hrest
      refine ⟨first :: earlier, episode, within, after, List.mem_cons_of_mem _ hmem, ?_, hturns⟩
      rw [hpast, List.flatMap_cons, List.append_assoc]
    rw [List.flatMap_cons, List.append_eq_append_iff] at h
    rcases h with ⟨gone, hpast, hrest⟩ | ⟨left, hfirst, hrest⟩
    · exact hlater hpast hrest
    · cases left with
      | nil => exact @hlater [] (by simpa using hfirst.symm) hrest.symm
      | cons next left =>
        obtain ⟨rfl, -⟩ := List.cons.inj hrest
        exact ⟨[], first, past, left, List.mem_cons_self, rfl, hfirst⟩

/-- The rules of a chain that are those of no calls. -/
def others (f : Firewall) (calls : List Call) (c : Chain) : Chain :=
  c.filter fun rule => decide (∀ call ∈ calls, rule ≠ f.rule call.owner)

/-- Is a chain kept from another one on: is no rule of the agent in it twice, and are the rules that
are those of no calls as they were? -/
def Keeps (f : Firewall) (calls : List Call) (start c : Chain) : Prop :=
  (∀ owner, c.count (f.rule owner) ≤ 1) ∧ f.others calls c = f.others calls start

theorem Keeps.change {f : Firewall} {calls : List Call} {call : Call} {start c d : Chain}
    (h : f.Keeps calls start c) (hcall : call ∈ calls) (hchange : Change (f.rule call.owner) c d) :
    f.Keeps calls start d := by
  refine ⟨fun owner => hchange.count_le (h.1 owner), (hchange.filter_eq ?_).trans h.2⟩
  exact decide_eq_false fun hother => hother call hcall rfl

variable {f : Firewall} {calls : List Call} {episodes : List Episode} {start : Chain}

/-- Each turn of a run is orderly. -/
theorem isOrderly_of_run (hperformed : ∀ episode ∈ episodes, f.Performed episode)
    {past rest : List Turn} {turn : Turn} {c d : Chain}
    (hturns : episodes.flatMap Episode.turns = past ++ turn :: rest) (hpast : Leads start past c)
    (hturn : Answers turn.command turn.outcome c d) :
    ∃ episode ∈ episodes, f.IsOrderly episode.call.owner turn c d := by
  obtain ⟨earlier, episode, within, after, hmem, rfl, hwithin⟩ := exists_of_flatMap_eq hturns
  obtain ⟨between, -, hbetween⟩ := leads_append.mp hpast
  exact ⟨episode, hmem, isOrderly_of_performed (hperformed episode hmem) hwithin hbetween hturn⟩

/-- The chain is kept at every time of a run. -/
theorem keeps_of_run (hstart : ∀ owner, start.count (f.rule owner) ≤ 1)
    (hperformed : ∀ episode ∈ episodes, f.Performed episode) {past rest : List Turn} {c : Chain}
    (hturns : episodes.flatMap Episode.turns = past ++ rest) (hpast : Leads start past c) :
    f.Keeps (episodes.map Episode.call) start c := by
  induction past using List.reverseRec generalizing rest c with
  | nil =>
    rw [leads_nil.mp hpast]
    exact ⟨hstart, rfl⟩
  | append_singleton past turn ih =>
    obtain ⟨before, hbefore, hlast⟩ := leads_append.mp hpast
    simp only [leads_cons, leads_nil, exists_eq_right'] at hlast
    rw [List.append_assoc, List.singleton_append] at hturns
    obtain ⟨episode, hmem, hchange, -⟩ := isOrderly_of_run hperformed hturns hbefore hlast
    exact (ih hturns hbefore).change (List.mem_map_of_mem hmem) hchange

/-- The rules are kept in order over any calls. The calls only run commands, each of which comes to
what is in store for it, and they end early only with a command that has no outcome. Whatever the
commands make of a chain that no rule of the agent is in twice, at every time no rule of the agent
is in it twice, the rules that are those of no calls are as they were, and each rule that is put
into the chain is put at a position that it has. Each call accounts for what it makes of the chain.
-/
theorem bookkeeping (f : Firewall) (calls : List Call) (w : World) {start : Chain}
    (hstart : ∀ owner, start.count (f.rule owner) ≤ 1) :
    ∃ episodes : List Episode,
      let turns := episodes.flatMap Episode.turns
      let run := (calls.mapM f.perform : Action (List Bool)) w
      episodes.map Episode.call = calls ∧
      run.1 = (Turn.failure? turns.length w.commands).elim (.ok (episodes.map Episode.result))
        (fun failure => .error (.failed failure)) ∧
      w.Remedial ((turns.take (Turn.reach turns.length w.commands)).map Turn.deed) run.2 ∧
      Turn.Follow turns w.commands ∧
      (∀ past turn rest c d, turns = past ++ turn :: rest → Leads start past c →
        Answers turn.command turn.outcome c d →
          (∀ owner, d.count (f.rule owner) ≤ 1) ∧ f.others calls d = f.others calls start ∧
          ∀ owner position outcome, turn = f.inserted owner position outcome →
            1 ≤ position ∧ position ≤ c.length + 1) ∧
      ∀ episode ∈ episodes, ∀ c d, Leads c episode.turns d → f.Accounts episode c d := by
  obtain ⟨results, turns, ⟨episodes, hcalls, hresults, hturns, hperformed⟩, hfollow, hrun⟩ :=
    f.mapM_perform_issues calls w.commands
  subst hcalls hresults hturns
  obtain ⟨hres, htakes⟩ := hrun w rfl
  refine ⟨episodes, rfl, hres, htakes.remedial, hfollow, ?_, ?_⟩
  · intro past turn rest c d hsplit hpast hturn
    obtain ⟨episode, hmem, hchange, hposition⟩ := isOrderly_of_run hperformed hsplit hpast hturn
    have hkept := keeps_of_run hstart hperformed hsplit hpast
    obtain ⟨hsound, hothers⟩ := hkept.change (List.mem_map_of_mem hmem) hchange
    exact ⟨hsound, hothers, hposition⟩
  · exact fun episode hmem c d => accounts_of_performed (hperformed episode hmem)

/-- The rule of the first user is put behind another one and the rule of the second user at the
head, as the rules of the chain cannot be stated then; the rule of the first user is deleted, and
that of the second is found where it is. -/
theorem bookkeeping_two_users :
    let f : Firewall := {}
    let calls : List Call := [.ensure 0, .ensure 7, .remove 0, .ensure 7]
    let other : Rule := ["-j", "DROP"]
    let done : CommandOutcome := .ended 0 "" ""
    let outcomes : List CommandOutcome :=
      [.ended 1 "" "", .ended 0 "-P OUTPUT ACCEPT\n-A OUTPUT -j DROP\n" "", done, done,
        .ended 1 "" "", .ended 4 "" "", done, done, done, done]
    let w : World := { World.plain [] with commands := outcomes.map .ok }
    (∀ owner, [other].count (f.rule owner) ≤ 1) ∧
      ∃ first second third fourth : Episode, ∃ c d e : Chain,
        [first, second, third, fourth].map Episode.call = calls ∧
        (calls.mapM f.perform w).1 = .ok [true, true, true, true] ∧
        f.Accounts first [other] c ∧ f.Accounts second c d ∧ f.Accounts third d e ∧
        f.Accounts fourth e [f.rule 7, other] ∧
        f.others calls [f.rule 7, other] = f.others calls [other] := by
  intro f calls other done outcomes w
  have hstart : ∀ owner, [other].count (f.rule owner) ≤ 1 := fun owner => List.count_le_length
  obtain ⟨episodes, hcalls, hres, hremedial, hfollow, hkeeps, haccounts⟩ :=
    bookkeeping f calls w hstart
  have hwhole := Turn.failure?_map_ok (episodes.flatMap Episode.turns).length outcomes
  rw [hwhole] at hres
  rw [(Turn.reach_add_of_none hwhole 0).1, List.take_length] at hremedial
  let turns : List Turn :=
    [f.checked 0 (.ended 1 "" ""), f.stated (.ended 0 "-P OUTPUT ACCEPT\n-A OUTPUT -j DROP\n" ""),
      f.inserted 0 2 done, f.shown done, f.checked 7 (.ended 1 "" ""), f.stated (.ended 4 "" ""),
      f.inserted 7 1 done, f.shown done, f.deleted 0 done, f.checked 7 done]
  have hturns : episodes.flatMap Episode.turns = turns := by
    have hexpected : Turn.Follow turns w.commands := by
      rintro (_ | _ | _ | _ | _ | _ | _ | _ | _ | _ | i) turn hturn <;> cases hturn <;> rfl
    have hseen : (seen (calls.mapM f.perform w).2.trace).filterMap Deed.words? =
        turns.map Turn.words := by
      decide +kernel
    rw [hremedial.seen_eq, List.filterMap_append, Turn.filterMap_words?] at hseen
    exact hfollow.eq hexpected hseen
  have hleads : Leads [other] turns [f.rule 7, other] := by
    have herase : (([other].insertIdx 1 (f.rule 0)).insertIdx 0 (f.rule 7)).erase (f.rule 0) =
        [f.rule 7, other] := by
      decide +kernel
    have hstates : States "-P OUTPUT ACCEPT\n-A OUTPUT -j DROP\n" [other] :=
      ⟨"OUTPUT ACCEPT", ["-j DROP"], rfl, by decide, by decide⟩
    refine .cons (answers_checked (by decide +kernel)) (.cons (answers_stated ?_)
      (.cons (answers_inserted rfl (by decide) (by decide)) (.cons answers_shown
      (.cons (answers_checked (by decide +kernel)) (.cons (answers_stated nofun)
      (.cons (answers_inserted rfl (by decide) (by decide)) (.cons answers_shown
      (.cons (answers_deleted rfl (by decide +kernel)) ?_))))))))
    · rintro output errors ⟨⟩
      exact hstates
    · change Leads ((([other].insertIdx 1 (f.rule 0)).insertIdx 0 (f.rule 7)).erase (f.rule 0))
        [f.checked 7 done] [f.rule 7, other]
      rw [herase]
      exact .cons (answers_checked (by decide +kernel)) (.nil _)
  have hothers : f.others calls [f.rule 7, other] = f.others calls [other] := by
    have hlast : turns = turns.dropLast ++ f.checked 7 done :: [] := rfl
    rw [hlast] at hleads
    obtain ⟨before, hpast, hturn⟩ := leads_append.mp hleads
    simp only [leads_cons, leads_nil, exists_eq_right'] at hturn
    exact (hkeeps _ _ _ _ _ (hturns.trans hlast) hpast hturn).2.1
  obtain ⟨first, more, rfl, hfirst, hcalls⟩ := List.map_eq_cons_iff.mp hcalls
  obtain ⟨second, more, rfl, hsecond, hcalls⟩ := List.map_eq_cons_iff.mp hcalls
  obtain ⟨third, more, rfl, hthird, hcalls⟩ := List.map_eq_cons_iff.mp hcalls
  obtain ⟨fourth, rfl, hfourth⟩ := List.map_eq_singleton_iff.mp hcalls
  rw [← hturns] at hleads
  simp only [List.flatMap_cons, List.flatMap_nil, List.append_nil, leads_append] at hleads
  obtain ⟨c, hleads₁, d, hleads₂, e, hleads₃, hleads₄⟩ := hleads
  have hresults : [first, second, third, fourth].map Episode.result = [true, true, true, true] := by
    have hok : (calls.mapM f.perform w).1.toOption = some [true, true, true, true] := by
      decide +kernel
    rw [hres] at hok
    exact Option.some.inj hok
  refine ⟨hstart, first, second, third, fourth, c, d, e, ?_, ?_,
    haccounts first (by simp) _ _ hleads₁, haccounts second (by simp) _ _ hleads₂,
    haccounts third (by simp) _ _ hleads₃,
    haccounts fourth (by simp) _ _ hleads₄, hothers⟩
  · rw [List.map_cons, List.map_cons, List.map_cons, List.map_singleton, hfirst, hsecond, hthird,
      hfourth]
  · rw [hres, hresults]
    rfl

end Firewall

end WireAgent
