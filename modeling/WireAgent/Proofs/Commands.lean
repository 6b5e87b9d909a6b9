import Mathlib.Data.List.Basic
import WireAgent.Proofs.Execution

/-!
# Commands of the firewall

What an operation of the firewall comes to is decided by what is in store for the commands that it
runs. `Action.Issues P x` says that `x` does no more than run commands, and that `P` relates its
result to its turns, the commands with the outcome of each. A command that has no outcome ends `x`
early: then only the turns up to it are taken (`Turn.reach`), and what failed there is what `x`
comes to (`Turn.failure?`). `Firewall.ensure_issues` and `Firewall.remove_issues` say which turns
there are, and which result they lead to.
-/

namespace WireAgent

/-- From `w` to `w'` these commands and remediations are seen, no move is recorded, and nothing else
has changed. -/
structure World.Remedial (deeds : List Deed) (w w' : World) : Prop where
  unchanged : w' = { w with
    commands := w'.commands, remediations := w'.remediations, trace := w'.trace }
  seen_eq : seen w'.trace = seen w.trace ++ deeds
  moves_eq : moves w'.trace = moves w.trace

namespace World.Remedial

variable {w w' w'' : World} {deeds more : List Deed}

theorem refl (w : World) : Remedial [] w w :=
  ⟨rfl, by simp, rfl⟩

theorem trans (h : Remedial deeds w w') (h' : Remedial more w' w'') :
    Remedial (deeds ++ more) w w'' where
  unchanged := h'.unchanged.trans (by rw [h.unchanged])
  seen_eq := by rw [h'.seen_eq, h.seen_eq, List.append_assoc]
  moves_eq := h'.moves_eq.trans h.moves_eq

theorem log (h : Remedial deeds w w') (level : LogLevel) (source : LogSource) (message : String)
    (hquiet : level ≠ .debug ∨ source ≠ .agent := by decide) :
    Remedial deeds w (Action.log level source message w').2 where
  unchanged := by
    rw [Action.log_apply]
    dsimp only
    rw [h.unchanged]
  seen_eq := by simpa using h.seen_eq
  moves_eq := by
    have hrecord := Deed.isMove_eq_false hquiet message
    simpa [moves, hrecord] using h.moves_eq

theorem exchanges (h : Remedial deeds w w') : w'.exchanges = w.exchanges := by
  rw [h.unchanged]

theorem exchange (h : Remedial deeds w w') (i : Nat) : w'.exchange i = w.exchange i := by
  rw [h.unchanged]
  rfl

end World.Remedial

/-! ## Turns -/

/-- Was a command run, and did it end with code zero? -/
def CommandOutcome.succeeds : CommandOutcome → Bool
  | .ended code _ _ => decide (code = 0)
  | .unavailable _ => false

/-- The command that is run, if one is. -/
def Deed.words? : Deed → Option (List String × Bool)
  | .ran command check => some (command, check)
  | _ => none

/-- A command that was run, and what came of it. -/
structure Turn where
  command : List String
  check : Bool
  outcome : CommandOutcome

namespace Turn

/-- What is seen of a turn. -/
def deed (turn : Turn) : Deed := .ran turn.command turn.check

/-- What is run in a turn. -/
def words (turn : Turn) : List String × Bool := (turn.command, turn.check)

/-- The outcome of the command before which `i` others are run. If there is none, nothing depends on
which one this is. -/
def outcomeAt (commands : List (Except Failure CommandOutcome)) (i : Nat) : CommandOutcome :=
  (commands[i]?.bind Except.toOption).getD (.ended 0 "" "")

/-- What the first of `n` commands that has no outcome fails with. -/
def failure? : Nat → List (Except Failure CommandOutcome) → Option Failure
  | 0, _ => none
  | _ + 1, [] => none
  | _ + 1, .error failure :: _ => some failure
  | n + 1, .ok _ :: commands => failure? n commands

/-- How many of `n` commands are run: all of them, or those up to the first that has no outcome. -/
def reach : Nat → List (Except Failure CommandOutcome) → Nat
  | 0, _ => 0
  | n + 1, [] => n + 1
  | _ + 1, .error _ :: _ => 1
  | n + 1, .ok _ :: commands => reach n commands + 1

section

variable {commands : List (Except Failure CommandOutcome)} {n : Nat}

/-- Where no command fails, all are run, and what comes of more is up to the commands after them. -/
theorem reach_add_of_none (h : failure? n commands = none) (m : Nat) :
    reach n commands = n ∧ failure? (n + m) commands = failure? m (commands.drop n) ∧
      reach (n + m) commands = n + reach m (commands.drop n) := by
  induction n generalizing commands with
  | zero => simp [reach]
  | succ n ih =>
    rw [Nat.succ_add]
    rcases commands with _ | ⟨failure | outcome, commands⟩
    · cases m <;> simp [reach, failure?]
      omega
    · cases h
    · obtain ⟨hreach, hfailure, hfurther⟩ := ih h
      refine ⟨congrArg (· + 1) hreach, hfailure, ?_⟩
      rw [reach, hfurther, List.drop_succ_cons, Nat.succ_add]

/-- Where a command fails, no further ones are run. -/
theorem reach_add_of_some {failure : Failure} (h : failure? n commands = some failure) (m : Nat) :
    reach n commands ≤ n ∧ failure? (n + m) commands = some failure ∧
      reach (n + m) commands = reach n commands := by
  induction n generalizing commands with
  | zero => cases h
  | succ n ih =>
    rw [Nat.succ_add]
    rcases commands with _ | ⟨failure' | outcome, commands⟩
    · cases h
    · exact ⟨Nat.succ_le_succ (Nat.zero_le n), h, rfl⟩
    · obtain ⟨hreach, hfailure, hfurther⟩ := ih h
      exact ⟨Nat.succ_le_succ hreach, hfailure, congrArg (· + 1) hfurther⟩

/-- Where each command has an outcome, none fails. -/
theorem failure?_map_ok (n : Nat) (outcomes : List CommandOutcome) :
    failure? n (outcomes.map .ok) = none := by
  induction n generalizing outcomes with
  | zero => rfl
  | succ n ih =>
    cases outcomes with
    | nil => rfl
    | cons _ outcomes => exact ih outcomes

end

/-- Has each command come to what was in store for it? -/
def Follow (turns : List Turn) (commands : List (Except Failure CommandOutcome)) : Prop :=
  ∀ (i : Nat) (turn : Turn), turns[i]? = some turn → turn.outcome = outcomeAt commands i

theorem Follow.append {turns more : List Turn} {commands : List (Except Failure CommandOutcome)}
    (h : Follow turns commands) (h' : Follow more (commands.drop turns.length)) :
    Follow (turns ++ more) commands := by
  intro i turn hturn
  rcases Nat.lt_or_ge i turns.length with hi | hi
  · rw [List.getElem?_append_left hi] at hturn
    exact h i turn hturn
  · rw [List.getElem?_append_right hi] at hturn
    have hrest := h' _ turn hturn
    rwa [outcomeAt, List.getElem?_drop, Nat.add_sub_cancel' hi] at hrest

theorem filterMap_words? (turns : List Turn) :
    (turns.map deed).filterMap Deed.words? = turns.map words := by
  rw [List.filterMap_map]
  exact congrFun List.filterMap_eq_map turns

/-- What is run and what was in store are all that there is to turns. -/
theorem Follow.eq {turns turns' : List Turn} {commands : List (Except Failure CommandOutcome)}
    (h : Follow turns commands) (h' : Follow turns' commands)
    (hwords : turns.map words = turns'.map words) : turns = turns' := by
  refine List.ext_getElem? fun i => ?_
  have hi : turns[i]?.map words = turns'[i]?.map words := by
    rw [← List.getElem?_map, hwords, List.getElem?_map]
  rcases hturn : turns[i]? with _ | ⟨command, check, outcome⟩ <;>
    rcases hturn' : turns'[i]? with _ | ⟨command', check', outcome'⟩ <;>
    simp only [hturn, hturn', Option.map_some, Option.map_none, reduceCtorEq, Option.some.injEq,
      words, Prod.mk.injEq] at hi
  · rfl
  · obtain ⟨rfl, rfl⟩ := hi
    obtain rfl : outcome = outcome' := (h i _ hturn).trans (h' i _ hturn').symm
    rfl

end Turn

namespace Action

open World

theorem run_apply (command : List String) (check : Bool) (w : World) :
    run command check w =
      ((w.commands.head?.getD (.ok (.ended 0 "" ""))).mapError .failed,
        { w with commands := w.commands.tail, trace := w.trace ++ [.ran command check] }) := by
  simp only [run, bind_apply, record_apply, modifyGet_apply]
  cases w.commands.head?.getD (.ok (.ended 0 "" "")) <;> rfl

/-- From `w` to `v` no more is done than that these turns are taken, up to the first one whose
command has no outcome. -/
structure Takes (turns : List Turn) (w v : World) : Prop where
  remedial : Remedial ((turns.take (Turn.reach turns.length w.commands)).map Turn.deed) w v
  commands : v.commands = w.commands.drop (Turn.reach turns.length w.commands)
  remediations : v.remediations = w.remediations

/-- The commands in store decide what comes of `x`. It does no more than run commands, and `P`
relates its result to its turns. It ends early only with a command that has no outcome. -/
def Issues {α : Type} (P : α → List Turn → Prop) (x : Action α) : Prop :=
  ∀ commands, ∃ a turns, P a turns ∧ Turn.Follow turns commands ∧ ∀ w, w.commands = commands →
    (x w).1 = (Turn.failure? turns.length commands).elim (.ok a) (fun failure =>
      .error (.failed failure)) ∧ Takes turns w (x w).2

theorem Takes.nil (w : World) : Takes [] w w :=
  ⟨.refl w, rfl, rfl⟩

namespace Issues

variable {α β : Type} {P : α → List Turn → Prop} {Q : β → List Turn → Prop} {x : Action α}
  {f : α → Action β}

theorem mono {Q : α → List Turn → Prop} (h : ∀ a turns, P a turns → Q a turns)
    (hx : Issues P x) : Issues Q x := by
  intro commands
  obtain ⟨a, turns, hp, hx⟩ := hx commands
  exact ⟨a, turns, h a turns hp, hx⟩

theorem pure {a : α} (h : P a []) : Issues P (pure a) := by
  intro commands
  exact ⟨a, [], h, fun _ _ hturn => by simp at hturn, fun w hw => ⟨rfl, .nil w⟩⟩

theorem bind (hx : Issues P x)
    (hf : ∀ a turns, P a turns → Issues (fun b more => Q b (turns ++ more)) (f a)) :
    Issues Q (x >>= f) := by
  intro commands
  obtain ⟨a, turns, hp, hfollow, hx⟩ := hx commands
  obtain ⟨b, more, hq, hfollow', hf⟩ := hf a turns hp (commands.drop turns.length)
  refine ⟨b, turns ++ more, hq, hfollow.append hfollow', fun w hw => ?_⟩
  obtain ⟨ha, hremedial, hrest, hm⟩ := hx w hw
  rw [hw] at hremedial hrest
  rw [bind_apply, List.length_append]
  rcases hfailure : Turn.failure? turns.length commands with _ | failure
  · -- All turns of `x` are taken, and `f` goes on where they end.
    obtain ⟨hall, hfailure', hreach⟩ := Turn.reach_add_of_none hfailure more.length
    rw [hfailure] at ha
    rw [hall] at hremedial hrest
    obtain ⟨hb, hremedial', hrest', hm'⟩ := hf _ hrest
    rw [hrest] at hremedial' hrest'
    rcases hxw : x w with ⟨result, v⟩
    rw [hxw] at ha hremedial hrest hm hb hremedial' hrest' hm'
    obtain rfl : result = .ok a := ha
    refine ⟨by rw [hfailure']; exact hb, ?_, ?_, hm'.trans hm⟩
    · rw [hw, List.length_append, hreach, List.take_length_add_append, List.map_append]
      rw [List.take_length] at hremedial
      exact hremedial.trans hremedial'
    · rw [hw, List.length_append, hreach, ← List.drop_drop]
      exact hrest'
  · -- `x` ends early, and so does all.
    obtain ⟨hle, hfailure', hreach⟩ := Turn.reach_add_of_some hfailure more.length
    rw [hfailure] at ha
    rcases hxw : x w with ⟨result, v⟩
    rw [hxw] at ha hremedial hrest hm
    obtain rfl : result = .error (.failed failure) := ha
    refine ⟨by rw [hfailure']; rfl, ?_, ?_, hm⟩
    · rw [hw, List.length_append, hreach, List.take_append_of_le_length hle]
      exact hremedial
    · rw [hw, List.length_append, hreach]
      exact hrest

/-- A record is not seen. -/
theorem log_bind (level : LogLevel) (source : LogSource) (message : String)
    {f : Unit → Action β} (hf : Issues Q (f ()))
    (hquiet : level ≠ .debug ∨ source ≠ .agent := by decide) :
    Issues Q (log level source message >>= f) := by
  intro commands
  obtain ⟨b, turns, hq, hfollow, hf⟩ := hf commands
  refine ⟨b, turns, hq, hfollow, fun w hw => ?_⟩
  obtain ⟨hb, hr, hrest, hm⟩ := hf (log level source message w).2 hw
  exact ⟨hb, ((Remedial.refl w).log level source message hquiet).trans hr, hrest, hm⟩

theorem run (command : List String) (check : Bool) :
    Issues (fun outcome turns => turns = [⟨command, check, outcome⟩])
      (Action.run command check) := by
  intro commands
  refine ⟨Turn.outcomeAt commands 0, _, rfl, fun i turn hturn => ?_, fun w hw => ?_⟩
  · obtain ⟨rfl, rfl⟩ : i = 0 ∧ turn = ⟨command, check, Turn.outcomeAt commands 0⟩ := by
      cases i <;> simp_all
    rfl
  · have hran : Remedial [.ran command check] w (Action.run command check w).2 := by
      rw [run_apply]
      refine ⟨rfl, ?_, ?_⟩
      · simp [seen, Deed.isLogged]
      · simp [moves, Deed.isMove]
    subst hw
    rcases hcommands : w.commands with _ | ⟨failure | outcome, rest⟩ <;>
      exact ⟨by rw [run_apply, hcommands]; rfl, by rw [hcommands]; exact hran,
        by rw [run_apply, hcommands]; rfl, by rw [run_apply]⟩

end Issues

end Action

/-! ## Operations -/

namespace Firewall

variable (f : Firewall) (owner : Int)

/-- The rule of a user has been looked for. -/
def checked (outcome : CommandOutcome) : Turn :=
  ⟨f.elevated (f.ruleCommand "-C" owner none), false, outcome⟩

/-- The rules of the chain have been stated. -/
def stated (outcome : CommandOutcome) : Turn :=
  ⟨f.elevated (tableCommand ["-S", chain]), false, outcome⟩

/-- The rule of a user has been put at a position. -/
def inserted (position : Nat) (outcome : CommandOutcome) : Turn :=
  ⟨f.elevated (f.ruleCommand "-I" owner (some position)), true, outcome⟩

/-- The chain has been listed. -/
def shown (outcome : CommandOutcome) : Turn :=
  ⟨f.elevated (tableCommand ["-L", chain, "-n", "--line-numbers"]), true, outcome⟩

/-- The rule of a user has been deleted. -/
def deleted (outcome : CommandOutcome) : Turn :=
  ⟨f.elevated (f.ruleCommand "-D" owner none), true, outcome⟩

/-- The number of rules in what has been stated, zero if nothing has. -/
def statedCount : CommandOutcome → Nat
  | .ended code output _ => if code = 0 then countRules output else 0
  | .unavailable _ => 0

/-- Where a rule is put after this has been stated. -/
def positionAfter (outcome : CommandOutcome) : Nat := min insertPosition (statedCount outcome + 1)

/-- The turns in which the rule of a user is looked for and, if it is not found, put into the chain,
and what they lead to. -/
inductive Ensured : Bool → List Turn → Prop
  | found {check : CommandOutcome} (hcheck : check.succeeds = true) :
      Ensured true [f.checked owner check]
  | refused {check state insert : CommandOutcome} (hcheck : check.succeeds = false)
      (hinsert : insert.succeeds = false) :
      Ensured false
        [f.checked owner check, f.stated state, f.inserted owner (positionAfter state) insert]
  | added {check state insert listing : CommandOutcome} (hcheck : check.succeeds = false)
      (hinsert : insert.succeeds = true) :
      Ensured true
        [f.checked owner check, f.stated state, f.inserted owner (positionAfter state) insert,
          f.shown listing]

open Action

theorem run_issues (command : List String) (check : Bool) :
    Issues (fun outcome turns => turns = [⟨f.elevated command, check, outcome⟩])
      (f.run command check : Action CommandOutcome) :=
  .log_bind _ _ _ (.run _ check)

theorem hasRule_issues :
    Issues (fun found turns => ∃ outcome, turns = [f.checked owner outcome] ∧
      found = outcome.succeeds) (f.hasRule owner : Action Bool) := by
  refine (f.run_issues _ _).bind fun outcome turns h => ?_
  subst h
  cases outcome with
  | ended code => exact .pure ⟨_, rfl, rfl⟩
  | unavailable failure => exact .log_bind _ _ _ (.pure ⟨_, rfl, rfl⟩)

theorem ruleCount_issues :
    Issues (fun count turns => ∃ outcome, turns = [f.stated outcome] ∧ count = statedCount outcome)
      (f.ruleCount : Action Nat) := by
  refine (f.run_issues _ _).bind fun outcome turns h => ?_
  subst h
  cases outcome with
  | ended code => exact .pure ⟨_, rfl, rfl⟩
  | unavailable failure => exact .log_bind _ _ _ (.pure ⟨_, rfl, rfl⟩)

/-- A command that changes the chain tells whether it succeeded. -/
theorem change_issues (command : List String) (done verb : String) :
    Issues (fun succeeded turns => ∃ outcome, turns = [⟨f.elevated command, true, outcome⟩] ∧
      succeeded = outcome.succeeds) (f.change command done verb : Action Bool) := by
  refine (f.run_issues _ _).bind fun outcome turns h => ?_
  subst h
  cases outcome with
  | ended code =>
    by_cases hcode : code = 0
    all_goals
      simp only [hcode, if_true, if_false]
      exact .log_bind _ _ _ (.pure ⟨_, rfl, by simp [CommandOutcome.succeeds, hcode]⟩)
  | unavailable failure => exact .log_bind _ _ _ (.pure ⟨_, rfl, rfl⟩)

theorem listing_issues :
    Issues (fun _ turns => ∃ outcome, turns = [f.shown outcome])
      (f.listing : Action String) := by
  refine (f.run_issues _ _).bind fun outcome turns h => ?_
  subst h
  cases outcome with
  | ended code => exact .pure ⟨_, rfl⟩
  | unavailable failure => exact .pure ⟨_, rfl⟩

theorem add_issues :
    Issues (fun added turns => ∃ state insert,
      turns = [f.stated state, f.inserted owner (positionAfter state) insert] ∧
        added = insert.succeeds) (f.add owner : Action Bool) := by
  refine f.ruleCount_issues.bind fun count turns h => ?_
  obtain ⟨state, rfl, rfl⟩ := h
  refine (f.change_issues _ _ _).mono ?_
  rintro added turns ⟨insert, rfl, rfl⟩
  exact ⟨state, insert, rfl, rfl⟩

/-- The rule is looked for, and put into the chain if it is not found. -/
theorem ensure_issues : Issues (f.Ensured owner) (f.ensure owner : Action Bool) := by
  refine (f.hasRule_issues owner).bind fun found turns h => ?_
  obtain ⟨check, rfl, hcheck⟩ := h
  cases found with
  | true => exact .log_bind _ _ _ (.pure (.found hcheck.symm))
  | false =>
    refine (f.add_issues owner).bind fun added turns h => ?_
    obtain ⟨state, insert, rfl, hinsert⟩ := h
    cases added with
    | false => exact .pure (.refused hcheck.symm hinsert.symm)
    | true =>
      refine f.listing_issues.bind fun text turns h => ?_
      obtain ⟨listing, rfl⟩ := h
      exact .log_bind _ _ _ (.pure (.added hcheck.symm hinsert.symm))

/-- The rule is deleted with one command. -/
theorem remove_issues :
    Issues (fun removed turns => ∃ outcome, turns = [f.deleted owner outcome] ∧
      removed = outcome.succeeds) (f.remove owner : Action Bool) :=
  f.change_issues _ _ _

end Firewall

end WireAgent
