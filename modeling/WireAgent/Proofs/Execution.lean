import Mathlib.Order.Defs.Unbundled
import WireAgent.Agent

/-!
# Running actions

An action is a function of the world. This file says what that function is for the ways in which
actions are put together (`Action.bind_apply`, `Activity.bind_apply`), for the acts of a `World` and
for the steps of the agent at their stages, so that no other proof has to open the monads.

`Action.Respects R x` says that `x` leads from every world to one that `R` relates to it. If `R` is
reflexive and transitive, sequences, catches and choices of actions that respect it respect it too.
Such relations are `World.Noted`, nothing has happened but log records, `World.Idle`, nothing but
those and readings of the clock, and `World.Still`, no move of the agent to another stage.
-/

namespace WireAgent

/-! ## What there is to see of a world -/

/-- Is it a log record? -/
def Deed.isLogged : Deed → Bool
  | .logged _ => true
  | _ => false

/-- The deeds of a trace that are no log records. -/
def seen (trace : List Deed) : List Deed := trace.filter fun deed => !deed.isLogged

@[simp] theorem seen_append (s t : List Deed) : seen (s ++ t) = seen s ++ seen t :=
  List.filter_append ..

@[simp] theorem seen_logged (r : LogRecord) (t : List Deed) : seen (.logged r :: t) = seen t := rfl

@[simp] theorem seen_nil : seen [] = [] := rfl

theorem seen_eq_nil {logs : List Deed} (h : ∀ d ∈ logs, d.isLogged = true) : seen logs = [] := by
  simpa [seen] using h

/-- Is it the record of a move from one stage to another? -/
def Deed.isMove : Deed → Bool
  | .logged ⟨.debug, .agent, _⟩ => true
  | _ => false

/-- The records of moves in a trace. -/
def moves (trace : List Deed) : List Deed := trace.filter Deed.isMove

@[simp] theorem moves_append (s t : List Deed) : moves (s ++ t) = moves s ++ moves t :=
  List.filter_append ..

@[simp] theorem moves_nil : moves [] = [] := rfl

theorem moves_eq_nil {deeds : List Deed} (h : ∀ d ∈ deeds, d.isMove = false) :
    moves deeds = [] := by
  simpa [moves] using h

/-- The agent records moves, and nothing else, for debugging. -/
theorem Deed.isMove_eq_false {level : LogLevel} {source : LogSource}
    (h : level ≠ .debug ∨ source ≠ .agent) (message : String) :
    (logged ⟨level, source, message⟩).isMove = false := by
  cases level <;> cases source <;> simp_all [isMove]

/-- What is in store for the request before which `i` others are made. -/
def World.exchange (w : World) (i : Nat) : Exchange := w.exchanges[i]?.getD {}

/-! ## Actions -/

namespace Action

variable {α β ε : Type}

@[simp] theorem bind_apply (x : Action α) (f : α → Action β) (w : World) :
    (x >>= f) w = match x w with
      | (.ok a, w) => f a w
      | (.error e, w) => (.error e, w) := by
  simp only [bind, ExceptT.bind, ExceptT.mk, StateT.bind]
  rcases x w with ⟨_ | _, _⟩ <;> rfl

@[simp] theorem map_apply (f : α → β) (x : Action α) (w : World) :
    (f <$> x) w = match x w with
      | (.ok a, w) => (.ok (f a), w)
      | (.error e, w) => (.error e, w) := by
  simp only [Functor.map, ExceptT.map, ExceptT.mk, bind, StateT.bind]
  rcases x w with ⟨_ | _, _⟩ <;> rfl

@[simp] theorem pure_apply (a : α) (w : World) : (pure a : Action α) w = (.ok a, w) :=
  rfl

@[simp] theorem throw_apply (e : Fault) (w : World) : (throw e : Action α) w = (.error e, w) :=
  rfl

@[simp] theorem get_apply (w : World) : (get : Action World) w = (.ok w, w) :=
  rfl

@[simp] theorem modify_apply (f : World → World) (w : World) :
    (modify f : Action Unit) w = (.ok (), f w) :=
  rfl

@[simp] theorem modifyGet_apply (f : World → α × World) (w : World) :
    (modifyGet f : Action α) w = (.ok (f w).1, (f w).2) :=
  rfl

@[simp] theorem outcome_apply (x : Action α) (w : World) :
    outcome x w = (.ok (x w).1, (x w).2) :=
  rfl

@[simp] theorem lift_apply (fault : ε → Fault) (e : Except ε α) (w : World) :
    lift fault e w = (e.mapError fault, w) := by
  cases e <;> rfl

@[simp] theorem record_apply (d : Deed) (w : World) :
    record d w = (.ok (), { w with trace := w.trace ++ [d] }) :=
  rfl

@[simp] theorem log_apply (level : LogLevel) (source : LogSource) (message : String) (w : World) :
    log level source message w =
      (.ok (), { w with trace := w.trace ++ [.logged ⟨level, source, message⟩] }) :=
  rfl

theorem now_apply (w : World) : now w = (.ok w.now, (now w).2) :=
  rfl

/-! ### Relations that actions respect -/

/-- Whatever `x` does, `R` relates the world before to the world after it. -/
def Respects (R : World → World → Prop) (x : Action α) : Prop := ∀ w, R w (x w).2

namespace Respects

variable {R : World → World → Prop} {x : Action α} {f : α → Action β}

theorem map (g : α → β) (hx : Respects R x) : Respects R (g <$> x) := by
  intro w
  have hw := hx w
  rw [map_apply]
  rcases h : x w with ⟨e | a, v⟩ <;> simpa [h] using hw

section

variable [IsPreorder World R]

theorem pure (a : α) : Respects R (pure a : Action α) :=
  fun w => refl_of R w

theorem throw (e : Fault) : Respects R (throw e : Action α) :=
  fun w => refl_of R w

theorem get : Respects R (get : Action World) :=
  fun w => refl_of R w

theorem lift (fault : ε → Fault) (e : Except ε α) : Respects R (lift fault e) := by
  intro w
  rw [lift_apply]
  exact refl_of R w

theorem bind (hx : Respects R x) (hf : ∀ a, Respects R (f a)) : Respects R (x >>= f) := by
  intro w
  have hw := hx w
  rw [bind_apply]
  rcases h : x w with ⟨e | a, v⟩
  · simpa [h] using hw
  · simp only [h] at hw ⊢
    exact trans_of R hw (hf a v)

end

end Respects

end Action

/-! ## Activities -/

namespace Activity

variable {σ τ α β : Type}

@[simp] theorem bind_apply (x : Activity σ α) (f : α → Activity σ β) (s : σ) (w : World) :
    (x >>= f) s w = match x s w with
      | ((.ok a, s), w) => f a s w
      | ((.error e, s), w) => ((.error e, s), w) := by
  simp only [bind, ExceptT.bind, ExceptT.mk, StateT.bind]
  rcases x s w with ⟨⟨_ | _, _⟩, _⟩ <;> rfl

@[simp] theorem pure_apply (a : α) (s : σ) (w : World) :
    (pure a : Activity σ α) s w = ((.ok a, s), w) :=
  rfl

@[simp] theorem throw_apply (e : Fault) (s : σ) (w : World) :
    (throw e : Activity σ α) s w = ((.error e, s), w) :=
  rfl

@[simp] theorem lift_apply (x : Action α) (s : σ) (w : World) :
    (liftM x : Activity σ α) s w = (((x w).1, s), (x w).2) :=
  rfl

@[simp] theorem map_apply (f : α → β) (x : Activity σ α) (s : σ) (w : World) :
    (f <$> x) s w = match x s w with
      | ((.ok a, s), w) => ((.ok (f a), s), w)
      | ((.error e, s), w) => ((.error e, s), w) := by
  simp only [Functor.map, ExceptT.map, ExceptT.mk, bind, StateT.bind]
  rcases x s w with ⟨⟨_ | _, _⟩, _⟩ <;> rfl

theorem lift_bind_apply (x : Action α) (f : α → Activity σ β) (s : σ) (w : World) :
    ((liftM x : Activity σ α) >>= f) s w = match x w with
      | (.ok a, v) => f a s v
      | (.error fault, v) => ((.error fault, s), v) := by
  rw [bind_apply, lift_apply]
  rcases x w with ⟨fault | a, v⟩ <;> rfl

@[simp] theorem current_apply (s : σ) (w : World) :
    (current : Activity σ σ) s w = ((.ok s, s), w) :=
  rfl

@[simp] theorem become_apply (s t : σ) (w : World) : become t s w = ((.ok (), t), w) :=
  rfl

@[simp] theorem within_apply (part : σ → τ) (put : τ → σ → σ) (x : Activity τ α) (s : σ)
    (w : World) :
    within part put x s w =
      (((x (part s) w).1.1, put (x (part s) w).1.2 s), (x (part s) w).2) :=
  rfl

@[simp] theorem thenAlways_apply (x : Activity σ α) (last : Action Unit) (s : σ) (w : World) :
    x.thenAlways last s w = match last (x s w).2 with
      | (.ok (), v) => (((x s w).1.1, (x s w).1.2), v)
      | (.error fault, v) => ((.error fault, (x s w).1.2), v) :=
  rfl

end Activity

/-! ## The heartbeat and the stages of the agent -/

/-- Readings are asked for only if the kind of the next event reports them. -/
theorem Heartbeat.readings_apply (source : Action Host.Stats) (h : Heartbeat) (w : World) :
    h.readings source w =
      if h.nextKind = .heartBeat then ((source w).1.map some, (source w).2) else (.ok none, w) := by
  unfold readings
  split
  · rw [Action.map_apply]
    rcases source w with ⟨fault | stats, v⟩ <;> rfl
  · rfl

/-- The next event is built from the readings, if there are any to be had, and sent. -/
theorem Heartbeat.sendNext_apply (c : Client) (source : Action Host.Stats) (h : Heartbeat)
    (w : World) :
    h.sendNext c source w =
      match h.readings source w with
      | (.ok stats, v) =>
        match Report.Event.cycle h.nextKind h.goalState stats (senderOf c.settings) v.now with
        | .ok event => c.sendEvent event h.counter (Action.now v).2
        | .error error => (.error (.event error), (Action.now v).2)
      | (.error fault, v) => (.error fault, v) := by
  rw [sendNext, Action.bind_apply, nextEvent, Action.bind_apply]
  rcases h.readings source w with ⟨fault | stats, v⟩
  · rfl
  · dsimp only
    rw [Action.bind_apply, Action.now_apply]
    dsimp only
    rw [Action.lift_apply]
    rcases Report.Event.cycle h.nextKind h.goalState stats (senderOf c.settings) v.now with
      error | event <;> rfl

theorem Heartbeat.tick_apply (c : Client) (source : Action Host.Stats) (h : Heartbeat)
    (w : World) :
    tick c source h w =
      match h.sendNext c source w with
      | (.ok answer, v) => ((.ok answer, { h with counter := h.counter + 1 }), v)
      | (.error fault, v) => ((.error fault, h), v) := by
  rw [tick, Activity.bind_apply, Activity.current_apply]
  dsimp only
  rw [Activity.lift_bind_apply]
  rcases h.sendNext c source w with ⟨fault | answer, v⟩ <;> rfl

/-- The heartbeat beats between two records, the second of which is left out if it fails. -/
theorem Heartbeat.run_apply (c : Client) (source : Action Host.Stats) (h : Heartbeat)
    (w : World) :
    run c source h w =
      let v := (Action.log .info .heartbeat ("Starting continuous heartbeat loop every "
        ++ c.settings.heartbeatInterval.text ++ "s (send SIGINT/SIGTERM to stop)...") w).2
      match beat c (w.peacefulWaits + 1) source h v with
      | ((.ok _, h), u) =>
        ((.ok (), h), (Action.log .info .heartbeat
          ("Heartbeat loop stopped after " ++ Number.ofInt (h.counter - 1 : Nat) ++ " events") u).2)
      | ((.error fault, h), u) => ((.error fault, h), u) := by
  rw [run, Activity.lift_bind_apply, Action.log_apply]
  dsimp only
  rw [Activity.lift_bind_apply, Action.get_apply]
  dsimp only
  rw [Activity.bind_apply]
  rcases beat c (w.peacefulWaits + 1) source h _ with ⟨⟨fault | _, h'⟩, u⟩ <;> rfl

/-- The record of a move from one stage to another. -/
def Stage.move (stage next : Stage) : Deed :=
  .logged ⟨.debug, .agent, "Bootstrap: " ++ stage.name ++ " -> " ++ next.name⟩

/-- The world after the record of a move. -/
def World.moved (w : World) (stage next : Stage) : World :=
  { w with trace := w.trace ++ [stage.move next] }

theorem World.moves_moved (w : World) (stage next : Stage) :
    moves (w.moved stage next).trace = moves w.trace ++ [stage.move next] := by
  simp [moved, moves, Stage.move, Deed.isMove]

namespace Agent

variable {a : Agent} {expected : Stage}

@[simp] theorem advance_apply (next : Stage) (a : Agent) (w : World) :
    advance next a w = ((.ok (), { a with stage := next }), w.moved a.stage next) := by
  simp [advance, World.moved, Stage.move]

theorem require_apply (h : a.stage = expected) (w : World) :
    require expected a w = ((.ok (), a), w) := by
  simp [require, h]

theorem require_outOfOrder (h : a.stage ≠ expected) (w : World) :
    require expected a w = ((.error (.outOfOrder a.stage expected), a), w) := by
  simp [require, h]

theorem goalStateAt_apply {g : GoalState} (h : a.stage = expected) (hg : a.goalState = some g)
    (w : World) : goalStateAt expected a w = ((.ok g, a), w) := by
  simp [goalStateAt, require_apply h, hg]

theorem goalStateAt_outOfOrder (h : a.stage ≠ expected) (w : World) :
    goalStateAt expected a w = ((.error (.outOfOrder a.stage expected), a), w) := by
  simp [goalStateAt, require_outOfOrder h]

/-! ### The steps at their stages -/

variable {c : Client} {g : GoalState} (w : World)

theorem fetchGoalState_apply (h : a.stage = .start) :
    fetchGoalState c a w =
      match c.fetchGoalState (Action.log .info .agent "Fetching goal state" w).2 with
      | (.ok g, v) =>
        ((.ok g, { a with stage := .goalStateFetched, goalState := some g }),
          (Action.log .info .agent ("Goal state incarnation " ++ Number.ofInt g.incarnation
            ++ " (container " ++ g.containerId ++ ", instance " ++ g.instanceId ++ ")")
            (v.moved .start .goalStateFetched)).2)
      | (.error fault, v) => ((.error fault, a), v) := by
  rw [fetchGoalState, Activity.bind_apply, require_apply h]
  dsimp only
  rw [Activity.lift_bind_apply, Action.log_apply]
  dsimp only
  rw [Activity.lift_bind_apply]
  rcases c.fetchGoalState _ with ⟨fault | g, v⟩
  · rfl
  · simp [h]

theorem acknowledgeHealth_apply (h : a.stage = .goalStateFetched) (hg : a.goalState = some g) :
    acknowledgeHealth c a w =
      match c.sendHealth (.ofGoalState g) w with
      | (.ok _, v) =>
        ((.ok (), { a with stage := .healthAcknowledged }),
          v.moved .goalStateFetched .healthAcknowledged)
      | (.error fault, v) => ((.error fault, a), v) := by
  rw [acknowledgeHealth, Activity.bind_apply, goalStateAt_apply h hg]
  dsimp only
  rw [Activity.lift_bind_apply]
  rcases c.sendHealth (.ofGoalState g) w with ⟨fault | answer, v⟩
  · rfl
  · simp [h]

/-- The end of a step at a stage: if its errand was completed, the agent moves on. -/
def concluded (a : Agent) (stage next : Stage) :
    Except Fault Bool × World → (Except Fault Bool × Agent) × World
  | (.ok true, v) => ((.ok true, { a with stage := next }), v.moved stage next)
  | (.ok false, v) => ((.ok false, a), v)
  | (.error fault, v) => ((.error fault, a), v)

theorem sendStartupEvents_apply (h : a.stage = .healthAcknowledged) (hg : a.goalState = some g) :
    sendStartupEvents c a w =
      a.concluded .healthAcknowledged .startupSent (announceStart c g w) := by
  rw [sendStartupEvents, Activity.bind_apply, goalStateAt_apply h hg]
  dsimp only
  rw [Activity.lift_bind_apply]
  rcases announceStart c g w with ⟨fault | _ | _, v⟩
  · rfl
  · rfl
  · simp [concluded, h]

theorem publishStatus_apply (h : a.stage = .startupSent) (hg : a.goalState = some g) :
    publishStatus c a w =
      match report c g w with
      | (.ok _, v) =>
        ((.ok (), { a with stage := .statusPublished }), v.moved .startupSent .statusPublished)
      | (.error fault, v) => ((.error fault, a), v) := by
  rw [publishStatus, Activity.bind_apply, goalStateAt_apply h hg]
  dsimp only
  rw [Activity.lift_bind_apply]
  rcases report c g w with ⟨fault | answer, v⟩
  · rfl
  · simp [h]

/-- Once the status is published, the heartbeat runs on its own. -/
theorem keepBeating_apply (h : a.stage = .statusPublished) (hg : a.goalState = some g) :
    keepBeating c a w =
      let out := Heartbeat.run c Host.stats ⟨g, 1⟩ (w.moved .statusPublished .heartbeatLoop)
      ((out.1.1, { a with stage := .heartbeatLoop, heartbeat := some out.1.2 }), out.2) := by
  rw [keepBeating, Activity.bind_apply, goalStateAt_apply h hg]
  simp [h]

/-- A run is the work of the agent and, however that ends, the close of the session. -/
theorem run_apply (a : Agent) :
    run c a w =
      let out := work c a (Action.log .info .agent ("Starting " ++ c.settings.versionString) w).2
      let v := (Action.log .info .agent "Agent shutting down" out.2).2
      (out.1, { v with trace := v.trace ++ [.closed] }) := by
  simp [run, Client.close, Action.close]

end Agent

/-! ## Nothing but records and readings -/

namespace World

/-- From `w` to `w'` nothing has happened but that log records were written. -/
structure Noted (w w' : World) : Prop where
  unchanged : w' = { w with trace := w'.trace }
  trace : ∃ logs, w'.trace = w.trace ++ logs ∧ ∀ d ∈ logs, d.isLogged = true

/-- From `w` to `w'` nothing has happened but that log records were written and the clock was
read. -/
structure Idle (w w' : World) : Prop where
  unchanged : w' = { w with now := w'.now, later := w'.later, trace := w'.trace }
  clock : w'.now :: w'.later <:+ w.now :: w.later
  trace : ∃ logs, w'.trace = w.trace ++ logs ∧ ∀ d ∈ logs, d.isLogged = true

/-- From `w` to `w'` no move was recorded. -/
def Still (w w' : World) : Prop := moves w'.trace = moves w.trace

instance : IsPreorder World Still where
  refl _ := rfl
  trans _ _ _ h h' := Eq.trans h' h

/-- What `Noted` and `Idle` say of the trace can be chained. -/
theorem logs_trans {s t u : List Deed} (h : ∃ logs, t = s ++ logs ∧ ∀ d ∈ logs, d.isLogged = true)
    (h' : ∃ logs, u = t ++ logs ∧ ∀ d ∈ logs, d.isLogged = true) :
    ∃ logs, u = s ++ logs ∧ ∀ d ∈ logs, d.isLogged = true := by
  obtain ⟨logs, rfl, hl⟩ := h
  obtain ⟨logs', rfl, hl'⟩ := h'
  refine ⟨logs ++ logs', List.append_assoc .., fun d hd => ?_⟩
  exact (List.mem_append.mp hd).elim (hl d) (hl' d)

namespace Idle

theorem trans {w₁ w₂ w₃ : World} (h : Idle w₁ w₂) (h' : Idle w₂ w₃) : Idle w₁ w₃ where
  unchanged := h'.unchanged.trans (by rw [h.unchanged])
  clock := h'.clock.trans h.clock
  trace := logs_trans h.trace h'.trace

instance : IsPreorder World Idle where
  refl w := ⟨rfl, List.suffix_rfl, [], by simp, by simp⟩
  trans _ _ _ := trans

variable {w w' : World} (h : Idle w w')
include h

theorem seen_eq : seen w'.trace = seen w.trace := by
  obtain ⟨logs, ht, hl⟩ := h.trace
  rw [ht, seen_append, seen_eq_nil hl, List.append_nil]

theorem exchange (i : Nat) : w'.exchange i = w.exchange i := by
  rw [h.unchanged]
  rfl

theorem stopped : w'.stopped = w.stopped := by
  rw [h.unchanged]

theorem peacefulWaits : w'.peacefulWaits = w.peacefulWaits := by
  rw [h.unchanged]

theorem machine : w'.machine = w.machine := by
  rw [h.unchanged]

end Idle

namespace Noted

theorem trans {w₁ w₂ w₃ : World} (h : Noted w₁ w₂) (h' : Noted w₂ w₃) : Noted w₁ w₃ where
  unchanged := h'.unchanged.trans (by rw [h.unchanged])
  trace := logs_trans h.trace h'.trace

instance : IsPreorder World Noted where
  refl w := ⟨rfl, [], by simp, by simp⟩
  trans _ _ _ := trans

variable {w w' : World} (h : Noted w w')
include h

theorem idle : Idle w w' where
  unchanged := h.unchanged.trans (by rw [h.unchanged])
  clock := by
    have hclock : w'.now :: w'.later = w.now :: w.later := by rw [h.unchanged]
    exact hclock ▸ List.suffix_rfl
  trace := h.trace

theorem now : w'.now = w.now := by
  rw [h.unchanged]

end Noted

theorem moved_noted (w : World) (stage next : Stage) : Noted w (w.moved stage next) :=
  ⟨rfl, [stage.move next], rfl, by simp [Stage.move, Deed.isLogged]⟩

end World

namespace Action

open World

theorem log_noted (level : LogLevel) (source : LogSource) (message : String) :
    Respects Noted (log level source message) :=
  fun w => ⟨rfl, [.logged ⟨level, source, message⟩], rfl, by simp [Deed.isLogged]⟩

theorem log_still (level : LogLevel) (source : LogSource) (message : String)
    (h : level ≠ .debug ∨ source ≠ .agent := by decide) :
    Respects Still (log level source message) := by
  intro w
  simp [Still, moves, Deed.isMove_eq_false h]

theorem now_still : Respects Still now := by
  intro w
  rcases hl : w.later with _ | ⟨next, later⟩ <;> simp [now, hl, Still]

theorem now_idle : Respects Idle now := by
  intro w
  rcases hl : w.later with _ | ⟨next, later⟩
  · have hnow : (now w).2 = w := by simp [now, hl]
    rw [hnow]
    exact refl_of Idle w
  · refine ⟨?_, ?_, [], ?_, by simp⟩ <;> simp [now, hl]

end Action

end WireAgent
