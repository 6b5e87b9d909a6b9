import WireAgent.Proofs.Exchanges

/-!
# Refusals do not steer the agent

Two worlds are alike (`World.Alike`) if they differ at most in the status and the body of the
answers that are in store and in the log. Two actions go in parallel (`Action.Parallel`) if from
alike worlds they come to related results and leave alike worlds; for the parts of an agent with a
state of their own there is `Activity.Parallel`. What is sent goes in parallel with itself whatever
the answers are, and so does all that the agent does once it has a goal state, of which it uses the
incarnation and the two identifiers only (`GoalState.SameTarget`).

`Agent.run_unsteered` says that two runs in alike worlds that give such goal states cannot be told
apart but by the log.
-/

namespace WireAgent

/-! ## Worlds that differ in answers -/

/-- The exchanges differ at most in the answers. -/
structure Exchange.Alike (e e' : Exchange) : Prop where
  stops : e.stops = e'.stops
  signal : e.signal = e'.signal
  failure : e.failure = e'.failure

namespace World

/-- The worlds differ at most in the answers that are in store and in the log. -/
structure Alike (w v : World) : Prop where
  unchanged : v = { w with exchanges := v.exchanges, trace := v.trace }
  exchange : ∀ i, (w.exchange i).Alike (v.exchange i)
  seen_eq : seen w.trace = seen v.trace

variable {w w' v v' : World} {deeds : List Deed}

theorem Alike.noted (h : w.Alike v) (hw : w.Noted w') (hv : v.Noted v') : w'.Alike v' where
  unchanged := by
    rw [hv.unchanged, hw.unchanged, h.unchanged]
  exchange i := by
    rw [hw.idle.exchange, hv.idle.exchange]
    exact h.exchange i
  seen_eq := by
    rw [hw.idle.seen_eq, hv.idle.seen_eq, h.seen_eq]

theorem Alike.remedial (h : w.Alike v) (hw : w.Remedial deeds w') (hv : v.Remedial deeds v')
    (hcommands : w'.commands = v'.commands) (hremediations : w'.remediations = v'.remediations) :
    w'.Alike v' where
  unchanged := by
    rw [hv.unchanged, hw.unchanged, h.unchanged, hcommands, hremediations]
  exchange i := by
    rw [hw.exchange, hv.exchange]
    exact h.exchange i
  seen_eq := by
    rw [hw.seen_eq, hv.seen_eq, h.seen_eq]

theorem Alike.commands (h : w.Alike v) : w.commands = v.commands := by
  rw [h.unchanged]

theorem Alike.remediations (h : w.Alike v) : w.remediations = v.remediations := by
  rw [h.unchanged]

theorem Alike.owner? (h : w.Alike v) (name : Option String) : w.owner? name = v.owner? name := by
  rw [h.unchanged]
  rfl

theorem Alike.machine (h : w.Alike v) : w.machine = v.machine := by
  rw [h.unchanged]

theorem Alike.stopped (h : w.Alike v) : w.stopped = v.stopped := by
  rw [h.unchanged]

theorem Alike.peacefulWaits (h : w.Alike v) : w.peacefulWaits = v.peacefulWaits := by
  rw [h.unchanged]

theorem Alike.requesting (h : w.Alike v) (r : Request) :
    (w.requesting r).Alike (v.requesting r) where
  unchanged := by
    have hfirst := h.exchange 0
    have htells : (w.exchange 0).tells w.signals = (v.exchange 0).tells v.signals := by
      rw [Exchange.tells, Exchange.tells, hfirst.stops, hfirst.signal, h.unchanged]
    rw [World.requesting, World.requesting, htells, h.stopped]
    exact congrArg (fun u : World => { u with
      exchanges := v.exchanges.tail
      stopped := v.stopped || (v.exchange 0).tells v.signals
      trace := (v.requesting r).trace }) h.unchanged
  exchange i := by
    have hnext := h.exchange (i + 1)
    simpa [World.exchange, World.requesting, List.getElem?_tail] using hnext
  seen_eq := by
    rw [seen_requesting, seen_requesting, h.seen_eq]

end World

/-! ## Actions in parallel -/

/-- The same fault, or results that `R` relates. -/
def Related {α β : Type} (R : α → β → Prop) : Except Fault α → Except Fault β → Prop
  | .ok a, .ok b => R a b
  | .error fault, .error fault' => fault = fault'
  | _, _ => False

theorem related_eq {α : Type} {r r' : Except Fault α} : Related Eq r r' ↔ r = r' := by
  cases r <;> cases r' <;> simp [Related]

namespace Action

open World

variable {α α' β β' ε : Type} {R : α → α' → Prop} {Q : β → β' → Prop} {x : Action α}
  {y : Action α'} {f : α → Action β} {f' : α' → Action β'}

/-- From alike worlds, `x` and `y` come to related results and leave alike worlds. -/
def Parallel (R : α → α' → Prop) (x : Action α) (y : Action α') : Prop :=
  ∀ w v, w.Alike v → Related R (x w).1 (y v).1 ∧ (x w).2.Alike (y v).2

namespace Parallel

theorem of_noted (hx : Respects Noted x) (hy : Respects Noted y)
    (h : ∀ w v, w.Alike v → Related R (x w).1 (y v).1) : Parallel R x y :=
  fun w v hwv => ⟨h w v hwv, hwv.noted (hx w) (hy v)⟩

theorem pure {a : α} {a' : α'} (h : R a a') : Parallel R (pure a) (pure a') :=
  of_noted (.pure a) (.pure a') fun _ _ _ => h

theorem throw {fault : Fault} : Parallel R (throw fault) (throw fault) :=
  of_noted (.throw fault) (.throw fault) fun _ _ _ => rfl

theorem lift {fault : ε → Fault} {e : Except ε α} : Parallel Eq (lift fault e) (lift fault e) :=
  of_noted (.lift fault e) (.lift fault e) fun w v _ => by
    rw [lift_apply, lift_apply]
    exact related_eq.mpr rfl

/-- Records may differ in all they say. -/
theorem log {level level' : LogLevel} {source source' : LogSource} {message message' : String} :
    Parallel Eq (log level source message) (log level' source' message') :=
  of_noted (log_noted level source message) (log_noted level' source' message') fun _ _ _ => rfl

theorem of_reads {x : Action α} (hx : Reads x) : Parallel Eq x x :=
  of_noted hx.noted hx.noted fun _ _ hwv => related_eq.mpr (hx.result hwv.machine)

theorem of_shows {P : List (Except Failure CommandOutcome) → List Deed → Prop} {x : Action α}
    (hx : Shows P x) : Parallel Eq x x := by
  intro w v hwv
  obtain ⟨result, deeds, rest, -, hrun⟩ := hx w.commands
  obtain ⟨hw, hrw, hcw, hmw⟩ := hrun w rfl
  obtain ⟨hv, hrv, hcv, hmv⟩ := hrun v hwv.commands.symm
  refine ⟨related_eq.mpr (hw.trans hv.symm), hwv.remedial hrw hrv (hcw.trans hcv.symm) ?_⟩
  rw [hmw, hmv, hwv.remediations]

theorem outcome (hx : Parallel R x y) : Parallel (Related R) (outcome x) (outcome y) :=
  hx

theorem bind (hx : Parallel R x y) (hf : ∀ a a', R a a' → Parallel Q (f a) (f' a')) :
    Parallel Q (x >>= f) (y >>= f') := by
  intro w v hwv
  obtain ⟨hres, hworlds⟩ := hx w v hwv
  rw [bind_apply, bind_apply]
  rcases hw : x w with ⟨fault | a, w'⟩ <;> rcases hv : y v with ⟨fault' | a', v'⟩ <;>
    rw [hw, hv] at hres hworlds
  · exact ⟨hres, hworlds⟩
  · exact hres.elim
  · exact hres.elim
  · exact hf a a' hres w' v' hworlds

/-- The same result on both sides. -/
theorem bind_same {y : Action α} {f' : α → Action β'} (hx : Parallel Eq x y)
    (hf : ∀ a, Parallel Q (f a) (f' a)) : Parallel Q (x >>= f) (y >>= f') :=
  hx.bind fun a _ h => h ▸ hf a

/-- What only writes records may follow on both sides. -/
theorem bind_noted (hx : Parallel R x y) (hf : ∀ a, Respects Noted (f a))
    (hf' : ∀ a, Respects Noted (f' a)) {w v : World} (hwv : w.Alike v) :
    ((x >>= f) w).2.Alike ((y >>= f') v).2 := by
  obtain ⟨hres, hworlds⟩ := hx w v hwv
  rw [bind_apply, bind_apply]
  rcases hw : x w with ⟨fault | a, w'⟩ <;> rcases hv : y v with ⟨fault' | a', v'⟩ <;>
    rw [hw, hv] at hres hworlds
  · exact hworlds
  · exact hres.elim
  · exact hres.elim
  · exact hworlds.noted (hf a w') (hf' a' v')

theorem get : Parallel Alike get get :=
  fun _ _ hwv => ⟨hwv, hwv⟩

end Parallel

theorem now_parallel : Parallel Eq now now := by
  intro w v hwv
  have hnow : w.now = v.now := by rw [hwv.unchanged]
  have hlater : w.later = v.later := by rw [hwv.unchanged]
  refine ⟨related_eq.mpr (congrArg Except.ok hnow), ?_⟩
  simp only [now, modifyGet_apply, hlater]
  cases v.later with
  | nil => exact hwv
  | cons next later =>
    exact ⟨congrArg (fun u : World => { u with now := next, later := later }) hwv.unchanged,
      hwv.exchange, hwv.seen_eq⟩

theorem remediate_parallel (owner : Int) : Parallel Eq (remediate owner) (remediate owner) := by
  intro w v hwv
  have hworlds : World.Alike
      { w with remediations := w.remediations.tail, trace := w.trace ++ [.remediated owner] }
      { v with remediations := v.remediations.tail, trace := v.trace ++ [.remediated owner] } := by
    refine ⟨?_, hwv.exchange, ?_⟩
    · rw [hwv.remediations]
      exact congrArg (fun u : World => { u with
        remediations := v.remediations.tail
        trace := v.trace ++ [Deed.remediated owner] }) hwv.unchanged
    · rw [seen_append, seen_append, hwv.seen_eq]
  simp only [remediate, bind_apply, record_apply, modifyGet_apply, hwv.remediations] at hworlds ⊢
  cases v.remediations.head?.getD (.answered true) with
  | answered allowed => exact ⟨rfl, hworlds⟩
  | failed failure => exact ⟨rfl, hworlds⟩

theorem wait_parallel (seconds : Number.Binary64) :
    Parallel Eq (wait seconds) (wait seconds) := by
  intro w v hwv
  rw [wait_apply, wait_apply, hwv.stopped, hwv.peacefulWaits]
  refine ⟨related_eq.mpr rfl, ?_, hwv.exchange, ?_⟩
  · exact congrArg (fun u : World => { u with
      stopped := v.stopped || v.peacefulWaits == 0
      peacefulWaits := if v.stopped then v.peacefulWaits else v.peacefulWaits - 1
      trace := v.trace ++ [Deed.waited seconds] }) hwv.unchanged
  · rw [seen_append, seen_append, hwv.seen_eq]

end Action

/-! ## Exchanges in parallel -/

/-- The goal states are for the same incarnation and the same container and instance. -/
def GoalState.SameTarget (g g' : GoalState) : Prop :=
  g.incarnation = g'.incarnation ∧ g.containerId = g'.containerId ∧ g.instanceId = g'.instanceId

/-- An answer accepts the request and holds a goal state. -/
def Answer.Gives (answer : Answer) (g : GoalState) : Prop :=
  answer.isAccepted = true ∧ GoalState.ofXml answer.body = .ok g

theorem GoalState.SameTarget.exists_version {g g' : GoalState} (h : g.SameTarget g') :
    ∃ version, g' = { g with version := version } := by
  obtain ⟨n, c, i, version⟩ := g'
  obtain ⟨rfl, rfl, rfl⟩ := h
  exact ⟨version, rfl⟩

namespace Client

open Action World

variable (c : Client)

theorem sendOnce_parallel (r : Request) :
    Parallel (fun _ _ => True) (c.sendOnce r) (c.sendOnce r) := by
  intro w v hwv
  rw [sendOnce_apply, sendOnce_apply]
  refine ⟨?_, hwv.requesting _⟩
  have hfailure := (hwv.exchange 0).failure
  rw [Exchange.verdict, Exchange.verdict, hfailure]
  cases (v.exchange 0).failure <;> simp [Related]

theorem runRemediation_parallel : Parallel Eq c.runRemediation c.runRemediation := by
  have howner : Parallel Eq (Firewall.ownerOf c.settings.firewallOwner)
      (Firewall.ownerOf c.settings.firewallOwner) := by
    intro w v hwv
    rw [Firewall.ownerOf_apply, Firewall.ownerOf_apply, hwv.owner?]
    exact ⟨related_eq.mpr rfl, hwv⟩
  refine howner.bind_same fun owner => ?_
  cases c.remediation with
  | nothing => exact .pure rfl
  | external => exact remediate_parallel owner
  | firewall f => exact .of_shows (f.ensure_shows owner)

theorem remediate_parallel : Parallel Eq c.remediate c.remediate := by
  unfold remediate
  split
  · exact .log
  · refine .bind_same .log fun _ => ?_
    refine (c.runRemediation_parallel.outcome).bind fun result result' h => ?_
    rw [related_eq] at h
    subst h
    rcases result with fault | _ | _
    · exact .log
    · exact .log
    · exact .pure rfl

/-- What is sent goes in parallel with itself, whatever the answers are. -/
theorem send_parallel (r : Request) (remediates : Bool) :
    Parallel (fun _ _ => True) (c.send r remediates) (c.send r remediates) := by
  unfold send
  refine (c.sendOnce_parallel r).outcome.bind fun result result' h => ?_
  rcases result with fault | answer <;> rcases result' with fault' | answer'
  · obtain rfl : fault = fault' := h
    cases fault with
    | connectivity text =>
      cases remediates with
      | true =>
        exact .bind_same .log fun _ => c.remediate_parallel.bind_same fun _ =>
          .bind_same .log fun _ => c.sendOnce_parallel r
      | false => exact .throw
    | _ => exact .throw
  · exact h.elim
  · exact h.elim
  · exact .pure trivial

theorem answer_parallel (r : Request) (remediates : Bool) (done refused : String) :
    Parallel (fun _ _ => True)
      (do
        let answer ← c.send r remediates
        logAnswer done refused answer
        return answer)
      (do
        let answer ← c.send r remediates
        logAnswer done refused answer
        return answer) := by
  have hnoted (answer : Answer) : Respects Noted (logAnswer done refused answer) :=
    logAnswer_respects (fun level message => log_noted level .client message) done refused answer
  refine (c.send_parallel r remediates).bind fun answer answer' _ => ?_
  refine .bind (R := Eq) ?_ fun _ _ _ => .pure trivial
  refine .of_noted (hnoted answer) (hnoted answer') fun w v _ => ?_
  rw [logAnswer_ok, logAnswer_ok]
  rfl

theorem sendHealth_parallel (report : Report.Health) :
    Parallel (fun _ _ => True) (c.sendHealth report) (c.sendHealth report) :=
  .bind_same .log fun _ => c.answer_parallel _ _ _ _

theorem sendEvent_parallel (event : Report.Event) (number : Int) :
    Parallel (fun _ _ => True) (c.sendEvent event number) (c.sendEvent event number) :=
  .bind_same .log fun _ => c.answer_parallel _ _ _ _

theorem publishStatus_parallel (report : Report.Status) :
    Parallel (fun _ _ => True) (c.publishStatus report) (c.publishStatus report) :=
  .bind_same .log fun _ => .bind_same .lift fun _ => c.answer_parallel _ _ _ _

/-- From alike worlds, goal states for the same target are received if those answers that there are
give such goal states. -/
theorem fetchGoalState_related {w v : World} (hwv : w.Alike v)
    (hgives : ∀ answer answer', (c.send c.goalStateRequest true w).1 = .ok answer →
      (c.send c.goalStateRequest true v).1 = .ok answer' →
      ∃ g g', answer.Gives g ∧ answer'.Gives g' ∧ g.SameTarget g') :
    Related GoalState.SameTarget (c.fetchGoalState w).1 (c.fetchGoalState v).1 ∧
      (c.fetchGoalState w).2.Alike (c.fetchGoalState v).2 := by
  have hsend := c.send_parallel c.goalStateRequest true
  have hnoted := receiveGoalState_respects fun level message => log_noted level .client message
  refine ⟨?_, hsend.bind_noted hnoted hnoted hwv⟩
  have hres := (hsend w v hwv).1
  rw [fetchGoalState_result, fetchGoalState_result]
  rcases hw : (c.send c.goalStateRequest true w).1 with fault | answer <;>
    rcases hv : (c.send c.goalStateRequest true v).1 with fault' | answer' <;> rw [hw, hv] at hres
  · exact hres
  · exact hres.elim
  · exact hres.elim
  · obtain ⟨g, g', ⟨haccepted, hg⟩, ⟨haccepted', hg'⟩, htarget⟩ := hgives answer answer' hw hv
    have hof : goalStateOf answer = .ok g := by simp [goalStateOf, haccepted, hg, Except.mapError]
    have hof' : goalStateOf answer' = .ok g' := by
      simp [goalStateOf, haccepted', hg', Except.mapError]
    show Related _ (goalStateOf answer) (goalStateOf answer')
    rw [hof, hof']
    exact htarget

end Client

/-! ## Activities in parallel -/

/-- What two activities come to: related results, states that `S` relates and alike worlds. -/
structure Abreast {σ α β : Type} (S : σ → σ → Prop) (R : α → β → Prop)
    (out : (Except Fault α × σ) × World) (out' : (Except Fault β × σ) × World) : Prop where
  result : Related R out.1.1 out'.1.1
  state : S out.1.2 out'.1.2
  world : out.2.Alike out'.2

namespace Activity

open World

variable {σ α α' β β' : Type} {S : σ → σ → Prop} {R : α → α' → Prop} {Q : β → β' → Prop}
  {x : Activity σ α} {y : Activity σ α'} {f : α → Activity σ β} {f' : α' → Activity σ β'}

/-- From related states and alike worlds, the activities stay abreast. -/
def Parallel (S : σ → σ → Prop) (R : α → α' → Prop) (x : Activity σ α) (y : Activity σ α') :
    Prop :=
  ∀ s t w v, S s t → w.Alike v → Abreast S R (x s w) (y t v)

theorem bind_abreast {s t : σ} {w v : World} (hx : Abreast S R (x s w) (y t v))
    (hf : ∀ a a', R a a' → Parallel S Q (f a) (f' a')) :
    Abreast S Q ((x >>= f) s w) ((y >>= f') t v) := by
  obtain ⟨hres, hstate, hworld⟩ := hx
  rw [bind_apply, bind_apply]
  rcases hw : x s w with ⟨⟨fault | a, s'⟩, w'⟩ <;>
    rcases hv : y t v with ⟨⟨fault' | a', t'⟩, v'⟩ <;> rw [hw, hv] at hres hstate hworld
  · exact ⟨hres, hstate, hworld⟩
  · exact hres.elim
  · exact hres.elim
  · exact hf a a' hres s' t' w' v' hstate hworld

namespace Parallel

theorem bind (hx : Parallel S R x y) (hf : ∀ a a', R a a' → Parallel S Q (f a) (f' a')) :
    Parallel S Q (x >>= f) (y >>= f') :=
  fun s t w v hst hwv => bind_abreast (hx s t w v hst hwv) hf

theorem bind_same {y : Activity σ α} {f' : α → Activity σ β'} (hx : Parallel S Eq x y)
    (hf : ∀ a, Parallel S Q (f a) (f' a)) : Parallel S Q (x >>= f) (y >>= f') :=
  hx.bind fun a _ h => h ▸ hf a

theorem pure {a : α} {a' : α'} (h : R a a') : Parallel S R (pure a) (pure a') :=
  fun _ _ _ _ hst hwv => ⟨h, hst, hwv⟩

theorem lift {x : Action α} {y : Action α'} (h : Action.Parallel R x y) :
    Parallel S R (liftM x) (liftM y) :=
  fun _ _ w v hst hwv => ⟨(h w v hwv).1, hst, (h w v hwv).2⟩

theorem throw {fault : Fault} : Parallel S R (throw fault) (throw fault) :=
  fun _ _ _ _ hst hwv => ⟨rfl, hst, hwv⟩

theorem current : Parallel S S current current :=
  fun _ _ _ _ hst hwv => ⟨hst, hst, hwv⟩

theorem become {s t : σ} (h : S s t) : Parallel S Eq (become s) (become t) :=
  fun _ _ _ _ _ hwv => ⟨rfl, h, hwv⟩

end Parallel

end Activity

/-! ## The heartbeat -/

namespace Heartbeat

open Activity

variable (c : Client)

/-- The heartbeats have the same target and have come equally far. -/
structure Alike (h h' : Heartbeat) : Prop where
  target : h.goalState.SameTarget h'.goalState
  counter : h.counter = h'.counter

theorem sendNext_congr {h h' : Heartbeat} (hh : h.Alike h') : h.sendNext c = h'.sendNext c := by
  obtain ⟨g, n⟩ := h
  obtain ⟨g', n'⟩ := h'
  obtain ⟨htarget, hcounter⟩ := hh
  obtain ⟨version, rfl⟩ := htarget.exists_version
  obtain rfl : n = n' := hcounter
  rfl

theorem sendNext_parallel (h : Heartbeat) :
    Action.Parallel (fun _ _ => True) (h.sendNext c) (h.sendNext c) := by
  refine .bind_same ?_ fun event => c.sendEvent_parallel event _
  refine .bind_same ?_ fun stats => Action.now_parallel.bind_same fun _ => .lift
  unfold readings
  split
  · exact .of_reads (Host.stats_reads.map some)
  · exact .pure rfl

theorem tick_parallel : Parallel Alike (fun _ _ => True) (tick c) (tick c) := by
  refine .bind .current fun h h' hh => ?_
  have hsend : Action.Parallel (fun _ _ => True) (h.sendNext c) (h'.sendNext c) := by
    rw [← sendNext_congr c hh]
    exact sendNext_parallel c h
  refine .bind (.lift hsend) fun answer answer' _ => ?_
  refine .bind_same (.become ⟨hh.target, ?_⟩) fun _ => .pure trivial
  rw [hh.counter]

theorem beat_parallel (waits : Nat) : Parallel Alike Eq (beat c waits) (beat c waits) := by
  induction waits with
  | zero => exact .pure rfl
  | succ waits ih =>
    refine .bind_same (.lift (Action.wait_parallel _)) fun told => ?_
    cases told with
    | true => exact .pure rfl
    | false => exact (tick_parallel c).bind fun _ _ _ => ih

theorem run_parallel : Parallel Alike Eq (run c) (run c) := by
  refine .bind_same (.lift .log) fun _ => .bind (.lift .get) fun w v hwv => ?_
  rw [hwv.peacefulWaits]
  exact (beat_parallel c _).bind_same fun _ => .bind .current fun h h' _ => .lift .log

end Heartbeat

/-! ## The agent -/

namespace Agent

open Activity

variable (c : Client)

/-- The agents are at the same stage, and their goal states and heartbeats, if any, are for the same
target. -/
structure Alike (a a' : Agent) : Prop where
  stage : a.stage = a'.stage
  goalState : Option.Rel GoalState.SameTarget a.goalState a'.goalState
  heartbeat : Option.Rel Heartbeat.Alike a.heartbeat a'.heartbeat

theorem Alike.map_counter {a a' : Agent} (h : a.Alike a') :
    a.heartbeat.map Heartbeat.counter = a'.heartbeat.map Heartbeat.counter := by
  obtain ⟨stage, goalState, heartbeat⟩ := a
  obtain ⟨stage', goalState', heartbeat'⟩ := a'
  obtain ⟨-, -, hheartbeat⟩ := h
  cases hheartbeat with
  | none => rfl
  | some hh => exact congrArg some hh.counter

theorem require_parallel (expected : Stage) :
    Parallel Alike Eq (require expected) (require expected) := by
  refine .bind .current fun a a' h => ?_
  rw [h.stage]
  split
  · exact .throw
  · exact .pure rfl

theorem advance_parallel (next : Stage) : Parallel Alike Eq (advance next) (advance next) :=
  .bind .current fun _ _ h =>
    .bind_same (.lift .log) fun _ => .become ⟨rfl, h.goalState, h.heartbeat⟩

theorem goalStateAt_parallel (expected : Stage) :
    Parallel Alike GoalState.SameTarget (goalStateAt expected) (goalStateAt expected) := by
  refine (require_parallel expected).bind_same fun _ => .bind .current fun a a' h => ?_
  obtain ⟨stage, goalState, heartbeat⟩ := a
  obtain ⟨stage', goalState', heartbeat'⟩ := a'
  obtain ⟨-, hgoal, -⟩ := h
  cases hgoal with
  | none => exact .throw
  | some hg => exact .pure hg

theorem announce_parallel (g : GoalState) (kind : Report.EventKind) :
    Action.Parallel Eq (announce c g kind) (announce c g kind) :=
  Action.now_parallel.bind_same fun _ => .bind_same .lift fun event =>
    (c.sendEvent_parallel event 0).bind fun _ _ _ => .pure rfl

theorem announceStart_parallel (g : GoalState) :
    Action.Parallel Eq (announceStart c g) (announceStart c g) := by
  refine .bind_same .log fun _ => (announce_parallel c g _).bind_same fun _ =>
    (Action.wait_parallel _).bind_same fun told => ?_
  cases told with
  | true => exact .pure rfl
  | false => exact (announce_parallel c g _).bind_same fun _ => .pure rfl

theorem report_parallel (g : GoalState) :
    Action.Parallel (fun _ _ => True) (report c g) (report c g) :=
  .bind_same (.of_reads Host.identity_reads) fun _ => Action.now_parallel.bind_same fun _ =>
    c.publishStatus_parallel _

theorem acknowledgeHealth_parallel :
    Parallel Alike Eq (acknowledgeHealth c) (acknowledgeHealth c) := by
  refine (goalStateAt_parallel _).bind fun g g' hg => ?_
  obtain ⟨version, rfl⟩ := hg.exists_version
  exact .bind (.lift (c.sendHealth_parallel _)) fun _ _ _ => advance_parallel _

theorem sendStartupEvents_parallel :
    Parallel Alike Eq (sendStartupEvents c) (sendStartupEvents c) := by
  refine (goalStateAt_parallel _).bind fun g g' hg => ?_
  obtain ⟨version, rfl⟩ := hg.exists_version
  refine .bind_same (.lift (announceStart_parallel c g)) fun announced => ?_
  cases announced with
  | true => exact (advance_parallel _).bind_same fun _ => .pure rfl
  | false => exact .pure rfl

theorem publishStatus_parallel :
    Parallel Alike Eq (publishStatus c) (publishStatus c) := by
  refine (goalStateAt_parallel _).bind fun g g' hg => ?_
  obtain ⟨version, rfl⟩ := hg.exists_version
  exact .bind (.lift (report_parallel c g)) fun _ _ _ => advance_parallel _

theorem keepBeating_parallel : Parallel Alike Eq (keepBeating c) (keepBeating c) := by
  refine (goalStateAt_parallel _).bind fun g g' hg => .bind .current fun a a' h => ?_
  refine .bind_same (.become ⟨h.stage, h.goalState, .some ⟨hg, rfl⟩⟩) fun _ =>
    (advance_parallel _).bind_same fun _ s t w v hst hwv => ?_
  have hpart : (s.heartbeat.getD ⟨g, 1⟩).Alike (t.heartbeat.getD ⟨g', 1⟩) := by
    obtain ⟨stage, goalState, heartbeat⟩ := s
    obtain ⟨stage', goalState', heartbeat'⟩ := t
    obtain ⟨-, -, hheartbeat⟩ := hst
    cases hheartbeat with
    | none => exact ⟨hg, rfl⟩
    | some hh => exact hh
  obtain ⟨hres, hstate, hworld⟩ := Heartbeat.run_parallel c _ _ w v hpart hwv
  exact ⟨hres, ⟨hst.stage, hst.goalState, .some hstate⟩, hworld⟩

/-- From alike worlds that give goal states for the same target, the work of a fresh agent stays
abreast. -/
theorem work_abreast {w v : World} (hwv : w.Alike v)
    (hgives : ∀ answer answer', (c.send c.goalStateRequest true w).1 = .ok answer →
      (c.send c.goalStateRequest true v).1 = .ok answer' →
      ∃ g g', answer.Gives g ∧ answer'.Gives g' ∧ g.SameTarget g') :
    Abreast Alike Eq (work c {} w) (work c {} v) := by
  have hfetch : Abreast Alike GoalState.SameTarget (fetchGoalState c {} w)
      (fetchGoalState c {} v) := by
    have hw := Action.log_noted .info .agent "Fetching goal state" w
    have hv := Action.log_noted .info .agent "Fetching goal state" v
    rw [fetchGoalState_apply w rfl, fetchGoalState_apply v rfl]
    generalize (Action.log .info .agent "Fetching goal state" w).2 = w' at hw ⊢
    generalize (Action.log .info .agent "Fetching goal state" v).2 = v' at hv ⊢
    rw [← c.send_congr _ _ hw.idle.exchange, ← c.send_congr _ _ hv.idle.exchange] at hgives
    obtain ⟨hres, hworld⟩ := c.fetchGoalState_related (hwv.noted hw hv) hgives
    rcases hfw : c.fetchGoalState w' with ⟨fault | g, u⟩ <;>
      rcases hfv : c.fetchGoalState v' with ⟨fault' | g', u'⟩ <;> rw [hfw, hfv] at hres hworld
    · exact ⟨hres, ⟨rfl, .none, .none⟩, hworld⟩
    · exact hres.elim
    · exact hres.elim
    · refine ⟨hres, ⟨rfl, .some hres, .none⟩, ?_⟩
      exact hworld.noted ((u.moved_noted _ _).trans (Action.log_noted _ _ _ _))
        ((u'.moved_noted _ _).trans (Action.log_noted _ _ _ _))
  rw [work, bootstrap]
  simp only [bind_assoc]
  refine bind_abreast hfetch fun _ _ _ => (acknowledgeHealth_parallel c).bind_same fun _ =>
    (sendStartupEvents_parallel c).bind_same fun announced => ?_
  cases announced with
  | false => exact .pure rfl
  | true =>
    simp only [if_true, bind_assoc, pure_bind]
    refine (publishStatus_parallel c).bind_same fun _ => ?_
    have hstopped : Action.Parallel Eq Action.isStopped Action.isStopped :=
      Action.Parallel.get.bind fun _ _ hwv => .pure hwv.stopped
    refine .bind_same (.lift hstopped) fun stopped => ?_
    cases stopped with
    | true => exact .pure rfl
    | false => exact keepBeating_parallel c

/-- Soft failures do not steer the agent. In two worlds that differ at most in the answers to
requests, and whose answers to the request for the goal state, if there are any, both give goal
states for the same target, a fresh agent does the same in the same order in all that is seen, ends
at the same stage with the number of the next event the same, and comes to the same end. -/
theorem run_unsteered (c : Client) (w v : World) (hwv : w.Alike v)
    (hgives : ∀ answer answer', (c.send c.goalStateRequest true w).1 = .ok answer →
      (c.send c.goalStateRequest true v).1 = .ok answer' →
      ∃ g g', answer.Gives g ∧ answer'.Gives g' ∧ g.SameTarget g') :
    let out := run c {} w
    let out' := run c {} v
    seen out.2.trace = seen out'.2.trace ∧ out.1.1 = out'.1.1 ∧
      out.1.2.stage = out'.1.2.stage ∧
      out.1.2.heartbeat.map Heartbeat.counter = out'.1.2.heartbeat.map Heartbeat.counter := by
  have hw := Action.log_noted .info .agent ("Starting " ++ c.settings.versionString) w
  have hv := Action.log_noted .info .agent ("Starting " ++ c.settings.versionString) v
  rw [run_apply, run_apply]
  generalize (Action.log .info .agent ("Starting " ++ c.settings.versionString) w).2 = w' at hw ⊢
  generalize (Action.log .info .agent ("Starting " ++ c.settings.versionString) v).2 = v' at hv ⊢
  rw [← c.send_congr _ _ hw.idle.exchange, ← c.send_congr _ _ hv.idle.exchange] at hgives
  obtain ⟨hres, hstate, hworld⟩ := work_abreast c (hwv.noted hw hv) hgives
  refine ⟨?_, related_eq.mp hres, hstate.stage, hstate.map_counter⟩
  have hend := Action.log_noted .info .agent "Agent shutting down" (work c {} w').2
  have hend' := Action.log_noted .info .agent "Agent shutting down" (work c {} v').2
  dsimp only
  rw [seen_append, seen_append, hend.idle.seen_eq, hend'.idle.seen_eq, hworld.seen_eq]

/-- The goal states differ in their documents, and the second server refuses the rest. -/
theorem run_unsteered_refused :
    let w := World.plain [{ body := "<GoalState><Incarnation>7</Incarnation><Container>" ++
      "<ContainerId>c</ContainerId><RoleInstanceList><RoleInstance><InstanceId>i</InstanceId>" ++
      "</RoleInstance></RoleInstanceList></Container></GoalState>" }]
    let v := World.plain [{ status := 201, body := "<G><Version>2</Version><Container>" ++
      "<ContainerId> c </ContainerId><RoleInstanceList><RoleInstance><InstanceId>i</InstanceId>" ++
      "</RoleInstance></RoleInstanceList></Container><Incarnation>07</Incarnation></G>" },
      { status := 500, body := "no" }, { status := 403 }]
    w.Alike v ∧ seen (run ⟨{}, .nothing⟩ {} w).2.trace = seen (run ⟨{}, .nothing⟩ {} v).2.trace ∧
      (run ⟨{}, .nothing⟩ {} w).1.2.stage = (run ⟨{}, .nothing⟩ {} v).1.2.stage := by
  intro w v
  have hwv : w.Alike v := by
    refine ⟨rfl, fun i => ?_, rfl⟩
    rcases i with _ | _ | _ | i <;> exact ⟨rfl, rfl, rfl⟩
  have hruns := run_unsteered ⟨{}, .nothing⟩ w v hwv fun answer answer' hw hv => by
    obtain rfl : _ = answer := Except.ok.inj hw
    obtain rfl : _ = answer' := Except.ok.inj hv
    refine ⟨⟨7, "c", "i", ""⟩, ⟨7, "c", "i", "2"⟩, ⟨rfl, ?_⟩, ⟨rfl, ?_⟩, rfl, rfl, rfl⟩
    · decide +kernel
    · decide +kernel
  exact ⟨hwv, hruns.1, hruns.2.2.1⟩

end Agent

end WireAgent
