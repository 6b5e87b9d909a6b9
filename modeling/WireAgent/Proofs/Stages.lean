import WireAgent.Proofs.Exchanges

/-!
# The stages of an agent

Whatever is called on an agent, in whatever order and however the calls end, the stage, the goal
state and the heartbeat stay in step (`Agent.Sound`): there is a goal state once the first stage is
left, and a heartbeat at the last stage. A call takes the agent through stages that follow each
other, with a record of each move (`Climbs`), and leaves a goal state as it is.

A step does what it does at one stage only (`Agent.Takes`); elsewhere it is refused, and nothing
happens. When it is completed the agent is at the next stage, and otherwise it is as it was.
`stage_discipline` says all this of a call that is made after any others.
-/

namespace WireAgent

/-! ## What records no move -/

namespace Action

open World

theorem wait_still (seconds : Number.Binary64) : Respects Still (wait seconds) := by
  intro w
  rcases wait_cases seconds w with hw | ⟨-, waits, -, hw⟩ <;>
    simp [hw, Still, moves, Deed.isMove]

end Action

namespace Client

open Action World

variable (c : Client)

theorem logAnswer_still (done refused : String) (answer : Answer) :
    Respects Still (logAnswer done refused answer) :=
  logAnswer_respects (fun level message => log_still level .client message (.inr nofun)) done
    refused answer

theorem send_still (r : Request) (remediates : Bool) : Respects Still (c.send r remediates) :=
  c.moves_send r remediates

theorem fetchGoalState_still : Respects Still c.fetchGoalState :=
  (c.send_still _ _).bind
    (receiveGoalState_respects fun level message => log_still level .client message (.inr nofun))

theorem sendHealth_still (report : Report.Health) : Respects Still (c.sendHealth report) :=
  (log_still _ _ _).bind fun _ => (c.send_still _ _).bind fun answer =>
    (logAnswer_still _ _ answer).bind fun _ => .pure answer

theorem sendEvent_still (event : Report.Event) (number : Int) :
    Respects Still (c.sendEvent event number) :=
  (log_still _ _ _).bind fun _ => (c.send_still _ _).bind fun answer =>
    (logAnswer_still _ _ answer).bind fun _ => .pure answer

theorem publishStatus_still (report : Report.Status) : Respects Still (c.publishStatus report) :=
  (log_still _ _ _).bind fun _ => (Respects.lift _ _).bind fun _ =>
    (c.send_still _ _).bind fun answer => (logAnswer_still _ _ answer).bind fun _ => .pure answer

end Client

namespace Heartbeat

open Action World

variable (c : Client) (h : Heartbeat)

theorem sendNext_still : Respects Still (h.sendNext c) := by
  refine .bind (h.readings_reads.still.bind fun _ => now_still.bind fun _ => .lift _ _) ?_
  exact fun event => c.sendEvent_still event _

theorem beat_still (waits : Nat) (w : World) : w.Still (beat c waits Host.stats h w).2 := by
  induction waits generalizing h w with
  | zero => exact refl_of Still w
  | succ waits ih =>
    have hwait := wait_still c.settings.heartbeatInterval w
    rw [beat, Activity.lift_bind_apply]
    rcases hw : wait c.settings.heartbeatInterval w with ⟨fault | told, v⟩
    · simpa [hw] using hwait
    · rw [hw] at hwait
      cases told with
      | true => exact hwait
      | false =>
        have hsend := trans_of Still hwait (h.sendNext_still c v)
        dsimp only
        rw [if_neg Bool.false_ne_true, Activity.bind_apply, tick_apply]
        rcases hv : h.sendNext c Host.stats v with ⟨fault | answer, u⟩
        · simpa [hv] using hsend
        · rw [hv] at hsend
          exact trans_of Still hsend (ih _ u)

theorem run_still (w : World) : w.Still (run c Host.stats h w).2 := by
  rw [run_apply]
  have hstart := log_still .info .heartbeat ("Starting continuous heartbeat loop every "
    ++ c.settings.heartbeatInterval.text ++ "s (send SIGINT/SIGTERM to stop)...") (by decide) w
  generalize (log .info .heartbeat _ w).2 = v at hstart ⊢
  have hbeat := trans_of Still hstart (beat_still c h (w.peacefulWaits + 1) v)
  dsimp only
  rcases hv : beat c (w.peacefulWaits + 1) Host.stats h v with ⟨⟨fault | _, h'⟩, u⟩
  · simpa [hv] using hbeat
  · rw [hv] at hbeat
    exact trans_of Still hbeat (log_still .info .heartbeat _ (by decide) u)

end Heartbeat

namespace Agent

open Action World

variable (c : Client) (g : GoalState)

theorem announce_still (kind : Report.EventKind) : Respects Still (announce c g kind) :=
  now_still.bind fun _ => (Respects.lift _ _).bind fun event =>
    (c.sendEvent_still event 0).bind fun _ => .pure ()

theorem announceStart_still : Respects Still (announceStart c g) := by
  refine (log_still _ _ _).bind fun _ => (announce_still c g _).bind fun _ =>
    (wait_still _).bind fun told => ?_
  cases told with
  | true => exact .pure false
  | false => exact (announce_still c g _).bind fun _ => .pure true

theorem report_still : Respects Still (report c g) :=
  Host.identity_reads.still.bind fun _ => now_still.bind fun _ => c.publishStatus_still _

end Agent

/-! ## Climbing through the stages -/

namespace Agent

/-- The stage, the goal state and the heartbeat are in step. -/
structure Sound (a : Agent) : Prop where
  goalState : a.goalState = none ↔ a.stage = .start
  heartbeat : a.heartbeat ≠ none ↔ a.stage = .heartbeatLoop

theorem sound_fresh : Sound {} :=
  ⟨by simp, by simp⟩

end Agent

/-- From one stage to another, these are the records of moves to the next stage each. -/
inductive Climbs : Stage → List Deed → Stage → Prop
  | stays {stage : Stage} : Climbs stage [] stage
  | moves {stage next last : Stage} {records : List Deed} : next.rank = stage.rank + 1 →
      Climbs next records last → Climbs stage (stage.move next :: records) last

namespace Climbs

variable {s t u : Stage} {records more : List Deed}

theorem trans (h : Climbs s records t) (h' : Climbs t more u) : Climbs s (records ++ more) u := by
  induction h with
  | stays => exact h'
  | moves hnext _ ih => exact .moves hnext (ih h')

/-- A climb goes up by as many stages as it has records. -/
theorem rank_eq (h : Climbs s records t) : t.rank = s.rank + records.length := by
  induction h with
  | stays => rfl
  | moves hnext _ ih => rw [ih, hnext, List.length_cons]; omega

end Climbs

namespace Agent

/-- What may become of an agent and the world in a call: the agent stays sound, moves are recorded
as it climbs, and a goal state stays as it is. -/
structure Advances (a : Agent) (w : World) (a' : Agent) (w' : World) : Prop where
  sound : a'.Sound
  climbs : ∃ records, moves w'.trace = moves w.trace ++ records ∧ Climbs a.stage records a'.stage
  goalState : ∀ g, a.goalState = some g → a'.goalState = some g

namespace Advances

variable {a a' a'' : Agent} {w w' w'' : World}

theorem of_still (h : a.Sound) (hw : w.Still w') : a.Advances w a w' :=
  ⟨h, ⟨[], by rw [hw, List.append_nil], .stays⟩, fun _ hg => hg⟩

theorem trans (h : a.Advances w a' w') (h' : a'.Advances w' a'' w'') : a.Advances w a'' w'' where
  sound := h'.sound
  climbs := by
    obtain ⟨records, hw, hc⟩ := h.climbs
    obtain ⟨more, hw', hc'⟩ := h'.climbs
    exact ⟨records ++ more, by rw [hw', hw, List.append_assoc], hc.trans hc'⟩
  goalState g hg := h'.goalState g (h.goalState g hg)

end Advances

/-- Whatever becomes of the activity, the agent advances. -/
def AdvancesBy {α : Type} (x : Activity Agent α) : Prop :=
  ∀ (a : Agent) (w : World), a.Sound → a.Advances w (x a w).1.2 (x a w).2

namespace AdvancesBy

variable {α β : Type} {x : Activity Agent α} {f : α → Activity Agent β}

theorem pure (r : α) : AdvancesBy (pure r : Activity Agent α) :=
  fun _ w h => .of_still h (refl_of World.Still w)

theorem lift {x : Action α} (hx : Action.Respects World.Still x) :
    AdvancesBy (liftM x : Activity Agent α) :=
  fun _ w h => .of_still h (hx w)

theorem bind (hx : AdvancesBy x) (hf : ∀ r, AdvancesBy (f r)) : AdvancesBy (x >>= f) := by
  intro a w ha
  have hfirst := hx a w ha
  rw [Activity.bind_apply]
  rcases hxw : x a w with ⟨⟨fault | r, a'⟩, v⟩
  · simpa [hxw] using hfirst
  · rw [hxw] at hfirst
    exact hfirst.trans (hf r a' v hfirst.sound)

/-- What is done to the answer does not matter to what becomes of the agent. -/
theorem map_iff {g : α → β} : AdvancesBy (g <$> x) ↔ AdvancesBy x := by
  have hmap (a : Agent) (w : World) :
      ((g <$> x) a w).1.2 = (x a w).1.2 ∧ ((g <$> x) a w).2 = (x a w).2 := by
    rw [Activity.map_apply]
    rcases x a w with ⟨⟨fault | r, a'⟩, v⟩ <;> exact ⟨rfl, rfl⟩
  simp only [AdvancesBy, hmap]

end AdvancesBy

/-! ## Steps -/

/-- A step at the stage `expected`. At another stage it is refused, and nothing happens. At this
one it is either completed, with a move to the stage `next`, or it leaves the agent as it was. -/
def Takes (expected next : Stage) (x : Activity Agent Bool) : Prop :=
  ∀ (a : Agent) (w : World), a.Sound →
    if a.stage = expected then
      ((x a w).1.1 = .ok true ∧ moves (x a w).2.trace = moves w.trace ++ [expected.move next] ∧
          ∃ g, (x a w).1.2 = { a with stage := next, goalState := some g } ∧
            (a.goalState = none ∨ a.goalState = some g)) ∨
        ((x a w).1.1 ≠ .ok true ∧ (x a w).1.2 = a ∧ w.Still (x a w).2)
    else x a w = ((.error (.outOfOrder a.stage expected), a), w)

/-- A step with a goal state at hand: an errand, and the move when the errand is completed. -/
theorem takes_of_errand {expected next : Stage} {x : Activity Agent Bool}
    {e : GoalState → Action Bool} (hstill : ∀ g, Action.Respects World.Still (e g))
    (hrefused : ∀ a w, a.stage ≠ expected →
      x a w = ((.error (.outOfOrder a.stage expected), a), w))
    (hx : ∀ a w g, a.stage = expected → a.goalState = some g →
      x a w = a.concluded expected next (e g w))
    (hexpected : expected ≠ .start := by decide) : Takes expected next x := by
  intro a w ha
  split_ifs with hstage
  · obtain ⟨g, hg⟩ : ∃ g, a.goalState = some g := by
      rw [← Option.ne_none_iff_exists']
      exact fun hnone => hexpected (hstage.symm.trans (ha.goalState.mp hnone))
    have hw := hstill g w
    rw [hx a w g hstage hg]
    rcases hrun : e g w with ⟨fault | _ | _, v⟩
    · rw [hrun] at hw
      exact .inr ⟨nofun, rfl, hw⟩
    · rw [hrun] at hw
      exact .inr ⟨nofun, rfl, hw⟩
    · rw [hrun] at hw
      refine .inl ⟨rfl, ?_, g, ?_, .inr hg⟩
      · exact (World.moves_moved v expected next).trans (by rw [hw])
      · rw [← hg]
        rfl
  · exact hrefused a w hstage

theorem Takes.advancesBy {expected next : Stage} {x : Activity Agent Bool}
    (h : Takes expected next x) (hrank : next.rank = expected.rank + 1)
    (hlast : next ≠ .heartbeatLoop) : AdvancesBy x := by
  intro a w ha
  have hx := h a w ha
  split_ifs at hx with hstage
  · rcases hx with ⟨-, hmoves, g, hagent, hgoal⟩ | ⟨-, hagent, hstill⟩
    · have hstart : next ≠ .start := by
        rintro rfl
        simp [Stage.rank] at hrank
      have hnone : a.heartbeat = none := by
        by_contra hsome
        have hexpected := hstage.symm.trans (ha.heartbeat.mp hsome)
        rw [hexpected] at hrank
        cases next <;> simp [Stage.rank] at hrank
      rw [hagent]
      refine ⟨⟨by simp [hstart], by simp [hnone, hlast]⟩, ⟨_, hmoves, ?_⟩, ?_⟩
      · rw [hstage]
        exact .moves hrank .stays
      · intro g' hg'
        rcases hgoal with hnone | hsome
        · simp [hnone] at hg'
        · exact hsome.symm.trans hg'
    · rw [hagent]
      exact .of_still ha hstill
  · rw [hx]
    exact .of_still ha (refl_of World.Still w)

variable (c : Client)

theorem fetchGoalState_takes :
    Takes .start .goalStateFetched ((fun _ => true) <$> fetchGoalState c) := by
  intro a w ha
  split_ifs with hstage
  · have hlog := Action.log_still .info .agent "Fetching goal state" (by decide) w
    rw [Activity.map_apply, fetchGoalState_apply w hstage]
    generalize (Action.log .info .agent "Fetching goal state" w).2 = v at hlog ⊢
    have hfetch := trans_of World.Still hlog (c.fetchGoalState_still v)
    rcases hv : c.fetchGoalState v with ⟨fault | g, u⟩
    · rw [hv] at hfetch
      exact .inr ⟨nofun, rfl, hfetch⟩
    · rw [hv] at hfetch
      refine .inl ⟨rfl, ?_, g, rfl, .inl (ha.goalState.mpr hstage)⟩
      have hrecord := Action.log_still .info .agent ("Goal state incarnation "
        ++ Number.ofInt g.incarnation ++ " (container " ++ g.containerId ++ ", instance "
        ++ g.instanceId ++ ")") (by decide) (u.moved .start .goalStateFetched)
      exact hrecord.trans (by rw [World.moves_moved, hfetch])
  · rw [Activity.map_apply, fetchGoalState, Activity.bind_apply, require_outOfOrder hstage]

theorem acknowledgeHealth_takes :
    Takes .goalStateFetched .healthAcknowledged ((fun _ => true) <$> acknowledgeHealth c) := by
  refine takes_of_errand
    (e := fun g => (fun _ => true) <$> c.sendHealth (.ofGoalState g))
    (fun g => (c.sendHealth_still _).map _) (fun a w h => ?_) fun a w g h hg => ?_
  · rw [Activity.map_apply, acknowledgeHealth, Activity.bind_apply, goalStateAt_outOfOrder h]
  · rw [Activity.map_apply, acknowledgeHealth_apply w h hg, Action.map_apply]
    rcases c.sendHealth (.ofGoalState g) w with ⟨fault | answer, v⟩ <;> rfl

theorem sendStartupEvents_takes :
    Takes .healthAcknowledged .startupSent (sendStartupEvents c) := by
  refine takes_of_errand (announceStart_still c) (fun a w h => ?_) fun a w g h hg => ?_
  · rw [sendStartupEvents, Activity.bind_apply, goalStateAt_outOfOrder h]
  · exact sendStartupEvents_apply w h hg

theorem publishStatus_takes :
    Takes .startupSent .statusPublished ((fun _ => true) <$> publishStatus c) := by
  refine takes_of_errand (e := fun g => (fun _ => true) <$> report c g)
    (fun g => (report_still c g).map _) (fun a w h => ?_) fun a w g h hg => ?_
  · rw [Activity.map_apply, publishStatus, Activity.bind_apply, goalStateAt_outOfOrder h]
  · rw [Activity.map_apply, publishStatus_apply w h hg, Action.map_apply]
    rcases report c g w with ⟨fault | answer, v⟩ <;> rfl

/-! ### Whole runs -/

theorem bootstrap_advances : AdvancesBy (bootstrap c) := by
  have hfetch := AdvancesBy.map_iff.mp ((fetchGoalState_takes c).advancesBy rfl nofun)
  have hhealth := AdvancesBy.map_iff.mp ((acknowledgeHealth_takes c).advancesBy rfl nofun)
  have hstartup := (sendStartupEvents_takes c).advancesBy rfl nofun
  have hstatus := AdvancesBy.map_iff.mp ((publishStatus_takes c).advancesBy rfl nofun)
  refine hfetch.bind fun _ => hhealth.bind fun _ => hstartup.bind fun announced => ?_
  cases announced with
  | true => exact hstatus.bind fun _ => .pure true
  | false => exact .pure false

theorem keepBeating_advances : AdvancesBy (keepBeating c) := by
  intro a w ha
  by_cases hstage : a.stage = .statusPublished
  · obtain ⟨g, hg⟩ : ∃ g, a.goalState = some g := by
      rw [← Option.ne_none_iff_exists']
      exact fun hnone => nomatch hstage.symm.trans (ha.goalState.mp hnone)
    have hrun := Heartbeat.run_still c ⟨g, 1⟩ (w.moved .statusPublished .heartbeatLoop)
    rw [keepBeating_apply w hstage hg]
    refine ⟨⟨by simp [hg], by simp⟩, ⟨[Stage.move .statusPublished .heartbeatLoop], ?_, ?_⟩, ?_⟩
    · rw [← World.moves_moved]
      exact hrun
    · rw [hstage]
      exact .moves (by rfl) .stays
    · exact fun _ hg' => hg'
  · rw [keepBeating, Activity.bind_apply, goalStateAt_outOfOrder hstage]
    exact .of_still ha (refl_of World.Still w)

theorem work_advances : AdvancesBy (work c) := by
  refine (bootstrap_advances c).bind fun completed => ?_
  cases completed with
  | true =>
    refine (AdvancesBy.lift ?_).bind fun stopped => ?_
    · exact Action.Respects.get.bind fun w => .pure _
    · cases stopped with
      | true => exact .pure ()
      | false => exact keepBeating_advances c
  | false => exact .pure ()

theorem run_advances : AdvancesBy (run c) := by
  intro a w ha
  have hstart := Action.log_still .info .agent ("Starting " ++ c.settings.versionString)
    (by decide) w
  rw [run_apply]
  generalize (Action.log .info .agent ("Starting " ++ c.settings.versionString) w).2 = v
    at hstart ⊢
  have hwork := work_advances c a v ha
  refine (Advances.of_still ha hstart).trans (hwork.trans (.of_still hwork.sound ?_))
  simp [World.Still, moves, Deed.isMove]

end Agent

/-! ## Calls in any order -/

/-- What can be called on an agent. -/
inductive Op where
  | fetchGoalState
  | acknowledgeHealth
  | sendStartupEvents
  | publishStatus
  | bootstrap
  | run
  | stop
  deriving DecidableEq, Repr

namespace Op

/-- Does what is called. The answer is no if it ended in an orderly way before it was completed. -/
def perform (c : Client) : Op → Activity Agent Bool
  | .fetchGoalState => (fun _ => true) <$> Agent.fetchGoalState c
  | .acknowledgeHealth => (fun _ => true) <$> Agent.acknowledgeHealth c
  | .sendStartupEvents => Agent.sendStartupEvents c
  | .publishStatus => (fun _ => true) <$> Agent.publishStatus c
  | .bootstrap => Agent.bootstrap c
  | .run => (fun _ => true) <$> Agent.run c
  | .stop => (fun _ => true) <$> (liftM Action.stop : Activity Agent Unit)

/-- The stage at which a step is taken, and the next stage. The other calls are no steps. -/
def step? : Op → Option (Stage × Stage)
  | .fetchGoalState => some (.start, .goalStateFetched)
  | .acknowledgeHealth => some (.goalStateFetched, .healthAcknowledged)
  | .sendStartupEvents => some (.healthAcknowledged, .startupSent)
  | .publishStatus => some (.startupSent, .statusPublished)
  | .bootstrap | .run | .stop => none

/-- The agent and the world after calls one after another, however each of them ends. -/
def performAll (c : Client) : List Op → Agent → World → Agent × World
  | [], a, w => (a, w)
  | op :: ops, a, w => performAll c ops (op.perform c a w).1.2 (op.perform c a w).2

variable (c : Client)

theorem perform_takes {op : Op} {expected next : Stage} (h : op.step? = some (expected, next)) :
    Agent.Takes expected next (op.perform c) := by
  cases op with
  | fetchGoalState => cases h; exact Agent.fetchGoalState_takes c
  | acknowledgeHealth => cases h; exact Agent.acknowledgeHealth_takes c
  | sendStartupEvents => cases h; exact Agent.sendStartupEvents_takes c
  | publishStatus => cases h; exact Agent.publishStatus_takes c
  | bootstrap => nomatch h
  | run => nomatch h
  | stop => nomatch h

theorem perform_advances (op : Op) : Agent.AdvancesBy (op.perform c) := by
  cases op with
  | fetchGoalState => exact (Agent.fetchGoalState_takes c).advancesBy rfl nofun
  | acknowledgeHealth => exact (Agent.acknowledgeHealth_takes c).advancesBy rfl nofun
  | sendStartupEvents => exact (Agent.sendStartupEvents_takes c).advancesBy rfl nofun
  | publishStatus => exact (Agent.publishStatus_takes c).advancesBy rfl nofun
  | bootstrap => exact Agent.bootstrap_advances c
  | run => exact Agent.AdvancesBy.map_iff.mpr (Agent.run_advances c)
  | stop => exact Agent.AdvancesBy.map_iff.mpr (.lift fun _ => rfl)

/-- Agents stay sound in calls in any order. -/
theorem performAll_sound (ops : List Op) {a : Agent} (w : World) (ha : a.Sound) :
    (performAll c ops a w).1.Sound := by
  induction ops generalizing a w with
  | nil => exact ha
  | cons op ops ih => exact ih _ (perform_advances c op a w ha).sound

/-- Calls on a fresh agent in any order, each made however the ones before it ended, and one more.
The agent is sound before and after it, and climbs in it through consecutive stages, never down,
with its goal state, once there is one, as it is. If the call is a step, then at another stage than
its own it is refused, and agent and world are as before; at its own stage it takes the agent to the
next one if it is completed, and otherwise, if it fails or the agent is told to stop, leaves the
agent as it was. -/
theorem stage_discipline (ops : List Op) (w : World) (op : Op) :
    let a := (performAll c ops {} w).1
    let v := (performAll c ops {} w).2
    let out := op.perform c a v
    a.Sound ∧ a.Advances v out.1.2 out.2 ∧ a.stage.rank ≤ out.1.2.stage.rank ∧
      ∀ expected next, op.step? = some (expected, next) →
        next.rank = expected.rank + 1 ∧
        (a.stage ≠ expected → out = ((.error (.outOfOrder a.stage expected), a), v)) ∧
        (a.stage = expected →
          (out.1.1 = .ok true ∧ out.1.2.stage = next) ∨ (out.1.1 ≠ .ok true ∧ out.1.2 = a)) := by
  intro a v out
  have ha : a.Sound := performAll_sound c ops w Agent.sound_fresh
  have hadvances := perform_advances c op a v ha
  obtain ⟨records, -, hclimb⟩ := hadvances.climbs
  have hforward : a.stage.rank ≤ out.1.2.stage.rank := by
    rw [hclimb.rank_eq]
    exact Nat.le_add_right _ _
  refine ⟨ha, hadvances, hforward, fun expected next hstep => ⟨?_, ?_, ?_⟩⟩
  · cases op <;> cases hstep <;> rfl
  · intro hstage
    have htakes := perform_takes c hstep a v ha
    rwa [if_neg hstage] at htakes
  · intro hstage
    have htakes := perform_takes c hstep a v ha
    rw [if_pos hstage] at htakes
    rcases htakes with ⟨hok, -, g, hagent, -⟩ | ⟨hfail, hagent, -⟩
    · exact .inl ⟨hok, congrArg Agent.stage hagent⟩
    · exact .inr ⟨hfail, hagent⟩

end Op

end WireAgent
