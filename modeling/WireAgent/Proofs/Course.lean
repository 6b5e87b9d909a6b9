import WireAgent.Proofs.Exchanges

/-!
# The course of a run

A run of the agent is a course of calls. They follow each other in one order (`Call.next`): the goal
state, the acknowledgement, the two events of the start with a delay between them, the status, and
then an interval and an event of the heartbeat over and over. What a call does is fixed by the
settings, the goal state and what can be read when it is made; each request is written out
(`Call.Asks`). The course goes on until a call fails
or the agent is told to stop (`Made.outcome`), and the agent is then at the stage of the last step
that was completed (`Made.agent`). A run on which a report cannot be built breaks off there
(`Breaks`).

`run_course` says that every run on which reports can be written is such a course, followed by the
close of the session.
-/

namespace WireAgent

/-! ## Calls -/

/-- What the agent does towards the outside in a run, except for closing the session. -/
inductive Call where
  | goalState
  | health
  | agentStart
  | settling
  | provision
  | status
  | interval (number : Nat)
  | beat (number : Nat)
  deriving DecidableEq, Repr

namespace Call

/-- The call that follows. -/
def next : Call → Call
  | .goalState => .health
  | .health => .agentStart
  | .agentStart => .settling
  | .settling => .provision
  | .provision => .status
  | .status => .interval 1
  | .interval number => .beat number
  | .beat number => .interval (number + 1)

/-- The number of calls before a call. -/
def rank : Call → Nat
  | .goalState => 0
  | .health => 1
  | .agentStart => 2
  | .settling => 3
  | .provision => 4
  | .status => 5
  | .interval number => 2 * number + 4
  | .beat number => 2 * number + 5

/-- The calls of a run up to one. -/
def upTo (call : Call) : List Call := List.iterate next .goalState (call.rank + 1)

theorem rank_next (call : Call) : call.next.rank = call.rank + 1 := by
  cases call with
  | beat number => simp only [next, rank]; omega
  | _ => rfl

/-- The agent while it makes a call. -/
def agent (g : GoalState) : Call → Agent
  | .goalState => {}
  | .health => ⟨.goalStateFetched, some g, none⟩
  | .agentStart | .settling | .provision => ⟨.healthAcknowledged, some g, none⟩
  | .status => ⟨.startupSent, some g, none⟩
  | .interval number | .beat number => ⟨.heartbeatLoop, some g, some ⟨g, number⟩⟩

/-- The agent that is found to be told to stop after a call. Only the publishing of the status is a
completed step by then. -/
def agentTold (g : GoalState) : Call → Agent
  | .status => ⟨.statusPublished, some g, none⟩
  | call => call.agent g

end Call

example : Call.upTo .settling = [.goalState, .health, .agentStart, .settling] := rfl

example : Call.upTo (.interval 2) = [.goalState, .health, .agentStart, .settling, .provision,
    .status, .interval 1, .beat 1, .interval 2] := rfl

/-- What is done in a call. -/
inductive Doing where
  | send (request : Request) (remediates : Bool)
  | wait (seconds : Number.Binary64)

namespace Doing

variable (c : Client)

/-- The world after it. -/
def after : Doing → World → World
  | .send r remediates, w => (c.send r remediates w).2
  | .wait seconds, w => (Action.wait seconds w).2

/-- What is seen of it: a wait is one, and what is sent is requested once, or twice in the same
way. -/
inductive Shows (w : World) : Doing → List Deed → Prop
  | once {r : Request} {remediates : Bool} : ¬Client.Retries remediates w →
      Shows w (.send r remediates)
        [.requested { r with timeout := c.settings.requestTimeout }]
  | twice {r : Request} {remediates : Bool} {deeds : List Deed} :
      Client.Retries remediates w → c.Remedies w deeds →
      Shows w (.send r remediates)
        (.requested { r with timeout := c.settings.requestTimeout } :: deeds ++
          [.requested { r with timeout := c.settings.requestTimeout }])
  | waited {seconds : Number.Binary64} : Shows w (.wait seconds) [.waited seconds]

end Doing

/-- The request that posts a text to a component of the machine endpoint. -/
def Call.posting (s : Settings) (component text : String) : Request where
  method := "POST"
  url := s.endpointStem ++ "/machine" ++ "?comp=" ++ component
  headers := [("x-ms-version", s.wireVersion), ("x-ms-agent-name", s.agentName),
    ("User-Agent", s.agentName ++ "/" ++ s.agentVersion),
    ("Content-Type", "text/xml;charset=utf-8")]
  body := some text
  json := none
  timeout := s.requestTimeout

/-- The request that posts an event of a kind, which tells of the version of the agent first. -/
def Call.posted (s : Settings) (kind : Report.EventKind) (parameters : List (String × String)) :
    Request :=
  posting s "telemetrydata" (Report.Event.toXml ⟨kind,
    ("Version", s.agentName ++ "/" ++ s.agentVersion) :: parameters, s.agentName, "1.0"⟩)

/-- The kind of the event with a number of the heartbeat, and what it tells besides version, time
and place. -/
inductive Call.Tells (s : Settings) (g : GoalState) (w : World) :
    Nat → Report.EventKind → List (String × String) → Prop
  | heartBeat {number : Nat} {stats : Host.Stats} {cpu memory : String} : number % 4 = 1 →
      (Host.stats w).1 = .ok stats → stats.cpu.percentage? = some cpu →
      stats.memory.percentage? = some memory →
      Tells s g w number .heartBeat [("IsVersionFromRSM", "true"), ("GAState", "Ready"),
        ("Role", g.instanceId), ("CPU", cpu), ("Memory", memory),
        ("ProcessorTime", Number.ofInt stats.uptime)]
  | agentStart {number : Nat} : number % 4 = 2 →
      Tells s g w number .agentStart [("GAState", "Ready")]
  | provision {number : Nat} : number % 4 = 3 →
      Tells s g w number .provision [("IsVMProvisionedForLogs", "true"),
        ("ProvisioningState", "Ready")]
  | agentStatus {number : Nat} : number % 4 = 0 →
      Tells s g w number .agentStatus [("Status", "Ready"),
        ("Message", "Guest Agent is running"),
        ("FormattedMessage", "Guest Agent is running" ++ " (Version: "
          ++ (s.agentName ++ "/" ++ s.agentVersion) ++ ")")]

/-- What a call does when the world is `w`. An event and a status report tell of the goal state and
of what the clock and the machine say then. -/
inductive Call.Asks (c : Client) (g : GoalState) (w : World) : Call → Doing → Prop
  | goalState : Asks c g w .goalState (.send
      { method := "GET"
        url := c.settings.endpointStem ++ "/machine" ++ "?comp=goalstate"
        headers := [("x-ms-version", c.settings.wireVersion)]
        body := none
        json := none
        timeout := c.settings.requestTimeout } true)
  | health : Asks c g w .health (.send
      (posting c.settings "health"
        (Report.Health.toXml ⟨g.incarnation, g.containerId, g.instanceId, "Ready"⟩)) true)
  | agentStart {time : String} : w.now.timestamp = .ok time →
      Asks c g w .agentStart (.send
        (posted c.settings .agentStart [("GAState", "Ready"), ("Container", g.containerId),
          ("RoleInstance", g.instanceId), ("Timestamp", time)]) true)
  | settling : Asks c g w .settling (.wait c.settings.settleDelay)
  | provision {time : String} : w.now.timestamp = .ok time →
      Asks c g w .provision (.send
        (posted c.settings .provision [("IsVMProvisionedForLogs", "true"),
          ("ProvisioningState", "Ready"), ("Container", g.containerId),
          ("RoleInstance", g.instanceId), ("Timestamp", time)]) true)
  | status {host : Host.Identity} {payload : Json} :
      (Host.identity w).1 = .ok host →
      Report.Status.payload ⟨w.now, c.settings.agentName ++ "/" ++ c.settings.agentVersion,
        g.incarnation, g.containerId, g.instanceId, host, "Ready"⟩ c.settings.storeVersion
        = .ok payload →
      Asks c g w .status (.send
        { method := "PUT"
          url := c.settings.endpointStem ++ ":" ++ Number.ofInt c.settings.statusPort ++ "/status"
          headers := [("x-ms-version", c.settings.statusVersion),
            ("x-ms-agent-name", c.settings.agentName),
            ("User-Agent", c.settings.agentName ++ "/" ++ c.settings.agentVersion),
            ("Content-Type", "application/json"), ("x-ms-containerid", g.containerId),
            ("x-ms-host-config-name",
              g.instanceId ++ ".0." ++ g.instanceId ++ ".0._gpg.1.xml")]
          body := none
          json := some payload
          timeout := c.settings.requestTimeout } c.settings.remediatesStatus)
  | interval (number : Nat) : Asks c g w (.interval number) (.wait c.settings.heartbeatInterval)
  | beat {number : Nat} {time : String} {kind : Report.EventKind}
      {more : List (String × String)} : w.now.timestamp = .ok time →
      Tells c.settings g w number kind more →
      Asks c g w (.beat number) (.send
        (posted c.settings kind (("Timestamp", time) :: ("Container", g.containerId)
          :: ("RoleInstance", g.instanceId) :: more)) true)

theorem Call.Tells.congr {s : Settings} {g : GoalState} {v w : World} {number : Nat}
    {kind : Report.EventKind} {more : List (String × String)} (hmachine : v.machine = w.machine)
    (h : Tells s g v number kind more) : Tells s g w number kind more := by
  cases h with
  | heartBeat hnumber hstats hcpu hmemory =>
    rw [Host.stats_reads.result hmachine] at hstats
    exact .heartBeat hnumber hstats hcpu hmemory
  | agentStart hnumber => exact .agentStart hnumber
  | provision hnumber => exact .provision hnumber
  | agentStatus hnumber => exact .agentStatus hnumber

/-- What can be read decides what a call does. -/
theorem Call.Asks.congr {c : Client} {g : GoalState} {v w : World} {call : Call} {doing : Doing}
    (hnow : v.now = w.now) (hmachine : v.machine = w.machine) (h : call.Asks c g v doing) :
    call.Asks c g w doing := by
  cases h with
  | goalState => exact .goalState
  | health => exact .health
  | agentStart h => exact .agentStart (hnow ▸ h)
  | settling => exact .settling
  | provision h => exact .provision (hnow ▸ h)
  | status hhost hpayload =>
    rw [hnow] at hpayload
    rw [Host.identity_reads.result hmachine] at hhost
    exact .status hhost hpayload
  | interval number => exact .interval number
  | beat h htells => exact .beat (hnow ▸ h) (htells.congr hmachine)

/-- There is nothing that the call could do: a report for it cannot be built from what can be read.
-/
def Call.Mute (c : Client) (g : GoalState) (w : World) (call : Call) : Prop :=
  ∀ doing, ¬call.Asks c g w doing

/-! ## Courses -/

/-- How a call ends: the run goes on, or the agent was told to stop, or something failed. -/
inductive Outcome where
  | goesOn
  | stops
  | fails (fault : Fault)

/-- A call that was made: what was done, the world in which that began, and what was seen of it. -/
structure Made where
  call : Call
  doing : Doing
  before : World
  deeds : List Deed

namespace Made

variable (c : Client) (g : GoalState) (m : Made)

/-- The world after a call. -/
def after : World := m.doing.after c m.before

/-- How a call ended. What was not sent, and a goal state that was refused or cannot be read, is a
failure; a stop is looked for at the end of a wait and once the status has been published. No other
answer matters. -/
def outcome : Outcome :=
  match m.doing with
  | .wait seconds =>
    match (Action.wait seconds m.before).1 with
    | .ok false => .goesOn
    | _ => .stops
  | .send r remediates =>
    match (c.send r remediates m.before).1 with
    | .error fault => .fails fault
    | .ok answer =>
      match m.call with
      | .goalState =>
        match Client.goalStateOf answer with
        | .ok _ => .goesOn
        | .error fault => .fails fault
      | .status => if (m.after c).stopped then .stops else .goesOn
      | _ => .goesOn

/-- The agent at the end of a run in which this call is the last one. -/
def agent : Agent :=
  match m.outcome c with
  | .stops => m.call.agentTold g
  | _ => m.call.agent g

/-- What a run comes to in which this call is the last one. -/
def result : Except Fault Unit :=
  match m.outcome c with
  | .fails fault => .error fault
  | _ => .ok ()

/-- The call is made in its turn, after a world in which nothing has happened since but records and
readings. -/
structure Follows (call : Call) (w : World) : Prop where
  call_eq : m.call = call
  asks : call.Asks c g w m.doing
  idle : w.Idle m.before
  shows : m.doing.Shows c m.before m.deeds
  seen_eq : seen (m.after c).trace = seen m.before.trace ++ m.deeds

end Made

theorem Made.Follows.of_noted {c : Client} {g : GoalState} {m : Made} {call : Call} {w w' : World}
    (hn : w.Noted w') (h : m.Follows c g call w') : m.Follows c g call w :=
  { h with asks := h.asks.congr hn.now hn.idle.machine, idle := hn.idle.trans h.idle }

/-- From the world `w` and the call `call` on, the calls `made` and then `last` follow each other.
All but the last one let the run go on. -/
inductive Course (c : Client) (g : GoalState) : Call → World → List Made → Made → Prop
  | ends {call : Call} {w : World} {m : Made} : m.Follows c g call w → m.outcome c ≠ .goesOn →
      Course c g call w [] m
  | goesOn {call : Call} {w : World} {m last : Made} {made : List Made} :
      m.Follows c g call w → m.outcome c = .goesOn →
      Course c g call.next (m.after c) made last → Course c g call w (m :: made) last

/-- From the world `w` and the call `call` on, calls let the run go on up to one that has nothing to
do. -/
inductive Breaks (c : Client) (g : GoalState) : Call → World → Prop
  | here {call : Call} {w : World} : call.Mute c g w → Breaks c g call w
  | later {call : Call} {w : World} {m : Made} : m.Follows c g call w →
      m.outcome c = .goesOn → Breaks c g call.next (m.after c) → Breaks c g call w

theorem Breaks.of_noted {c : Client} {g : GoalState} {call : Call} {w w' : World}
    (hn : w.Noted w') (h : Breaks c g call w') : Breaks c g call w := by
  cases h with
  | here hmute =>
    exact .here fun doing hasks => hmute doing (hasks.congr hn.now.symm hn.idle.machine.symm)
  | later hm hgoes hrest => exact .later (hm.of_noted hn) hgoes hrest

namespace Course

variable {c : Client} {g : GoalState} {call : Call} {w w' : World} {made : List Made}
  {last : Made}

theorem of_noted (hn : w.Noted w') (h : Course c g call w' made last) :
    Course c g call w made last := by
  cases h with
  | ends hm hends => exact .ends (hm.of_noted hn) hends
  | goesOn hm hgoes hrest => exact .goesOn (hm.of_noted hn) hgoes hrest

/-- The calls come in order. -/
theorem calls_eq (h : Course c g call w made last) :
    (made ++ [last]).map Made.call = List.iterate Call.next call (made.length + 1) := by
  induction h with
  | ends hm => simp [hm.call_eq, List.iterate]
  | goesOn hm _ _ ih => simp_all [hm.call_eq, List.iterate]

/-- The last call is as many calls away as were made before it. -/
theorem rank_eq (h : Course c g call w made last) : last.call.rank = call.rank + made.length := by
  induction h with
  | ends hm _ => rw [hm.call_eq]; rfl
  | goesOn _ _ _ ih => rw [ih, Call.rank_next, List.length_cons]; omega

/-- The calls of a run are those up to the last one. -/
theorem calls_eq_upTo (h : Course c g .goalState w made last) :
    (made ++ [last]).map Made.call = last.call.upTo := by
  rw [h.calls_eq, Call.upTo, h.rank_eq, Call.rank, Nat.zero_add]

theorem exists_follows (h : Course c g call w made last) : ∃ call w, last.Follows c g call w := by
  induction h with
  | ends hm _ => exact ⟨_, _, hm⟩
  | goesOn _ _ _ ih => exact ih

theorem goesOn_of_mem (h : Course c g call w made last) :
    (∀ m ∈ made, m.outcome c = .goesOn) ∧ last.outcome c ≠ .goesOn := by
  induction h with
  | ends _ hends => exact ⟨by simp, hends⟩
  | goesOn _ hgoes _ ih => exact ⟨by simpa [hgoes] using ih.1, ih.2⟩

/-- What is seen of a course is what is seen of its calls. -/
theorem seen_eq (h : Course c g call w made last) :
    seen (last.after c).trace = seen w.trace ++ (made ++ [last]).flatMap Made.deeds := by
  induction h with
  | ends hm => rw [hm.seen_eq, hm.idle.seen_eq]; simp
  | goesOn hm _ _ ih => rw [ih, hm.seen_eq, hm.idle.seen_eq]; simp

/-- No call closes the session. -/
theorem closed_not_mem (h : Course c g call w made last) :
    Deed.closed ∉ (made ++ [last]).flatMap Made.deeds := by
  have hshows {doing : Doing} {v : World} {deeds : List Deed} (h : doing.Shows c v deeds) :
      Deed.closed ∉ deeds := by
    cases h with
    | once => simp
    | twice _ hc => simp [hc.closed_not_mem]
    | waited => simp
  induction h with
  | ends hm => simpa using hshows hm.shows
  | goesOn hm _ _ ih =>
    rw [List.cons_append, List.flatMap_cons, List.mem_append, not_or]
    exact ⟨hshows hm.shows, ih⟩

end Course

/-! ## Making calls -/

namespace Doing

variable (c : Client) (doing : Doing) (w : World)

theorem exists_shows :
    ∃ deeds, doing.Shows c w deeds ∧ seen (doing.after c w).trace = seen w.trace ++ deeds := by
  cases doing with
  | send r remediates =>
    by_cases h : Client.Retries remediates w
    · obtain ⟨deeds, between, hc, hr, hs⟩ := Client.send_apply_twice (c := c) (r := r) h
      refine ⟨_, .twice h hc, ?_⟩
      rw [after, hs, World.seen_requesting, hr.seen_eq, World.seen_requesting]
      simp [Client.timed]
    · refine ⟨_, .once h, ?_⟩
      rw [after, Client.send_apply_once h, World.seen_requesting]
      rfl
  | wait seconds =>
    refine ⟨_, .waited, ?_⟩
    rcases Action.wait_cases seconds w with hw | ⟨-, waits, -, hw⟩ <;>
      simp [after, hw, seen, Deed.isLogged]

theorem peacefulWaits_after : (doing.after c w).peacefulWaits ≤ w.peacefulWaits := by
  cases doing with
  | send r remediates =>
    have hwaits := congrArg World.peacefulWaits (c.send_unchanged r remediates w)
    exact Nat.le_of_eq hwaits
  | wait seconds =>
    rcases Action.wait_cases seconds w with hw | ⟨-, waits, hwaits, hw⟩
    · exact Nat.le_of_eq (congrArg (fun out => out.2.peacefulWaits) hw)
    · rw [after, hw, hwaits]
      exact Nat.le_succ waits

end Doing

section

variable {α : Type} {c : Client} {g : GoalState} {call : Call} {doing : Doing} {x : Action α}
  {P : α → World → Outcome → Prop} {w : World}

theorem Call.Asks.exists_follows (h : call.Asks c g w doing) {before : World}
    (hidle : w.Idle before) : ∃ deeds, (Made.mk call doing before deeds).Follows c g call w := by
  obtain ⟨deeds, hshows, hseen⟩ := doing.exists_shows c before
  exact ⟨deeds, rfl, h, hidle, hshows, hseen⟩

/-- `x` makes a call. It fails if the call does, and otherwise `P` relates what it gives, and the
world that it leaves, to how the call ended. -/
def Makes (c : Client) (g : GoalState) (call : Call) (x : Action α)
    (P : α → World → Outcome → Prop) (w : World) : Prop :=
  ∃ m : Made, m.Follows c g call w ∧ (m.after c).Noted (x w).2 ∧
    ((∃ fault, (x w).1 = .error fault ∧ m.outcome c = .fails fault) ∨
      ∃ a, (x w).1 = .ok a ∧ P a (x w).2 (m.outcome c))

theorem Makes.of_sends {r : Request} {remediates : Bool} {judge : Answer → Except Fault α}
    (hx : Action.Sends c r remediates judge x w)
    (hasks : call.Asks c g w (.send r remediates))
    (hjudge : ∀ m : Made, m.call = call → m.doing = .send r remediates →
      (m.after c).Noted (x w).2 → ∀ answer, (c.send r remediates m.before).1 = .ok answer →
        (x w).1 = judge answer →
        (∃ fault, judge answer = .error fault ∧ m.outcome c = .fails fault) ∨
          ∃ a, judge answer = .ok a ∧ P a (x w).2 (m.outcome c)) :
    Makes c g call x P w := by
  obtain ⟨before, hidle, hn, hres⟩ := hx
  obtain ⟨deeds, hm⟩ := hasks.exists_follows hidle
  refine ⟨_, hm, hn, ?_⟩
  rcases hsend : (c.send r remediates before).1 with fault | answer
  · refine .inl ⟨fault, ?_, ?_⟩
    · rw [hres, hsend]
      rfl
    · simp only [Made.outcome, hsend]
  · rw [hsend] at hres
    rw [hres]
    exact hjudge ⟨call, .send r remediates, before, deeds⟩ rfl rfl hn answer hsend hres

/-- A call of which no answer matters. -/
theorem Makes.of_sends_all {r : Request} {remediates : Bool} {give : Answer → α}
    (hx : Action.Sends c r remediates (fun answer => .ok (give answer)) x w)
    (hasks : call.Asks c g w (.send r remediates)) (hgoal : call ≠ .goalState)
    (hstatus : call ≠ .status) :
    Makes c g call x (fun _ _ outcome => outcome = .goesOn) w := by
  refine .of_sends hx hasks fun m hcall hdoing hn answer hsend _ => .inr ⟨_, rfl, ?_⟩
  simp only [Made.outcome, hdoing, hsend, hcall]

/-- `x` makes a call, or it fails because the call has nothing to do. -/
def Tries (c : Client) (g : GoalState) (call : Call) (x : Action α)
    (P : α → World → Outcome → Prop) (w : World) : Prop :=
  Makes c g call x P w ∨ (call.Mute c g w ∧ ∃ fault, (x w).1 = .error fault)

/-- From the call `call` on, a run that comes to `out` is a course, with no more than records after
it. -/
def Finishes (c : Client) (g : GoalState) (call : Call) (w : World)
    (out : (Except Fault Unit × Agent) × World) : Prop :=
  ∃ made last, Course c g call w made last ∧ (last.after c).Noted out.2 ∧
    out.1 = (last.result c, last.agent c g)

/-- From the call `call` on, a run that comes to `out` is a course, or it breaks off and fails. -/
def Ends (c : Client) (g : GoalState) (call : Call) (w : World)
    (out : (Except Fault Unit × Agent) × World) : Prop :=
  Finishes c g call w out ∨ (Breaks c g call w ∧ ∃ fault, out.1.1 = .error fault)

theorem Ends.of_noted {w' : World} {out : (Except Fault Unit × Agent) × World}
    (hn : w.Noted w') (h : Ends c g call w' out) : Ends c g call w out := by
  rcases h with ⟨made, last, hcourse, hrest⟩ | ⟨hbreaks, hfails⟩
  · exact .inl ⟨made, last, hcourse.of_noted hn, hrest⟩
  · exact .inr ⟨hbreaks.of_noted hn, hfails⟩

theorem Ends.and_noted {out : (Except Fault Unit × Agent) × World} {v : World}
    (h : Ends c g call w out) (hn : out.2.Noted v) : Ends c g call w (out.1, v) := by
  rcases h with ⟨made, last, hcourse, hlast, hres⟩ | hbreaks
  · exact .inl ⟨made, last, hcourse, hlast.trans hn, hres⟩
  · exact .inr hbreaks

/-- A run ends with a call that fails, and otherwise goes on as `k` does. -/
theorem Tries.ends (h : Tries c g call x P w) {k : α → World → (Except Fault Unit × Agent) × World}
    (hk : ∀ a v outcome, P a v outcome → v.peacefulWaits ≤ w.peacefulWaits →
      (outcome = .goesOn ∧ Ends c g call.next v (k a v)) ∨
        (outcome = .stops ∧ (k a v).1 = (.ok (), call.agentTold g) ∧ v.Noted (k a v).2)) :
    Ends c g call w (match x w with
      | (.error fault, v) => ((.error fault, call.agent g), v)
      | (.ok a, v) => k a v) := by
  rcases h with ⟨m, hm, hn, hres⟩ | ⟨hmute, fault, hfails⟩
  · have hwaits : (x w).2.peacefulWaits ≤ w.peacefulWaits := by
      rw [hn.idle.peacefulWaits, ← hm.idle.peacefulWaits]
      exact m.doing.peacefulWaits_after c m.before
    rcases hxw : x w with ⟨result, v⟩
    rw [hxw] at hn hres hwaits
    rcases hres with ⟨fault, rfl, hfails⟩ | ⟨a, rfl, hp⟩
    · refine .inl ⟨[], m, .ends hm (by simp [hfails]), hn, ?_⟩
      simp only [Made.result, Made.agent, hfails, hm.call_eq]
    · rcases hk a v _ hp hwaits with ⟨hgoes, hends⟩ | ⟨hstops, hout, hrest⟩
      · rcases hends.of_noted hn with ⟨made, last, hcourse, hlast⟩ | ⟨hbreaks, hfails⟩
        · exact .inl ⟨m :: made, last, .goesOn hm hgoes hcourse, hlast⟩
        · exact .inr ⟨.later hm hgoes hbreaks, hfails⟩
      · refine .inl ⟨[], m, .ends hm (by simp [hstops]), hn.trans hrest, ?_⟩
        rw [hout]
        simp only [Made.result, Made.agent, hstops, hm.call_eq]
  · rcases hxw : x w with ⟨result, v⟩
    rw [hxw] at hfails
    dsimp only at hfails
    subst hfails
    exact .inr ⟨.here hmute, fault, rfl⟩

/-- The same for a call that is a part of what `f` makes a run of. -/
theorem Tries.ends_bind {β : Type} {y : α → Action β} (h : Tries c g call x P w)
    (f : Except Fault β × World → (Except Fault Unit × Agent) × World)
    (hfail : ∀ fault v, f (.error fault, v) = ((.error fault, call.agent g), v))
    (hf : ∀ a v outcome, P a v outcome → v.peacefulWaits ≤ w.peacefulWaits →
      (outcome = .goesOn ∧ Ends c g call.next v (f (y a v))) ∨
        (outcome = .stops ∧ (f (y a v)).1 = (.ok (), call.agentTold g) ∧
          v.Noted (f (y a v)).2)) :
    Ends c g call w (f ((x >>= y) w)) := by
  have hends := h.ends (k := fun a v => f (y a v)) hf
  rw [Action.bind_apply]
  rcases hxw : x w with ⟨fault | a, v⟩
  · rw [hxw] at hends
    rw [hfail]
    exact hends
  · rw [hxw] at hends
    exact hends

end

/-! ## The calls of a run -/

section

open Action World

variable {c : Client} {g : GoalState} {w : World}

theorem wait_tries {call : Call} {seconds : Number.Binary64}
    (hasks : call.Asks c g w (.wait seconds)) :
    Tries c g call (wait seconds) (fun told v outcome =>
      (told = true ∧ outcome = .stops) ∨
        (told = false ∧ outcome = .goesOn ∧ v.peacefulWaits + 1 = w.peacefulWaits)) w := by
  obtain ⟨deeds, hm⟩ := hasks.exists_follows (refl_of Idle w)
  refine .inl ⟨_, hm, refl_of Noted _, .inr ?_⟩
  rcases wait_cases seconds w with hw | ⟨-, waits, hwaits, hw⟩
  · exact ⟨true, by rw [hw], .inl ⟨rfl, by simp only [Made.outcome, hw]⟩⟩
  · refine ⟨false, by rw [hw], .inr ⟨rfl, by simp only [Made.outcome, hw], ?_⟩⟩
    rw [hw, hwaits]

/-- An event that announces the start is asked for by one of two calls, and by nothing else. -/
theorem startup_asks {call : Call} {kind : Report.EventKind}
    (hkind : call = .agentStart ∧ kind = .agentStart ∨ call = .provision ∧ kind = .provision)
    (doing : Doing) :
    call.Asks c g w doing ↔ ∃ event,
      Report.Event.startup kind g (Heartbeat.senderOf c.settings) w.now = .ok event ∧
        doing = .send (c.wireRequest "telemetrydata" event.toXml) true := by
  constructor
  · intro hasks
    rcases hkind with ⟨rfl, rfl⟩ | ⟨rfl, rfl⟩
    · cases hasks with
      | agentStart htime =>
        exact ⟨_, by rw [Report.Event.startup, Report.Event.stamp, htime]; rfl, rfl⟩
    · cases hasks with
      | provision htime =>
        exact ⟨_, by rw [Report.Event.startup, Report.Event.stamp, htime]; rfl, rfl⟩
  · rintro ⟨event, hevent, rfl⟩
    rw [Report.Event.startup, Report.Event.stamp] at hevent
    rcases htime : w.now.timestamp with error | time
    · rw [htime] at hevent
      cases hevent
    · rw [htime] at hevent
      rcases hkind with ⟨rfl, rfl⟩ | ⟨rfl, rfl⟩
      · cases hevent
        exact .agentStart htime
      · cases hevent
        exact .provision htime

theorem announce_tries {call : Call} {kind : Report.EventKind}
    (hkind : call = .agentStart ∧ kind = .agentStart ∨ call = .provision ∧ kind = .provision) :
    Tries c g call (Agent.announce c g kind) (fun _ _ outcome => outcome = .goesOn) w := by
  rcases hevent : Report.Event.startup kind g (Heartbeat.senderOf c.settings) w.now
    with error | event
  · refine .inr ⟨fun doing hasks => ?_, .event error, ?_⟩
    · obtain ⟨event, hok, -⟩ := (startup_asks hkind doing).mp hasks
      simp [hevent] at hok
    · rw [Agent.announce, bind_apply, now_apply]
      simp [hevent, Except.mapError]
  · have hsends : Sends c (c.wireRequest "telemetrydata" event.toXml) true (fun _ => .ok ())
        (Agent.announce c g kind) w := by
      refine .of_idle (y := now) (a := w.now) rfl (now_idle w) (.of_idle (a := event) ?_ ?_ ?_)
      · rw [lift_apply, hevent]
        rfl
      · exact Respects.lift _ _ _
      · exact (c.sendEvent_sends _ event 0).bind (k := fun _ => .ok ()) (fun _ => .pure ())
          fun _ _ => rfl
    have hasks := (startup_asks (c := c) (g := g) (w := w) hkind _).mpr ⟨event, hevent, rfl⟩
    refine .inl (.of_sends_all hsends hasks ?_ ?_) <;>
      rcases hkind with ⟨rfl, -⟩ | ⟨rfl, -⟩ <;> nofun

theorem health_tries :
    Tries c g .health (c.sendHealth (.ofGoalState g)) (fun _ _ outcome => outcome = .goesOn) w :=
  .inl (.of_sends_all (c.sendHealth_sends w _) .health nofun nofun)

theorem report_tries :
    Tries c g .status (Agent.report c g)
      (fun _ v outcome => outcome = if v.stopped then .stops else .goesOn) w := by
  obtain ⟨host, hhost⟩ := Host.identity_apply w
  have hnoted := Host.identity_reads.noted w
  have hread : (Action.now (Host.identity w).2).1 = .ok w.now := congrArg Except.ok hnoted.now
  rcases hpayload : (Report.Status.ofGoalState g host c.settings.versionString w.now).payload
    c.settings.storeVersion with error | payload
  · refine .inr ⟨fun doing hasks => ?_, .statusReport error, ?_⟩
    · cases hasks with
      | status hhost' hok =>
        obtain rfl : _ = host := Except.ok.inj (hhost'.symm.trans hhost)
        cases hok.symm.trans hpayload
    · rcases hidentity : Host.identity w with ⟨result, v⟩
      rw [hidentity] at hhost hread
      obtain rfl : result = .ok host := hhost
      rw [Agent.report, bind_apply, hidentity]
      dsimp only
      rw [bind_apply, now_apply]
      have hnow : v.now = w.now := Except.ok.inj hread
      simp [hnow, Client.publishStatus, hpayload, Except.mapError]
  · have hsends : Sends c
        (c.statusRequest (.ofGoalState g host c.settings.versionString w.now) payload)
        c.settings.remediatesStatus .ok (Agent.report c g) w := by
      refine .of_idle hhost hnoted.idle ?_
      refine .of_idle (y := Action.now) (a := w.now) hread (now_idle _) ?_
      exact c.publishStatus_sends _ hpayload
    refine .inl (.of_sends hsends (.status hhost hpayload)
      fun m hcall hdoing hn answer hsend _ => .inr ⟨answer, rfl, ?_⟩)
    simp only [Made.outcome, hdoing, hsend, hcall]
    rw [hn.idle.stopped]

theorem goalState_tries (hg : ∀ g', (c.fetchGoalState w).1 = .ok g' → g' = g) :
    Tries c g .goalState c.fetchGoalState (fun g' _ outcome => g' = g ∧ outcome = .goesOn) w := by
  refine .inl (.of_sends (c.fetchGoalState_sends w) .goalState
    fun m hcall hdoing hn answer hsend hres => ?_)
  rcases hof : Client.goalStateOf answer with fault | g'
  · exact .inl ⟨fault, rfl, by simp only [Made.outcome, hdoing, hsend, hcall, hof]⟩
  · refine .inr ⟨g', rfl, hg g' (hres.trans hof), ?_⟩
    simp only [Made.outcome, hdoing, hsend, hcall, hof]

/-- What an event of the heartbeat tells is what its number and the readings for it give. -/
theorem tells_iff {number : Nat} {kind : Report.EventKind} {more : List (String × String)} :
    Call.Tells c.settings g w number kind more ↔ kind = .ofCounter number ∧
      ∃ stats, (Heartbeat.readings ⟨g, number⟩ Host.stats w).1 = .ok stats ∧
        Report.Event.cycleParameters g stats (Heartbeat.senderOf c.settings) kind = .ok more := by
  have hkind := Report.EventKind.ofCounter_mod number
  have hfirst : Report.EventKind.ofCounter (1 : Nat) = .heartBeat := rfl
  rw [Heartbeat.readings_apply, Heartbeat.nextKind, ← hkind]
  constructor
  · intro h
    cases h with
    | @heartBeat stats _ _ hnumber hstats hcpu hmemory =>
      refine ⟨by rw [hnumber]; rfl, some stats, ?_, ?_⟩
      · rw [hnumber, if_pos hfirst, hstats]
        rfl
      · rw [Report.Event.cycleParameters, Report.Event.readings, Report.Event.percentage,
          Report.Event.percentage, hcpu, hmemory]
        rfl
    | agentStart hnumber | provision hnumber | agentStatus hnumber =>
      exact ⟨by rw [hnumber]; rfl, none, by rw [hnumber]; rfl, rfl⟩
  · rintro ⟨rfl, stats, hstats, hmore⟩
    have hlt : number % 4 < 4 := Nat.mod_lt number (by decide)
    generalize hrest : number % 4 = rest at hlt hstats hmore ⊢
    match rest, hlt with
    | 0, _ =>
      cases hmore
      exact .agentStatus hrest
    | 1, _ =>
      rw [if_pos hfirst] at hstats
      rcases hread : (Host.stats w).1 with fault | read
      · rw [hread] at hstats
        cases hstats
      rw [hread] at hstats
      cases hstats
      rw [hfirst, Report.Event.cycleParameters, Report.Event.readings, Report.Event.percentage,
        Report.Event.percentage] at hmore
      rcases hcpu : read.cpu.percentage? with _ | cpu
      · rw [hcpu] at hmore
        cases hmore
      rcases hmemory : read.memory.percentage? with _ | memory
      · rw [hcpu, hmemory] at hmore
        cases hmore
      rw [hcpu, hmemory] at hmore
      cases hmore
      exact .heartBeat hrest hread hcpu hmemory
    | 2, _ =>
      cases hmore
      exact .agentStart hrest
    | 3, _ =>
      cases hmore
      exact .provision hrest

/-- An event of the heartbeat is asked for with the readings that are to be had for it. -/
theorem beat_asks {number : Nat} {stats : Option Host.Stats}
    (hreadings : (Heartbeat.readings ⟨g, number⟩ Host.stats w).1 = .ok stats) (doing : Doing) :
    (Call.beat number).Asks c g w doing ↔ ∃ event,
      Report.Event.cycle (.ofCounter number) g stats (Heartbeat.senderOf c.settings) w.now
        = .ok event ∧ doing = .send (c.wireRequest "telemetrydata" event.toXml) true := by
  constructor
  · intro hasks
    cases hasks with
    | beat htime htells =>
      obtain ⟨rfl, stats', hstats, hmore⟩ := tells_iff.mp htells
      obtain rfl := Except.ok.inj (hreadings.symm.trans hstats)
      exact ⟨_, by rw [Report.Event.cycle, Report.Event.stamp, htime, hmore]; rfl, rfl⟩
  · rintro ⟨event, hevent, rfl⟩
    rw [Report.Event.cycle, Report.Event.stamp] at hevent
    rcases htime : w.now.timestamp with error | time
    · rw [htime] at hevent
      cases hevent
    rcases hmore : Report.Event.cycleParameters g stats (Heartbeat.senderOf c.settings)
      (.ofCounter number) with error | more
    · rw [htime, hmore] at hevent
      cases hevent
    rw [htime, hmore] at hevent
    cases hevent
    exact .beat htime (tells_iff.mpr ⟨rfl, stats, hreadings, hmore⟩)

/-- Without the readings that it reports, no event of the heartbeat can be built. -/
theorem beat_mute {number : Nat} {fault : Fault}
    (hreadings : (Heartbeat.readings ⟨g, number⟩ Host.stats w).1 = .error fault) :
    (Call.beat number).Mute c g w := by
  intro doing hasks
  cases hasks with
  | beat htime htells =>
    obtain ⟨-, stats, hstats, -⟩ := tells_iff.mp htells
    cases hreadings.symm.trans hstats

theorem sendNext_tries (number : Nat) :
    Tries c g (.beat number) (Heartbeat.sendNext c ⟨g, number⟩)
      (fun _ _ outcome => outcome = .goesOn) w := by
  have happly := Heartbeat.sendNext_apply c Host.stats ⟨g, number⟩ w
  have hnoted := (Heartbeat.readings_reads ⟨g, number⟩).noted w
  rcases hreadings : Heartbeat.readings ⟨g, number⟩ Host.stats w with ⟨fault | stats, v⟩
  · rw [hreadings] at happly
    exact .inr ⟨beat_mute (congrArg Prod.fst hreadings), fault, congrArg Prod.fst happly⟩
  rw [hreadings] at happly hnoted
  have hnow : v.now = w.now := hnoted.now
  simp only [Heartbeat.nextKind, hnow] at happly
  have hasks := beat_asks (c := c) (congrArg Prod.fst hreadings)
  rcases hevent : Report.Event.cycle (.ofCounter number) g stats (Heartbeat.senderOf c.settings)
    w.now with error | event
  · rw [hevent] at happly
    refine .inr ⟨fun doing h => ?_, .event error, congrArg Prod.fst happly⟩
    obtain ⟨event, hok, -⟩ := (hasks doing).mp h
    cases hevent.symm.trans hok
  · rw [hevent] at happly
    obtain ⟨before, hidle, hn, hres⟩ := c.sendEvent_sends (Action.now v).2 event number
    have hsends : Sends c (c.wireRequest "telemetrydata" event.toXml) true .ok
        (Heartbeat.sendNext c ⟨g, number⟩) w :=
      ⟨before, (hnoted.idle.trans (now_idle v)).trans hidle, by rw [happly]; exact hn,
        by rw [happly]; exact hres⟩
    exact .inl (.of_sends_all hsends ((hasks _).mpr ⟨event, hevent, rfl⟩) nofun nofun)

/-- The world and the agent after a part of the heartbeat. -/
def beating (g : GoalState) (out : (Except Fault Unit × Heartbeat) × World) :
    (Except Fault Unit × Agent) × World :=
  ((out.1.1, ⟨.heartbeatLoop, some g, some out.1.2⟩), out.2)

/-- The heartbeat goes on until it fails or the agent is told to stop. The bound on the number of
waits is no limit, since each wait that ends in peace uses one of the world up. -/
theorem beat_ends (waits number : Nat) (hwaits : w.peacefulWaits < waits) :
    Ends c g (.interval number) w
      (beating g (Heartbeat.beat c waits Host.stats ⟨g, number⟩ w)) := by
  induction waits generalizing w number with
  | zero => omega
  | succ waits ih =>
    have hbeat {v : World} (hless : v.peacefulWaits < waits) :
        Ends c g (.beat number) v (beating g
          ((Heartbeat.tick c >>= fun _ => Heartbeat.beat c waits) ⟨g, number⟩ v)) := by
      have hends := (sendNext_tries (c := c) (g := g) (w := v) number).ends
        (k := fun _ u => beating g (Heartbeat.beat c waits Host.stats ⟨g, number + 1⟩ u))
        fun _ u outcome hgoes hle => .inl ⟨hgoes, ih (number + 1) (by omega)⟩
      rw [Activity.bind_apply, Heartbeat.tick_apply]
      rcases hsend : Heartbeat.sendNext c ⟨g, number⟩ Host.stats v with ⟨fault | answer, u⟩ <;>
        rw [hsend] at hends <;> exact hends
    have hends := (wait_tries (c := c) (g := g) (w := w) (.interval number)).ends
      (k := fun told v => beating g (if told then ((.ok (), ⟨g, number⟩), v)
        else (Heartbeat.tick c >>= fun _ => Heartbeat.beat c waits) ⟨g, number⟩ v))
      (by
        rintro told v outcome (⟨rfl, hstops⟩ | ⟨rfl, hgoes, hless⟩) -
        · exact .inr ⟨hstops, rfl, refl_of Noted v⟩
        · exact .inl ⟨hgoes, hbeat (by omega)⟩)
    rw [Heartbeat.beat, Activity.lift_bind_apply]
    rcases hwait : wait c.settings.heartbeatInterval w with ⟨fault | told, v⟩
    · rw [hwait] at hends
      exact hends
    · rw [hwait] at hends
      cases told <;> exact hends

/-- The heartbeat runs its course. -/
theorem heartbeat_ends :
    Ends c g (.interval 1) w (beating g (Heartbeat.run c Host.stats ⟨g, 1⟩ w)) := by
  rw [Heartbeat.run_apply]
  have hlog := log_noted .info .heartbeat ("Starting continuous heartbeat loop every "
    ++ c.settings.heartbeatInterval.text ++ "s (send SIGINT/SIGTERM to stop)...") w
  generalize (log .info .heartbeat _ w).2 = v at hlog ⊢
  have hbeat := beat_ends (c := c) (g := g) (w := v) (w.peacefulWaits + 1) 1
    (by rw [hlog.idle.peacefulWaits]; omega)
  refine .of_noted hlog ?_
  dsimp only
  rcases hout : Heartbeat.beat c (w.peacefulWaits + 1) Host.stats ⟨g, 1⟩ v with
    ⟨⟨fault | _, h⟩, u⟩
  · rw [hout] at hbeat
    exact hbeat
  · rw [hout] at hbeat
    exact hbeat.and_noted (log_noted .info .heartbeat _ u)

/-- From the publishing of the status on, the heartbeat keeps going. -/
theorem keepBeating_ends :
    Ends c g (.interval 1) w (Agent.keepBeating c (Call.status.agentTold g) w) := by
  rw [Agent.keepBeating_apply w rfl rfl]
  exact .of_noted (w.moved_noted .statusPublished .heartbeatLoop) heartbeat_ends

/-- The goal state is asked for, and what it is does not change in the rest of the run. -/
theorem goalState_ends (f : GoalState → Activity Agent Unit)
    (hf : ∀ g v, Ends c g .health v (f g (Call.health.agent g) v)) :
    ∃ g, g.incarnation ≤ Number.greatest32 ∧
      (∀ answer g', (c.send c.goalStateRequest true w).1 = .ok answer →
        Client.goalStateOf answer = .ok g' → g' = g) ∧
      Ends c g .goalState w ((Agent.fetchGoalState c >>= f) {} w) := by
  have hlog := log_noted .info .agent "Fetching goal state" w
  rw [Activity.bind_apply, Agent.fetchGoalState_apply w rfl]
  generalize (log .info .agent "Fetching goal state" w).2 = v at hlog ⊢
  have hresult : (c.fetchGoalState v).1 =
      (c.send c.goalStateRequest true w).1.bind Client.goalStateOf := by
    rw [c.fetchGoalState_result, c.send_congr c.goalStateRequest true hlog.idle.exchange]
  obtain ⟨g, hbound, hg⟩ : ∃ g, g.incarnation ≤ Number.greatest32 ∧
      ∀ g', (c.fetchGoalState v).1 = .ok g' → g' = g := by
    rcases hfetch : (c.fetchGoalState v).1 with fault | g
    · exact ⟨⟨0, "", "", ""⟩, Nat.zero_le _, nofun⟩
    · rw [hfetch] at hresult
      rcases hsend : (c.send c.goalStateRequest true w).1 with fault | answer
      · rw [hsend] at hresult
        cases hresult
      · rw [hsend] at hresult
        exact ⟨g, Client.incarnation_le_of_goalStateOf hresult.symm,
          fun g' h => (Except.ok.inj h).symm⟩
  refine ⟨g, hbound, fun answer g' hanswer hof => hg g' ?_, .of_noted hlog ?_⟩
  · rw [hresult, hanswer]
    exact hof
  · have hends := (goalState_tries hg).ends
      (k := fun g u => f g (Call.health.agent g) (log .info .agent
        ("Goal state incarnation " ++ Number.ofInt g.incarnation ++ " (container "
          ++ g.containerId ++ ", instance " ++ g.instanceId ++ ")")
        (u.moved .start .goalStateFetched)).2)
      (by
        rintro g' u outcome ⟨rfl, hgoes⟩ -
        have hnoted := (u.moved_noted .start .goalStateFetched).trans
          (log_noted .info .agent ("Goal state incarnation " ++ Number.ofInt g'.incarnation
            ++ " (container " ++ g'.containerId ++ ", instance " ++ g'.instanceId ++ ")") _)
        exact .inl ⟨hgoes, .of_noted hnoted (hf g' _)⟩)
    rcases hfetch : c.fetchGoalState v with ⟨fault | g', u⟩ <;>
      rw [hfetch] at hends <;> exact hends

theorem health_ends (f : Unit → Activity Agent Unit)
    (hf : ∀ v, Ends c g .agentStart v (f () (Call.agentStart.agent g) v)) :
    Ends c g .health w ((Agent.acknowledgeHealth c >>= f) (Call.health.agent g) w) := by
  have hends := (health_tries (c := c) (g := g) (w := w)).ends
    (k := fun _ v => f () (Call.agentStart.agent g)
      (v.moved .goalStateFetched .healthAcknowledged))
    fun _ v outcome hgoes _ =>
      .inl ⟨hgoes, .of_noted (v.moved_noted .goalStateFetched .healthAcknowledged) (hf _)⟩
  rw [Activity.bind_apply, Agent.acknowledgeHealth_apply w rfl rfl]
  rcases hsend : c.sendHealth (.ofGoalState g) w with ⟨fault | answer, v⟩ <;>
    rw [hsend] at hends <;> exact hends

/-- What becomes of a run that goes on with `rest` once the start has been announced. -/
def announced (g : GoalState) (rest : Activity Agent Unit) :
    Except Fault Bool × World → (Except Fault Unit × Agent) × World
  | (.ok true, v) => rest (Call.status.agent g) (v.moved .healthAcknowledged .startupSent)
  | (.ok false, v) => ((.ok (), Call.settling.agent g), v)
  | (.error fault, v) => ((.error fault, Call.agentStart.agent g), v)

theorem startup_ends (f : Bool → Activity Agent Unit)
    (hstop : ∀ v, f false (Call.settling.agent g) v = ((.ok (), Call.settling.agent g), v))
    (hf : ∀ v, Ends c g .status v (f true (Call.status.agent g) v)) :
    Ends c g .agentStart w
      ((Agent.sendStartupEvents c >>= f) (Call.agentStart.agent g) w) := by
  have hrest : (Agent.sendStartupEvents c >>= f) (Call.agentStart.agent g) w =
      announced g (f true) (Agent.announceStart c g w) := by
    rw [Activity.bind_apply, Agent.sendStartupEvents_apply w rfl rfl]
    rcases Agent.announceStart c g w with ⟨fault | _ | _, v⟩
    · rfl
    · exact hstop v
    · rfl
  have hprovision {v : World} :=
    (announce_tries (c := c) (g := g) (w := v) (.inr ⟨rfl, rfl⟩)).ends_bind
      (y := fun _ => pure true) (announced g (f true)) (fun _ _ => rfl)
      fun _ u outcome hgoes _ =>
        .inl ⟨hgoes, .of_noted (u.moved_noted .healthAcknowledged .startupSent) (hf _)⟩
  have hsettling {v : World} :=
    (wait_tries (c := c) (g := g) (w := v) .settling).ends_bind
      (y := fun told => if told then pure false else do
        Agent.announce c g .provision
        return true)
      (announced g (f true)) (fun _ _ => rfl) (by
        rintro told u outcome (⟨rfl, hstops⟩ | ⟨rfl, hgoes, -⟩) -
        · exact .inr ⟨hstops, rfl, refl_of Noted u⟩
        · exact .inl ⟨hgoes, hprovision⟩)
  rw [hrest, Agent.announceStart, bind_apply]
  refine .of_noted (log_noted .info .agent "Sending initial agent startup events..." w) ?_
  exact (announce_tries (.inl ⟨rfl, rfl⟩)).ends_bind (announced g (f true))
    (fun _ _ => rfl) fun _ u outcome hgoes _ => .inl ⟨hgoes, hsettling⟩

theorem status_ends (f : Unit → Activity Agent Unit)
    (hstop : ∀ v, v.stopped = true →
      f () (Call.status.agentTold g) v = ((.ok (), Call.status.agentTold g), v))
    (hf : ∀ v, v.stopped = false →
      Ends c g (.interval 1) v (f () (Call.status.agentTold g) v)) :
    Ends c g .status w ((Agent.publishStatus c >>= f) (Call.status.agent g) w) := by
  have hends := (report_tries (c := c) (g := g) (w := w)).ends
    (k := fun _ v => f () (Call.status.agentTold g) (v.moved .startupSent .statusPublished))
    (by
      rintro _ v outcome houtcome -
      have hmoved := v.moved_noted .startupSent .statusPublished
      rcases hstopped : v.stopped with _ | _
      · exact .inl ⟨by simp [houtcome, hstopped], .of_noted hmoved (hf _ hstopped)⟩
      · have hout := hstop (v.moved .startupSent .statusPublished) hstopped
        rw [hout]
        exact .inr ⟨by simp [houtcome, hstopped], rfl, hmoved⟩)
  rw [Activity.bind_apply, Agent.publishStatus_apply w rfl rfl]
  rcases hreport : Agent.report c g w with ⟨fault | answer, v⟩ <;>
    rw [hreport] at hends <;> exact hends

/-- The work of the agent runs its course. -/
theorem work_ends :
    ∃ g, g.incarnation ≤ Number.greatest32 ∧
      (∀ answer g', (c.send c.goalStateRequest true w).1 = .ok answer →
        Client.goalStateOf answer = .ok g' → g' = g) ∧
      Ends c g .goalState w (Agent.work c {} w) := by
  rw [Agent.work, Agent.bootstrap]
  simp only [bind_assoc]
  refine goalState_ends _ fun g v => health_ends _ fun v =>
    startup_ends _ (fun v => rfl) fun v => ?_
  simp only [if_true, bind_assoc]
  refine status_ends _ (fun v hstopped => ?_) fun v hstopped => ?_
  · simp [Action.isStopped, hstopped]
  · have hends := keepBeating_ends (c := c) (g := g) (w := v)
    simpa [Action.isStopped, hstopped] using hends

/-- A run is a course of calls, or breaks off; after that the session is closed. -/
theorem run_ends :
    ∃ g v, g.incarnation ≤ Number.greatest32 ∧
      (∀ answer g', (c.send c.goalStateRequest true w).1 = .ok answer →
        Client.goalStateOf answer = .ok g' → g' = g) ∧
      Ends c g .goalState w ((Agent.run c {} w).1, v) ∧
      (Agent.run c {} w).2 = { v with trace := v.trace ++ [.closed] } := by
  have hstart := log_noted .info .agent ("Starting " ++ c.settings.versionString) w
  rw [Agent.run_apply]
  generalize (log .info .agent ("Starting " ++ c.settings.versionString) w).2 = v at hstart ⊢
  obtain ⟨g, hbound, hg, hends⟩ := work_ends (c := c) (w := v)
  rw [c.send_congr _ _ hstart.idle.exchange] at hg
  have hend := log_noted .info .agent "Agent shutting down" (Agent.work c {} v).2
  exact ⟨g, _, hbound, hg, .of_noted hstart (hends.and_noted hend), rfl⟩

/-! ### Runs on which reports can be built -/

end

end WireAgent
