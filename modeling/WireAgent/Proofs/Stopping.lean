import WireAgent.Proofs.Course

/-!
# Stopping

The agent may be told to stop at any time: before a run, in an exchange of the first or of the
second attempt at a request, or during a wait (`Made.Tells`). Three calls of a run look for it when
they end: the wait between the events of the start, the publishing of the status and each wait of
the heartbeat. The run ends with the first of these that comes after the agent was told
(`Call.lookout`), and nothing but the calls up to it is made (`Call.upTo`).

`graceful_stop` says so of every run on which no call fails.
-/

namespace WireAgent

/-! ## Where a stop is looked for -/

namespace Call

/-- The call at whose end a run finds that the agent was told to stop in a call. -/
def lookout : Call → Call
  | .goalState | .health | .agentStart | .settling => .settling
  | .provision | .status => .status
  | .interval number => .interval number
  | .beat number => .interval (number + 1)

end Call

/-- The agent at the end of a run, by the call in which it was told to stop; none if that was before
the run. -/
def Agent.atRest (g : GoalState) : Option Call → Agent
  | none | some .goalState | some .health | some .agentStart | some .settling =>
    ⟨.healthAcknowledged, some g, none⟩
  | some .provision | some .status => ⟨.statusPublished, some g, none⟩
  | some (.interval number) => ⟨.heartbeatLoop, some g, some ⟨g, number⟩⟩
  | some (.beat number) => ⟨.heartbeatLoop, some g, some ⟨g, number + 1⟩⟩

theorem Call.agentTold_lookout (g : GoalState) (call : Call) :
    call.lookout.agentTold g = Agent.atRest g (some call) := by
  cases call <;> rfl

/-! ## Being told -/

/-- The agent is told to stop while something is done: in an exchange of one of the attempts, or
because no more waits end in peace. -/
def Doing.Tells (w : World) : Doing → Prop
  | .send _ remediates =>
    (w.exchange 0).tells w.signals = true ∨
      (Client.Retries remediates w ∧ (w.exchange 1).tells w.signals = true)
  | .wait _ => w.peacefulWaits = 0

theorem World.stopped_requesting (w : World) (r : Request) :
    (w.requesting r).stopped = (w.stopped || (w.exchange 0).tells w.signals) :=
  rfl

/-- Nothing makes the agent forget that it was told to stop. -/
theorem Doing.stopped_after (c : Client) (doing : Doing) (w : World) :
    (doing.after c w).stopped = true ↔ w.stopped = true ∨ doing.Tells w := by
  cases doing with
  | send r remediates =>
    by_cases h : Client.Retries remediates w
    · obtain ⟨deeds, between, -, hr, hs⟩ := Client.send_apply_twice (c := c) (r := r) h
      have hexchange : between.exchange 0 = w.exchange 1 := by
        rw [hr.exchange]
        simp [World.exchange, World.requesting, List.getElem?_tail]
      have hstopped : between.stopped = (w.stopped || (w.exchange 0).tells w.signals) := by
        rw [hr.unchanged]
        rfl
      have hsignals : between.signals = w.signals := by
        rw [hr.unchanged]
        rfl
      rw [after, hs, World.stopped_requesting, hexchange, hstopped, hsignals]
      simp [Tells, h, or_assoc]
    · rw [after, Client.send_apply_once h, World.stopped_requesting]
      simp [Tells, h]
  | wait seconds => simp [after, Action.wait_apply, Tells]

/-- The agent is told to stop before a run, or in one of its calls. -/
inductive Told (w : World) (calls : List Made) : Option Call → Prop
  | before : w.stopped = true → Told w calls none
  | during {m : Made} : m ∈ calls → m.before.stopped = false → m.doing.Tells m.before →
      Told w calls (some m.call)

namespace Made

variable {c : Client} {g : GoalState} {m : Made} {call : Call} {w : World}

/-- After a wait, a run ends exactly if the agent was told to stop by then. -/
theorem outcome_wait {seconds : Number.Binary64} (h : m.doing = .wait seconds) :
    m.outcome c = if (m.after c).stopped then .stops else .goesOn := by
  simp only [outcome, after, h, Doing.after, Action.wait_apply]
  cases (m.before.stopped || m.before.peacefulWaits == 0) <;> rfl

/-- After something was sent, a run on which no call fails goes on unless that was the status and
the agent was told to stop. -/
theorem outcome_send {r : Request} {remediates : Bool} (h : m.doing = .send r remediates)
    (hfails : ∀ fault, m.outcome c ≠ .fails fault) :
    m.outcome c = if m.call = .status ∧ (m.after c).stopped = true then .stops else .goesOn := by
  simp only [outcome, h] at hfails ⊢
  rcases hsend : (c.send r remediates m.before).1 with fault | answer
  · rw [hsend] at hfails
    exact absurd rfl (hfails fault)
  rw [hsend] at hfails
  cases hcall : m.call with
  | goalState =>
    simp only [hcall] at hfails ⊢
    rcases hof : Client.goalStateOf answer with fault | g
    · rw [hof] at hfails
      exact absurd rfl (hfails fault)
    · simp
  | status => simp
  | _ => simp

/-- Unless it fails, a call ends the run exactly if a stop is looked for at its end and the agent
was told to stop by then. -/
theorem Follows.outcome_eq (h : m.Follows c g call w)
    (hfails : ∀ fault, m.outcome c ≠ .fails fault) :
    m.outcome c =
      if call.lookout = call ∧ (m.after c).stopped = true then .stops else .goesOn := by
  obtain ⟨rfl, hasks, -, -, -⟩ := h
  rcases hdoing : m.doing with ⟨r, remediates⟩ | seconds
  · rw [outcome_send hdoing hfails]
    rw [hdoing] at hasks
    have hlookout : m.call.lookout = m.call ↔ m.call = .status := by
      cases hcall : m.call with
      | settling => rw [hcall] at hasks; cases hasks
      | interval number => rw [hcall] at hasks; cases hasks
      | _ => simp [Call.lookout]
    simp only [hlookout]
  · rw [outcome_wait hdoing]
    rw [hdoing] at hasks
    have hlookout : m.call.lookout = m.call := by
      cases hcall : m.call with
      | settling => rfl
      | interval number => rfl
      | _ => rw [hcall] at hasks; cases hasks
    simp [hlookout]

end Made

namespace Call

/-- Where no stop is looked for, the next look is that after the next call. -/
theorem lookout_next {call : Call} (h : call.lookout ≠ call) :
    call.next.lookout = call.lookout := by
  cases call with
  | settling => exact absurd rfl h
  | status => exact absurd rfl h
  | interval number => exact absurd rfl h
  | _ => rfl

/-- An event of the heartbeat comes after a look for a stop. -/
theorem lookout_of_next_beat {call : Call} {number : Nat} (h : call.next = .beat number) :
    call.lookout = call := by
  cases call with
  | interval number => rfl
  | _ => cases h

end Call

/-! ## Runs -/

namespace Course

variable {c : Client} {g : GoalState} {call : Call} {w : World} {made : List Made} {last : Made}

/-- Once the agent was told to stop, the run ends where that is next looked for. -/
theorem call_of_stopped (h : Course c g call w made last) (hlast : last.outcome c = .stops)
    (hw : w.stopped = true) : last.call = call.lookout := by
  have hafter {call : Call} {w : World} {m : Made} (hm : m.Follows c g call w)
      (hw : w.stopped = true) : (m.after c).stopped = true :=
    (m.doing.stopped_after c m.before).mpr (.inl (hm.idle.stopped.trans hw))
  induction h with
  | @ends call w m hm _ =>
    have houtcome := hm.outcome_eq (by simp [hlast])
    rw [hlast] at houtcome
    split_ifs at houtcome with hlookout
    rw [hm.call_eq, hlookout.1]
  | @goesOn call w m last made hm hgoes _ ih =>
    have houtcome := hm.outcome_eq (by simp [hgoes])
    rw [hgoes] at houtcome
    split_ifs at houtcome with hlookout
    have hne : call.lookout ≠ call := fun heq => hlookout ⟨heq, hafter hm hw⟩
    rw [ih hlast (hafter hm hw), Call.lookout_next hne]

/-- If the agent is told to stop in a call, the run ends where that is next looked for. -/
theorem call_of_told (h : Course c g call w made last) (hlast : last.outcome c = .stops) {m : Made}
    (hm : m ∈ made ++ [last]) (hstopped : (m.after c).stopped = true) :
    last.call = m.call.lookout := by
  induction h with
  | @ends call w last hlast' _ =>
    obtain rfl : m = last := by simpa using hm
    have houtcome := hlast'.outcome_eq (by simp [hlast])
    rw [hlast] at houtcome
    split_ifs at houtcome with hlookout
    rw [hlast'.call_eq, hlookout.1]
  | @goesOn call w first last made hfirst hgoes hrest ih =>
    rw [List.cons_append, List.mem_cons] at hm
    rcases hm with rfl | hm
    · have houtcome := hfirst.outcome_eq (by simp [hgoes])
      rw [hgoes] at houtcome
      split_ifs at houtcome with hlookout
      have hne : call.lookout ≠ call := fun heq => hlookout ⟨heq, hstopped⟩
      rw [hrest.call_of_stopped hlast hstopped, Call.lookout_next hne, hfirst.call_eq]
    · exact ih hlast hm

/-- Wherever the agent was told to stop, the run ends where that is next looked for. -/
theorem call_eq (h : Course c g .goalState w made last) (hlast : last.outcome c = .stops)
    {point : Option Call} (htold : Told w (made ++ [last]) point) :
    last.call = point.elim .settling Call.lookout := by
  cases htold with
  | before hw => exact h.call_of_stopped hlast hw
  | @during m hmem _ htells =>
    exact h.call_of_told hlast hmem ((m.doing.stopped_after c m.before).mpr (.inr htells))

/-- A run that ends without a failure ends because the agent was told to stop. -/
theorem exists_told (h : Course c g call w made last) (hlast : last.outcome c = .stops) :
    ∃ point, Told w (made ++ [last]) point := by
  induction h with
  | @ends call w m hm _ =>
    have houtcome := hm.outcome_eq (by simp [hlast])
    rw [hlast] at houtcome
    split_ifs at houtcome with hlookout
    by_cases hw : w.stopped = true
    · exact ⟨none, .before hw⟩
    · rw [← hm.idle.stopped] at hw
      have htells := ((m.doing.stopped_after c m.before).mp hlookout.2).resolve_left hw
      exact ⟨_, .during (by simp) (by simpa using hw) htells⟩
  | @goesOn call w m last made hm _ _ ih =>
    obtain ⟨point, htold⟩ := ih hlast
    by_cases hw : w.stopped = true
    · exact ⟨none, .before hw⟩
    rw [← hm.idle.stopped] at hw
    cases htold with
    | before hstopped =>
      have htells := ((m.doing.stopped_after c m.before).mp hstopped).resolve_left hw
      exact ⟨_, .during (by simp) (by simpa using hw) htells⟩
    | @during m' hmem hbefore htells =>
      exact ⟨_, .during (List.mem_cons_of_mem _ hmem) hbefore htells⟩

/-- Once the agent was told to stop, no event of the heartbeat is begun and no wait goes on. -/
theorem idle_of_stopped (h : Course c g call w made last)
    (hcall : w.stopped = true → ∀ number, call ≠ .beat number) {m : Made}
    (hm : m ∈ made ++ [last]) (hstopped : m.before.stopped = true) :
    (∀ number, m.call ≠ .beat number) ∧
      ∀ seconds, m.doing = .wait seconds → (Action.wait seconds m.before).1 = .ok true := by
  have hfirst {call : Call} {w : World} (hcall : w.stopped = true → ∀ number, call ≠ .beat number)
      (hfollows : m.Follows c g call w) :
      (∀ number, m.call ≠ .beat number) ∧
        ∀ seconds, m.doing = .wait seconds → (Action.wait seconds m.before).1 = .ok true := by
    rw [hfollows.call_eq]
    refine ⟨hcall (hfollows.idle.stopped ▸ hstopped), fun seconds _ => ?_⟩
    rw [Action.wait_apply, hstopped, Bool.true_or]
  induction h with
  | ends hlast _ =>
    obtain rfl := List.mem_singleton.mp hm
    exact hfirst hcall hlast
  | @goesOn call w first last made hfollows hgoes _ ih =>
    rw [List.cons_append, List.mem_cons] at hm
    rcases hm with rfl | hm
    · exact hfirst hcall hfollows
    · refine ih (fun hafter number hnext => ?_) hm
      have houtcome := hfollows.outcome_eq (by simp [hgoes])
      rw [if_pos ⟨Call.lookout_of_next_beat hnext, hafter⟩, hgoes] at houtcome
      cases houtcome

end Course

open Call in
/-- A run of the agent from the start. Either a call of it fails: what it is to send cannot be built
from what can be read, or it is not sent, or the goal state is refused; then the run fails. Or the
run ends in an orderly way because the agent was told to stop, be it before the run, in an attempt
at a request or during a wait. Whenever that was, the run ends with the next call at whose end a
stop is looked for: with the delay between the events of the start if the agent was told before or
by then, with the publishing of the status if it was told between, and otherwise with the wait of
the heartbeat in which it was told or that follows the event in which it was told. No other calls
are made than those up to this one, and the agent is left at the stage that it had reached, the
number of the heartbeat being that of the next event. Once the agent was told to stop, no event of
the heartbeat is begun and no wait lets the run go on. -/
theorem graceful_stop (c : Client) (w : World) :
    let out := Agent.run c {} w
    ∃ g, (∀ answer g', (c.send c.goalStateRequest true w).1 = .ok answer →
        Client.goalStateOf answer = .ok g' → g' = g) ∧
      ((Breaks c g .goalState w ∧ ∃ fault, out.1.1 = .error fault) ∨
        ∃ made last, Course c g .goalState w made last ∧
          seen out.2.trace = seen w.trace ++ (made ++ [last]).flatMap Made.deeds ++ [.closed] ∧
          ((∃ fault, last.outcome c = .fails fault ∧ out.1.1 = .error fault) ∨
            (out.1.1 = .ok () ∧ (∃ point, Told w (made ++ [last]) point) ∧
              ∀ point, Told w (made ++ [last]) point →
                out.1.2 = Agent.atRest g point ∧
                (made ++ [last]).map Made.call = upTo (point.elim .settling lookout))) ∧
          ∀ m ∈ made ++ [last], m.before.stopped = true →
            (∀ number, m.call ≠ .beat number) ∧
            ∀ seconds, m.doing = .wait seconds →
              (Action.wait seconds m.before).1 = .ok true) := by
  intro out
  obtain ⟨g, v, -, hg, hends, hrun⟩ := run_ends (c := c) (w := w)
  refine ⟨g, hg, ?_⟩
  rcases hends with ⟨made, last, hcourse, hn, hres⟩ | hbreaks
  · refine .inr ⟨made, last, hcourse, ?_, ?_, fun m => hcourse.idle_of_stopped nofun⟩
    · rw [show out.2 = _ from hrun, seen_append, hn.idle.seen_eq, hcourse.seen_eq]
      rfl
    · have hout : out.1 = (last.result c, last.agent c g) := hres
      cases hlast : last.outcome c with
      | goesOn => exact absurd hlast hcourse.goesOn_of_mem.2
      | fails fault =>
        exact .inl ⟨fault, rfl, by rw [hout]; simp only [Made.result, hlast]⟩
      | stops =>
        refine .inr ⟨by rw [hout]; simp only [Made.result, hlast], hcourse.exists_told hlast,
          fun point htold => ?_⟩
        have hcall := hcourse.call_eq hlast htold
        refine ⟨?_, by rw [hcourse.calls_eq_upTo, hcall]⟩
        rw [hout]
        simp only [Made.agent, hlast, hcall]
        cases point with
        | none => rfl
        | some call => exact call.agentTold_lookout g
  · exact .inl hbreaks

end WireAgent
