import WireAgent.Proofs.GoalStates
import WireAgent.Proofs.Retry

/-!
# Exchanges around one request

Each exchange of the agent sends one request under the policy; before and after it there are only
log records and readings (`Action.Sends`). What is to be reported can always be written if the
clock gives readings that universal time covers and the machine can be read (`World.Readable`), and
no exchange and no wait changes that.
-/

namespace WireAgent

/-! ## Reading the machine -/

namespace Action

open World

/-- `x` writes records, none of them of a move, and the machine alone decides what comes of it. -/
structure Reads {α : Type} (x : Action α) : Prop where
  noted : Respects Noted x
  still : Respects Still x
  result {w v : World} : v.machine = w.machine → (x v).1 = (x w).1

namespace Reads

variable {α β ε : Type} {x : Action α} {f : α → Action β}

theorem pure (a : α) : Reads (pure a : Action α) :=
  ⟨.pure a, .pure a, fun _ => rfl⟩

theorem throw (e : Fault) : Reads (throw e : Action α) :=
  ⟨.throw e, .throw e, fun _ => rfl⟩

theorem log (level : LogLevel) (source : LogSource) (message : String)
    (h : level ≠ .debug ∨ source ≠ .agent := by decide) : Reads (log level source message) :=
  ⟨log_noted level source message, log_still level source message h, fun _ => rfl⟩

theorem lift (fault : ε → Fault) (e : Except ε α) : Reads (lift fault e) :=
  ⟨.lift fault e, .lift fault e, fun _ => by simp⟩

theorem bind (hx : Reads x) (hf : ∀ a, Reads (f a)) : Reads (x >>= f) where
  noted := hx.noted.bind fun a => (hf a).noted
  still := hx.still.bind fun a => (hf a).still
  result {w v} hv := by
    have hres := hx.result hv
    have hmachine := (hx.noted w).idle.machine
    have hmachine' := (hx.noted v).idle.machine
    rw [bind_apply, bind_apply]
    rcases hxw : x w with ⟨e | a, w'⟩
    · rcases hxv : x v with ⟨e' | a', v'⟩ <;> simp_all
    · rcases hxv : x v with ⟨e' | a', v'⟩
      · simp [hxw, hxv] at hres
      · obtain rfl : a' = a := by simpa [hxw, hxv] using hres
        simp only [hxw, hxv] at hmachine hmachine'
        exact (hf a').result (hmachine'.trans (hv.trans hmachine.symm))

/-- What is read first changes nothing for what is read then. -/
theorem bind_result (hx : Reads x) (hf : ∀ a, Reads (f a)) (w : World) :
    ((x >>= f) w).1 = (x w).1.bind fun a => (f a w).1 := by
  have hmachine := (hx.noted w).idle.machine
  rw [bind_apply]
  rcases hxw : x w with ⟨e | a, v⟩
  · rfl
  · rw [hxw] at hmachine
    exact (hf a).result hmachine

theorem map (g : α → β) (hx : Reads x) : Reads (g <$> x) where
  noted := hx.noted.map g
  still := hx.still.map g
  result {w v} hv := by
    have hres := hx.result hv
    rw [map_apply, map_apply]
    rcases hxw : x w with ⟨e | a, w'⟩ <;> rcases hxv : x v with ⟨e' | a', v'⟩ <;> simp_all

theorem get_bind {f : World → Action β} (hf : ∀ w, Reads (f w))
    (hmachine : ∀ v w, v.machine = w.machine → f v = f w) : Reads (get >>= f) where
  noted w := (hf w).noted w
  still w := (hf w).still w
  result {w v} hv := by
    rw [bind_apply, bind_apply]
    simp only [get_apply]
    rw [hmachine v w hv]
    exact (hf w).result hv

end Reads

end Action

namespace Host

open Action

theorem identity_reads : Reads identity := by
  refine .get_bind (fun w => ?_) fun v w h => by simp only [h]
  dsimp only
  cases w.machine.hostname with
  | ok name => exact .bind (.pure _) fun _ => .pure _
  | error failure => exact .bind (.log _ _ _) fun _ => .bind (.pure _) fun _ => .pure _

/-- The identity of the machine can always be told. -/
theorem identity_apply (w : World) : ∃ host, (identity w).1 = .ok host := by
  rcases h : w.machine.hostname with failure | name <;> simp [identity, h]

theorem cpuUsage_reads : Reads cpuUsage := by
  refine .get_bind (fun w => ?_) fun v w h => by simp only [h]
  cases w.machine.load <;> exact .pure _

theorem memoryUsage_reads : Reads memoryUsage := by
  refine .get_bind (fun w => ?_) fun v w h => by simp only [h]
  split
  · split
    · exact .throw _
    · split
      · exact .bind (.log _ _ _) fun _ => .pure _
      · split
        · exact .throw _
        · exact .pure _
  · exact .pure _

theorem uptime_reads : Reads uptime := by
  refine .get_bind (fun w => ?_) fun v w h => by simp only [h]
  split
  · split
    · exact .pure _
    · exact .lift _ _
  · exact .pure _

theorem stats_reads : Reads stats :=
  cpuUsage_reads.bind fun _ => memoryUsage_reads.bind fun _ => uptime_reads.bind fun _ => .pure _

end Host

theorem Heartbeat.readings_reads (h : Heartbeat) : Action.Reads h.readings := by
  unfold readings
  split
  · exact Host.stats_reads.map some
  · exact .pure none

/-! ## What can be reported -/

/-- The clock gives readings that universal time covers, and the machine can be read. -/
structure World.Readable (w : World) : Prop where
  clock : ∀ m ∈ w.now :: w.later, ∃ u, m.toUtc = .ok u
  stats : ∃ s, (Host.stats w).1 = .ok s

namespace World

variable {w w' : World}

theorem Readable.of_suffix (h : w.Readable) (hclock : w'.now :: w'.later <:+ w.now :: w.later)
    (hmachine : w'.machine = w.machine) : w'.Readable where
  clock m hm := h.clock m (hclock.subset hm)
  stats := by
    obtain ⟨s, hs⟩ := h.stats
    exact ⟨s, by rw [Host.stats_reads.result hmachine, hs]⟩

theorem Idle.readable (hi : w.Idle w') (h : w.Readable) : w'.Readable :=
  h.of_suffix hi.clock hi.machine

theorem Readable.send (h : w.Readable) (c : Client) (r : Request) (remediates : Bool) :
    (c.send r remediates w).2.Readable := by
  have hsend := c.send_unchanged r remediates w
  dsimp only at hsend
  have hclock : (c.send r remediates w).2.now :: (c.send r remediates w).2.later =
      w.now :: w.later := by rw [hsend]
  exact h.of_suffix (hclock ▸ List.suffix_rfl) (by rw [hsend])

end World

/-- A world in which a machine that shows nothing has these exchanges in store. -/
def World.plain (exchanges : List Exchange) : World where
  exchanges := exchanges
  commands := []
  remediations := []
  peacefulWaits := 0
  now := ⟨⟨2026, 1, 31⟩, 12, 0, 0, 0, none⟩
  later := []
  users := []
  effectiveUser := 0
  machine := ⟨.ok "", "", "", none, none, none⟩
  files := {}

theorem World.plain_readable (exchanges : List Exchange) : (plain exchanges).Readable where
  clock m hm := by
    obtain rfl : m = ⟨⟨2026, 1, 31⟩, 12, 0, 0, 0, none⟩ := List.mem_singleton.mp hm
    exact ⟨_, rfl⟩
  stats := ⟨_, rfl⟩

/-! ## Exchanges -/

namespace Action

open World

variable {α β ε : Type} {c : Client} {r : Request} {remediates : Bool}
  {judge : Answer → Except Fault α} {k : α → Except Fault β} {x : Action α} {f : α → Action β}
  {w : World}

/-- `x` sends one request under the policy of the client, with nothing but records and readings
before it and nothing but records after it. What it comes to is what `judge` makes of the answer. -/
def Sends (c : Client) (r : Request) (remediates : Bool) (judge : Answer → Except Fault α)
    (x : Action α) (w : World) : Prop :=
  ∃ before, w.Idle before ∧ (c.send r remediates before).2.Noted (x w).2 ∧
    (x w).1 = (c.send r remediates before).1.bind judge

theorem send_sends : Sends c r remediates .ok (c.send r remediates) w := by
  refine ⟨w, refl_of Idle w, refl_of Noted _, ?_⟩
  cases (c.send r remediates w).1 <;> rfl

namespace Sends

/-- Something idle may come first. -/
theorem of_idle {y : Action β} {a : β} {f : β → Action α} (hy : (y w).1 = .ok a)
    (hidle : w.Idle (y w).2) (h : Sends c r remediates judge (f a) (y w).2) :
    Sends c r remediates judge (y >>= f) w := by
  obtain ⟨before, hb, hn, hres⟩ := h
  have hbind : (y >>= f) w = f a (y w).2 := by
    rw [bind_apply]
    rcases hyw : y w with ⟨result, v⟩
    obtain rfl : result = .ok a := by simpa [hyw] using hy
    rfl
  rw [← hbind] at hn hres
  exact ⟨before, hidle.trans hb, hn, hres⟩

theorem log_bind (level : LogLevel) (source : LogSource) (message : String) {f : Unit → Action α}
    (h : Sends c r remediates judge (f ()) (log level source message w).2) :
    Sends c r remediates judge (log level source message >>= f) w :=
  h.of_idle rfl (log_noted level source message w).idle

/-- Records may follow, and a further judgement. -/
theorem bind (h : Sends c r remediates judge x w) (hf : ∀ a, Respects Noted (f a))
    (hres : ∀ a v, (f a v).1 = k a) :
    Sends c r remediates (fun answer => (judge answer).bind k) (x >>= f) w := by
  obtain ⟨before, hb, hn, hx⟩ := h
  refine ⟨before, hb, ?_, ?_⟩
  · rw [bind_apply]
    rcases hxw : x w with ⟨fault | a, v⟩
    · simpa [hxw] using hn
    · exact (show Noted _ v by simpa [hxw] using hn).trans (hf a v)
  · rw [bind_apply]
    rcases hxw : x w with ⟨result, v⟩
    rw [hxw] at hx
    dsimp only at hx
    subst hx
    rcases (c.send r remediates before).1 with fault | answer
    · rfl
    · rcases hj : judge answer with fault | a <;> simp [Except.bind, hj, hres]

end Sends

end Action

namespace Client

open Action World

variable (c : Client) (w : World)

/-- The goal state that an answer gives. -/
def goalStateOf (answer : Answer) : Except Fault GoalState :=
  if answer.isAccepted then (GoalState.ofXml answer.body).mapError .goalState
  else .error (.goalStateRefused answer.status answer.body)

/-- A goal state that is received has an incarnation of 32 bits. -/
theorem incarnation_le_of_goalStateOf {answer : Answer} {g : GoalState}
    (h : goalStateOf answer = .ok g) : g.incarnation ≤ Number.greatest32 := by
  rw [goalStateOf] at h
  split_ifs at h
  rcases hxml : GoalState.ofXml answer.body with error | g'
  · rw [hxml] at h
    cases h
  · rw [hxml] at h
    cases h
    exact GoalState.incarnation_le hxml

theorem logAnswer_respects {R : World → World → Prop} [IsPreorder World R]
    (hlog : ∀ level message, Respects R (log level .client message)) (done refused : String)
    (answer : Answer) : Respects R (logAnswer done refused answer) := by
  unfold logAnswer
  refine (hlog _ _).bind fun _ => ?_
  split
  · exact hlog _ _
  · exact .pure ()

theorem logAnswer_ok (done refused : String) (answer : Answer) (v : World) :
    (logAnswer done refused answer v).1 = .ok () := by
  unfold logAnswer
  cases answer.isAccepted <;> rfl

/-- An exchange that ends with a note on the answer and gives the answer. -/
theorem answer_sends (done refused : String) {r : Request} {remediates : Bool} :
    Sends c r remediates .ok (do
      let answer ← c.send r remediates
      logAnswer done refused answer
      return answer) w := by
  refine send_sends.bind (k := .ok) (fun answer => ?_) fun answer v => ?_
  · have hlog := logAnswer_respects (fun level message => log_noted level .client message)
    exact (hlog done refused answer).bind fun _ => .pure answer
  · have hok := logAnswer_ok done refused answer v
    rw [bind_apply]
    rcases hlog : logAnswer done refused answer v with ⟨result, v'⟩
    obtain rfl : result = .ok () := by simpa [hlog] using hok
    rfl

theorem receiveGoalState_respects {R : World → World → Prop} [IsPreorder World R]
    (hlog : ∀ level message, Respects R (log level .client message)) (answer : Answer) :
    Respects R (receiveGoalState answer) := by
  unfold receiveGoalState
  cases answer.isAccepted with
  | true => exact (Respects.lift _ _).bind fun g => (hlog _ _).bind fun _ => .pure g
  | false => exact .throw _

theorem receiveGoalState_result (answer : Answer) (v : World) :
    (receiveGoalState answer v).1 = goalStateOf answer := by
  rw [receiveGoalState, goalStateOf]
  cases answer.isAccepted with
  | true => cases GoalState.ofXml answer.body <;> simp [Except.mapError]
  | false => rfl

theorem fetchGoalState_sends :
    Sends c c.goalStateRequest true goalStateOf c.fetchGoalState w :=
  send_sends.bind (k := goalStateOf)
    (receiveGoalState_respects fun level message => log_noted level .client message)
    receiveGoalState_result

theorem fetchGoalState_result :
    (c.fetchGoalState w).1 = (c.send c.goalStateRequest true w).1.bind goalStateOf := by
  obtain ⟨before, hidle, -, hres⟩ := c.fetchGoalState_sends w
  rw [hres, c.send_congr c.goalStateRequest true hidle.exchange]

theorem sendHealth_sends (report : Report.Health) :
    Sends c (c.wireRequest "health" report.toXml) true .ok (c.sendHealth report) w :=
  .log_bind _ _ _ (c.answer_sends _ _ _)

theorem sendEvent_sends (event : Report.Event) (number : Int) :
    Sends c (c.wireRequest "telemetrydata" event.toXml) true .ok (c.sendEvent event number) w :=
  .log_bind _ _ _ (c.answer_sends _ _ _)

theorem publishStatus_sends {report : Report.Status} {payload : Json}
    (h : report.payload c.settings.storeVersion = .ok payload) :
    Sends c (c.statusRequest report payload) c.settings.remediatesStatus .ok
      (c.publishStatus report) w := by
  refine .log_bind _ _ _ (.of_idle (a := payload) ?_ ?_ (c.answer_sends _ _ _))
  · simp [h, Except.mapError]
  · exact Respects.lift _ _ _

end Client

/-! ## What is reported -/

theorem Report.EventKind.ofCounter_mod (n : Nat) : ofCounter (n % 4 : Nat) = ofCounter n := by
  rw [ofCounter, ofCounter, Int.natCast_emod]
  simp

/-- An event of the cycle can be built at a time that universal time covers, from readings of which
the usage figures are doubles. -/
theorem Report.Event.exists_cycle {now : Calendar.Moment} {u : Calendar.Utc}
    (hu : now.toUtc = .ok u) {kind : EventKind} (g : GoalState) (stats : Option Host.Stats)
    (sender : Sender)
    (hstats : kind = .heartBeat → ∃ cpu memory uptime,
      stats = some ⟨.real cpu, .real memory, uptime⟩) :
    ∃ event, Event.cycle kind g stats sender now = .ok event := by
  simp only [Event.cycle, stamp, Calendar.Moment.timestamp_eq, hu]
  cases kind with
  | heartBeat =>
    obtain ⟨cpu, memory, uptime, rfl⟩ := hstats rfl
    exact ⟨_, rfl⟩
  | _ => exact ⟨_, rfl⟩

namespace World

variable {w : World} (h : w.Readable)
include h

theorem Readable.payload (report : Report.Status) (storeVersion : String)
    (htime : report.time = w.now) (hnumber : report.incarnation ≤ Number.greatest32) :
    ∃ payload, report.payload storeVersion = .ok payload := by
  obtain ⟨u, hu⟩ := h.clock w.now List.mem_cons_self
  simp only [Report.Status.payload, Report.Status.document, Calendar.Moment.rfc3339_eq,
    Calendar.Moment.timestamp_eq, htime, hu, Number.write?_eq_some hnumber]
  exact ⟨_, rfl⟩

theorem Readable.startup {kind : Report.EventKind} (hkind : kind = .agentStart ∨ kind = .provision)
    (g : GoalState) (sender : Report.Event.Sender) :
    ∃ event, Report.Event.startup kind g sender w.now = .ok event := by
  obtain ⟨u, hu⟩ := h.clock w.now List.mem_cons_self
  simp only [Report.Event.startup, Report.Event.stamp, Calendar.Moment.timestamp_eq, hu]
  rcases hkind with rfl | rfl <;> exact ⟨_, rfl⟩

theorem Readable.cycle {kind : Report.EventKind} (g : GoalState) (stats : Option Host.Stats)
    (sender : Report.Event.Sender)
    (hstats : kind = .heartBeat → ∃ cpu memory uptime,
      stats = some ⟨.real cpu, .real memory, uptime⟩) :
    ∃ event, Report.Event.cycle kind g stats sender w.now = .ok event := by
  obtain ⟨u, hu⟩ := h.clock w.now List.mem_cons_self
  exact Report.Event.exists_cycle hu g stats sender hstats

end World

/-! ## Waiting -/

namespace Action

/-- A wait ends in peace unless the agent has been told to stop or is told so now. -/
theorem wait_apply (seconds : Number.Binary64) (w : World) :
    wait seconds w =
      (.ok (w.stopped || w.peacefulWaits == 0),
        { w with
          stopped := w.stopped || w.peacefulWaits == 0
          peacefulWaits := if w.stopped then w.peacefulWaits else w.peacefulWaits - 1
          trace := w.trace ++ [.waited seconds] }) := by
  simp only [wait, bind_apply, record_apply, modifyGet_apply]
  cases w.stopped with
  | true => rfl
  | false => cases w.peacefulWaits <;> rfl

theorem wait_cases (seconds : Number.Binary64) (w : World) :
    wait seconds w = (.ok true, { w with
        stopped := true, trace := w.trace ++ [.waited seconds] }) ∨
      w.stopped = false ∧ ∃ waits, w.peacefulWaits = waits + 1 ∧
        wait seconds w = (.ok false, { w with
          peacefulWaits := waits, trace := w.trace ++ [.waited seconds] }) := by
  rw [wait_apply]
  cases hs : w.stopped with
  | true => exact .inl rfl
  | false =>
    cases hw : w.peacefulWaits with
    | zero => exact .inl rfl
    | succ waits => exact .inr ⟨rfl, waits, rfl, rfl⟩

end Action

end WireAgent
