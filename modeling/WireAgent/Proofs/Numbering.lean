import WireAgent.Proofs.Exchanges

/-!
# The numbers of the heartbeat

Whatever is called on a heartbeat, in whatever order and however the calls end, it makes attempts at
events one after another (`Heartbeat.History`). An attempt asks for readings if its kind reports
them, builds the event and sends it (`Attempt.Occurs`), and may fail at each of these. An attempt
that fails is followed by one under the same number, and one that delivers its event by one under
the next number (`Attempt.Numbered`), whatever the answer was. So the events that are delivered are
numbered without a gap.

`event_numbering` says this of all calls on a heartbeat, with any source of readings.
-/

namespace WireAgent

/-! ## Kinds in their cycle -/

namespace Report

/-- The kinds in the order in which they come up, from a number on that four divides. -/
def EventKind.cycle : List EventKind := [.agentStatus, .heartBeat, .agentStart, .provision]

theorem EventKind.getElem?_cycle (n : Nat) : cycle[n % 4]? = some (.ofCounter n) := by
  have hlt : n % 4 < 4 := Nat.mod_lt n (by decide)
  rw [← ofCounter_mod]
  generalize n % 4 = r at hlt ⊢
  match r, hlt with
  | 0, _ | 1, _ | 2, _ | 3, _ => rfl

/-- Four numbers in a row have all kinds. -/
theorem EventKind.perm_all (n : Nat) :
    ((List.range' n 4).map fun k : Nat => EventKind.ofCounter k).Perm all := by
  have hlt : n % 4 < 4 := Nat.mod_lt n (by decide)
  have hmod (k : Nat) : ofCounter (n + k : Nat) = ofCounter ((n % 4 + k) % 4 : Nat) := by
    rw [← ofCounter_mod, Nat.mod_add_mod]
  have hkinds : (List.range' n 4).map (fun k : Nat => EventKind.ofCounter k) =
      [0, 1, 2, 3].map fun k : Nat => ofCounter ((n % 4 + k) % 4 : Nat) := by
    simp only [List.map, ← hmod]
    rfl
  rw [hkinds]
  generalize n % 4 = r at hlt ⊢
  match r, hlt with
  | 0, _ | 1, _ | 2, _ | 3, _ => decide

theorem Event.cycle_kind {kind : EventKind} {g : GoalState} {stats : Option Host.Stats}
    {sender : Event.Sender} {now : Calendar.Moment} {event : Event}
    (h : Event.cycle kind g stats sender now = .ok event) : event.kind = kind := by
  rw [Event.cycle] at h
  rcases htime : stamp now with error | time
  · simp [htime, bind, Except.bind] at h
  rcases hmore : cycleParameters g stats sender kind with error | more
  · simp [htime, hmore, bind, Except.bind] at h
  · simp only [htime, hmore] at h
    cases h
    rfl

end Report

/-! ## Attempts -/

/-- Where the readings of the host come from. To ask for them may fail and may do much to the world,
but it does not put off the time at which the agent is told to stop. -/
structure Host.Source where
  sample : Action Host.Stats
  peacefulWaits_le (w : World) : (sample w).2.peacefulWaits ≤ w.peacefulWaits

/-- The machine as a source of readings. -/
def Host.Source.machine : Source where
  sample := Host.stats
  peacefulWaits_le w := Nat.le_of_eq (Host.stats_reads.noted w).idle.peacefulWaits

/-- Before an event of a kind, the source is asked for readings once if the kind reports them, and
otherwise not at all. -/
inductive Host.Source.Asked (source : Host.Source) (kind : Report.EventKind) (w : World) :
    Option (Except Fault Host.Stats) → World → Prop
  | once : kind = .heartBeat →
      Asked source kind w (some (source.sample w).1) (source.sample w).2
  | never : kind ≠ .heartBeat → Asked source kind w none w

namespace Host.Source.Asked

variable {source : Host.Source} {kind : Report.EventKind} {w v : World}
  {sample : Option (Except Fault Host.Stats)}

theorem isSome_iff (h : source.Asked kind w sample v) :
    sample.isSome = true ↔ kind = .heartBeat := by
  cases h with
  | once hkind => simp [hkind]
  | never hkind => simp [hkind]

theorem peacefulWaits_le (h : source.Asked kind w sample v) :
    v.peacefulWaits ≤ w.peacefulWaits := by
  cases h with
  | once _ => exact source.peacefulWaits_le w
  | never _ => exact Nat.le_refl _

end Host.Source.Asked

theorem Client.peacefulWaits_sendEvent (c : Client) (event : Report.Event) (number : Int)
    (w : World) : (c.sendEvent event number w).2.peacefulWaits = w.peacefulWaits := by
  obtain ⟨before, hidle, hnoted, -⟩ := c.sendEvent_sends w event number
  have hsend := congrArg World.peacefulWaits
    (c.send_unchanged (c.wireRequest "telemetrydata" event.toXml) true before)
  rw [hnoted.idle.peacefulWaits, hsend, hidle.peacefulWaits]

/-- An attempt at an event: its number, what came of asking for readings if that was done, the event
if it was built, and what the attempt came to. -/
structure Attempt where
  number : Nat
  before : World
  sample : Option (Except Fault Host.Stats)
  event : Option Report.Event
  result : Except Fault Answer
  after : World

namespace Attempt

/-- The kind of event that is attempted. -/
def kind (a : Attempt) : Report.EventKind := .ofCounter a.number

/-- Was the event delivered? Then there is an answer, of any status. -/
def isDelivered (a : Attempt) : Bool := a.result.isOk

/-- The attempts that delivered their event. -/
def delivered (attempts : List Attempt) : List Attempt := attempts.filter isDelivered

/-- The number of the attempt that follows. -/
def next (a : Attempt) : Nat := if a.isDelivered then a.number + 1 else a.number

/-- How an attempt takes place. It fails if there are no readings for an event that reports them, or
if no event can be built of what was read; otherwise it comes to what sending the event under its
number comes to. -/
inductive Occurs (c : Client) (source : Host.Source) (g : GoalState) : Attempt → Prop
  | unread {number : Nat} {before after : World} {fault : Fault} :
      source.Asked (.ofCounter number) before (some (.error fault)) after →
      Occurs c source g ⟨number, before, some (.error fault), none, .error fault, after⟩
  | unbuilt {number : Nat} {before v : World} {stats : Option Host.Stats}
      {error : Report.Event.Error} :
      source.Asked (.ofCounter number) before (stats.map .ok) v →
      Report.Event.cycle (.ofCounter number) g stats (Heartbeat.senderOf c.settings) v.now
        = .error error →
      Occurs c source g
        ⟨number, before, stats.map .ok, none, .error (.event error), (Action.now v).2⟩
  | sent {number : Nat} {before v : World} {stats : Option Host.Stats} {event : Report.Event} :
      source.Asked (.ofCounter number) before (stats.map .ok) v →
      Report.Event.cycle (.ofCounter number) g stats (Heartbeat.senderOf c.settings) v.now
        = .ok event →
      Occurs c source g ⟨number, before, stats.map .ok, some event,
        (c.sendEvent event number (Action.now v).2).1,
        (c.sendEvent event number (Action.now v).2).2⟩

/-- Attempts under the numbers that they should have, from `n` on; `m` is the number after them. -/
inductive Numbered : Nat → List Attempt → Nat → Prop
  | done {n : Nat} : Numbered n [] n
  | step {a : Attempt} {attempts : List Attempt} {m : Nat} :
      Numbered a.next attempts m → Numbered a.number (a :: attempts) m

namespace Numbered

variable {n m k : Nat} {attempts more : List Attempt}

theorem append (h : Numbered n attempts m) (h' : Numbered m more k) :
    Numbered n (attempts ++ more) k := by
  induction h with
  | done => exact h'
  | step _ ih => exact .step (ih h')

/-- The number goes up by the events that are delivered. -/
theorem eq_add (h : Numbered n attempts m) : m = n + (delivered attempts).length := by
  induction h with
  | done => rfl
  | @step a attempts m _ ih =>
    rw [ih, next, delivered, delivered, List.filter_cons]
    cases a.isDelivered with
    | true => simp; omega
    | false => simp

/-- An attempt has the number that the deliveries before it lead to. -/
theorem number_eq (h : Numbered n attempts m) {i : Nat} {a : Attempt}
    (ha : attempts[i]? = some a) : a.number = n + (delivered (attempts.take i)).length := by
  induction h generalizing i with
  | done => simp at ha
  | @step b attempts m hrest ih =>
    cases i with
    | zero =>
      obtain rfl : b = a := by simpa using ha
      rfl
    | succ i =>
      rw [List.getElem?_cons_succ] at ha
      rw [ih ha, next, delivered, delivered, List.take_succ_cons, List.filter_cons]
      cases b.isDelivered with
      | true => simp; omega
      | false => simp

/-- The deliveries are numbered without a gap. -/
theorem numbers_delivered (h : Numbered n attempts m) :
    (delivered attempts).map number = List.range' n (delivered attempts).length := by
  induction h with
  | done => rfl
  | @step a attempts m _ ih =>
    rw [next] at ih
    rw [delivered] at ih ⊢
    rw [List.filter_cons]
    cases hd : a.isDelivered with
    | true => simpa [hd, List.range'_succ] using ih
    | false => simpa [hd] using ih

theorem number_of_delivered (h : Numbered n attempts m) {i : Nat} {a : Attempt}
    (ha : (delivered attempts)[i]? = some a) : a.number = n + i := by
  have hi : i < (delivered attempts).length := (List.getElem?_eq_some_iff.mp ha).1
  have hnumber := congrArg (fun numbers => numbers[i]?) h.numbers_delivered
  simp only [List.getElem?_map, ha, Option.map_some, List.getElem?_range' hi] at hnumber
  have heq := Option.some.inj hnumber
  omega

/-- Four deliveries in a row have all kinds. -/
theorem perm_kinds (h : Numbered n attempts m) {i : Nat}
    (hi : i + 4 ≤ (delivered attempts).length) :
    ((((delivered attempts).drop i).take 4).map kind).Perm Report.EventKind.all := by
  have hnumbers : (((delivered attempts).drop i).take 4).map number = List.range' (n + i) 4 := by
    obtain ⟨rest, hrest⟩ := Nat.exists_eq_add_of_le hi
    rw [List.map_take, List.map_drop, h.numbers_delivered, hrest, Nat.add_assoc,
      ← List.range'_append_1, List.drop_left' List.length_range', ← List.range'_append_1,
      List.take_left' List.length_range']
  have hkinds : (((delivered attempts).drop i).take 4).map kind =
      (List.range' (n + i) 4).map fun k : Nat => Report.EventKind.ofCounter k := by
    rw [← hnumbers, List.map_map]
    rfl
  rw [hkinds]
  exact Report.EventKind.perm_all (n + i)

end Numbered

section

variable {c : Client} {source : Host.Source} {g : GoalState} {a : Attempt}

/-- What is sent in an attempt is an event of its kind. -/
theorem Occurs.event_kind (h : a.Occurs c source g) {event : Report.Event}
    (hevent : a.event = some event) : event.kind = a.kind := by
  cases h with
  | unread _ => simp at hevent
  | unbuilt _ _ => simp at hevent
  | sent _ hcycle =>
    obtain rfl := Option.some.inj hevent
    exact Report.Event.cycle_kind hcycle

/-- Only what was built is delivered. -/
theorem Occurs.event_of_delivered (h : a.Occurs c source g) (hd : a.isDelivered = true) :
    ∃ event, a.event = some event := by
  cases h with
  | unread _ => simp [isDelivered, Except.isOk, Except.toBool] at hd
  | unbuilt _ _ => simp [isDelivered, Except.isOk, Except.toBool] at hd
  | sent _ _ => exact ⟨_, rfl⟩

/-- Readings are asked for in the attempts whose kind reports them, and in no others. -/
theorem Occurs.isSome_sample_iff (h : a.Occurs c source g) :
    a.sample.isSome = true ↔ a.kind = .heartBeat := by
  cases h with
  | unread hasked => exact hasked.isSome_iff
  | unbuilt hasked _ => exact hasked.isSome_iff
  | sent hasked _ => exact hasked.isSome_iff

/-- An attempt does not put off the time at which the agent is told to stop. -/
theorem Occurs.peacefulWaits_le (h : a.Occurs c source g) :
    a.after.peacefulWaits ≤ a.before.peacefulWaits := by
  cases h with
  | unread hasked => exact hasked.peacefulWaits_le
  | @unbuilt _ _ v _ _ hasked _ =>
    rw [(Action.now_idle v).peacefulWaits]
    exact hasked.peacefulWaits_le
  | @sent _ _ v _ _ hasked _ =>
    rw [c.peacefulWaits_sendEvent, (Action.now_idle v).peacefulWaits]
    exact hasked.peacefulWaits_le

end

end Attempt

/-! ## Calls -/

namespace Heartbeat

open Action World

variable (c : Client) (source : Host.Source) (g : GoalState)

/-- The next event is sent in one attempt, under the number of the heartbeat. -/
theorem sendNext_occurs (number : Nat) (w : World) :
    ∃ a : Attempt, a.Occurs c source g ∧ a.number = number ∧ a.before = w ∧
      sendNext c ⟨g, number⟩ source.sample w = (a.result, a.after) := by
  have hread (stats : Option Host.Stats) {v : World}
      (hasked : source.Asked (.ofCounter number) w (stats.map .ok) v)
      (hreadings : readings ⟨g, number⟩ source.sample w = (.ok stats, v)) :
      ∃ a : Attempt, a.Occurs c source g ∧ a.number = number ∧ a.before = w ∧
        sendNext c ⟨g, number⟩ source.sample w = (a.result, a.after) := by
    rw [sendNext_apply, hreadings]
    simp only [nextKind]
    rcases hcycle : Report.Event.cycle (.ofCounter number) g stats (senderOf c.settings) v.now
      with error | event
    · exact ⟨_, .unbuilt hasked hcycle, rfl, rfl, rfl⟩
    · exact ⟨_, .sent hasked hcycle, rfl, rfl, rfl⟩
  by_cases hkind : Report.EventKind.ofCounter number = .heartBeat
  · have hasked :
        source.Asked (.ofCounter number) w (some (source.sample w).1) (source.sample w).2 :=
      .once hkind
    have hreadings := readings_apply source.sample ⟨g, number⟩ w
    rw [nextKind, if_pos hkind] at hreadings
    rcases hsample : (source.sample w).1 with fault | stats
    · rw [hsample] at hasked hreadings
      refine ⟨_, .unread hasked, rfl, rfl, ?_⟩
      rw [sendNext_apply, hreadings]
      rfl
    · rw [hsample] at hasked hreadings
      exact hread (some stats) hasked hreadings
  · have hreadings := readings_apply source.sample ⟨g, number⟩ w
    rw [nextKind, if_neg hkind] at hreadings
    exact hread none (.never hkind) hreadings

/-- A tick is one attempt. The number goes up if it delivers its event, and else stays. -/
theorem tick_occurs (number : Nat) (w : World) :
    ∃ a : Attempt, a.Occurs c source g ∧ a.number = number ∧ a.before = w ∧
      tick c source.sample ⟨g, number⟩ w = ((a.result, ⟨g, a.next⟩), a.after) := by
  obtain ⟨a, hoccurs, hnumber, hbefore, hsend⟩ := sendNext_occurs c source g number w
  refine ⟨a, hoccurs, hnumber, hbefore, ?_⟩
  rw [tick_apply, hsend, Attempt.next, Attempt.isDelivered, hnumber]
  rcases a.result with fault | answer <;> rfl

/-- The attempts of a heartbeat that is kept going, with a wait before each of them: it ends with an
attempt that fails, or when the agent is found to be told to stop. -/
inductive Beats : World → List Attempt → Except Fault Unit → World → Prop
  | told {w v : World} : wait c.settings.heartbeatInterval w = (.ok true, v) →
      Beats w [] (.ok ()) v
  | fails {w : World} {a : Attempt} {fault : Fault} :
      wait c.settings.heartbeatInterval w = (.ok false, a.before) → a.Occurs c source g →
      a.result = .error fault → Beats w [a] (.error fault) a.after
  | goesOn {w v : World} {a : Attempt} {answer : Answer} {attempts : List Attempt}
      {result : Except Fault Unit} :
      wait c.settings.heartbeatInterval w = (.ok false, a.before) → a.Occurs c source g →
      a.result = .ok answer → Beats a.after attempts result v →
      Beats w (a :: attempts) result v

/-- The bound on the number of waits is no limit, since each wait that ends in peace uses one of the
world up. -/
theorem beat_beats (waits number : Nat) (w : World) (hwaits : w.peacefulWaits < waits) :
    ∃ attempts next, let out := beat c waits source.sample ⟨g, number⟩ w
      Beats c source g w attempts out.1.1 out.2 ∧ Attempt.Numbered number attempts next ∧
        out.1.2 = ⟨g, next⟩ := by
  induction waits generalizing number w with
  | zero => omega
  | succ waits ih =>
    rw [beat, Activity.lift_bind_apply]
    rcases wait_cases c.settings.heartbeatInterval w with hwait | ⟨-, left, hleft, hwait⟩
    · rw [hwait]
      exact ⟨[], number, .told hwait, .done, rfl⟩
    · rw [hwait]
      obtain ⟨a, hoccurs, rfl, hbefore, htick⟩ := tick_occurs c source g number
        { w with peacefulWaits := left, trace := w.trace ++ [.waited c.settings.heartbeatInterval] }
      rw [← hbefore] at hwait
      dsimp only
      rw [if_neg Bool.false_ne_true, Activity.bind_apply, htick]
      rcases hresult : a.result with fault | answer
      · exact ⟨[a], a.next, .fails hwait hoccurs hresult, .step .done, rfl⟩
      · have hless : a.after.peacefulWaits < waits := by
          have hle := hoccurs.peacefulWaits_le
          rw [hbefore] at hle
          simp only at hle
          omega
        obtain ⟨attempts, next, hbeats, hnumbered, hnext⟩ := ih a.next a.after hless
        exact ⟨a :: attempts, next, .goesOn hwait hoccurs hresult hbeats, .step hnumbered, hnext⟩

/-! ## Calls in any order -/

/-- What can be called on a heartbeat. -/
inductive Op where
  | tick
  | run
  | stop
  deriving DecidableEq, Repr

/-- Does what is called. -/
def Op.perform (c : Client) (source : Action Host.Stats) : Op → Activity Heartbeat Unit
  | .tick => (fun _ => ()) <$> Heartbeat.tick c source
  | .run => Heartbeat.run c source
  | .stop => liftM Action.stop

/-- What calls come to that are made one after another, however each of them ends, and the heartbeat
and the world after them. -/
def performAll (c : Client) (source : Action Host.Stats) :
    List Op → Heartbeat → World → List (Except Fault Unit) × Heartbeat × World
  | [], h, w => ([], h, w)
  | op :: ops, h, w =>
    let out := op.perform c source h w
    let rest := performAll c source ops out.1.2 out.2
    (out.1.1 :: rest.1, rest.2)

/-- The attempts that are made in a call, and what the call comes to. -/
inductive Op.Makes : Op → World → List Attempt → Except Fault Unit → World → Prop
  | tick {a : Attempt} : a.Occurs c source g →
      Makes .tick a.before [a] (a.result.map fun _ => ()) a.after
  | run {w v u x : World} {attempts : List Attempt} {result : Except Fault Unit} :
      w.Noted v → Beats c source g v attempts result u → u.Noted x →
      Makes .run w attempts result x
  | stop {w : World} : Makes .stop w [] (.ok ()) { w with stopped := true }

/-- The attempts that are made in calls one after another, and what the calls come to. -/
inductive History : List Op → World → List Attempt → List (Except Fault Unit) → World → Prop
  | none {w : World} : History [] w [] [] w
  | call {op : Op} {ops : List Op} {w v u : World} {attempts more : List Attempt}
      {result : Except Fault Unit} {results : List (Except Fault Unit)} :
      op.Makes c source g w attempts result v → History ops v more results u →
      History (op :: ops) w (attempts ++ more) (result :: results) u

theorem Beats.occurs {c : Client} {source : Host.Source} {g : GoalState} {w v : World}
    {attempts : List Attempt} {result : Except Fault Unit}
    (h : Beats c source g w attempts result v) : ∀ a ∈ attempts, a.Occurs c source g := by
  induction h with
  | told _ => simp
  | fails _ hoccurs _ => simpa using hoccurs
  | goesOn _ hoccurs _ _ ih => simpa using ⟨hoccurs, ih⟩

theorem History.occurs {c : Client} {source : Host.Source} {g : GoalState} {ops : List Op}
    {w v : World} {attempts : List Attempt} {results : List (Except Fault Unit)}
    (h : History c source g ops w attempts results v) : ∀ a ∈ attempts, a.Occurs c source g := by
  induction h with
  | none => simp
  | call hmakes _ ih =>
    simp only [List.mem_append]
    rintro a (ha | ha)
    · cases hmakes with
      | tick hoccurs => exact List.mem_singleton.mp ha ▸ hoccurs
      | run _ hbeats _ => exact hbeats.occurs a ha
      | stop => simp at ha
    · exact ih a ha

/-- A call makes attempts under the numbers that they should have. -/
theorem perform_makes (op : Op) (number : Nat) (w : World) :
    ∃ attempts next, let out := op.perform c source.sample ⟨g, number⟩ w
      op.Makes c source g w attempts out.1.1 out.2 ∧ Attempt.Numbered number attempts next ∧
        out.1.2 = ⟨g, next⟩ := by
  cases op with
  | tick =>
    obtain ⟨a, hoccurs, rfl, rfl, htick⟩ := tick_occurs c source g number w
    refine ⟨[a], a.next, ?_⟩
    have hout : Op.tick.perform c source.sample ⟨g, a.number⟩ a.before =
        ((a.result.map fun _ => (), ⟨g, a.next⟩), a.after) := by
      rw [Op.perform, Activity.map_apply, htick]
      rcases a.result with fault | answer <;> rfl
    rw [hout]
    exact ⟨.tick hoccurs, .step .done, rfl⟩
  | run =>
    simp only [Op.perform, run_apply]
    have hstart := log_noted .info .heartbeat ("Starting continuous heartbeat loop every "
      ++ c.settings.heartbeatInterval.text ++ "s (send SIGINT/SIGTERM to stop)...") w
    generalize (log .info .heartbeat _ w).2 = v at hstart ⊢
    have hless : v.peacefulWaits < w.peacefulWaits + 1 := by
      rw [hstart.idle.peacefulWaits]
      omega
    obtain ⟨attempts, next, hbeats, hnumbered, hnext⟩ :=
      beat_beats c source g (w.peacefulWaits + 1) number v hless
    refine ⟨attempts, next, ?_⟩
    rcases hout : beat c (w.peacefulWaits + 1) source.sample ⟨g, number⟩ v with
      ⟨⟨fault | _, h⟩, u⟩
    · rw [hout] at hbeats hnext
      exact ⟨.run hstart hbeats (refl_of Noted u), hnumbered, hnext⟩
    · rw [hout] at hbeats hnext
      exact ⟨.run hstart hbeats (log_noted .info .heartbeat _ u), hnumbered, hnext⟩
  | stop => exact ⟨[], number, .stop, .done, rfl⟩

theorem performAll_history (ops : List Op) (number : Nat) (w : World) :
    ∃ attempts next, let out := performAll c source.sample ops ⟨g, number⟩ w
      History c source g ops w attempts out.1 out.2.2 ∧ Attempt.Numbered number attempts next ∧
        out.2.1 = ⟨g, next⟩ := by
  induction ops generalizing number w with
  | nil => exact ⟨[], number, .none, .done, rfl⟩
  | cons op ops ih =>
    obtain ⟨attempts, next, hmakes, hnumbered, hnext⟩ := perform_makes c source g op number w
    obtain ⟨more, last, hhistory, hmore, hlast⟩ := ih next (op.perform c source.sample _ w).2
    rw [← hnext] at hhistory hlast
    exact ⟨attempts ++ more, last, .call hmakes hhistory, hnumbered.append hmore, hlast⟩

open Attempt in
/-- Calls on a fresh heartbeat in any order, each made however the ones before it ended. The number
of the next event is one more than the number of events delivered so far, and so is the number of
each attempt at the time when it is made; an attempt that fails, in asking for readings, in building
the event or in sending it, is thus followed by one under the same number and for the same kind. The
event delivered as the `k`-th was sent under the number `k` and is of the kind that the cycle has at
the remainder of `k` by four, so that four events delivered in a row have all kinds. Readings are
asked for once in an attempt at an event that reports them, and in no other attempt. -/
theorem event_numbering (ops : List Op) (w : World) :
    let out := performAll c source.sample ops ⟨g, 1⟩ w
    ∃ attempts, History c source g ops w attempts out.1 out.2.2 ∧
      out.2.1 = ⟨g, 1 + (delivered attempts).length⟩ ∧
      (∀ i a, attempts[i]? = some a → a.number = 1 + (delivered (attempts.take i)).length) ∧
      (∀ i a, (delivered attempts)[i]? = some a → a.number = i + 1 ∧
        ∃ event, a.event = some event ∧
          Report.EventKind.cycle[(i + 1) % 4]? = some event.kind) ∧
      (∀ i, i + 4 ≤ (delivered attempts).length →
        ((((delivered attempts).drop i).take 4).map kind).Perm Report.EventKind.all) ∧
      ∀ a ∈ attempts, a.Occurs c source g ∧
        (∀ event, a.event = some event → event.kind = a.kind) ∧
        (a.sample.isSome = true ↔ a.kind = .heartBeat) := by
  intro out
  obtain ⟨attempts, next, hhistory, hnumbered, hnext⟩ := performAll_history c source g ops 1 w
  have hoccurs := hhistory.occurs
  refine ⟨attempts, hhistory, ?_, fun i a => hnumbered.number_eq, fun i a ha => ?_,
    fun i => hnumbered.perm_kinds, fun a ha => ?_⟩
  · rw [← hnumbered.eq_add]
    exact hnext
  · obtain ⟨hmem, hdelivered⟩ := List.mem_filter.mp (List.mem_of_getElem? ha)
    have hnumber : a.number = i + 1 := by
      rw [hnumbered.number_of_delivered ha, Nat.add_comm]
    obtain ⟨event, hevent⟩ := (hoccurs a hmem).event_of_delivered hdelivered
    refine ⟨hnumber, event, hevent, ?_⟩
    rw [(hoccurs a hmem).event_kind hevent, Attempt.kind, hnumber,
      Report.EventKind.getElem?_cycle]
  · exact ⟨hoccurs a ha, fun event => (hoccurs a ha).event_kind,
      (hoccurs a ha).isSome_sample_iff⟩

end Heartbeat

end WireAgent
