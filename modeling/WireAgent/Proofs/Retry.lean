import WireAgent.Proofs.Commands
import WireAgent.Proofs.Reachability

/-!
# The policy of sending

What `Client.send` does is decided by what is in store for the next two requests. The request is
sent once, or twice if that is allowed and the first attempt leaves the endpoint out of reach
(`Failure.IsUnreachable`). Between two attempts there is at most one remediation, for the owner of
the rule, and nothing that comes of it is seen outside. The result is what the last attempt comes to
(`send_policy`).

`send_apply_once` and `send_apply_twice` give the whole world after sending, for proofs about what
is done around it; `send_unchanged` says what sending leaves alone.
-/

namespace WireAgent

/-! ## What is in store -/

namespace World

/-- The user of a name, or the one that the agent runs as; none if nobody has the name. -/
def owner? (w : World) : Option String → Option Int
  | none | some "" => some w.effectiveUser
  | some name => (w.users.find? fun entry => entry.1 == name).map Prod.snd

end World

namespace Exchange

/-- Is the agent told to stop in an exchange, if it handles these signals? -/
def tells (e : Exchange) (signals : List Int) : Bool := e.stops || e.signal.any signals.contains

/-- The record of a signal that arrives in an exchange and is handled. -/
def records (e : Exchange) (signals : List Int) : List Deed :=
  (e.signal.toList.filter signals.contains).map fun signal =>
    .logged ⟨.info, .agent, "Received signal " ++ Number.ofInt signal ++ ", shutting down..."⟩

/-- What an exchange comes to: an answer of any status, or a fault. -/
def verdict (e : Exchange) : Except Fault Answer :=
  match e.failure with
  | none => .ok ⟨e.status, e.body⟩
  | some failure => .error (Fault.ofFailure failure)

end Exchange

/-- The endpoint is out of reach: a connection failed or took too long, but not for want of
security, of a proxy or of an address for a name. -/
def Failure.IsUnreachable (f : Failure) : Prop :=
  (f.root.kind.isTimeout = true ∨ f.root.kind.isConnection = true) ∧ f.root.kind ≠ .tls ∧
    f.root.kind ≠ .proxy ∧ ¬f.Reaches fun node => node.kind.isNameResolution

/-- An exchange in which the endpoint is out of reach. -/
def Exchange.IsUnreachable (e : Exchange) : Prop :=
  ∃ failure, e.failure = some failure ∧ failure.IsUnreachable

theorem Failure.Kind.isRequest_of_isTimeout {kind : Failure.Kind}
    (h : kind.isTimeout = true ∨ kind.isConnection = true) : kind.isRequest = true := by
  cases kind <;> simp_all [isTimeout, isConnection, isRequest]

/-- A failure of an exchange is a connectivity fault if it leaves the endpoint out of reach, and
otherwise a transport fault. -/
theorem Failure.ofFailure_cases (f : Failure) (hrequest : f.root.kind.isRequest = true) :
    (f.IsUnreachable ∧ Fault.ofFailure f = .connectivity f.root.text) ∨
      (¬f.IsUnreachable ∧ ∃ text, Fault.ofFailure f = .transport text) := by
  have hreach : f.isNameResolution = true ↔ f.Reaches fun node => node.kind.isNameResolution :=
    f.leadsTo_iff _
  rw [IsUnreachable, ← hreach, Fault.ofFailure]
  simp only [hrequest, Bool.not_true, Bool.false_eq_true, if_false]
  split_ifs with hsecure hname hkind
  · rcases hsecure with hs | hs <;> exact .inr ⟨by simp [hs], _, rfl⟩
  · exact .inr ⟨by simp [hname], _, rfl⟩
  · rw [not_or] at hsecure
    exact .inl ⟨⟨by simpa using hkind, hsecure.1, hsecure.2, hname⟩, rfl⟩
  · exact .inr ⟨fun h => hkind (by simpa using h.1), _, rfl⟩

/-- Connectivity faults are the ones that leave the endpoint out of reach. -/
theorem Fault.ofFailure_eq_connectivity_iff (f : Failure) :
    (∃ text, ofFailure f = .connectivity text) ↔ f.IsUnreachable := by
  by_cases hrequest : f.root.kind.isRequest = true
  · rcases f.ofFailure_cases hrequest with ⟨h, heq⟩ | ⟨h, text, heq⟩ <;> simp [h, heq]
  · have hnot : ¬f.IsUnreachable := fun h => hrequest (Failure.Kind.isRequest_of_isTimeout h.1)
    simp [ofFailure, hrequest, hnot]

/-- What an exchange comes to is a connectivity fault if it leaves the endpoint out of reach. -/
theorem Exchange.verdict_eq_connectivity_iff (e : Exchange) :
    (∃ text, e.verdict = .error (.connectivity text)) ↔ e.IsUnreachable := by
  rw [verdict, IsUnreachable]
  cases e.failure with
  | none => simp
  | some failure => simp [Fault.ofFailure_eq_connectivity_iff]

/-! ## One request -/

/-- The world after a request. -/
def World.requesting (w : World) (r : Request) : World :=
  { w with
    exchanges := w.exchanges.tail
    stopped := w.stopped || (w.exchange 0).tells w.signals
    trace := w.trace ++ .requested r :: (w.exchange 0).records w.signals }

theorem World.seen_requesting (w : World) (r : Request) :
    seen (w.requesting r).trace = seen w.trace ++ [.requested r] := by
  have hrecords : seen ((w.exchange 0).records w.signals) = [] :=
    seen_eq_nil fun d hd => by
      obtain ⟨signal, -, rfl⟩ := List.mem_map.mp hd
      rfl
  rw [requesting, ← List.singleton_append, seen_append, seen_append, hrecords]
  rfl

theorem World.moves_requesting (w : World) (r : Request) :
    moves (w.requesting r).trace = moves w.trace := by
  have hrecords : moves ((w.exchange 0).records w.signals) = [] :=
    moves_eq_nil fun d hd => by
      obtain ⟨signal, -, rfl⟩ := List.mem_map.mp hd
      rfl
  rw [requesting, ← List.singleton_append, moves_append, moves_append, hrecords]
  exact List.append_nil _

theorem Action.request_apply (r : Request) (w : World) :
    Action.request r w =
      (match (w.exchange 0).failure with
        | some failure => .error (.failed failure)
        | none => .ok ((w.exchange 0).status, (w.exchange 0).body), w.requesting r) := by
  have he : w.exchanges.head?.getD {} = w.exchange 0 := by
    rw [World.exchange, List.head?_eq_getElem?]
  simp only [request, bind_apply, record_apply, modifyGet_apply, he, World.requesting,
    Exchange.tells, Exchange.records]
  rcases w.exchange 0 with ⟨status, body, stops, signal, failure⟩
  cases stops <;> rcases signal with _ | signal <;> cases failure <;> simp [stop, receive]
  all_goals (by_cases hs : signal ∈ w.signals <;> simp [hs])

theorem Client.sendOnce_apply (c : Client) (r : Request) (w : World) :
    c.sendOnce r w = ((w.exchange 0).verdict, w.requesting (c.timed r)) := by
  simp only [sendOnce, Action.bind_apply, Action.outcome_apply, Action.request_apply,
    Exchange.verdict]
  cases (w.exchange 0).failure <;> rfl

/-! ## Remediation -/

theorem World.Remedial.owner? {deeds : List Deed} {w w' : World} (h : Remedial deeds w w')
    (name : Option String) : w'.owner? name = w.owner? name := by
  rw [h.unchanged]
  rfl

namespace Action

open World

/-- The commands in store decide what comes of `x`. It does no more than run commands, and `P`
relates what is in store to those that are seen. -/
def Shows {α : Type} (P : List (Except Failure CommandOutcome) → List Deed → Prop) (x : Action α) :
    Prop :=
  ∀ commands, ∃ result deeds rest, P commands deeds ∧ ∀ w, w.commands = commands →
    (x w).1 = result ∧ Remedial deeds w (x w).2 ∧ (x w).2.commands = rest ∧
      (x w).2.remediations = w.remediations

/-- The turns of an action show what is seen of it. -/
theorem Shows.of_issues {α : Type} {P : List (Except Failure CommandOutcome) → List Deed → Prop}
    {Q : α → List Turn → Prop} {x : Action α}
    (h : ∀ commands a turns, Q a turns →
      P commands ((turns.map Turn.deed).take (Turn.reach turns.length commands)))
    (hx : Issues Q x) : Shows P x := by
  intro commands
  obtain ⟨a, turns, hq, -, hx⟩ := hx commands
  refine ⟨(Turn.failure? turns.length commands).elim (.ok a) fun failure =>
    .error (.failed failure), _, commands.drop (Turn.reach turns.length commands),
    h commands a turns hq, fun w hw => ?_⟩
  obtain ⟨hres, hremedial, hrest, hm⟩ := hx w hw
  rw [hw, List.map_take] at hremedial
  rw [hw] at hrest
  exact ⟨hres, hremedial, hrest, hm⟩

end Action

namespace Firewall

variable (f : Firewall) (owner : Int)

/-- The command that looks for the rule. -/
def checking : Deed := .ran (f.elevated (f.ruleCommand "-C" owner none)) false

/-- The command that states the rules of the chain. -/
def counting : Deed := .ran (f.elevated (tableCommand ["-S", chain])) false

/-- The command that puts the rule at a position. -/
def inserting (position : Nat) : Deed :=
  .ran (f.elevated (f.ruleCommand "-I" owner (some position))) true

/-- The command that lists the chain. -/
def listed : Deed := .ran (f.elevated (tableCommand ["-L", chain, "-n", "--line-numbers"])) true

/-- What is seen when the rule is looked for and, if need be, put into the chain, and whether it is
there then. -/
inductive Ensures : Bool → List Deed → Prop
  | found : Ensures true [f.checking owner]
  | refused (position : Nat) :
      Ensures false [f.checking owner, f.counting, f.inserting owner position]
  | added (position : Nat) :
      Ensures true [f.checking owner, f.counting, f.inserting owner position, f.listed]

open Action

/-- The rule is looked for once. -/
theorem ensure_shows :
    Shows (fun commands deeds => ∃ there all, f.Ensures owner there all ∧
      deeds = all.take (Turn.reach all.length commands)) (f.ensure owner : Action Bool) := by
  refine .of_issues (fun commands there turns h => ⟨there, turns.map Turn.deed, ?_, ?_⟩)
    (f.ensure_issues owner)
  · cases h with
    | found => exact .found
    | refused => exact .refused _
    | added => exact .added _
  · rw [List.length_map]

theorem ownerOf_apply (name : Option String) (w : World) :
    ownerOf name w =
      (match w.owner? name with
        | some owner => .ok owner
        | none => .error (.unknownUser (name.getD "")), w) := by
  unfold ownerOf World.owner?
  split
  · rfl
  · rfl
  · simp only [Action.bind_apply, Action.get_apply]
    cases w.users.find? _ <;> rfl

end Firewall

/-- What is seen of one remediation for a user. It is over with the first command that has no
outcome in store. -/
inductive Remediation.Calls (owner : Int) (commands : List (Except Failure CommandOutcome)) :
    Remediation → List Deed → Prop
  | nothing : Calls owner commands .nothing []
  | external : Calls owner commands .external [.remediated owner]
  | firewall {f : Firewall} {there : Bool} {deeds : List Deed} : f.Ensures owner there deeds →
      Calls owner commands (.firewall f) (deeds.take (Turn.reach deeds.length commands))

/-- No remediation closes the session. -/
theorem Remediation.Calls.closed_not_mem {owner : Int}
    {commands : List (Except Failure CommandOutcome)} {remediation : Remediation}
    {deeds : List Deed} (h : remediation.Calls owner commands deeds) : Deed.closed ∉ deeds := by
  cases h with
  | nothing => simp
  | external => simp
  | firewall h =>
    intro hmem
    replace hmem := List.mem_of_mem_take hmem
    cases h <;>
      simp [Firewall.checking, Firewall.counting, Firewall.inserting, Firewall.listed] at hmem

theorem Remediation.run_calls (remediation : Remediation) (owner : Int) (w : World) :
    ∃ deeds, w.Remedial deeds (remediation.run owner w).2 ∧
      remediation.Calls owner w.commands deeds := by
  cases remediation with
  | nothing => exact ⟨[], .refl w, .nothing⟩
  | external =>
    refine ⟨[.remediated owner], ⟨?_, ?_, ?_⟩, .external⟩
    all_goals
      simp only [run, Action.remediate, Action.bind_apply, Action.record_apply,
        Action.modifyGet_apply]
      cases w.remediations.head?.getD (.answered true) <;>
        simp [seen, moves, Deed.isLogged, Deed.isMove]
  | firewall f =>
    obtain ⟨result, deeds, rest, ⟨there, all, hall, rfl⟩, hrun⟩ := f.ensure_shows owner w.commands
    exact ⟨_, (hrun w rfl).2.1, .firewall hall⟩

namespace Client

variable (c : Client)

/-- What is seen of a remediation of the client: nothing if nobody owns the rule, and otherwise one
remediation for the owner. -/
def Remedies (w : World) (deeds : List Deed) : Prop :=
  match w.owner? c.settings.firewallOwner with
  | none => deeds = []
  | some owner => c.remediation.Calls owner w.commands deeds

theorem Remedies.closed_not_mem {c : Client} {w : World} {deeds : List Deed}
    (h : c.Remedies w deeds) : Deed.closed ∉ deeds := by
  rw [Remedies] at h
  split at h
  · simp [h]
  · exact h.closed_not_mem

theorem runRemediation_remedies (w : World) :
    ∃ deeds, w.Remedial deeds (c.runRemediation w).2 ∧ c.Remedies w deeds := by
  simp only [runRemediation, Remedies, Action.bind_apply, Firewall.ownerOf_apply]
  cases w.owner? c.settings.firewallOwner with
  | none => exact ⟨[], .refl w, rfl⟩
  | some owner => exact c.remediation.run_calls owner w

/-- That the remediation fails, or that nobody owns the rule, ends nothing early. -/
theorem remediate_remedies (w : World) :
    ∃ deeds, (c.remediate w).1 = .ok () ∧ w.Remedial deeds (c.remediate w).2 ∧
      c.Remedies w deeds := by
  by_cases hnothing : c.remediation = .nothing
  · refine ⟨[], ?_, ?_, ?_⟩
    · simp [remediate, hnothing]
    · simpa [remediate, hnothing] using (World.Remedial.refl w).log _ _ _
    · rw [Remedies, hnothing]
      cases w.owner? c.settings.firewallOwner with
      | none => rfl
      | some owner => exact .nothing
  · have hlog := (World.Remedial.refl w).log .info .client
      "Attempting to add firewall rule for wire server access..."
    have hstore : (Action.log .info .client
      "Attempting to add firewall rule for wire server access..." w).2.commands = w.commands := rfl
    rw [remediate, if_neg hnothing, Action.bind_apply]
    rw [Action.log_apply] at hlog hstore ⊢
    generalize ({ w with trace := _ } : World) = v at hlog hstore ⊢
    obtain ⟨deeds, hr, hc⟩ := c.runRemediation_remedies v
    rw [Remedies, hlog.owner?, hstore] at hc
    have hall := hlog.trans hr
    rcases hrun : c.runRemediation v with ⟨result, u⟩
    rw [hrun] at hall
    simp only [Action.bind_apply, Action.outcome_apply, hrun]
    rcases result with fault | allowed
    · exact ⟨deeds, rfl, hall.log _ _ _, hc⟩
    · cases allowed with
      | true => exact ⟨deeds, rfl, hall, hc⟩
      | false => exact ⟨deeds, rfl, hall.log _ _ _, hc⟩

/-! ## Sending -/

/-- A request is sent a second time: that is allowed, and the first attempt leaves the endpoint out
of reach. -/
def Retries (remediates : Bool) (w : World) : Prop :=
  remediates = true ∧ (w.exchange 0).IsUnreachable

variable {c} {r : Request} {remediates : Bool} {w : World}

/-- Without a second attempt, sending is one request. -/
theorem send_apply_once (h : ¬Retries remediates w) :
    c.send r remediates w = ((w.exchange 0).verdict, w.requesting (c.timed r)) := by
  simp only [send, Action.bind_apply, Action.outcome_apply, sendOnce_apply]
  rcases hv : (w.exchange 0).verdict with fault | answer
  · cases fault with
    | connectivity text =>
      have hunreachable := (w.exchange 0).verdict_eq_connectivity_iff.mp ⟨text, hv⟩
      obtain rfl : remediates = false := by
        simpa using fun hr => h ⟨hr, hunreachable⟩
      rfl
    | _ => rfl
  · rfl

/-- With a second attempt, sending is a request, a remediation and the same request again. -/
theorem send_apply_twice (h : Retries remediates w) :
    ∃ deeds between, c.Remedies w deeds ∧ (w.requesting (c.timed r)).Remedial deeds between ∧
      c.send r remediates w = ((w.exchange 1).verdict, between.requesting (c.timed r)) := by
  obtain ⟨rfl, hunreachable⟩ := h
  obtain ⟨text, hv⟩ := (w.exchange 0).verdict_eq_connectivity_iff.mpr hunreachable
  have hwarn := (World.Remedial.refl (w.requesting (c.timed r))).log .warning .client
    ("Timeout or connection error reaching wire server: " ++ text)
  simp only [send, Action.bind_apply, Action.outcome_apply, sendOnce_apply, hv]
  rw [if_pos trivial, Action.bind_apply]
  have hstore : (Action.log .warning .client
    ("Timeout or connection error reaching wire server: " ++ text)
    (w.requesting (c.timed r))).2.commands = w.commands := rfl
  rw [Action.log_apply] at hwarn hstore ⊢
  generalize ({ w.requesting (c.timed r) with trace := _ } : World) = v at hwarn hstore ⊢
  obtain ⟨deeds, hok, hr, hc⟩ := c.remediate_remedies v
  have hall := hwarn.trans hr
  have hlast := hall.log .info .client ("Retrying " ++ r.method ++ " " ++ r.url)
  refine ⟨deeds, _, ?_, hlast, ?_⟩
  · rw [Remedies, hwarn.owner?, hstore] at hc
    exact hc
  · have hsecond : (w.requesting (c.timed r)).exchange 0 = w.exchange 1 := by
      simp [World.exchange, World.requesting, List.getElem?_tail]
    rcases hrun : c.remediate v with ⟨result, u⟩
    obtain rfl : result = .ok () := by simpa [hrun] using hok
    rw [hrun] at hlast
    simp only [Action.bind_apply, Action.log_apply, sendOnce_apply, hrun]
    rw [Action.log_apply] at hlast
    rw [hlast.exchange, hsecond]

/-- What sending comes to is decided by what is in store for requests. -/
theorem send_congr (c : Client) (r : Request) (remediates : Bool) {v w : World}
    (h : ∀ i, v.exchange i = w.exchange i) :
    (c.send r remediates v).1 = (c.send r remediates w).1 := by
  have hiff : Retries remediates v ↔ Retries remediates w := by rw [Retries, Retries, h]
  by_cases hretries : Retries remediates w
  · obtain ⟨_, _, -, -, hv⟩ := send_apply_twice (c := c) (r := r) (hiff.mpr hretries)
    obtain ⟨_, _, -, -, hw⟩ := send_apply_twice (c := c) (r := r) hretries
    rw [hv, hw, h]
  · rw [send_apply_once hretries, send_apply_once (mt hiff.mp hretries), h]

/-- What sending leaves alone. -/
theorem send_unchanged (c : Client) (r : Request) (remediates : Bool) (w : World) :
    let v := (c.send r remediates w).2
    v = { w with
      exchanges := v.exchanges, commands := v.commands, remediations := v.remediations,
      stopped := v.stopped, trace := v.trace } := by
  by_cases h : Retries remediates w
  · obtain ⟨deeds, between, -, hr, hs⟩ := send_apply_twice (c := c) (r := r) h
    rw [hs]
    dsimp only [World.requesting]
    rw [hr.unchanged]
    rfl
  · rw [send_apply_once h]
    rfl

/-- Sending records no move. -/
theorem moves_send (c : Client) (r : Request) (remediates : Bool) (w : World) :
    moves (c.send r remediates w).2.trace = moves w.trace := by
  by_cases h : Retries remediates w
  · obtain ⟨deeds, between, -, hr, hs⟩ := send_apply_twice (c := c) (r := r) h
    rw [hs, World.moves_requesting, hr.moves_eq, World.moves_requesting]
  · rw [send_apply_once h, World.moves_requesting]

/-- The policy of sending. Either the first of at most two attempts leaves the endpoint out of reach
and another one is allowed; then the same request is made again, under the timeout of the settings
as before, with one remediation for the owner of the rule between the two, or none if none is
configured or nobody owns the rule. Or the request is made once. The result is what the last attempt
comes to: an answer of any status, or a connectivity fault if its failure leaves the endpoint out of
reach, or a transport fault for any other failure of an exchange. -/
theorem send_policy (c : Client) (r : Request) (remediates : Bool) (w : World) :
    let sent := Deed.requested { r with timeout := c.settings.requestTimeout }
    let result := (c.send r remediates w).1
    let v := (c.send r remediates w).2
    ((Retries remediates w ∧ ∃ deeds, c.Remedies w deeds ∧
        seen v.trace = seen w.trace ++ sent :: deeds ++ [sent] ∧
        v.exchanges = w.exchanges.drop 2 ∧ result = (w.exchange 1).verdict) ∨
      (¬Retries remediates w ∧ seen v.trace = seen w.trace ++ [sent] ∧
        v.exchanges = w.exchanges.drop 1 ∧ result = (w.exchange 0).verdict)) ∧
    ∀ f : Failure, f.root.kind.isRequest = true →
      (f.IsUnreachable ∧ Fault.ofFailure f = .connectivity f.root.text) ∨
        (¬f.IsUnreachable ∧ ∃ text, Fault.ofFailure f = .transport text) := by
  refine ⟨?_, fun f hrequest => f.ofFailure_cases hrequest⟩
  by_cases h : Retries remediates w
  · obtain ⟨deeds, between, hc, hr, hs⟩ := send_apply_twice (c := c) (r := r) h
    refine .inl ⟨h, deeds, hc, ?_, ?_, ?_⟩
    · rw [hs, World.seen_requesting, hr.seen_eq, World.seen_requesting]
      simp [timed]
    · rw [hs, World.requesting, hr.exchanges]
      simp [World.requesting, ← List.drop_one]
    · rw [hs]
  · rw [send_apply_once h]
    exact .inr ⟨h, w.seen_requesting _, by simp [World.requesting], rfl⟩

end Client

end WireAgent
