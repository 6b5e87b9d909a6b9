import WireAgent.Proofs.GoalStates
import WireAgent.Proofs.Invocations

/-!
# Goal states that are refused

What is no goal state is refused with a fault of the protocol, which ends the program in an orderly
way, with one exception: an incarnation of more digits than are converted (`IsOverlong`).
-/

namespace WireAgent

/-- Does it give something, or else a fault of the protocol? -/
def IsOrderly {α : Type} (result : Except Fault α) : Prop :=
  ∀ fault, result = .error fault → fault.isProtocol = true

namespace GoalState

/-- Does a document have an incarnation of more digits than are converted? -/
def IsOverlong (text : String) : Prop :=
  ∃ root cs, Xml.parse? text.toList = some root ∧ root.textAt? incarnationPath = some cs ∧
    Number.IsDigits (Text.trim cs) ∧ Number.maxDigits < (Text.trim cs).length

section

variable {root : Xml.Node} {cs : List Char} (hrequired : required root incarnationPath = .ok cs)
include hrequired

theorem ofRoot_of_readIncarnation_error {e : Error} (hread : readIncarnation cs = .error e) :
    ofRoot root = .error e := by
  simp only [ofRoot, hrequired, hread, bind, Except.bind]

/-- After the incarnation has been read, only texts can be missing. -/
theorem ofRoot_of_readIncarnation {n : Nat} (hread : readIncarnation cs = .ok n) (digits : Nat) :
    ofRoot root ≠ .error (.longIncarnation digits) := by
  rcases required_cases root containerPath with hcontainer | ⟨c, -, -, hcontainer⟩
  · simp [ofRoot, hrequired, hread, hcontainer, bind, Except.bind]
  rcases required_cases root instancePath with hinstance | ⟨i, -, -, hinstance⟩
  · simp [ofRoot, hrequired, hread, hcontainer, hinstance, bind, Except.bind]
  · simp [ofRoot, hrequired, hread, hcontainer, hinstance, bind, Except.bind, pure, Except.pure]

end

/-- The one error that is no fault of the protocol comes of too many digits. -/
theorem longIncarnation_iff {text : String} :
    (∃ n, ofXml text = .error (.longIncarnation n)) ↔ IsOverlong text := by
  constructor
  · rintro ⟨n, hn⟩
    unfold ofXml at hn
    rcases hroot : Xml.parse? text.toList with _ | root
    · rw [hroot] at hn
      cases hn
    rw [hroot] at hn
    dsimp only at hn
    rcases required_cases root incarnationPath with hmissing | ⟨cs, hpath, hne, hrequired⟩
    · rw [ofRoot, hmissing] at hn
      cases hn
    · have hread := readIncarnation_eq hne
      split_ifs at hread with hdigits hlong hle
      · exact ⟨root, cs, hroot, hpath, hdigits, hlong⟩
      · exact absurd hn (ofRoot_of_readIncarnation hrequired hread n)
      · rw [ofRoot_of_readIncarnation_error hrequired hread] at hn
        cases hn
      · rw [ofRoot_of_readIncarnation_error hrequired hread] at hn
        cases hn
  · rintro ⟨root, cs, hroot, hpath, hdigits, hlong⟩
    have hne : Text.trim cs ≠ [] := by
      intro hnil
      simp [hnil] at hlong
    have hread := readIncarnation_eq hne
    rw [if_pos hdigits, if_pos hlong] at hread
    refine ⟨(Text.trim cs).length, ?_⟩
    rw [ofXml, hroot]
    exact ofRoot_of_readIncarnation_error (required_of_textAt? hpath hne) hread

theorem isProtocol_iff {e : Error} :
    (Fault.goalState e).isProtocol = true ↔ ¬∃ n, e = .longIncarnation n := by
  cases e <;> simp [Fault.isProtocol]

theorem isOrderly_ofXml (text : String) :
    IsOrderly ((ofXml text).mapError .goalState) ↔ ¬IsOverlong text := by
  rw [← longIncarnation_iff]
  rcases ofXml text with e | g
  · simp [IsOrderly, Except.mapError, isProtocol_iff]
  · simp [IsOrderly, Except.mapError]

end GoalState

/-! ## Answers -/

/-- Is it an answer that accepts the request with an incarnation that is too long? -/
def Answer.IsOverlong (answer : Answer) : Prop :=
  answer.isAccepted = true ∧ GoalState.IsOverlong answer.body

namespace Client

theorem isOrderly_goalStateOf (answer : Answer) :
    IsOrderly (goalStateOf answer) ↔ ¬answer.IsOverlong := by
  unfold goalStateOf Answer.IsOverlong
  split_ifs with haccepted
  · simp [GoalState.isOrderly_ofXml, haccepted]
  · simp [IsOrderly, Fault.isProtocol, haccepted]

/-- An answer decides what fetching the goal state comes to. -/
theorem fetchGoalState_of_send {c : Client} {w : World} {answer : Answer}
    (h : (c.send c.goalStateRequest true w).1 = .ok answer) :
    (c.fetchGoalState w).1 = goalStateOf answer := by
  rw [c.fetchGoalState_result, h]
  rfl

end Client

namespace Agent

/-- Only a goal state takes a fresh agent on. -/
theorem fetchGoalState_of_send {c : Client} {w : World} {answer : Answer}
    (h : (c.send c.goalStateRequest true w).1 = .ok answer) :
    (fetchGoalState c {} w).1 =
      match Client.goalStateOf answer with
      | .ok g => (.ok g, { stage := .goalStateFetched, goalState := some g })
      | .error fault => (.error fault, {}) := by
  have hlog := Action.log_noted .info .agent "Fetching goal state" w
  rw [fetchGoalState_apply w rfl]
  generalize (Action.log .info .agent "Fetching goal state" w).2 = v at hlog ⊢
  rw [← c.send_congr _ _ hlog.idle.exchange] at h
  rw [← Client.fetchGoalState_of_send h]
  rcases c.fetchGoalState v with ⟨fault | g, u⟩ <;> rfl

/-- A run ends where the goal state is refused. -/
theorem run_of_refused {c : Client} {w : World} {answer : Answer}
    (h : (c.send c.goalStateRequest true w).1 = .ok answer) {fault : Fault}
    (hrefused : Client.goalStateOf answer = .error fault) :
    (run c {} w).1 = (.error fault, {}) := by
  have hlog := Action.log_noted .info .agent ("Starting " ++ c.settings.versionString) w
  rw [run_apply]
  generalize (Action.log .info .agent ("Starting " ++ c.settings.versionString) w).2 = v at hlog ⊢
  rw [← c.send_congr _ _ hlog.idle.exchange] at h
  have hfetch := fetchGoalState_of_send h
  rw [hrefused] at hfetch
  dsimp only at hfetch ⊢
  rw [work, Activity.bind_apply, bootstrap, Activity.bind_apply]
  rcases hout : fetchGoalState c {} v with ⟨out, u⟩
  rw [hout] at hfetch
  dsimp only at hfetch
  rw [hfetch]

end Agent

/-! ## The program -/

namespace FileTree

theorem contains_of_append {files : FileTree} {path : FilePath} {content : ByteArray}
    (h : files.append path content = .error .nullCharacter) :
    path.toString.contains '\x00' = true := by
  unfold append at h
  rcases hfound : files.resolve path with e | ⟨names, entry⟩
  · rw [hfound] at h
    have he : (.error e : Except FileError FileTree) = .error .nullCharacter := h
    cases he
    exact contains_of_resolve hfound
  · rw [hfound] at h
    rcases entry with _ | ⟨content⟩ | _ <;> cases h

end FileTree

namespace Program

theorem appendLog_apply (path : FilePath) (text : String) (w : World) :
    ∃ result files, appendLog path text w = (.ok result, { w with files := files }) ∧
      (result = .error .nullCharacter → path.toString.contains '\x00' = true) := by
  rw [appendLog, Action.modifyGet_apply]
  rcases happend : w.files.append path text.toUTF8 with e | files
  · refine ⟨.error e, w.files, rfl, fun he => ?_⟩
    cases he
    exact FileTree.contains_of_append happend
  · exact ⟨.ok (), files, rfl, nofun⟩

theorem print_apply (text : String) (c : Console) (w : World) :
    print text c w = ((.ok (), { c with output := c.output ++ text }), w) :=
  rfl

/-- Showing records changes files at most. -/
theorem showRecords_apply (deeds : List Deed) (c : Console) (w : World) :
    ∃ c' files, showRecords deeds c w = ((.ok (), c'), { w with files := files }) := by
  rw [showRecords, Activity.bind_apply, Activity.current_apply]
  dsimp only
  rcases c.log with _ | ⟨level, toConsole, file⟩
  · exact ⟨c, w.files, rfl⟩
  dsimp only
  cases file with
  | none => cases toConsole <;> exact ⟨_, w.files, rfl⟩
  | some path =>
    obtain ⟨result, files, happend, -⟩ := appendLog_apply path (logText level deeds) w
    cases toConsole with
    | true =>
      refine ⟨{ c with output := c.output ++ logText level deeds }, files, ?_⟩
      simp [print_apply, happend]
    | false =>
      refine ⟨c, files, ?_⟩
      simp [happend]

/-- An attempt shows the records of what it does, and gives what comes of it. -/
theorem exists_attempt {α : Type} (action : Action α) (c : Console) (w : World) :
    ∃ c' files, attempt action c w =
      ((.ok (action w).1, c'), { (action w).2 with files := files }) := by
  obtain ⟨c', files, hshow⟩ :=
    showRecords_apply ((action w).2.trace.drop w.trace.length) c (action w).2
  refine ⟨c', files, ?_⟩
  rw [attempt, Activity.lift_bind_apply, Action.get_apply]
  dsimp only
  rw [Activity.lift_bind_apply, Action.outcome_apply]
  dsimp only
  rw [Activity.lift_bind_apply, Action.get_apply]
  dsimp only
  rw [Activity.bind_apply, hshow]
  rfl

theorem exists_shown {α : Type} (action : Action α) (c : Console) (w : World) :
    ∃ c' files, shown action c w = (((action w).1, c'), { (action w).2 with files := files }) := by
  obtain ⟨c', files, hattempt⟩ := exists_attempt action c w
  refine ⟨c', files, ?_⟩
  rw [shown, Activity.bind_apply, hattempt]
  dsimp only
  rw [Activity.lift_apply, Action.lift_apply]
  cases (action w).1 <;> rfl

/-- The log can be set up if the path of its file has no null character. -/
theorem setUpLog_apply (level : LogLevel) {file : Option String} (toConsole : Bool) (c : Console)
    {w : World} (h : ∀ name, file = some name → name ≠ "" →
      (w.files.relative (w.files.absolute (.ofString name))).toString.contains '\x00' = false) :
    ∃ c' files, setUpLog level file toConsole c w = ((.ok (), c'), { w with files := files }) := by
  unfold setUpLog
  split
  · exact ⟨_, w.files, rfl⟩
  · exact ⟨_, w.files, rfl⟩
  · next name hname =>
    obtain ⟨result, files, happend, hnull⟩ :=
      appendLog_apply (w.files.relative (w.files.absolute (.ofString name))) "" w
    rw [h name rfl hname] at hnull
    rw [Activity.lift_bind_apply, Action.get_apply]
    dsimp only
    rw [Activity.lift_bind_apply, happend]
    rcases result with e | _
    · cases e with
      | nullCharacter => exact absurd (hnull rfl) Bool.false_ne_true
      | _ => exact ⟨_, files, rfl⟩
    · exact ⟨_, files, rfl⟩

/-- The client of the agent under some settings. -/
abbrev clientOf (settings : Settings) : Client := ⟨settings, .firewall (.ofSettings settings)⟩

/-- The agent ends the program where the goal state is refused: with an exit if the fault is one of
the protocol. -/
theorem runAgent_of_refused {settings : Settings} {w : World} {answer : Answer}
    (h : ((clientOf settings).send (clientOf settings).goalStateRequest true w).1 = .ok answer)
    {fault : Fault} (hrefused : Client.goalStateOf answer = .error fault) (c : Console) :
    (runAgent settings c w).1.1 = if fault.isProtocol then .ok ⟨1, false⟩ else .error fault := by
  obtain ⟨c₁, files₁, hsignals⟩ := exists_shown Agent.installSignals c w
  have hok : (Agent.installSignals w).1 = .ok () := rfl
  have hexchange (i : Nat) : (Agent.installSignals w).2.exchange i = w.exchange i := rfl
  rw [runAgent, Activity.bind_apply, hsignals, hok]
  dsimp only
  generalize hv : { (Agent.installSignals w).2 with files := files₁ } = v
  have hvexchange (i : Nat) : v.exchange i = w.exchange i := by
    rw [← hv]
    exact hexchange i
  rw [← (clientOf settings).send_congr _ _ hvexchange] at h
  have hrun := Agent.run_of_refused h hrefused
  obtain ⟨c₂, files₂, hattempt⟩ :=
    exists_attempt (Activity.alone {} (Agent.run (clientOf settings))) c₁ v
  have halone : (Activity.alone {} (Agent.run (clientOf settings)) v).1 = .error fault :=
    congrArg Prod.fst hrun
  rw [halone] at hattempt
  rw [Activity.bind_apply, hattempt]
  dsimp only
  cases hprotocol : fault.isProtocol with
  | true =>
    obtain ⟨c₃, files₃, hlog⟩ := exists_shown
      (Action.log .error .agent ("Fatal error: " ++ fault.message)) c₂
      { (Activity.alone {} (Agent.run (clientOf settings)) v).2 with files := files₂ }
    rw [if_pos rfl, if_pos rfl, Activity.bind_apply, hlog]
    rfl
  | false => rfl

/-- With some arguments, in an environment and on a machine, the program comes to run the agent. -/
structure Starts (arguments : List String) (environment : List (String × String))
    (settings : Settings) (w : World) : Prop where
  asked : ∃ i config, CommandLine.read arguments = .ok i ∧
    i.command ≠ some .showConfiguration ∧ i.command ≠ some .configureFirewall ∧
    Config.loadResult w.files (.ofString (configName i settings)) = .ok config
  valid : Settings.read environment [] = .ok settings
  log : ∀ name, settings.logFile = some name → name ≠ "" →
    (w.files.relative (w.files.absolute (.ofString name))).toString.contains '\x00' = false

/-- The program comes to run the agent with nothing taken of what is in store for requests. -/
theorem Starts.run_eq {arguments : List String} {environment : List (String × String)}
    {settings : Settings} {w : World} (h : Starts arguments environment settings w) :
    ∃ c v, (∀ i, v.exchange i = w.exchange i) ∧
      run arguments environment {} w = runAgent settings c v := by
  obtain ⟨i, config, hread, hlist, hfirewall, hload⟩ := h.asked
  obtain ⟨u, hnoted, hrun⟩ := run_of_read hread h.valid w
  have hlog := h.log
  have hfiles : u.files = w.files := by rw [hnoted.unchanged]
  rw [← hfiles] at hlog
  obtain ⟨c, files, hset⟩ := setUpLog_apply
    (i.level.getD (if ((config.get? "Logs.Verbose").map Config.Value.holds).getD false
      then .debug else .info))
    (((config.get? "Logs.Console").map Config.Value.holds).getD false) {} hlog
  refine ⟨c, { u with files := files }, fun k => ?_, ?_⟩
  · exact hnoted.idle.exchange k
  · rw [hrun, hload, goOn, execute]
    dsimp only
    rw [if_neg hlist, Activity.bind_apply, hset]
    dsimp only
    rw [if_neg hfirewall]

/-- Where the goal state is refused, the program ends with a failure, or the fault escapes. -/
theorem run_of_refused {arguments : List String} {environment : List (String × String)}
    {settings : Settings} {w : World} (hstarts : Starts arguments environment settings w)
    {answer : Answer}
    (h : ((clientOf settings).send (clientOf settings).goalStateRequest true w).1 = .ok answer)
    {fault : Fault} (hrefused : Client.goalStateOf answer = .error fault) :
    (run arguments environment {} w).1.1 =
      if fault.isProtocol then .ok ⟨1, false⟩ else .error fault := by
  obtain ⟨c, v, hexchange, hrun⟩ := hstarts.run_eq
  rw [← (clientOf settings).send_congr _ _ hexchange] at h
  rw [hrun]
  exact runAgent_of_refused h hrefused c

end Program

/-- A text is a goal state or is refused with a fault of the protocol, just unless its incarnation
is too long. An answer accordingly gives a goal state or a fault of the protocol; if it gives none,
it leaves a fresh agent as it is, and the program ends with a failure unless the fault escapes. -/
theorem refusals_orderly (text : String) (c : Client) (w : World) (answer : Answer)
    (arguments : List String) (environment : List (String × String)) (settings : Settings) :
    (IsOrderly ((GoalState.ofXml text).mapError .goalState) ↔ ¬GoalState.IsOverlong text) ∧
    ((c.send c.goalStateRequest true w).1 = .ok answer →
      (IsOrderly (c.fetchGoalState w).1 ↔ ¬answer.IsOverlong) ∧
      ((∃ g, (Agent.fetchGoalState c {} w).1 =
          (.ok g, { stage := .goalStateFetched, goalState := some g })) ∨
        ∃ fault, (Agent.fetchGoalState c {} w).1 = (.error fault, {}) ∧
          (fault.isProtocol = true ↔ ¬answer.IsOverlong))) ∧
    (Program.Starts arguments environment settings w →
      ((Program.clientOf settings).send (Program.clientOf settings).goalStateRequest true w).1 =
        .ok answer →
      ∀ fault, Client.goalStateOf answer = .error fault →
        (¬answer.IsOverlong →
          (Program.run arguments environment {} w).1.1 = .ok ⟨1, false⟩) ∧
        (answer.IsOverlong →
          (Program.run arguments environment {} w).1.1 = .error fault)) := by
  have hfault {fault : Fault} (h : Client.goalStateOf answer = .error fault) :
      fault.isProtocol = true ↔ ¬answer.IsOverlong := by
    rw [← Client.isOrderly_goalStateOf, h]
    exact ⟨fun hprotocol _ heq => Except.error.inj heq ▸ hprotocol, fun horderly => horderly _ rfl⟩
  refine ⟨GoalState.isOrderly_ofXml text, fun hsend => ⟨?_, ?_⟩, ?_⟩
  · rw [Client.fetchGoalState_of_send hsend]
    exact Client.isOrderly_goalStateOf answer
  · rw [Agent.fetchGoalState_of_send hsend]
    rcases hgives : Client.goalStateOf answer with fault | g
    · exact .inr ⟨fault, rfl, hfault hgives⟩
    · exact .inl ⟨g, rfl⟩
  · intro hstarts hsend fault hrefused
    have hrun := Program.run_of_refused hstarts hsend hrefused
    refine ⟨fun hshort => ?_, fun hlong => ?_⟩
    · rw [hrun, if_pos ((hfault hrefused).mpr hshort)]
    · rw [hrun, if_neg fun hprotocol => (hfault hrefused).mp hprotocol hlong]

/-- A machine with an empty file, for which an answer is in store. -/
def serving (body : String) : World :=
  { Program.withFile ⟨#[]⟩ with exchanges := [{ body := body }] }

theorem serving_send (settings : Settings) (body : String) :
    ((Program.clientOf settings).send (Program.clientOf settings).goalStateRequest true
      (serving body)).1 = .ok ⟨200, body⟩ :=
  rfl

theorem serving_starts (body : String) :
    Program.Starts ["--conf", "w"] [("GUEST_AGENT_LOG_FILE", "")] { logFile := some "" }
      (serving body) where
  asked := by
    refine ⟨⟨none, some "w", none⟩, Config.valuesIn [], by decide +kernel, nofun, nofun, ?_⟩
    have hcontent : fileText? ⟨#[]⟩ = some [] := by decide
    have hshort : ¬Config.IsLongText [] := by decide
    exact (Program.loadResult_withFile ⟨#[]⟩).trans (Config.ofContent_eq hcontent hshort)
  valid := by decide
  log name hname hne := absurd (Option.some.inj hname).symm hne

/-- A document without incarnation is refused, and the program ends with a failure. -/
theorem refusals_orderly_missing :
    Program.Starts ["--conf", "w"] [("GUEST_AGENT_LOG_FILE", "")] { logFile := some "" }
        (serving "<GoalState/>") ∧
      ((Program.clientOf { logFile := some "" }).send
        (Program.clientOf { logFile := some "" }).goalStateRequest true
        (serving "<GoalState/>")).1 = .ok ⟨200, "<GoalState/>"⟩ ∧
      Client.goalStateOf ⟨200, "<GoalState/>"⟩ =
        .error (.goalState (.missing GoalState.incarnationPath)) ∧
      ¬Answer.IsOverlong ⟨200, "<GoalState/>"⟩ ∧
      (Program.run ["--conf", "w"] [("GUEST_AGENT_LOG_FILE", "")] {}
        (serving "<GoalState/>")).1.1 = .ok ⟨1, false⟩ := by
  have hstarts := serving_starts "<GoalState/>"
  have hsend := serving_send { logFile := some "" } "<GoalState/>"
  have hrefused : Client.goalStateOf ⟨200, "<GoalState/>"⟩ =
      .error (.goalState (.missing GoalState.incarnationPath)) := by
    decide
  have hshort : ¬Answer.IsOverlong ⟨200, "<GoalState/>"⟩ := by
    rw [← Client.isOrderly_goalStateOf, hrefused]
    rintro fault hfault
    cases hfault
    rfl
  have horderly := refusals_orderly "<GoalState/>" (Program.clientOf { logFile := some "" })
    (serving "<GoalState/>") ⟨200, "<GoalState/>"⟩ ["--conf", "w"] [("GUEST_AGENT_LOG_FILE", "")]
    { logFile := some "" }
  exact ⟨hstarts, hsend, hrefused, hshort, (horderly.2.2 hstarts hsend _ hrefused).1 hshort⟩

/-- A document with 4301 digits for its incarnation. -/
def overlongDocument : String :=
  String.ofList (GoalState.Texts.layOut ⟨[], List.replicate 4301 '1', ['c'], ['i']⟩
    fun _ => ⟨[], nofun⟩)

theorem isOverlong_overlongDocument : GoalState.IsOverlong overlongDocument := by
  have hdigit : Text.isAsciiDigit '1' = true := rfl
  have hdigits : Number.IsDigits (List.replicate 4301 '1') := by
    intro c hc
    rw [List.eq_of_mem_replicate hc]
    exact hdigit
  have htrim : Text.trim (List.replicate 4301 '1') = List.replicate 4301 '1' :=
    Text.trim_eq_self fun c hc => (GoalState.isLegal_of_isAsciiDigit (hdigits c hc)).2
  have hlegal : ∀ text ∈ [[], List.replicate 4301 '1', ['c'], ['i']],
      ∀ c ∈ text, Xml.isLegal c = true := by
    simp only [List.forall_mem_cons]
    exact ⟨nofun, fun c hc => (GoalState.isLegal_of_isAsciiDigit (hdigits c hc)).1,
      ⟨by decide, nofun⟩, ⟨by decide, nofun⟩, nofun⟩
  obtain ⟨root, hread, -, hincarnation, -⟩ := GoalState.parse?_layOut
    (t := ⟨[], List.replicate 4301 '1', ['c'], ['i']⟩) hlegal fun _ => ⟨[], nofun⟩
  rw [← String.toList_ofList (l := GoalState.Texts.layOut _ _)] at hread
  rw [List.nil_append, List.append_nil] at hincarnation
  refine ⟨root, _, hread, hincarnation, ?_⟩
  rw [htrim, List.length_replicate]
  exact ⟨hdigits, by decide⟩

/-- The fault of a document with too many digits is none of the protocol, and escapes. -/
theorem overlong_escapes :
    ∃ n, GoalState.ofXml overlongDocument = .error (.longIncarnation n) ∧
      (Fault.goalState (.longIncarnation n)).isProtocol = false ∧
      (Program.run ["--conf", "w"] [("GUEST_AGENT_LOG_FILE", "")] {}
        (serving overlongDocument)).1.1 =
        .error (.goalState (.longIncarnation n)) := by
  obtain ⟨n, hn⟩ := GoalState.longIncarnation_iff.mpr isOverlong_overlongDocument
  have hrefused : Client.goalStateOf ⟨200, overlongDocument⟩ =
      .error (.goalState (.longIncarnation n)) := by
    rw [Client.goalStateOf, hn]
    rfl
  refine ⟨n, hn, rfl, ?_⟩
  rw [Program.run_of_refused (serving_starts _) (serving_send _ _) hrefused]
  rfl

end WireAgent
