import WireAgent.Proofs.Exchanges
import WireAgent.Proofs.Overflow

/-!
# The figures of the host

How busy the host is, is read from two files and from the load. A figure that cannot be read counts
as zero, but for three defects that end the reading early (`Host.defect?`): the file of the memory
is not UTF-8, the share of memory that is available is too large for a double, and the machine has
been up for an infinite time. `Host.stats_result` says what comes of reading in all cases, and
`Heartbeat.tick_of_figures` what becomes of a heartbeat.
-/

namespace WireAgent

namespace Number.Binary64

/-- A quotient is too large for a finite double just from the bound on. -/
theorem quotient?_eq (a : Int) {b : Int} (hb : b ≠ 0) :
    quotient? a b =
      if overflowBound * b.natAbs ≤ a.natAbs then none
      else some (nearest (decide (a < 0) != decide (b < 0)) a.natAbs b.natAbs) := by
  have hinfinite (t : Bool) :
      nearest (decide (a < 0) != decide (b < 0)) a.natAbs b.natAbs = .infinite t ↔
        (decide (a < 0) != decide (b < 0)) = t ∧ overflowBound * b.natAbs ≤ a.natAbs :=
    nearest_eq_infinite_iff (Int.natAbs_ne_zero.mpr hb)
  unfold quotient?
  split_ifs with hlarge
  · rw [(hinfinite _).mpr ⟨rfl, hlarge⟩]
  · split
    · next t ht => exact absurd ((hinfinite t).mp ht).2 hlarge
    · rfl

end Number.Binary64

namespace Host

open Action World Number

/-! ## Files -/

/-- The content of a file; none if there is no file, or a directory in its place. -/
def contentOf? : Option FileEntry → Option ByteArray
  | some (.file content) => some content
  | _ => none

/-- The text of a file; none if there is no content or it is not UTF-8. -/
def textOf? (file : Option FileEntry) : Option (List Char) := (contentOf? file).bind fileText?

theorem textOf?_ofList (text : List Char) :
    textOf? (some (.file (String.ofList text).toUTF8)) = some (Text.unifyBreaks text) := by
  have hdecode : String.fromUTF8? (String.ofList text).toUTF8 = some (String.ofList text) :=
    dif_pos (String.ofList text).isValidUTF8
  rw [textOf?, contentOf?, Option.bind_some, fileText?, hdecode, Option.map_some,
    String.toList_ofList]

/-- Does a file have a content that is not UTF-8? -/
def IsGarbled (file : Option FileEntry) : Prop :=
  ∃ content ∈ contentOf? file, fileText? content = none

instance (file : Option FileEntry) : Decidable (IsGarbled file) :=
  inferInstanceAs (Decidable (∃ _ ∈ contentOf? file, _))

theorem not_isGarbled {file : Option FileEntry} {text : List Char} (h : textOf? file = some text) :
    ¬IsGarbled file := by
  rintro ⟨content, hcontent, hnone⟩
  rw [textOf?, Option.mem_def.mp hcontent, Option.bind_some, hnone] at h
  cases h

/-! ## Memory -/

/-- The integer on a line, if there is one. -/
def figure? (line : List Char) : Option Int := (figureOf line).toOption

/-- Does a line, if it has one of the two marks, give an integer? -/
def IsLegible (line : List Char) : Prop :=
  totalMark.isPrefixOf line = true ∨ availableMark.isPrefixOf line = true →
    (figure? line).isSome = true

instance (line : List Char) : Decidable (IsLegible line) :=
  inferInstanceAs (Decidable (_ → _))

/-- The last integer on a line with a mark, and another one if there is none. -/
def lastFigure (mark : List Char) (lines : List (List Char)) (otherwise : Int) : Int :=
  ((lines.filter mark.isPrefixOf).filterMap figure?).getLast?.getD otherwise

theorem lastFigure_cons (mark line : List Char) (lines : List (List Char)) (otherwise : Int) :
    lastFigure mark (line :: lines) otherwise =
      lastFigure mark lines
        (if mark.isPrefixOf line then (figure? line).getD otherwise else otherwise) := by
  unfold lastFigure
  cases hmark : mark.isPrefixOf line with
  | false =>
    rw [List.filter_cons_of_neg (by simp [hmark])]
    rfl
  | true =>
    rw [List.filter_cons_of_pos hmark]
    cases hfigure : figure? line with
    | none =>
      rw [List.filterMap_cons_none hfigure]
      rfl
    | some n =>
      rw [List.filterMap_cons_some hfigure, List.getLast?_cons]
      rfl

/-- No line has both marks. -/
theorem marks_apart {line : List Char} (h : totalMark.isPrefixOf line = true) :
    availableMark.isPrefixOf line = false := by
  rw [Bool.eq_false_iff]
  intro havailable
  rw [List.isPrefixOf_iff_prefix] at h havailable
  exact absurd (List.prefix_of_prefix_length_le h havailable (by decide)) (by decide)

/-- A legible line may replace a figure; any other line ends the reading. -/
theorem toOption_takeLine (memory : Memory) (line : List Char) :
    (memory.takeLine line).toOption =
      if IsLegible line then
        some
          { total := if totalMark.isPrefixOf line then (figure? line).getD memory.total
              else memory.total
            available := if availableMark.isPrefixOf line then (figure? line).getD memory.available
              else memory.available }
      else none := by
  unfold Memory.takeLine
  by_cases htotal : totalMark.isPrefixOf line = true
  · rcases hfigure : figureOf line with e | n <;>
      simp [IsLegible, figure?, hfigure, htotal, marks_apart htotal, Except.toOption, Except.map]
  · by_cases havailable : availableMark.isPrefixOf line = true
    · rcases hfigure : figureOf line with e | n <;>
        simp [IsLegible, figure?, hfigure, htotal, havailable, Except.toOption, Except.map]
    · simp [IsLegible, htotal, havailable, Except.toOption]

/-- The figures in lines are the last ones, provided that all lines are legible. -/
theorem toOption_foldlM_takeLine (lines : List (List Char)) (memory : Memory) :
    (lines.foldlM Memory.takeLine memory).toOption =
      if ∀ line ∈ lines, IsLegible line then
        some ⟨lastFigure totalMark lines memory.total,
          lastFigure availableMark lines memory.available⟩
      else none := by
  induction lines generalizing memory with
  | nil => rfl
  | cons line lines ih =>
    have hbind : ((line :: lines).foldlM Memory.takeLine memory).toOption =
        (memory.takeLine line).toOption.bind fun next =>
          (lines.foldlM Memory.takeLine next).toOption := by
      rw [List.foldlM_cons]
      cases memory.takeLine line <;> rfl
    rw [hbind, toOption_takeLine, lastFigure_cons, lastFigure_cons]
    simp only [List.forall_mem_cons]
    by_cases hline : IsLegible line
    · rw [if_pos hline, Option.bind_some, ih]
      simp only [hline, true_and]
    · simp only [hline, false_and, if_false]
      rfl

/-- The memory figures in a text, if they are legible. -/
def Memory.read? (text : List Char) : Option Memory :=
  if ∀ line ∈ Text.splitLines text, IsLegible line then
    some ⟨lastFigure totalMark (Text.splitLines text) 0,
      lastFigure availableMark (Text.splitLines text) 0⟩
  else none

/-- Is the available memory so much more than the total that no double is its share? -/
def Memory.IsOvercommitted (memory : Memory) : Prop :=
  0 < memory.total ∧ Binary64.overflowBound * memory.total.natAbs ≤ memory.available.natAbs

instance (memory : Memory) : Decidable memory.IsOvercommitted :=
  inferInstanceAs (Decidable (_ ∧ _))

/-- The used share of memory as a percentage, in doubles. -/
def Memory.figure (memory : Memory) : Binary64 :=
  if memory.total ≤ 0 then .zero false
  else
    let share := Binary64.nearest (decide (memory.available < 0)) memory.available.natAbs
      memory.total.natAbs
    (((Binary64.ofInt 1).sub share).mul (.ofInt 100)).roundTo 1

theorem Memory.usage?_eq (memory : Memory) :
    memory.usage? = if memory.IsOvercommitted then none else some memory.figure := by
  unfold usage? figure
  by_cases htotal : memory.total ≤ 0
  · have hfits : ¬memory.IsOvercommitted := fun h => absurd h.1 (by omega)
    rw [if_pos htotal, if_pos htotal, if_neg hfits]
  · have hsign : decide (memory.total < 0) = false := decide_eq_false (by omega)
    rw [if_neg htotal, if_neg htotal, Binary64.quotient?_eq _ (by omega), hsign, Bool.bne_false]
    by_cases hlarge : Binary64.overflowBound * memory.total.natAbs ≤ memory.available.natAbs
    · rw [if_pos hlarge, if_pos ⟨by omega, hlarge⟩]
      rfl
    · rw [if_neg hlarge, if_neg fun h => hlarge h.2]
      rfl

/-! ## Figures -/

/-- The memory figures of a machine, if they can be read. -/
def memory? (machine : Machine) : Option Memory := (textOf? machine.meminfo).bind Memory.read?

/-- For how long a machine has been up, if that can be read. -/
def uptime? (machine : Machine) : Option Binary64 :=
  (textOf? machine.uptime).bind fun text =>
    (Text.words text).head?.bind fun word => real? (toAsciiDigits word)

/-- The figures of a machine; each is zero if it cannot be read. -/
def figures (machine : Machine) : Stats where
  cpu := .real ((machine.load.map fun load => load.mul (.ofInt 100)).getD (.zero false))
  memory := .real (((memory? machine).map Memory.figure).getD (.zero false))
  uptime := ((uptime? machine).bind fun x => x.truncate.toOption).getD 0

/-- What keeps the figures of a machine from being read. -/
def defect? (machine : Machine) : Option Fault :=
  if IsGarbled machine.meminfo then some .undecodable
  else if ∃ memory ∈ memory? machine, memory.IsOvercommitted then some .memoryShareTooLarge
  else if ∃ x ∈ uptime? machine, ∃ negative, x = .infinite negative then some .uptimeInfinite
  else none

theorem Memory.toOption_ofText (text : List Char) : (ofText text).toOption = read? text :=
  toOption_foldlM_takeLine (Text.splitLines text) {}

theorem cpuUsage_result (w : World) :
    (cpuUsage w).1 =
      .ok ((w.machine.load.map fun load => load.mul (.ofInt 100)).getD (.zero false)) := by
  rw [cpuUsage, bind_apply, get_apply]
  dsimp only
  cases w.machine.load <;> rfl

theorem memoryUsage_result (w : World) :
    (memoryUsage w).1 =
      if IsGarbled w.machine.meminfo then .error .undecodable
      else if ∃ memory ∈ memory? w.machine, memory.IsOvercommitted then
        .error .memoryShareTooLarge
      else .ok (((memory? w.machine).map Memory.figure).getD (.zero false)) := by
  rw [memoryUsage, bind_apply, get_apply, memory?]
  dsimp only
  rcases w.machine.meminfo with _ | ⟨content⟩ | _
  · rfl
  · rcases htext : fileText? content with _ | text
    · simp only [htext]
      rw [if_pos ⟨content, rfl, htext⟩]
      rfl
    · have hread : textOf? (some (.file content)) = some text := htext
      simp only [htext, hread, Option.bind_some, ← Memory.toOption_ofText]
      rw [if_neg (not_isGarbled hread)]
      rcases Memory.ofText text with e | memory
      · simp [Except.toOption]
      · simp only [Except.toOption, Option.mem_def, Option.some.injEq, exists_eq_left',
          Memory.usage?_eq]
        split_ifs <;> rfl
  · rfl

theorem uptime_result (w : World) :
    (uptime w).1 =
      if ∃ x ∈ uptime? w.machine, ∃ negative, x = .infinite negative then .error .uptimeInfinite
      else .ok (((uptime? w.machine).bind fun x => x.truncate.toOption).getD 0) := by
  rw [uptime, bind_apply, get_apply, uptime?]
  dsimp only
  rcases w.machine.uptime with _ | ⟨content⟩ | _
  · rfl
  · rcases htext : fileText? content with _ | text
    · simp [textOf?, contentOf?, htext]
    · simp only [textOf?, contentOf?, htext, Option.bind_some, lift_apply, secondsOf]
      rcases Text.words text with _ | ⟨word, words⟩
      · rfl
      · rcases hreal : real? (toAsciiDigits word) with _ | x
        · simp [hreal, Except.mapError]
        · cases x <;> simp [hreal, Except.mapError, Binary64.truncate, Except.toOption]
  · rfl

/-- The figures of the machine are read unless one of the defects keeps them from being read. -/
theorem stats_result (w : World) :
    (stats w).1 =
      match defect? w.machine with
      | some fault => .error fault
      | none => .ok (figures w.machine) := by
  have hreads (cpu memory : Binary64) :
      Reads (do return ⟨.real cpu, .real memory, ← uptime⟩ : Action Stats) :=
    uptime_reads.bind fun _ => .pure _
  have hlast (cpu memory : Binary64) :
      ((do return ⟨.real cpu, .real memory, ← uptime⟩ : Action Stats) w).1 =
        (uptime w).1.map fun uptime => ⟨.real cpu, .real memory, uptime⟩ :=
    uptime_reads.bind_result (fun _ => .pure _) w
  rw [stats, cpuUsage_reads.bind_result fun cpu => memoryUsage_reads.bind fun memory =>
      hreads cpu memory, cpuUsage_result, Except.bind,
    memoryUsage_reads.bind_result fun memory => hreads _ memory, memoryUsage_result]
  unfold defect?
  split_ifs with hgarbled hlarge hendless
  · rfl
  · rfl
  · rw [Except.bind, hlast, uptime_result, if_pos hendless]
    rfl
  · rw [Except.bind, hlast, uptime_result, if_neg hendless]
    rfl

end Host

/-- What sending an event comes to is what sending its text comes to. -/
theorem Client.sendEvent_result (c : Client) (event : Report.Event) (number : Int) {w v : World}
    (h : w.Idle v) :
    (c.sendEvent event number v).1 =
      (c.send (c.wireRequest "telemetrydata" event.toXml) true w).1 := by
  obtain ⟨before, hidle, -, hresult⟩ := c.sendEvent_sends v event number
  rw [hresult, c.send_congr _ _ (h.trans hidle).exchange]
  cases (c.send (c.wireRequest "telemetrydata" event.toXml) true w).1 <;> rfl

namespace Heartbeat

open World

/-- The readings of the machine for the next event, if its kind reports them and nothing keeps them
from being read. -/
theorem readings_result (h : Heartbeat) (w : World) :
    (h.readings Host.stats w).1 =
      if h.nextKind = .heartBeat then
        match Host.defect? w.machine with
        | some fault => .error fault
        | none => .ok (some (Host.figures w.machine))
      else .ok none := by
  rw [readings_apply]
  split_ifs
  · rw [Host.stats_result]
    cases Host.defect? w.machine <;> rfl
  · rfl

variable (c : Client) (h : Heartbeat) {w : World}

/-- A heartbeat whose readings are kept from being read ends with the defect, and nothing is sent.
-/
theorem tick_of_defect {fault : Fault} (hkind : h.nextKind = .heartBeat)
    (hdefect : Host.defect? w.machine = some fault) :
    (tick c Host.stats h w).1 = (.error fault, h) ∧ w.Noted (tick c Host.stats h w).2 := by
  have hnoted := h.readings_reads.noted w
  have hresult := h.readings_result w
  rw [if_pos hkind, hdefect] at hresult
  rw [tick_apply, sendNext_apply]
  rcases hreadings : h.readings Host.stats w with ⟨result, v⟩
  rw [hreadings] at hresult hnoted
  obtain rfl : result = .error fault := hresult
  exact ⟨rfl, hnoted⟩

/-- Without a defect, a heartbeat comes to what sending its event comes to. -/
theorem tick_of_sound (hclock : ∃ u, w.now.toUtc = .ok u)
    (hsound : h.nextKind = .heartBeat → Host.defect? w.machine = none) :
    ∃ event, Report.Event.cycle h.nextKind h.goalState
        (if h.nextKind = .heartBeat then some (Host.figures w.machine) else none)
        (senderOf c.settings) w.now = .ok event ∧
      (tick c Host.stats h w).1.1 =
        (c.send (c.wireRequest "telemetrydata" event.toXml) true w).1 := by
  obtain ⟨u, hu⟩ := hclock
  have hnoted := h.readings_reads.noted w
  let stats := if h.nextKind = .heartBeat then some (Host.figures w.machine) else none
  have hread : (h.readings Host.stats w).1 = .ok stats := by
    rw [readings_result]
    by_cases hkind : h.nextKind = .heartBeat
    · simp [stats, hkind, hsound hkind]
    · simp [stats, hkind]
  obtain ⟨event, hevent⟩ := Report.Event.exists_cycle hu h.goalState stats (senderOf c.settings)
    fun hkind => ⟨_, _, _, if_pos hkind⟩
  refine ⟨event, hevent, ?_⟩
  rcases hreadings : h.readings Host.stats w with ⟨result, v⟩
  rw [hreadings] at hread hnoted
  obtain rfl : result = .ok stats := hread
  have hnow : v.now = w.now := hnoted.now
  have hsend : h.sendNext c Host.stats w = c.sendEvent event h.counter (Action.now v).2 := by
    rw [sendNext_apply, hreadings]
    simp only [hnow, hevent]
  have htick : (tick c Host.stats h w).1.1 = (h.sendNext c Host.stats w).1 := by
    rw [tick_apply]
    rcases h.sendNext c Host.stats w with ⟨fault | answer, v'⟩ <;> rfl
  rw [htick, hsend]
  exact c.sendEvent_result event h.counter (hnoted.idle.trans (Action.now_idle v))

/-- The figures of the machine are read, each of them zero if it cannot be, just unless one of three
defects keeps them from being read: the file of the memory is not UTF-8, the available share of
memory is too large for a double, or the machine has been up for an infinite time. A heartbeat that
reports them fails with the defect then, and sends nothing. In all other cases a heartbeat sends its
event and comes to what sending it comes to. -/
theorem tick_of_figures (hclock : ∃ u, w.now.toUtc = .ok u) :
    (Host.stats w).1 =
        (match Host.defect? w.machine with
        | some fault => .error fault
        | none => .ok (Host.figures w.machine)) ∧
      (∀ fault, h.nextKind = .heartBeat → Host.defect? w.machine = some fault →
        (tick c Host.stats h w).1 = (.error fault, h) ∧ w.Noted (tick c Host.stats h w).2) ∧
      ((h.nextKind = .heartBeat → Host.defect? w.machine = none) →
        ∃ event, Report.Event.cycle h.nextKind h.goalState
            (if h.nextKind = .heartBeat then some (Host.figures w.machine) else none)
            (senderOf c.settings) w.now = .ok event ∧
          (tick c Host.stats h w).1.1 =
            (c.send (c.wireRequest "telemetrydata" event.toXml) true w).1) :=
  ⟨Host.stats_result w, fun _ => h.tick_of_defect c, h.tick_of_sound c hclock⟩

end Heartbeat

/-- A machine with a load of one quarter and these contents for the memory and the uptime. -/
def World.measured (meminfo uptime : ByteArray) : World :=
  { World.plain [] with
    machine := ⟨.ok "", "", "", some (.finite false 1 (-2)), some (.file meminfo),
      some (.file uptime)⟩ }

/-- Readings of a quarter of the load, three quarters of the memory and twelve seconds. -/
theorem Heartbeat.tick_of_figures_measured :
    let w := World.measured "MemTotal: 8 kB\nMemAvailable: 2 kB\n".toUTF8 "12.5 3\n".toUTF8
    (∃ u, w.now.toUtc = .ok u) ∧
      (Host.stats w).1 = .ok ⟨.real (.ofInt 25), .real (.ofInt 75), 12⟩ ∧
      (tick ⟨{}, .nothing⟩ Host.stats ⟨⟨1, "c", "i", ""⟩, 1⟩ w).1.1 = .ok ⟨200, ""⟩ := by
  intro w
  have hclock : ∃ u, w.now.toUtc = .ok u :=
    (World.plain_readable []).clock _ List.mem_cons_self
  have hsound : Host.defect? w.machine = none := by decide +kernel
  have hfigures : Host.figures w.machine = ⟨.real (.ofInt 25), .real (.ofInt 75), 12⟩ := by
    decide +kernel
  obtain ⟨hstats, -, htick⟩ := tick_of_figures ⟨{}, .nothing⟩ ⟨⟨1, "c", "i", ""⟩, 1⟩ hclock
  obtain ⟨event, -, hsend⟩ := htick fun _ => hsound
  rw [hsound, hfigures] at hstats
  exact ⟨hclock, hstats, hsend⟩

/-- The lines of a machine with one unit of memory, of which far too many are available. -/
def Host.ample : List Char :=
  "MemTotal: 1\nMemAvailable: 1".toList ++ List.replicate 309 '0'

/-- Each of the three defects ends a heartbeat early. -/
theorem Heartbeat.tick_of_defect_each :
    let ends (meminfo uptime : ByteArray) : Except Fault Answer :=
      (tick ⟨{}, .nothing⟩ Host.stats ⟨⟨1, "c", "i", ""⟩, 1⟩ (World.measured meminfo uptime)).1.1
    ends ⟨#[0xFF]⟩ "12.5 3\n".toUTF8 = .error .undecodable ∧
      ends (String.ofList Host.ample).toUTF8 "12.5 3\n".toUTF8 = .error .memoryShareTooLarge ∧
      ends "MemTotal: 8 kB\n".toUTF8 "inf\n".toUTF8 = .error .uptimeInfinite := by
  intro ends
  have hends {meminfo uptime : ByteArray} {fault : Fault}
      (hdefect : Host.defect? (World.measured meminfo uptime).machine = some fault) :
      ends meminfo uptime = .error fault :=
    congrArg Prod.fst (tick_of_defect _ _ rfl hdefect).1
  have htext : Host.textOf? (World.measured (String.ofList Host.ample).toUTF8
      "12.5 3\n".toUTF8).machine.meminfo = some (Text.unifyBreaks Host.ample) :=
    Host.textOf?_ofList Host.ample
  have hmemory : Host.memory? (World.measured (String.ofList Host.ample).toUTF8
      "12.5 3\n".toUTF8).machine = some ⟨1, 10 ^ 309⟩ := by
    rw [Host.memory?, htext]
    decide +kernel
  refine ⟨hends (by decide +kernel), hends ?_, hends (by decide +kernel)⟩
  rw [Host.defect?, if_neg (Host.not_isGarbled htext), hmemory]
  exact if_pos ⟨_, rfl, by decide +kernel⟩

end WireAgent
